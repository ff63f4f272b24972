/-!
# Attempts

What can be said about a chain of attempts from what can be said about each of them.
-/

namespace UsageCensus

section

variable {ε α β : Type} {x : Except ε α} {f : α → Except ε β}

theorem bind_eq_ok {b : β} : (x >>= f) = .ok b ↔ ∃ a, x = .ok a ∧ f a = .ok b := by
  cases x <;> simp [bind, Except.bind]

/-- A chain gives something if each part of it does. -/
theorem exists_bind_eq_ok :
    (∃ b, (x >>= f) = .ok b) ↔ ∃ a, x = .ok a ∧ ∃ b, f a = .ok b := by
  cases x <;> simp [bind, Except.bind]

theorem exists_bind_pure_eq_ok {g : α → β} :
    (∃ b, (x >>= fun a => pure (g a)) = .ok b) ↔ ∃ a, x = .ok a := by
  cases x <;> simp [bind, Except.bind, pure, Except.pure]

theorem exists_bind_error (h : ∃ e, x = .error e) : ∃ e, (x >>= f) = .error e := by
  obtain ⟨e, rfl⟩ := h
  exact ⟨e, rfl⟩

theorem bind_eq_error {e : ε} :
    (x >>= f) = .error e ↔ x = .error e ∨ ∃ a, x = .ok a ∧ f a = .error e := by
  cases x <;> simp [bind, Except.bind]

end

section

variable {ε α β : Type} {f : α → Except ε β}

theorem mapM_of_forall {g : α → β} {items : List α} (h : ∀ a ∈ items, f a = .ok (g a)) :
    items.mapM f = .ok (items.map g) := by
  induction items with
  | nil => rfl
  | cons a items ih =>
    rw [List.mapM_cons, h a (by simp), ih fun b hb => h b (by simp [hb])]
    rfl

theorem exists_of_mapM {items : List α} {values : List β} (h : items.mapM f = .ok values) :
    ∀ a ∈ items, ∃ b, f a = .ok b := by
  induction items generalizing values with
  | nil => simp
  | cons a items ih =>
    rw [List.mapM_cons] at h
    obtain ⟨b, hb, h⟩ := bind_eq_ok.1 h
    obtain ⟨rest, hrest, -⟩ := bind_eq_ok.1 h
    exact List.forall_mem_cons.2 ⟨⟨b, hb⟩, ih hrest⟩

/-- One attempt that fails fails them all. -/
theorem exists_mapM_error {items : List α} (h : ∃ a ∈ items, ∃ e, f a = .error e) :
    ∃ e, items.mapM f = .error e := by
  cases hall : items.mapM f with
  | error e => exact ⟨e, rfl⟩
  | ok values =>
    obtain ⟨a, ha, e, he⟩ := h
    obtain ⟨b, hb⟩ := exists_of_mapM hall a ha
    exact nomatch he.symm.trans hb

/-- Where each attempt gives a good value, all of them do. -/
theorem exists_mapM_forall {good : α → β → Prop} {items : List α}
    (h : ∀ a ∈ items, ∃ b, f a = .ok b ∧ good a b) :
    ∃ values, items.mapM f = .ok values ∧ ∀ b ∈ values, ∃ a ∈ items, good a b := by
  induction items with
  | nil => exact ⟨[], rfl, nofun⟩
  | cons a items ih =>
    obtain ⟨b, hb, hgood⟩ := h a List.mem_cons_self
    obtain ⟨values, hvalues, hall⟩ := ih fun a ha => h a (List.mem_cons_of_mem _ ha)
    refine ⟨b :: values, ?_, List.forall_mem_cons.2 ⟨⟨a, List.mem_cons_self, hgood⟩, ?_⟩⟩
    · rw [List.mapM_cons, hb, hvalues]
      rfl
    · intro b hb
      obtain ⟨a, ha, hgood⟩ := hall b hb
      exact ⟨a, List.mem_cons_of_mem _ ha, hgood⟩

theorem exists_mapM {items : List α} (h : ∀ a ∈ items, ∃ b, f a = .ok b) :
    ∃ values, items.mapM f = .ok values := by
  have hgood : ∀ a ∈ items, ∃ b, f a = .ok b ∧ True :=
    fun a ha => (h a ha).imp fun _ hb => ⟨hb, trivial⟩
  obtain ⟨values, hvalues, -⟩ := exists_mapM_forall hgood
  exact ⟨values, hvalues⟩

/-- Where all attempts have succeeded, they have done so by some function. -/
theorem mapM_eq_ok [Inhabited β] {items : List α} {values : List β} :
    items.mapM f = .ok values ↔ ∃ g, (∀ a ∈ items, f a = .ok (g a)) ∧ values = items.map g := by
  constructor
  · intro h
    let g (a : α) : β := (f a).toOption.getD default
    have hg : ∀ a ∈ items, f a = .ok (g a) := by
      intro a ha
      obtain ⟨b, hb⟩ := exists_of_mapM h a ha
      simp only [g, hb, Except.toOption, Option.getD_some]
    rw [mapM_of_forall hg] at h
    exact ⟨g, hg, (Except.ok.inj h).symm⟩
  · rintro ⟨g, hg, rfl⟩
    exact mapM_of_forall hg

end

/-! ## Faults -/

/-- Every fault of an attempt has the property. -/
def FaultsIn {ε α : Type} (p : ε → Prop) (x : Except ε α) : Prop :=
  ∀ fault, x = .error fault → p fault

section

variable {ε α β : Type} {p q : ε → Prop} {x : Except ε α} {f : α → Except ε β}

theorem faultsIn_ok (p : ε → Prop) (a : α) : FaultsIn p (.ok a) := fun _ h => nomatch h

theorem faultsIn_error {fault : ε} (h : p fault) : FaultsIn p (.error fault : Except ε α) := by
  intro e he
  cases he
  exact h

theorem FaultsIn.mono (h : FaultsIn p x) (hpq : ∀ fault, p fault → q fault) : FaultsIn q x :=
  fun fault hfault => hpq fault (h fault hfault)

theorem FaultsIn.bind (hx : FaultsIn p x) (hf : ∀ a, x = .ok a → FaultsIn p (f a)) :
    FaultsIn p (x >>= f) := by
  intro fault h
  rcases bind_eq_error.1 h with h | ⟨a, ha, h⟩
  · exact hx fault h
  · exact hf a ha fault h

theorem FaultsIn.map {g : α → β} (h : FaultsIn p x) : FaultsIn p (x.map g) := by
  cases x with
  | error fault => exact faultsIn_error (h fault rfl)
  | ok a => exact faultsIn_ok p (g a)

theorem faultsIn_mapM {items : List α} (h : ∀ a ∈ items, FaultsIn p (f a)) :
    FaultsIn p (items.mapM f) := by
  induction items with
  | nil => exact faultsIn_ok p []
  | cons a items ih =>
    rw [List.mapM_cons]
    apply (h a List.mem_cons_self).bind
    intro b _
    apply (ih fun c hc => h c (List.mem_cons_of_mem a hc)).bind
    exact fun rest _ => faultsIn_ok p (b :: rest)

end

section

variable {ε α : Type} {check : α → Except ε Bool} {p : α → Bool} {fault : ε} {cause : Prop}

/-- Where each check gives the value of `p` or faults for a cause, so does the selection. -/
theorem filterM_cases {items : List α}
    (h : ∀ a ∈ items, check a = .ok (p a) ∨ (check a = .error fault ∧ cause)) :
    items.filterM check = .ok (items.filter p) ∨ (items.filterM check = .error fault ∧ cause) := by
  have hall : ∀ acc : List α, items.filterAuxM check acc = .ok ((items.filter p).reverse ++ acc) ∨
      (items.filterAuxM check acc = .error fault ∧ cause) := by
    induction items with
    | nil => exact fun acc => .inl rfl
    | cons a items ih =>
      intro acc
      rw [List.filterAuxM]
      rcases h a (by simp) with ha | ⟨ha, hcause⟩
      · have hrest := ih (fun b hb => h b (by simp [hb])) (cond (p a) (a :: acc) acc)
        rw [ha]
        rcases hrest with hrest | ⟨hrest, hcause⟩
        · refine .inl (hrest.trans ?_)
          cases hp : p a <;> simp [hp]
        · exact .inr ⟨hrest, hcause⟩
      · rw [ha]
        exact .inr ⟨rfl, hcause⟩
  rcases hall [] with h | ⟨h, hcause⟩
  · left
    rw [List.filterM, h, List.append_nil]
    show Except.ok (items.filter p).reverse.reverse = _
    rw [List.reverse_reverse]
  · right
    rw [List.filterM, h]
    exact ⟨rfl, hcause⟩

end

end UsageCensus
