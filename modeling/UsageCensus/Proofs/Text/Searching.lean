import UsageCensus.Text.Search

/-!
# What a search finds

A search over a text that is put together from parts is put together from the searches of the
parts: nothing is found in a part at whose every position nothing is read (`found_of_silent`),
and a part that is read in one go is found as a whole (`found_of_read`). What is found at an offset
is read there (`exists_read_of_mem`), and the other way around if nothing is read inside of what is
read (`mem_found_of_read`).
-/

namespace UsageCensus.Text

variable {α : Type} {read? : List Char → Option (α × List Char)} {a : α} {pre rest text : List Char}

/-- The occurrences in a text that starts at offset `at_`. -/
def found (read? : List Char → Option (α × List Char)) (at_ : Nat) (text : List Char) :
    List (Found α) :=
  searchFrom (forward read?) 0 none at_ text

theorem searchFrom_before (read? : List Char → Option (α × List Char)) (b : Option Char)
    (skip at_ : Nat) (text : List Char) :
    searchFrom (forward read?) skip b at_ text = searchFrom (forward read?) skip none at_ text := by
  cases text with
  | nil => cases skip <;> rfl
  | cons c text => cases skip <;> rfl

theorem search_forward : search (forward read?) text = found read? 0 text := rfl

theorem found_nil (at_ : Nat) : found read? at_ [] = [] := rfl

/-- Characters that have gone by are not looked at. -/
theorem searchFrom_skip (pre rest : List Char) (at_ : Nat) :
    searchFrom (forward read?) pre.length none at_ (pre ++ rest)
      = found read? (at_ + pre.length) rest := by
  induction pre generalizing at_ with
  | nil => rfl
  | cons c pre ih =>
    simp only [List.cons_append, List.length_cons, searchFrom]
    rw [searchFrom_before, ih, Nat.add_assoc, Nat.add_comm 1]

theorem found_cons_of_none {c : Char} {at_ : Nat} (h : read? (c :: text) = none) :
    found read? at_ (c :: text) = found read? (at_ + 1) text := by
  simp only [found, searchFrom, forward, h]
  exact searchFrom_before read? (some c) 0 (at_ + 1) text

theorem found_of_read {at_ : Nat} (h : read? (pre ++ rest) = some (a, rest)) (hpre : pre ≠ []) :
    found read? at_ (pre ++ rest)
      = ⟨at_, at_ + pre.length, a⟩ :: found read? (at_ + pre.length) rest := by
  cases pre with
  | nil => exact absurd rfl hpre
  | cons c pre =>
    rw [List.cons_append] at h
    have hlength : (c :: (pre ++ rest)).length - rest.length = pre.length + 1 := by
      simp only [List.length_cons, List.length_append]
      omega
    have hstep : found read? at_ (c :: (pre ++ rest))
        = ⟨at_, at_ + (pre.length + 1), a⟩
          :: searchFrom (forward read?) pre.length (some c) (at_ + 1) (pre ++ rest) := by
      rw [found, searchFrom, forward, h]
      dsimp only
      rw [hlength]
      rfl
    rw [List.cons_append, hstep, searchFrom_before, searchFrom_skip, List.length_cons,
      Nat.add_assoc, Nat.add_comm 1]

/-! ## Parts in which nothing is found -/

/-- Nothing is read at any position of `pre`, in front of `rest`. -/
def Silent (read? : List Char → Option (α × List Char)) : List Char → List Char → Prop
  | [], _ => True
  | c :: pre, rest => read? (c :: (pre ++ rest)) = none ∧ Silent read? pre rest

theorem silent_append {pre mid rest : List Char} (h : Silent read? pre (mid ++ rest))
    (h' : Silent read? mid rest) : Silent read? (pre ++ mid) rest := by
  induction pre with
  | nil => exact h'
  | cons c pre ih => exact ⟨by simpa [List.append_assoc] using h.1, ih h.2⟩

theorem Silent.behind {pre mid rest : List Char} (h : Silent read? (pre ++ mid) rest) :
    Silent read? mid rest := by
  induction pre with
  | nil => exact h
  | cons c pre ih => exact ih h.2

/-- Characters at which nothing can start. -/
theorem silent_of_forall (h : ∀ c ∈ pre, ∀ text, read? (c :: text) = none) :
    Silent read? pre rest := by
  induction pre with
  | nil => trivial
  | cons c pre ih => exact ⟨h c (by simp) _, ih fun d hd => h d (by simp [hd])⟩

theorem found_of_silent {at_ : Nat} (h : Silent read? pre rest) :
    found read? at_ (pre ++ rest) = found read? (at_ + pre.length) rest := by
  induction pre generalizing at_ with
  | nil => rfl
  | cons c pre ih =>
    rw [List.cons_append, found_cons_of_none h.1, ih h.2, List.length_cons, Nat.add_assoc,
      Nat.add_comm 1]

theorem found_of_silent_nil {at_ : Nat} (h : Silent read? text []) : found read? at_ text = [] := by
  have hfound : found read? at_ (text ++ []) = [] := found_of_silent h
  rwa [List.append_nil] at hfound

/-! ## Where occurrences stand -/

theorem drop_eq_cons_iff {β : Type} {items tail : List β} {i : Nat} {b : β} :
    items.drop i = b :: tail ↔ items[i]? = some b ∧ items.drop (i + 1) = tail := by
  have hhead : (items.drop i)[0]? = items[i]? := List.getElem?_drop
  rw [← hhead, ← List.tail_drop]
  cases items.drop i <;> simp

/-- What is found at an offset is read there. -/
theorem exists_read_of_mem {read? : SearchReader α} {skip at_ : Nat} {before : Option Char}
    {text : List Char} {f : Found α} (h : f ∈ searchFrom read? skip before at_ text) :
    ∃ before i rest, f.start = at_ + i ∧ read? before (text.drop i) = some (f.value, rest) ∧
      f.stop = f.start + ((text.drop i).length - rest.length) := by
  fun_induction searchFrom read? skip before at_ text with
  | case1 => cases h
  | case2 skip _ at_ c text ih =>
    obtain ⟨before, i, rest, hstart, hread⟩ := ih h
    exact ⟨before, i + 1, rest, by omega, hread⟩
  | case3 before at_ c text a rest hread length ih =>
    rcases List.mem_cons.1 h with rfl | h
    · exact ⟨before, 0, rest, rfl, hread, rfl⟩
    · obtain ⟨before, i, rest, hstart, hread⟩ := ih h
      exact ⟨before, i + 1, rest, by omega, hread⟩
  | case4 before at_ c text hread ih =>
    obtain ⟨before, i, rest, hstart, hread⟩ := ih h
    exact ⟨before, i + 1, rest, by omega, hread⟩

/-- What a reader finds that never reads nothing is a part of the text with a character in it. -/
theorem bounds_of_mem {f : Found α}
    (hread : ∀ text a rest, read? text = some (a, rest) → rest.length < text.length)
    (h : f ∈ search (forward read?) text) : f.start < f.stop ∧ f.stop ≤ text.length := by
  obtain ⟨_, i, rest, hstart, hfound, hstop⟩ := exists_read_of_mem h
  have hlength := hread _ _ _ hfound
  rw [List.length_drop] at hlength hstop
  omega

/-- Occurrences are found from left to right. -/
theorem pairwise_searchFrom (read? : SearchReader α) (skip : Nat) (before : Option Char) (at_ : Nat)
    (text : List Char) :
    (searchFrom read? skip before at_ text).Pairwise fun f g => f.start < g.start := by
  fun_induction searchFrom read? skip before at_ text with
  | case1 => exact .nil
  | case2 skip _ at_ c text ih => exact ih
  | case3 before at_ c text a rest hread length ih =>
    refine List.pairwise_cons.2 ⟨fun f hf => ?_, ih⟩
    obtain ⟨-, i, -, hstart, -⟩ := exists_read_of_mem hf
    show at_ < f.start
    omega
  | case4 before at_ c text hread ih => exact ih

/-- Nothing is read inside of what is read. -/
def IsSelfSilent (read? : List Char → Option (α × List Char)) : Prop :=
  ∀ text a rest, read? text = some (a, rest) →
    ∃ c inner, text = c :: (inner ++ rest) ∧ Silent read? inner rest

/-- Then the search can go on right behind the first character of an occurrence. -/
theorem found_cons_of_read (hsilent : IsSelfSilent read?) {c : Char} {at_ : Nat}
    (h : read? (c :: text) = some (a, rest)) :
    found read? at_ (c :: text)
      = ⟨at_, at_ + ((c :: text).length - rest.length), a⟩ :: found read? (at_ + 1) text := by
  obtain ⟨d, inner, htext, hinner⟩ := hsilent _ _ _ h
  obtain ⟨rfl, rfl⟩ := List.cons.inj htext
  have hread : found read? at_ ((c :: inner) ++ rest)
      = ⟨at_, at_ + (c :: inner).length, a⟩ :: found read? (at_ + (c :: inner).length) rest :=
    found_of_read h (List.cons_ne_nil c inner)
  have hlength : (c :: (inner ++ rest)).length - rest.length = (c :: inner).length := by
    simp only [List.length_cons, List.length_append]
    omega
  rw [List.cons_append] at hread
  rw [hread, hlength, found_of_silent hinner, List.length_cons, Nat.add_right_comm, Nat.add_assoc]

/-- An occurrence is found at every offset at which one is read. -/
theorem mem_found_of_read (hsilent : IsSelfSilent read?) {i : Nat}
    (h : read? (text.drop i) = some (a, rest)) (at_ : Nat) :
    ⟨at_ + i, at_ + i + ((text.drop i).length - rest.length), a⟩ ∈ found read? at_ text := by
  induction text generalizing i at_ with
  | nil =>
    obtain ⟨c, inner, htext, -⟩ := hsilent _ _ _ h
    rw [List.drop_nil] at htext
    cases htext
  | cons c text ih =>
    cases i with
    | zero =>
      rw [List.drop_zero] at h
      rw [found_cons_of_read hsilent h]
      exact List.mem_cons_self
    | succ i =>
      have hlater := ih (i := i) h (at_ + 1)
      rw [Nat.add_assoc, Nat.add_comm 1] at hlater
      cases hread : read? (c :: text) with
      | none =>
        rw [found_cons_of_none hread]
        exact hlater
      | some taken =>
        rw [found_cons_of_read hsilent hread]
        exact List.mem_cons_of_mem _ hlater

end UsageCensus.Text
