import UsageCensus.Proofs.Tables

/-!
# Steps in any order

Two tables are alike if they have the same keys with values that are alike, in whatever order the
keys came (`Table.Alike`). Where two steps come to the same in either order, so do the steps of a
list in any order of it (`IsOrderless.foldl_perm`). The steps that a table takes at its keys are
of this kind if those of its values are (`IsOrderless.update`).
-/

namespace UsageCensus

variable {σ α β κ ν : Type}

/-- What is alike stays alike in every step, and two steps can be taken in either order. -/
structure IsOrderless (alike : σ → σ → Prop) (next : σ → α → σ) : Prop where
  refl : ∀ s, alike s s
  trans : ∀ {s s' s''}, alike s s' → alike s' s'' → alike s s''
  step : ∀ {s s'} a, alike s s' → alike (next s a) (next s' a)
  swap : ∀ s a b, alike (next (next s a) b) (next (next s b) a)

namespace IsOrderless

variable {alike : σ → σ → Prop} {next : σ → α → σ}

theorem foldl (h : IsOrderless alike next) {s s' : σ} (hs : alike s s') (items : List α) :
    alike (items.foldl next s) (items.foldl next s') := by
  induction items generalizing s s' with
  | nil => exact hs
  | cons a items ih => exact ih (h.step a hs)

theorem foldl_perm (h : IsOrderless alike next) {items items' : List α}
    (hitems : items.Perm items') (s : σ) :
    alike (items.foldl next s) (items'.foldl next s) := by
  induction hitems generalizing s with
  | nil => exact h.refl s
  | cons a _ ih => exact ih (next s a)
  | swap a b items => exact h.foldl (h.swap s b a) items
  | trans _ _ ih ih' => exact h.trans (ih s) (ih' s)

/-- Steps that are of the kind of others. -/
theorem on (h : IsOrderless alike next) (f : β → α) :
    IsOrderless alike fun s b => next s (f b) where
  refl := h.refl
  trans := h.trans
  step b hs := h.step (f b) hs
  swap s b b' := h.swap s (f b) (f b')

/-- Several steps at a time. -/
theorem foldl_of (h : IsOrderless alike next) (steps : β → List α) :
    IsOrderless alike fun s b => (steps b).foldl next s where
  refl := h.refl
  trans := h.trans
  step b hs := h.foldl hs (steps b)
  swap s b b' := by
    rw [← List.foldl_append, ← List.foldl_append]
    exact h.foldl_perm List.perm_append_comm s

end IsOrderless

/-! ## Tables -/

theorem rel_refl {alike : ν → ν → Prop} (h : ∀ value, alike value value) (value : Option ν) :
    Option.Rel alike value value := by
  cases value with
  | none => exact .none
  | some value => exact .some (h value)

theorem rel_trans {alike : ν → ν → Prop}
    (h : ∀ u v w, alike u v → alike v w → alike u w) {a b c : Option ν}
    (hab : Option.Rel alike a b) (hbc : Option.Rel alike b c) : Option.Rel alike a c := by
  cases hab with
  | none => exact hbc
  | some hab =>
    cases hbc with
    | some hbc => exact .some (h _ _ _ hab hbc)

namespace Table

variable [DecidableEq κ]

/-- The same keys, with values that are alike. -/
def Alike (alike : ν → ν → Prop) (t t' : Table κ ν) : Prop :=
  ∀ key, Option.Rel alike (t.get? key) (t'.get? key)

theorem Alike.update {alike : ν → ν → Prop} {t t' : Table κ ν} (h : t.Alike alike t') {key : κ}
    {f f' : Option ν → ν} (hnew : alike (f (t.get? key)) (f' (t'.get? key))) :
    (t.update key f).Alike alike (t'.update key f') := by
  intro k
  rw [get?_update, get?_update]
  by_cases hk : k = key
  · rw [if_pos hk, if_pos hk]
    exact .some hnew
  · rw [if_neg hk, if_neg hk]
    exact h k

end Table

open Table

namespace IsOrderless

variable [DecidableEq κ]

/-- A step that is taken by the value at a key, where a missing value is `zero`. -/
theorem update {alike : ν → ν → Prop} {next : ν → α → ν} (h : IsOrderless alike next)
    (key : α → κ) (zero : ν) :
    IsOrderless (Alike alike) fun t a => t.update (key a) fun old => next (old.getD zero) a where
  refl t k := rel_refl h.refl (t.get? k)
  trans hs hs' k := by
    have htrans : ∀ u v w, alike u v → alike v w → alike u w := fun _ _ _ => h.trans
    exact rel_trans htrans (hs k) (hs' k)
  step {t t'} a hs := by
    apply hs.update
    have hkey := hs (key a)
    generalize t.get? (key a) = old at hkey
    generalize t'.get? (key a) = old' at hkey
    cases hkey with
    | some hold => exact h.step a hold
    | none => exact h.refl _
  swap t a b k := by
    simp only [get?_update]
    by_cases ha : k = key a
    · by_cases hb : k = key b
      · simp only [← ha, ← hb, if_true, Option.getD_some]
        exact .some (h.swap _ a b)
      · have hab : key a ≠ key b := fun hkeys => hb (ha.trans hkeys)
        simp only [ha, hab, if_true, if_false]
        exact .some (h.refl _)
    · by_cases hb : k = key b
      · have hba : key b ≠ key a := fun hkeys => ha (hb.trans hkeys)
        simp only [hb, hba, if_true, if_false]
        exact .some (h.refl _)
      · simp only [ha, hb, if_false]
        exact rel_refl h.refl (t.get? k)

/-! ## Tables of counts -/

theorem add : IsOrderless (Alike Eq) fun (t : Table κ Nat) (entry : κ × Nat) =>
    t.add entry.1 entry.2 := by
  have hplus : IsOrderless Eq fun (n : Nat) (entry : κ × Nat) => n + entry.2 := by
    refine ⟨fun _ => rfl, Eq.trans, fun entry hn => by rw [hn], fun n entry entry' => ?_⟩
    exact Nat.add_right_comm n entry.2 entry'.2
  exact hplus.update Prod.fst 0

theorem addAll : IsOrderless (Alike Eq) (Table.addAll : Table κ Nat → Table κ Nat → Table κ Nat) :=
  add.foldl_of Table.entries

end IsOrderless

/-- Items in any order are counted alike. -/
theorem Table.tally_perm [DecidableEq κ] {items items' : List κ} (h : items.Perm items') :
    (tally items).Alike Eq (tally items') := by
  have hmap : ∀ list : List κ, tally list
      = (list.map fun key => (key, 1)).foldl (fun t entry => t.add entry.1 entry.2) .empty := by
    intro list
    rw [List.foldl_map]
    rfl
  rw [hmap, hmap]
  exact IsOrderless.add.foldl_perm (h.map _) .empty

end UsageCensus
