import UsageCensus.Defaults.Stored
import UsageCensus.Proofs.Defaults.Counting
import UsageCensus.Proofs.Text.Surrogates

/-!
# The order of detections

Detections are put in a total order, and those about distinct props have distinct places in it
(`sort_eq_of_perm`). So their list does not depend on the order in which the props were judged.
Detections from stored reports of named components are put in the same order (`sort_labelled`).
-/

namespace UsageCensus

open UsageCensus.Defaults UsageCensus.Text

namespace Detection

variable {α : Type} {surrogates : Surrogates} {a b c : Detection α}

theorem le_iff : le surrogates a b = true ↔ a.confidence.rank < b.confidence.rank ∨
    (a.confidence.rank = b.confidence.rank ∧
      (surrogates.Before a.component b.component ∨
        (a.component = b.component ∧ ¬ surrogates.Before b.prop a.prop))) := by
  unfold le
  split
  · rename_i hrank
    split
    · rename_i hcomponent
      rw [textLe_iff, hrank, hcomponent]
      constructor
      · exact fun h => .inr ⟨rfl, .inr ⟨rfl, h⟩⟩
      · rintro (h | ⟨-, h | ⟨-, h⟩⟩)
        · omega
        · exact absurd h (not_before_self _)
        · exact h
    · rename_i hcomponent
      rw [textLe_iff, hrank]
      constructor
      · intro h
        rcases before_trichotomy surrogates a.component b.component with h' | h' | h'
        · exact .inr ⟨rfl, .inl h'⟩
        · exact absurd h' hcomponent
        · exact absurd h' h
      · rintro (h | ⟨-, h | ⟨h, -⟩⟩)
        · omega
        · exact h.asymm
        · exact absurd h hcomponent
  · rename_i hrank
    rw [decide_eq_true_iff]
    omega

theorem le_total (a b : Detection α) : (le surrogates a b || le surrogates b a) = true := by
  rw [Bool.or_eq_true, le_iff, le_iff]
  rcases Nat.lt_trichotomy a.confidence.rank b.confidence.rank with h | h | h
  · exact .inl (.inl h)
  · rcases before_trichotomy surrogates a.component b.component with h' | h' | h'
    · exact .inl (.inr ⟨h, .inl h'⟩)
    · by_cases h'' : surrogates.Before b.prop a.prop
      · exact .inr (.inr ⟨h.symm, .inr ⟨h'.symm, h''.asymm⟩⟩)
      · exact .inl (.inr ⟨h, .inr ⟨h', h''⟩⟩)
    · exact .inr (.inr ⟨h.symm, .inl h'⟩)
  · exact .inr (.inl h)

theorem le_trans (hab : le surrogates a b = true) (hbc : le surrogates b c = true) :
    le surrogates a c = true := by
  rw [le_iff] at hab hbc ⊢
  rcases hab with hab | ⟨hab, hab'⟩
  · rcases hbc with hbc | ⟨hbc, -⟩
    · exact .inl (by omega)
    · exact .inl (by omega)
  · rcases hbc with hbc | ⟨hbc, hbc'⟩
    · exact .inl (by omega)
    · refine .inr ⟨by omega, ?_⟩
      rcases hab' with hab' | ⟨hab', hprop⟩
      · rcases hbc' with hbc' | ⟨hbc', -⟩
        · exact .inl (hab'.trans hbc')
        · exact .inl (hbc' ▸ hab')
      · rcases hbc' with hbc' | ⟨hbc', hprop'⟩
        · exact .inl (hab' ▸ hbc')
        · refine .inr ⟨hab'.trans hbc', ?_⟩
          exact textLe_iff.1 (textLe_trans (textLe_iff.2 hprop) (textLe_iff.2 hprop'))

/-- Two detections with one place are about one prop. -/
theorem isAbout_of_le_of_le (hab : le surrogates a b = true) (hba : le surrogates b a = true) :
    IsAbout a.component a.prop b := by
  rw [le_iff] at hab hba
  rcases hab with hab | ⟨hab, hab'⟩
  · omega
  · rcases hba with hba | ⟨-, hba'⟩
    · omega
    · rcases hab' with hab' | ⟨hab', hprop⟩
      · rcases hba' with hba' | ⟨hba', -⟩
        · exact absurd hba' hab'.asymm
        · exact absurd (hba' ▸ hab') (not_before_self _)
      · rcases hba' with hba' | ⟨-, hprop'⟩
        · exact absurd (hab' ▸ hba') (not_before_self _)
        · exact ⟨hab'.symm, eq_of_textLe (textLe_iff.2 hprop') (textLe_iff.2 hprop)⟩

theorem pairwise_sort (found : List (Detection α)) :
    (sort surrogates found).Pairwise fun a b => le surrogates a b = true :=
  @List.pairwise_mergeSort _ (le surrogates) (fun _ _ _ => le_trans) le_total found

/-- Detections about distinct props are listed alike, in whatever order they come. -/
theorem sort_eq_of_perm {found found' : List (Detection α)} (h : found.Perm found')
    (hdistinct : ∀ a ∈ found, ∀ b ∈ found, IsAbout a.component a.prop b → a = b) :
    sort surrogates found = sort surrogates found' := by
  unfold sort
  have hperm := List.mergeSort_perm found (le surrogates)
  have hperm' := List.mergeSort_perm found' (le surrogates)
  refine List.Perm.eq_of_pairwise (fun a b ha hb hab hba => ?_)
    (pairwise_sort found) (pairwise_sort found')
    (hperm.trans (h.trans hperm'.symm))
  have ha : a ∈ found := hperm.mem_iff.1 ha
  have hb : b ∈ found := h.mem_iff.2 (hperm'.mem_iff.1 hb)
  exact hdistinct a ha b hb (isAbout_of_le_of_le hab hba)

end Detection

namespace Defaults.StoredReport

/-- The detection as it is found in the saved report of its component. -/
def labelled (detection : Detection Nat) : Labelled :=
  (.name detection.component, detection.mapCounts .ofNat)

theorem lt_labelled (a b : Detection Nat) :
    lt (labelled b) (labelled a) = !Detection.le .none a b := by
  show (if b.confidence.rank = a.confidence.rank then
      if (b.component == a.component) = true then decide (b.prop < a.prop)
      else decide (b.component < a.component)
    else decide (b.confidence.rank < a.confidence.rank)) = !Detection.le .none a b
  unfold Detection.le
  rw [textLe_none, textLe_none]
  by_cases hrank : a.confidence.rank = b.confidence.rank
  · rw [if_pos hrank, if_pos hrank.symm]
    by_cases hcomponent : a.component = b.component
    · rw [if_pos hcomponent, if_pos (by rw [beq_iff_eq, hcomponent]), ← decide_not]
      congr 1
      rw [← String.not_lt, Classical.not_not]
    · rw [if_neg hcomponent, if_neg (by rwa [beq_iff_eq, eq_comm]), ← decide_not]
      congr 1
      rw [← String.not_lt, Classical.not_not]
  · rw [if_neg hrank, if_neg (Ne.symm hrank), ← decide_not]
    congr 1
    exact propext (by omega)

theorem sort_labelled (found : List (Detection Nat)) :
    sort (found.map labelled) = (Detection.sort .none found).map labelled := by
  have hplaces : (found.map labelled).all (fun a => a.1.hasPlace) = true := by
    rw [List.all_map]
    exact List.all_eq_true.2 fun detection _ => rfl
  unfold sort Detection.sort
  rw [if_pos hplaces]
  refine (List.map_mergeSort fun a _ b _ => ?_).symm
  rw [lt_labelled, Bool.not_not]

/-- Detections of named components can be listed. -/
theorem isSortable_labelled (found : List (Detection Nat)) :
    isSortable (found.map labelled) = true := by
  unfold isSortable
  simp only [List.all_map]
  refine List.all_eq_true.2 fun a _ => List.all_eq_true.2 fun b _ => ?_
  show (_ || true) = true
  rw [Bool.or_true]

end Defaults.StoredReport

end UsageCensus
