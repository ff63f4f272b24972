import Mathlib.Data.List.Sort
import Mathlib.Data.String.Basic
import UsageCensus.Library
import UsageCensus.Proofs.Text.Surrogates

/-!
# Texts in order

Items in order, where no two have the same key, stand strictly one behind the other
(`pairwise_mergeSort`, `pairwise_lt_mergeSort`). So a list of texts in which each of them comes
once, in order, is told by which texts it has (`eq_sortedTexts_iff`).
-/

namespace UsageCensus.Text

section

variable {α κ : Type} {items : List α}

theorem pairwise_mergeSort {key : α → κ} {le : α → α → Bool}
    (htrans : ∀ a b c, le a b = true → le b c = true → le a c = true)
    (htotal : ∀ a b, (le a b || le b a) = true) (h : (items.map key).Nodup) :
    (items.mergeSort le).Pairwise fun a b => le a b = true ∧ key a ≠ key b := by
  have hnodup : ((items.mergeSort le).map key).Nodup :=
    ((List.mergeSort_perm items le).map key).nodup_iff.2 h
  exact (List.pairwise_mergeSort htrans htotal items).and (List.pairwise_map.1 hnodup)

end

variable {surrogates : Surrogates} {texts : List String}

/-- The texts in the order of their code points, each once. -/
def sortedTexts (surrogates : Surrogates) (texts : List String) : List String :=
  texts.eraseDups.mergeSort surrogates.textLe

theorem mem_sortedTexts {text : String} : text ∈ sortedTexts surrogates texts ↔ text ∈ texts := by
  rw [sortedTexts, (List.mergeSort_perm _ _).mem_iff, List.mem_eraseDups]

theorem pairwise_sortedTexts (texts : List String) :
    (sortedTexts surrogates texts).Pairwise surrogates.Before := by
  have hnodup : (texts.eraseDups.map id).Nodup := by
    rw [List.map_id]
    exact nodup_eraseDups texts
  have htrans : ∀ s t u, surrogates.textLe s t = true → surrogates.textLe t u = true →
      surrogates.textLe s u = true := fun _ _ _ => textLe_trans
  have hsorted := pairwise_mergeSort htrans textLe_total hnodup
  exact hsorted.imp fun h => before_of_textLe h.1 h.2

theorem eq_sortedTexts_iff {sorted : List String} :
    sorted = sortedTexts surrogates texts
      ↔ sorted.Pairwise surrogates.Before ∧ ∀ text, text ∈ sorted ↔ text ∈ texts := by
  constructor
  · rintro rfl
    exact ⟨pairwise_sortedTexts texts, fun text => mem_sortedTexts⟩
  · rintro ⟨hsorted, hmem⟩
    exact hsorted.eq_of_mem_iff (pairwise_sortedTexts texts) fun text =>
      (hmem text).trans mem_sortedTexts.symm

end UsageCensus.Text
