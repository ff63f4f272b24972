import Mathlib.Data.List.Chain
import Mathlib.Data.String.Basic
import UsageCensus.Text.Surrogates

/-!
# Characters that stand for surrogates

Such a character is told by its surrogate, which is no character itself (`codePoint_injective`). So
of two texts one comes before the other in the order of their code points, or they are the same
(`before_trichotomy`). Two halves of a pair are kept apart if they are to stay what they are
(`Surrogates.IsApart`).
-/

namespace UsageCensus.Text

theorem toNat_lt (c : Char) : c.toNat < 1114112 := by
  rcases c.valid with h | h
  · exact Nat.lt_trans h (by decide)
  · exact h.2

theorem not_isSurrogate (c : Char) : isSurrogate c.toNat = false := by
  have hvalid : c.toNat < 55296 ∨ 57343 < c.toNat := by
    rcases c.valid with h | h
    · exact .inl h
    · exact .inr h.1
  simp only [isSurrogate, Bool.and_eq_false_iff, decide_eq_false_iff_not]
  omega

theorem contains_none (c : Char) : Surrogates.none.contains c.toNat = false := by
  have hlt : ¬ Surrogates.none.first ≤ c.toNat := Nat.not_le.2 (toNat_lt c)
  rw [Surrogates.contains, decide_eq_false hlt, Bool.false_and]

theorem occurIn_none (text : List Char) : Surrogates.none.occurIn text = false :=
  List.any_eq_false.2 fun c _ => ne_true_of_eq_false (contains_none c)

theorem unit?_none (c : Char) : Surrogates.none.unit? c = none := by
  rw [Surrogates.unit?, contains_none]
  rfl

variable {surrogates : Surrogates}

section

variable {c d : Char} {unit : Nat}

theorem isSurrogate_of_unit? (h : surrogates.unit? c = some unit) : isSurrogate unit = true := by
  unfold Surrogates.unit? Surrogates.contains at h
  split at h
  · rename_i hmem
    simp only [Bool.and_eq_true, decide_eq_true_eq] at hmem
    cases h
    simp only [isSurrogate, Bool.and_eq_true, decide_eq_true_eq]
    omega
  · cases h

theorem standIn_of_unit? (h : surrogates.unit? c = some unit) : surrogates.standIn unit = c := by
  unfold Surrogates.unit? Surrogates.contains at h
  split at h
  · rename_i hmem
    simp only [Bool.and_eq_true, decide_eq_true_eq] at hmem
    cases h
    have hvalue : surrogates.first + (55296 + (c.toNat - surrogates.first) - 55296) = c.toNat := by
      omega
    rw [Surrogates.standIn, hvalue, Char.ofNat_toNat]
  · cases h

theorem codePoint_injective (h : surrogates.codePoint c = surrogates.codePoint d) : c = d := by
  unfold Surrogates.codePoint at h
  have hunit {c : Char} {n : Nat} (hc : surrogates.unit? c = some n) (d : Char) : n ≠ d.toNat := by
    rintro rfl
    have hsurrogate := isSurrogate_of_unit? hc
    rw [not_isSurrogate] at hsurrogate
    cases hsurrogate
  cases hc : surrogates.unit? c <;> cases hd : surrogates.unit? d <;> rw [hc, hd] at h
  · exact Char.toNat_inj.1 h
  · exact absurd h.symm (hunit hd c)
  · exact absurd h (hunit hc d)
  · rw [← standIn_of_unit? hc, ← standIn_of_unit? hd]
    exact congrArg surrogates.standIn h

end

/-! ## The order of texts -/

section

variable {s t u : String}

/-- The first text comes before the second one in the order of their code points. -/
def Surrogates.Before (surrogates : Surrogates) (s t : String) : Prop :=
  List.Lex (fun m n => m < n) (s.toList.map surrogates.codePoint)
    (t.toList.map surrogates.codePoint)

theorem textLe_iff : surrogates.textLe s t = true ↔ ¬ surrogates.Before t s := by
  unfold Surrogates.textLe
  rw [Bool.not_eq_true', ← Bool.not_eq_true]
  exact not_congr List.lex_eq_true_iff_lt

instance : Decidable (surrogates.Before s t) :=
  decidable_of_iff' _ ((not_congr textLe_iff).trans not_not).symm

theorem textLe_trans (hst : surrogates.textLe s t = true) (htu : surrogates.textLe t u = true) :
    surrogates.textLe s u = true := by
  rw [textLe_iff] at hst htu ⊢
  exact List.le_trans hst htu

theorem textLe_total (s t : String) :
    (surrogates.textLe s t || surrogates.textLe t s) = true := by
  rw [Bool.or_eq_true, textLe_iff, textLe_iff]
  exact List.le_total _ _

theorem eq_of_textLe (hst : surrogates.textLe s t = true) (hts : surrogates.textLe t s = true) :
    s = t := by
  rw [textLe_iff] at hst hts
  have h := List.le_antisymm hst hts
  exact String.toList_inj.1 (List.map_injective_iff.2 (fun _ _ => codePoint_injective) h)

theorem codePoint_none (c : Char) : Surrogates.none.codePoint c = c.toNat := by
  rw [Surrogates.codePoint, unit?_none, Option.getD_none]

theorem map_toNat_lt_iff {s t : List Char} :
    s.map Char.toNat < t.map Char.toNat ↔ s < t := by
  induction s generalizing t with
  | nil => cases t <;> simp
  | cons c s ih =>
    cases t with
    | nil => simp
    | cons d t =>
      rw [List.map_cons, List.map_cons, List.cons_lt_cons_iff, List.cons_lt_cons_iff, ih,
        Char.toNat_inj]
      exact or_congr_left Iff.rfl

/-- Where no character stands for a surrogate this is the usual order. -/
theorem textLe_none (s t : String) : Surrogates.none.textLe s t = decide (s ≤ t) := by
  have hmap : ∀ text : String, text.toList.map Surrogates.none.codePoint
      = text.toList.map Char.toNat := fun text => List.map_congr_left fun c _ => codePoint_none c
  rw [Bool.eq_iff_iff, textLe_iff, decide_eq_true_iff, Surrogates.Before, hmap, hmap,
    ← String.not_lt, String.lt_iff_toList_lt]
  exact not_congr map_toNat_lt_iff

theorem not_before_self (s : String) : ¬ surrogates.Before s s := List.lt_irrefl _

theorem before_of_textLe (h : surrogates.textLe s t = true) (hne : s ≠ t) :
    surrogates.Before s t := by
  by_contra hbefore
  exact hne (eq_of_textLe h (textLe_iff.2 hbefore))

theorem Surrogates.Before.asymm (h : surrogates.Before s t) : ¬ surrogates.Before t s :=
  List.lt_asymm h

theorem Surrogates.Before.trans (hst : surrogates.Before s t) (htu : surrogates.Before t u) :
    surrogates.Before s u :=
  List.lt_trans hst htu

theorem before_trichotomy (surrogates : Surrogates) (s t : String) :
    surrogates.Before s t ∨ s = t ∨ surrogates.Before t s := by
  rcases Classical.em (surrogates.Before s t), Classical.em (surrogates.Before t s)
    with ⟨h | h, h' | h'⟩
  · exact .inl h
  · exact .inl h
  · exact .inr (.inr h')
  · exact .inr (.inl (eq_of_textLe (textLe_iff.2 h') (textLe_iff.2 h)))

instance : Std.Irrefl surrogates.Before := ⟨not_before_self⟩

instance : Std.Antisymm surrogates.Before := ⟨fun _ _ hst hts => absurd hts hst.asymm⟩

end

/-! ## Halves of pairs -/

namespace Surrogates

/-- The characters stand for the two halves of a pair, in their order. -/
def ArePair (surrogates : Surrogates) (c d : Char) : Prop :=
  (∃ high ∈ surrogates.unit? c, high < 56320) ∧ ∃ low ∈ surrogates.unit? d, 56320 ≤ low

instance (surrogates : Surrogates) (c d : Char) : Decidable (surrogates.ArePair c d) :=
  inferInstanceAs (Decidable (_ ∧ _))

/-- No first half of a pair stands directly before a second one. -/
def IsApart (surrogates : Surrogates) (text : List Char) : Prop :=
  text.IsChain fun c d => ¬ surrogates.ArePair c d

instance (surrogates : Surrogates) (text : List Char) : Decidable (surrogates.IsApart text) :=
  inferInstanceAs (Decidable (text.IsChain _))

theorem isApart_none (text : List Char) : Surrogates.none.IsApart text := by
  refine List.isChain_iff_getElem.2 ?_
  rintro i hi ⟨⟨high, h, -⟩, -⟩
  rw [unit?_none] at h
  cases h

end Surrogates

end UsageCensus.Text
