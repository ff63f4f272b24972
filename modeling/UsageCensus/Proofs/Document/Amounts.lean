import UsageCensus.Document.Amount
import UsageCensus.Proofs.Number.Nearest
import UsageCensus.Proofs.Number.Percent

/-!
# Amounts that are naturals

A natural of at most 53 bits is a binary64 number (`toBinary64_of_lt`). The quotient of a part by
its whole is never too large (`quotient_of_le`).
-/

namespace UsageCensus.Amount

open UsageCensus.Number UsageCensus.Number.Binary64

variable {a b : Nat}

theorem toBinary64_of_lt (hpos : 0 < b) (hb : b < 2 ^ 53) :
    (whole b).toBinary64 = .ok (.finite false (normalized b) (b.log2 - 52)) := by
  have hratio : ofRatio false b 1 = .finite false (normalized b) (0 + b.log2 - 52) := by
    refine ofRatio_of_eq_value false hpos hb one_pos ?_ (by decide) (by decide)
    rw [value, zpow_zero, mul_one, Nat.cast_one, div_one]
  have hsign : decide ((b : Int) < 0) = false := by simp
  rw [zero_add] at hratio
  rw [toBinary64, ofInt?, hsign, Int.natAbs_natCast, hratio]
  rfl

theorem quotient_of_le (h : a ≤ b) (hpos : 0 < b) :
    (whole a).quotient (whole b) = .ok (ofRatio false a b) := by
  have hzero : (whole b).isZero = false := by
    simpa [isZero] using hpos.ne'
  have hsign (n : Nat) : decide ((n : Int) < 0) = false := by simp
  have hfinite : (ofRatio false a b).isFinite = true := by
    have hatMost : AtMost 1 (ofRatio false a b) :=
      atMost_ofRatio hpos (by omega) (by decide)
    cases hratio : ofRatio false a b with
    | finite s m e => rfl
    | infinite s => exact (hratio ▸ hatMost).elim
    | nan => exact (hratio ▸ hatMost).elim
  have hquotient : ofQuotient? (a : Int) b = some (ofRatio false a b) := by
    rw [ofQuotient?, hsign, hsign, Int.natAbs_natCast, Int.natAbs_natCast]
    exact if_pos hfinite
  rw [quotient, hzero, if_neg (by decide), hquotient]

/-- The amount is no integer, or one below the largest power of two among the binary64 numbers. -/
def IsModest (a : Amount) : Prop := ∀ n, a = whole n → n.natAbs < 2 ^ 1023

theorem IsModest.exists_toBinary64 {a : Amount} (h : a.IsModest) : ∃ x, a.toBinary64 = .ok x := by
  cases a with
  | real x => exact ⟨x, rfl⟩
  | whole n =>
    have hfinite : (ofRatio (decide (n < 0)) n.natAbs 1).isFinite = true :=
      isFinite_ofRatio _ (Nat.le_refl 1023) (by rw [Nat.mul_one]; exact h n rfl)
    have hsome : ofInt? n = some (ofRatio (decide (n < 0)) n.natAbs 1) := if_pos hfinite
    exact ⟨_, by rw [toBinary64, hsome]⟩

theorem IsModest.exists_quotient {a b : Amount} (ha : a.IsModest) (hb : b.IsModest)
    (hzero : b.isZero = false) : ∃ x, a.quotient b = .ok x := by
  obtain ⟨x, hx⟩ := ha.exists_toBinary64
  obtain ⟨y, hy⟩ := hb.exists_toBinary64
  have hreal : (do
      let x ← a.toBinary64
      let y ← b.toBinary64
      return x.div y : Except Fault Binary64) = .ok (x.div y) := by
    rw [hx, hy]
    rfl
  unfold quotient
  rw [hzero, if_neg (by decide)]
  split
  · rename_i m n
    have hpos : 0 < n.natAbs := by
      simpa [isZero, Int.natAbs_pos] using hzero
    have hlt : m.natAbs < 2 ^ 1023 * n.natAbs :=
      Nat.lt_of_lt_of_le (ha m rfl) (Nat.le_mul_of_pos_right _ hpos)
    have hsome : ofQuotient? m n
        = some (ofRatio (decide (m < 0) != decide (n < 0)) m.natAbs n.natAbs) :=
      if_pos (isFinite_ofRatio _ (Nat.le_refl 1023) hlt)
    rw [hsome]
    exact ⟨_, rfl⟩
  · exact ⟨_, hreal⟩

theorem le_real (a mantissa : Nat) (exponent : Int) :
    (whole a).le (.real (.finite false mantissa exponent))
      = decide ((a : ℚ) ≤ value mantissa exponent) := by
  have hden : (0 : ℚ) < (magnitude mantissa exponent).2 := by exact_mod_cast magnitude_pos _ _
  show (!decide (((magnitude mantissa exponent).1 : Int) * (1 : Nat)
    < (a : Int) * (magnitude mantissa exponent).2)) = _
  rw [Bool.eq_iff_iff, Bool.not_eq_true', decide_eq_false_iff_not, decide_eq_true_iff, not_lt,
    ← magnitude_ratio, le_div_iff₀ hden, Nat.cast_one, mul_one]
  exact_mod_cast Iff.rfl

end UsageCensus.Amount
