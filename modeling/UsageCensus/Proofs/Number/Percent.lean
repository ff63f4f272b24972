import Mathlib.Algebra.Group.Nat.Defs
import UsageCensus.Number.Share

/-!
# Percentages of parts

A part of a whole is at most a hundred percent of it, rounding included (`percent_le_hundred`): the
nearest number to a quotient that is not above a whole number is not above it either, as long as the
whole number has so few bits that it is itself a binary64 number (`atMost_ofRatio`).
-/

namespace UsageCensus.Number

theorem roundDiv_le {num den bound : Nat} (hden : 0 < den) (h : num ≤ bound * den) :
    roundDiv num den ≤ bound := by
  have hquotient : num / den ≤ bound := Nat.div_le_of_le_mul (Nat.mul_comm bound den ▸ h)
  -- what is left over is left over of less than the bound
  have hrest : 0 < num % den → num / den < bound := by
    intro hpos
    apply Nat.lt_of_le_of_ne hquotient
    rintro rfl
    have hsplit := Nat.div_add_mod num den
    rw [Nat.mul_comm den] at hsplit
    omega
  unfold roundDiv
  dsimp only
  split
  · exact hquotient
  · have hlt := hrest (by omega)
    split <;> omega

/-- Up to this power of two every whole number and a half is a binary64 number. -/
def shareBits : Nat := 51

theorem floorLog2_le {num den : Nat} (hnum : num ≠ 0) (h : num ≤ 2 ^ shareBits * den) :
    Binary64.floorLog2 num den ≤ shareBits := by
  have hlog : num.log2 < den.log2 + shareBits + 1 := by
    rw [Nat.log2_lt hnum]
    calc num ≤ 2 ^ shareBits * den := h
      _ < 2 ^ shareBits * 2 ^ (den.log2 + 1) :=
        Nat.mul_lt_mul_of_pos_left Nat.lt_log2_self (Nat.two_pow_pos _)
      _ = 2 ^ (den.log2 + shareBits + 1) := by rw [← Nat.pow_add]; congr 1; omega
  unfold Binary64.floorLog2
  dsimp only
  split
  · simp only [Int.ofNat_eq_natCast]
    omega
  · simp only [Int.ofNat_eq_natCast]
    omega

namespace Binary64

/-- A number that is not negative and not above a whole number. -/
def AtMost (bound : Nat) : Binary64 → Prop
  | .finite negative m e => negative = false ∧ (magnitude m e).1 ≤ bound * (magnitude m e).2
  | _ => False

theorem atMost_zero (bound : Nat) : AtMost bound (zero false) := by
  refine ⟨rfl, ?_⟩
  rw [magnitude, Nat.zero_mul]
  exact Nat.zero_le _

theorem atMost_finite {bound m : Nat} {e : Int} (he : e ≤ 0)
    (h : m ≤ bound * 2 ^ (-e).toNat) : AtMost bound (.finite false m e) := by
  refine ⟨rfl, ?_⟩
  have hexponent : e.toNat = 0 := by omega
  rw [magnitude, hexponent]
  simpa using h

/-- The number nearest to a quotient that is at most a whole number is at most that number. -/
theorem atMost_ofRatio {num den bound : Nat} (hden : 0 < den) (h : num ≤ bound * den)
    (hbound : bound ≤ 2 ^ shareBits) : AtMost bound (ofRatio false num den) := by
  unfold ofRatio
  split
  · exact atMost_zero bound
  · rename_i hnum
    have hlog := floorLog2_le hnum (Nat.le_trans h (Nat.mul_le_mul_right den hbound))
    generalize hexponent : max (floorLog2 num den - 52) (-1074) = exponent
    have hnegative : exponent < 0 := by
      unfold shareBits at hlog
      omega
    have hscaled : scaled num den exponent = (num * 2 ^ (-exponent).toNat, den) := by
      have htoNat : exponent.toNat = 0 := by omega
      rw [scaled, htoNat]
      simp
    have hmantissa : roundDiv (num * 2 ^ (-exponent).toNat) den ≤ bound * 2 ^ (-exponent).toNat := by
      apply roundDiv_le hden
      rw [Nat.mul_right_comm]
      exact Nat.mul_le_mul_right _ h
    dsimp only
    rw [hscaled]
    dsimp only
    generalize roundDiv (num * 2 ^ (-exponent).toNat) den = mantissa at hmantissa
    split
    · exact atMost_zero bound
    · by_cases hlast : mantissa = Nat.pow 2 53
      · -- the mantissa is halved, and the exponent makes up for it
        simp only [hlast, if_true]
        rw [if_neg (by omega)]
        apply atMost_finite (by omega)
        have hpower : (-exponent).toNat = (-(exponent + 1)).toNat + 1 := by omega
        have hhalf : Nat.pow 2 53 = 2 * Nat.pow 2 52 := by decide
        rw [hlast, hpower, Nat.pow_succ, ← Nat.mul_assoc] at hmantissa
        omega
      · simp only [hlast, if_false]
        rw [if_neg (by omega)]
        exact atMost_finite (by omega) hmantissa

theorem magnitude_pos (mantissa : Nat) (exponent : Int) : 0 < (magnitude mantissa exponent).2 :=
  Nat.two_pow_pos (-exponent).toNat

section

variable {j k : Nat} {x y : Binary64}

theorem AtMost.mul (hx : AtMost j x) (hy : AtMost k y) (hbound : j * k ≤ 2 ^ shareBits) :
    AtMost (j * k) (x.mul y) := by
  cases x with
  | finite s m e =>
    cases y with
    | finite t n f =>
      obtain ⟨rfl, hx⟩ := hx
      obtain ⟨rfl, hy⟩ := hy
      refine atMost_ofRatio (Nat.mul_pos (magnitude_pos m e) (magnitude_pos n f)) ?_ hbound
      rw [Nat.mul_mul_mul_comm]
      exact Nat.mul_le_mul hx hy
    | infinite t => exact hy.elim
    | nan => exact hy.elim
  | infinite s => exact hx.elim
  | nan => exact hx.elim

/-- Rounding to decimals does not go past a whole number. -/
theorem AtMost.roundedTo (h : AtMost k x) (hbound : k ≤ 2 ^ shareBits) (places : Nat) :
    AtMost k (x.roundedTo places) := by
  cases x with
  | finite s m e =>
    obtain ⟨rfl, h⟩ := h
    refine atMost_ofRatio (Nat.pow_pos (by decide)) ?_ hbound
    apply roundDiv_le (magnitude_pos m e)
    rw [Nat.mul_right_comm]
    exact Nat.mul_le_mul_right _ h
  | infinite s => exact h.elim
  | nan => exact h.elim

theorem hundred_lt_eq_false (h : AtMost 100 x) : hundred.lt x = false := by
  cases x with
  | finite s m e =>
    obtain ⟨rfl, h⟩ := h
    have hundred_eq : hundred.extended? = some (.quotient (100 * 2 ^ 46) (2 ^ 46)) := by decide
    rw [lt, hundred_eq]
    refine decide_eq_false ?_
    simp only [Bool.false_eq_true, if_false, Int.ofNat_eq_natCast]
    omega
  | infinite s => exact h.elim
  | nan => exact h.elim

end

end Binary64

/-- A part is at most a hundred percent of its whole. -/
theorem percent_le_hundred {part whole : Nat} (h : part ≤ whole) :
    Binary64.hundred.lt (percent part whole) = false := by
  have hquotient : Binary64.AtMost 1 (quotient part whole) := by
    unfold quotient
    split
    · exact Binary64.atMost_zero 1
    · exact Binary64.atMost_ofRatio (by omega) (by omega) (by decide)
  have hhundred : Binary64.AtMost 100 .hundred :=
    Binary64.atMost_ofRatio (by decide) (by decide) (by decide)
  apply Binary64.hundred_lt_eq_false
  exact (hquotient.mul hhundred (by decide)).roundedTo (by decide) 1

end UsageCensus.Number
