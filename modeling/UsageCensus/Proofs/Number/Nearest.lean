import Mathlib.Data.Int.Log
import Mathlib.Data.Rat.Floor
import Mathlib.Tactic.FieldSimp
import Mathlib.Tactic.Linarith
import Mathlib.Tactic.Positivity
import Mathlib.Tactic.Ring
import UsageCensus.Number.Binary64

/-!
# The nearest number to a quotient

What a binary64 number stands for is `value`, and `ofRatio` takes the nearest such number to a
quotient. A quotient that is one itself is taken as it is (`ofRatio_of_eq`). Where the quotient is
at least a binary64 number, so is the one taken (`ofRatio_lt_eq_false`): rounding does not go past a
number that needs no rounding.
-/

namespace UsageCensus.Number

theorem le_roundDiv {num den bound : Nat} (hden : 0 < den) (h : bound * den ≤ num) :
    bound ≤ roundDiv num den := by
  have hquotient : bound ≤ num / den := (Nat.le_div_iff_mul_le hden).2 h
  unfold roundDiv
  dsimp only
  split
  · exact hquotient
  · split <;> omega

theorem roundDiv_mul {den : Nat} (hden : 0 < den) (n : Nat) : roundDiv (n * den) den = n := by
  have hquotient : n * den / den = n := Nat.mul_div_cancel n hden
  have hrest : n * den % den = 0 := Nat.mul_mod_left n den
  unfold roundDiv
  dsimp only
  rw [hquotient, hrest, if_pos (by omega)]

namespace Binary64

/-- What a mantissa and an exponent stand for. -/
def value (mantissa : Nat) (exponent : Int) : ℚ := mantissa * 2 ^ exponent

theorem value_zero (exponent : Int) : value 0 exponent = 0 := by
  rw [value, Nat.cast_zero, zero_mul]

theorem value_one (exponent : Int) : value 1 exponent = 2 ^ exponent := by
  rw [value, Nat.cast_one, one_mul]

theorem value_add (mantissa k : Nat) (exponent : Int) :
    value mantissa (exponent + k) = value (mantissa * 2 ^ k) exponent := by
  rw [value, value, zpow_add₀ (by norm_num), zpow_natCast]
  push_cast
  ring

theorem value_two_pow (k : Nat) (exponent : Int) : value (2 ^ k) exponent = 2 ^ (exponent + k) := by
  rw [← one_mul (2 ^ k), ← value_add, value_one]

theorem value_carry (exponent : Int) : value (2 ^ 52) (exponent + 1) = value (2 ^ 53) exponent :=
  value_add (2 ^ 52) 1 exponent

section

variable {m n : Nat}

theorem value_le_value (h : m ≤ n) (exponent : Int) : value m exponent ≤ value n exponent :=
  mul_le_mul_of_nonneg_right (by exact_mod_cast h) (zpow_pos (by norm_num) _).le

theorem value_lt_value (h : m < n) (exponent : Int) : value m exponent < value n exponent :=
  mul_lt_mul_of_pos_right (by exact_mod_cast h) (zpow_pos (by norm_num) _)

end

theorem zpow_sub_natCast (i j : Nat) : (2 : ℚ) ^ ((i : Int) - j) = 2 ^ i / 2 ^ j := by
  rw [zpow_sub₀ (by norm_num), zpow_natCast, zpow_natCast]

theorem zpow_eq_div (exponent : Int) :
    (2 : ℚ) ^ exponent = 2 ^ exponent.toNat / 2 ^ (-exponent).toNat := by
  rw [← zpow_sub_natCast]
  congr 1
  omega

section

variable {num den mantissa : Nat} {exponent : Int}

theorem scaled_pos (hden : 0 < den) (num : Nat) (exponent : Int) :
    0 < (scaled num den exponent).2 :=
  Nat.mul_pos hden (Nat.two_pow_pos _)

theorem scaled_ratio (num den : Nat) (exponent : Int) :
    ((scaled num den exponent).1 : ℚ) / (scaled num den exponent).2
      = num / den / 2 ^ exponent := by
  rw [zpow_eq_div, scaled]
  simp only [Nat.pow_eq, Nat.cast_mul, Nat.cast_pow, Nat.cast_ofNat]
  field_simp

theorem magnitude_ratio (mantissa : Nat) (exponent : Int) :
    ((magnitude mantissa exponent).1 : ℚ) / (magnitude mantissa exponent).2
      = value mantissa exponent := by
  rw [value, zpow_eq_div, magnitude]
  simp only [Nat.pow_eq, Nat.cast_mul, Nat.cast_pow, Nat.cast_ofNat]
  ring

theorem le_scaled_iff (hden : 0 < den) (bound : Nat) :
    bound * (scaled num den exponent).2 ≤ (scaled num den exponent).1
      ↔ value bound exponent ≤ num / den := by
  have hscaled : (0 : ℚ) < (scaled num den exponent).2 := by
    exact_mod_cast scaled_pos hden num exponent
  have hpower : (0 : ℚ) < 2 ^ exponent := zpow_pos (by norm_num) _
  rw [value, ← le_div_iff₀ hpower, ← scaled_ratio, le_div_iff₀ hscaled]
  exact_mod_cast Iff.rfl

/-- The quotient lies between the powers of two that the lengths of its parts give. -/
theorem ratio_bounds (hnum : num ≠ 0) (hden : den ≠ 0) :
    (2 : ℚ) ^ ((num.log2 : Int) - den.log2 - 1) ≤ num / den ∧
      (num / den : ℚ) < 2 ^ ((num.log2 : Int) - den.log2 + 1) := by
  have hnum_low : (2 : ℚ) ^ num.log2 ≤ num := by exact_mod_cast Nat.log2_self_le hnum
  have hnum_high : (num : ℚ) < 2 ^ (num.log2 + 1) := by exact_mod_cast Nat.lt_log2_self
  have hden_low : (2 : ℚ) ^ den.log2 ≤ den := by exact_mod_cast Nat.log2_self_le hden
  have hden_high : (den : ℚ) < 2 ^ (den.log2 + 1) := by exact_mod_cast Nat.lt_log2_self
  have hpos : (0 : ℚ) < den := by exact_mod_cast Nat.pos_of_ne_zero hden
  have hlow : (2 : ℚ) ^ ((num.log2 : Int) - den.log2 - 1) = 2 ^ num.log2 / 2 ^ (den.log2 + 1) := by
    rw [← zpow_sub_natCast]
    congr 1
    omega
  have hhigh : (2 : ℚ) ^ ((num.log2 : Int) - den.log2 + 1) = 2 ^ (num.log2 + 1) / 2 ^ den.log2 := by
    rw [← zpow_sub_natCast]
    congr 1
    omega
  constructor
  · rw [hlow]
    exact div_le_div₀ (by positivity) hnum_low hpos hden_high.le
  · rw [hhigh]
    exact div_lt_div₀ hnum_high hden_low (by positivity) (by positivity)

theorem ratio_pos (hnum : num ≠ 0) (hden : 0 < den) : (0 : ℚ) < num / den :=
  div_pos (by exact_mod_cast Nat.pos_of_ne_zero hnum) (by exact_mod_cast hden)

theorem le_log_iff (hnum : num ≠ 0) (hden : 0 < den) :
    exponent ≤ Int.log 2 (num / den : ℚ) ↔ (2 : ℚ) ^ exponent ≤ num / den := by
  rw [← Int.zpow_le_iff_le_log one_lt_two (ratio_pos hnum hden), Nat.cast_ofNat]

theorem log_lt_iff (hnum : num ≠ 0) (hden : 0 < den) :
    Int.log 2 (num / den : ℚ) < exponent ↔ (num / den : ℚ) < 2 ^ exponent := by
  rw [← Int.lt_zpow_iff_log_lt one_lt_two (ratio_pos hnum hden), Nat.cast_ofNat]

theorem floorLog2_eq_log (hnum : num ≠ 0) (hden : 0 < den) :
    floorLog2 num den = Int.log 2 (num / den : ℚ) := by
  obtain ⟨hlow, hhigh⟩ := ratio_bounds hnum hden.ne'
  rw [← le_log_iff hnum hden] at hlow
  rw [← log_lt_iff hnum hden] at hhigh
  have hguess := @le_scaled_iff num den (num.log2 - den.log2) hden 1
  rw [one_mul, value_one, ← le_log_iff hnum hden] at hguess
  unfold floorLog2
  simp only [Int.ofNat_eq_natCast]
  split
  · rename_i h
    have := hguess.1 h
    omega
  · rename_i h
    have := mt hguess.2 h
    omega

/-! ## Rounding -/

/-- The exponent at which a quotient is rounded. -/
def lastPlace (num den : Nat) : Int := max (floorLog2 num den - 52) (-1074)

/-- A quotient in units of its last place. -/
def significand (num den : Nat) : Nat :=
  roundDiv (scaled num den (lastPlace num den)).1 (scaled num den (lastPlace num den)).2

theorem ofRatio_eq (negative : Bool) (hnum : num ≠ 0) :
    ofRatio negative num den =
      if significand num den = 0 then zero negative
      else if significand num den = 2 ^ 53 then
        if 971 < lastPlace num den + 1 then .infinite negative
        else .finite negative (2 ^ 52) (lastPlace num den + 1)
      else if 971 < lastPlace num den then .infinite negative
      else .finite negative (significand num den) (lastPlace num den) := by
  unfold ofRatio significand lastPlace
  rw [if_neg hnum]
  generalize max (floorLog2 num den - 52) (-1074) = place
  dsimp only
  generalize roundDiv (scaled num den place).1 (scaled num den place).2 = rounded
  congr 1
  simp only [Nat.pow_eq]
  by_cases hcarry : rounded = 2 ^ 53
  · rw [if_pos hcarry, if_pos hcarry]
  · rw [if_neg hcarry, if_neg hcarry]

/-- A quotient is rounded to its significand at its last place, unless that is too large. -/
theorem ofRatio_cases (negative : Bool) (hnum : num ≠ 0) :
    ofRatio negative num den = .infinite negative ∨
      ∃ m e, ofRatio negative num den = .finite negative m e ∧
        value m e = value (significand num den) (lastPlace num den) := by
  rw [ofRatio_eq negative hnum]
  split
  · rename_i hzero
    exact .inr ⟨0, 0, rfl, by rw [hzero, value_zero, value_zero]⟩
  · split
    · rename_i hcarry
      split
      · exact .inl rfl
      · exact .inr ⟨_, _, rfl, by rw [hcarry, value_carry]⟩
    · split
      · exact .inl rfl
      · exact .inr ⟨_, _, rfl, rfl⟩

/-- A quotient below the largest power of two is not rounded to an infinite number. -/
theorem isFinite_ofRatio (negative : Bool) {k : Nat} (hk : k ≤ 1023) (h : num < 2 ^ k * den) :
    (ofRatio negative num den).isFinite = true := by
  by_cases hnum : num = 0
  · rw [ofRatio, if_pos hnum]
    rfl
  · have hden : 0 < den := by
      refine Nat.pos_of_ne_zero fun hzero => ?_
      rw [hzero] at h
      exact absurd h (Nat.not_lt_zero num)
    have hratio : (num / den : ℚ) < 2 ^ (k : Int) := by
      rw [div_lt_iff₀ (by exact_mod_cast hden), zpow_natCast]
      exact_mod_cast h
    have hplace : lastPlace num den + 1 ≤ 971 := by
      have hlog := (log_lt_iff hnum hden).2 hratio
      rw [← floorLog2_eq_log hnum hden] at hlog
      unfold lastPlace
      omega
    rw [ofRatio_eq negative hnum, if_neg (show ¬971 < lastPlace num den + 1 by omega),
      if_neg (show ¬971 < lastPlace num den by omega)]
    split
    · rfl
    · split <;> rfl

/-- A quotient that is a number of 53 bits is taken as it is. -/
theorem ofRatio_of_eq (negative : Bool) (hden : 0 < den)
    (h : (num / den : ℚ) = value mantissa exponent) (hnormal : 2 ^ 52 ≤ mantissa)
    (hbits : mantissa < 2 ^ 53) (hlow : -1074 ≤ exponent) (hhigh : exponent ≤ 971) :
    ofRatio negative num den = .finite negative mantissa exponent := by
  have hvalue_low := value_le_value hnormal exponent
  have hvalue_high := value_lt_value hbits exponent
  rw [value_two_pow, ← h] at hvalue_low
  rw [value_two_pow, ← h] at hvalue_high
  have hnum : num ≠ 0 := by
    rintro rfl
    rw [Nat.cast_zero, zero_div] at hvalue_low
    exact absurd hvalue_low (not_le.2 (zpow_pos (by norm_num) _))
  rw [← le_log_iff hnum hden] at hvalue_low
  rw [← log_lt_iff hnum hden] at hvalue_high
  have hplace : lastPlace num den = exponent := by
    rw [lastPlace, floorLog2_eq_log hnum hden]
    omega
  have hsignificand : significand num den = mantissa := by
    have hscaled : (scaled num den exponent).1 = mantissa * (scaled num den exponent).2 := by
      have hden : (0 : ℚ) < (scaled num den exponent).2 := by
        exact_mod_cast scaled_pos hden num exponent
      have hratio := scaled_ratio num den exponent
      rw [h, value, mul_div_cancel_right₀ _ (zpow_ne_zero _ (by norm_num)),
        div_eq_iff hden.ne'] at hratio
      exact_mod_cast hratio
    rw [significand, hplace, hscaled, roundDiv_mul (scaled_pos hden num exponent)]
  rw [ofRatio_eq negative hnum, hsignificand, hplace, if_neg (by omega), if_neg (by omega),
    if_neg (by omega)]

/-! ## Comparing -/

theorem lt_finite (m n : Nat) (e f : Int) :
    (finite false m e).lt (.finite false n f) = decide (value m e < value n f) := by
  have hm : (0 : ℚ) < (magnitude m e).2 := by exact_mod_cast Nat.two_pow_pos _
  have hn : (0 : ℚ) < (magnitude n f).2 := by exact_mod_cast Nat.two_pow_pos _
  rw [Bool.eq_iff_iff, decide_eq_true_iff, ← magnitude_ratio, ← magnitude_ratio,
    div_lt_div_iff₀ hm hn]
  show decide (((magnitude m e).1 : Int) * (magnitude n f).2
    < (magnitude n f).1 * (magnitude m e).2) = true ↔ _
  rw [decide_eq_true_iff]
  exact_mod_cast Iff.rfl

/-- Rounding does not go below a number of at most 53 bits. -/
theorem value_le_rounded (hnum : num ≠ 0) (hden : 0 < den) (hbits : mantissa < 2 ^ 53)
    (hlow : -1074 ≤ exponent) (h : value mantissa exponent ≤ num / den) :
    value mantissa exponent ≤ value (significand num den) (lastPlace num den) := by
  have hle {bound : Nat} (hbound : value bound (lastPlace num den) ≤ num / den) :
      bound ≤ significand num den :=
    le_roundDiv (scaled_pos hden num _) ((le_scaled_iff hden bound).2 hbound)
  rcases le_or_gt (lastPlace num den) exponent with hplace | hplace
  · -- the number is a multiple of the last place
    obtain ⟨k, rfl⟩ := Int.le.dest hplace
    rw [value_add] at h ⊢
    exact value_le_value (hle h) _
  · -- the significand has 53 bits, so it is above all smaller ones with a smaller exponent
    have hlog : lastPlace num den + 52 ≤ Int.log 2 (num / den : ℚ) := by
      have hfloor := floorLog2_eq_log hnum hden
      unfold lastPlace at hplace ⊢
      omega
    have hfull : 2 ^ 52 ≤ significand num den := by
      apply hle
      rw [value_two_pow]
      exact (le_log_iff hnum hden).1 hlog
    obtain ⟨k, hk⟩ := Int.le.dest hplace
    calc value mantissa exponent
      _ ≤ value (2 ^ 53) exponent := (value_lt_value hbits exponent).le
      _ = value (2 ^ 52) (exponent + 1) := (value_carry exponent).symm
      _ ≤ value (2 ^ 52 * 2 ^ k) (exponent + 1) :=
        value_le_value (Nat.le_mul_of_pos_right _ (Nat.two_pow_pos k)) _
      _ = value (2 ^ 52) (lastPlace num den) := by rw [← value_add, hk]
      _ ≤ value (significand num den) (lastPlace num den) := value_le_value hfull _

/-- A quotient that is not below a number of at most 53 bits is not rounded to one that is. -/
theorem ofRatio_lt_eq_false (hden : 0 < den) (hbits : mantissa < 2 ^ 53) (hlow : -1074 ≤ exponent)
    (h : value mantissa exponent ≤ num / den) :
    (ofRatio false num den).lt (.finite false mantissa exponent) = false := by
  rcases eq_or_ne num 0 with rfl | hnum
  · show (finite false 0 0).lt (.finite false mantissa exponent) = false
    rw [Nat.cast_zero, zero_div] at h
    rw [lt_finite, decide_eq_false_iff_not, not_lt, value_zero]
    exact h
  · rcases @ofRatio_cases num den false hnum with hinfinite | ⟨m, e, hfinite, hvalue⟩
    · rw [hinfinite]
      rfl
    · rw [hfinite, lt_finite, decide_eq_false_iff_not, not_lt, hvalue]
      exact value_le_rounded hnum hden hbits hlow h

/-! ## Naturals of at most 53 bits -/

/-- A natural with its highest bit in the highest place of a mantissa. -/
def normalized (n : Nat) : Nat := n * 2 ^ (52 - n.log2)

variable {n : Nat}

theorem log2_le (hn : n < 2 ^ 53) : n.log2 ≤ 52 := by
  rcases Nat.eq_zero_or_pos n with rfl | hpos
  · exact Nat.zero_le _
  · exact Nat.le_of_lt_succ ((Nat.log2_lt hpos.ne').2 hn)

theorem le_normalized (hpos : 0 < n) (hn : n < 2 ^ 53) : 2 ^ 52 ≤ normalized n := by
  have hlog := log2_le hn
  calc 2 ^ 52 = 2 ^ n.log2 * 2 ^ (52 - n.log2) := by rw [← Nat.pow_add]; congr 1; omega
    _ ≤ normalized n := Nat.mul_le_mul_right _ (Nat.log2_self_le hpos.ne')

theorem normalized_lt (hn : n < 2 ^ 53) : normalized n < 2 ^ 53 := by
  have hlog := log2_le hn
  calc normalized n < 2 ^ (n.log2 + 1) * 2 ^ (52 - n.log2) :=
        Nat.mul_lt_mul_of_pos_right Nat.lt_log2_self (Nat.two_pow_pos _)
    _ = 2 ^ 53 := by rw [← Nat.pow_add]; congr 1; omega

theorem value_normalized (hn : n < 2 ^ 53) (exponent : Int) :
    value (normalized n) (exponent + n.log2 - 52) = value n exponent := by
  have hlog := log2_le hn
  rw [normalized, ← value_add]
  congr 1
  omega

/-- A quotient that is such a natural times a power of two is taken as it is. -/
theorem ofRatio_of_eq_value (negative : Bool) (hpos : 0 < n) (hn : n < 2 ^ 53) (hden : 0 < den)
    (h : (num / den : ℚ) = value n exponent) (hlow : -1022 ≤ exponent) (hhigh : exponent ≤ 971) :
    ofRatio negative num den = .finite negative (normalized n) (exponent + n.log2 - 52) := by
  have hlog := log2_le hn
  rw [← value_normalized hn] at h
  exact ofRatio_of_eq negative hden h (le_normalized hpos hn) (normalized_lt hn) (by omega)
    (by omega)

/-- So is a product that is one. -/
theorem mul_eq_of_value (s t : Bool) {m m' : Nat} {e e' : Int} (hpos : 0 < n) (hn : n < 2 ^ 53)
    (h : value m e * value m' e' = value n exponent) (hlow : -1022 ≤ exponent)
    (hhigh : exponent ≤ 971) :
    (finite s m e).mul (.finite t m' e')
      = .finite (s != t) (normalized n) (exponent + n.log2 - 52) := by
  have hden : 0 < (magnitude m e).2 * (magnitude m' e').2 :=
    Nat.mul_pos (Nat.two_pow_pos _) (Nat.two_pow_pos _)
  refine ofRatio_of_eq_value _ hpos hn hden ?_ hlow hhigh
  rw [← h, ← magnitude_ratio, ← magnitude_ratio, div_mul_div_comm]
  push_cast
  rfl

end

end Binary64

end UsageCensus.Number
