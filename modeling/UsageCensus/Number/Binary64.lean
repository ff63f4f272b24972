/-!
# Binary64 numbers

Measures are computed in binary floating point with 53 significant bits, the nearest number to
the exact result and the even one of two. A finite number is `mantissa * 2 ^ exponent` with a
sign; zero has a sign too. Every operation computes the exact result as a quotient of naturals
and rounds once (`ofRatio`).
-/

namespace UsageCensus.Number

/-- The integer nearest to a quotient, of two equally near ones the even one. -/
def roundDiv (num den : Nat) : Nat :=
  let quotient := num / den
  let rest := num % den
  if 2 * rest < den then quotient
  else if den < 2 * rest then quotient + 1
  else quotient + quotient % 2

inductive Binary64 where
  | finite (negative : Bool) (mantissa : Nat) (exponent : Int)
  | infinite (negative : Bool)
  | nan
  deriving Repr, DecidableEq

namespace Binary64

/-- `num / den / 2 ^ exponent` as a quotient of naturals. -/
def scaled (num den : Nat) (exponent : Int) : Nat × Nat :=
  (num * Nat.pow 2 (-exponent).toNat, den * Nat.pow 2 exponent.toNat)

/-- The largest power of two not above a positive quotient. -/
def floorLog2 (num den : Nat) : Int :=
  let guess : Int := Int.ofNat num.log2 - Int.ofNat den.log2
  let (n, d) := scaled num den guess
  if d ≤ n then guess else guess - 1

def zero (negative : Bool) : Binary64 := .finite negative 0 0

/-- The number nearest to a quotient with a positive divisor. -/
def ofRatio (negative : Bool) (num den : Nat) : Binary64 :=
  if num = 0 then zero negative
  else
    let exponent := max (floorLog2 num den - 52) (-1074)
    let (n, d) := scaled num den exponent
    let mantissa := roundDiv n d
    if mantissa = 0 then zero negative
    else
      let (mantissa, exponent) :=
        if mantissa = Nat.pow 2 53 then (Nat.pow 2 52, exponent + 1) else (mantissa, exponent)
      if 971 < exponent then .infinite negative else .finite negative mantissa exponent

/-- The magnitude of a finite number as a quotient. -/
def magnitude (mantissa : Nat) (exponent : Int) : Nat × Nat :=
  (mantissa * Nat.pow 2 exponent.toNat, Nat.pow 2 (-exponent).toNat)

def isFinite : Binary64 → Bool
  | .finite .. => true
  | _ => false

def isZero : Binary64 → Bool
  | .finite _ 0 _ => true
  | _ => false

/-- The number nearest to an integer, if one is in range. -/
def ofInt? (n : Int) : Option Binary64 :=
  let x := ofRatio (decide (n < 0)) n.natAbs 1
  if x.isFinite then some x else none

/-- The number nearest to a quotient of integers with a divisor other than zero, if one is in
range. The sign is that of the two signs taken together, also for zero. -/
def ofQuotient? (num den : Int) : Option Binary64 :=
  let x := ofRatio (decide (num < 0) != decide (den < 0)) num.natAbs den.natAbs
  if x.isFinite then some x else none

def mul : Binary64 → Binary64 → Binary64
  | .finite s m e, .finite t n f =>
    let a := magnitude m e
    let b := magnitude n f
    ofRatio (s != t) (a.1 * b.1) (a.2 * b.2)
  | .finite s m _, .infinite t => if m = 0 then .nan else .infinite (s != t)
  | .infinite s, .finite t n _ => if n = 0 then .nan else .infinite (s != t)
  | .infinite s, .infinite t => .infinite (s != t)
  | _, _ => .nan

/-- The quotient by a number other than zero. -/
def div : Binary64 → Binary64 → Binary64
  | .finite s m e, .finite t n f =>
    let a := magnitude m e
    let b := magnitude n f
    if n = 0 then .nan else ofRatio (s != t) (a.1 * b.2) (a.2 * b.1)
  | .finite s _ _, .infinite t => zero (s != t)
  | .infinite s, .finite t _ _ => .infinite (s != t)
  | _, _ => .nan

/-- The number nearest to `digits * 10 ^ exponent`. -/
def ofDecimal (negative : Bool) (digits : Nat) (exponent : Int) : Binary64 :=
  if digits = 0 then zero negative
  else
    let length := Int.ofNat (Nat.toDigits 10 digits).length
    if 400 < exponent + length then .infinite negative
    else if exponent + length < -400 then zero negative
    else ofRatio negative (digits * Nat.pow 10 exponent.toNat) (Nat.pow 10 (-exponent).toNat)

/-! ## Exact comparison -/

/-- Numbers that can be compared: finite ones as quotients, and the two infinities. -/
inductive Extended where
  | negInfinite
  | quotient (num : Int) (den : Nat)
  | posInfinite
  deriving Repr, DecidableEq

def Extended.lt : Extended → Extended → Bool
  | .quotient a b, .quotient c d => decide (a * Int.ofNat d < c * Int.ofNat b)
  | .negInfinite, .negInfinite => false
  | .negInfinite, _ => true
  | _, .negInfinite => false
  | .posInfinite, _ => false
  | _, .posInfinite => true

/-- No number is below itself, an infinite one neither. -/
theorem Extended.lt_irrefl (x : Extended) : x.lt x = false := by
  cases x with
  | negInfinite => rfl
  | quotient num den => exact decide_eq_false (Int.lt_irrefl _)
  | posInfinite => rfl

def Extended.eq : Extended → Extended → Bool
  | .quotient a b, .quotient c d => decide (a * Int.ofNat d = c * Int.ofNat b)
  | .negInfinite, .negInfinite => true
  | .posInfinite, .posInfinite => true
  | _, _ => false

/-- The place of a number among all numbers; a number that is none has no place. -/
def extended? : Binary64 → Option Extended
  | .finite s m e =>
    let a := magnitude m e
    some (.quotient (if s then -Int.ofNat a.1 else Int.ofNat a.1) a.2)
  | .infinite true => some .negInfinite
  | .infinite false => some .posInfinite
  | .nan => none

def lt (x y : Binary64) : Bool :=
  match x.extended?, y.extended? with
  | some a, some b => a.lt b
  | _, _ => false

end Binary64

end UsageCensus.Number
