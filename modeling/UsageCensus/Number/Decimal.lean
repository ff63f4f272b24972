import UsageCensus.Number.Binary64

/-!
# Decimal notation of binary64 numbers

Two notations. With a fixed number of places a number is rounded to its nearest decimal, of two
equally near ones to the even one, taking its exact value (`fixed`). The shortest notation has
the fewest digits that still identify the number (`shortest`): it is positional for numbers from
0.0001 up to below 10 to the 16, always with a point, and otherwise has an exponent of at least
two digits with its sign.
-/

namespace UsageCensus.Number

/-- The decimal digits of a natural number, padded with zeros on the left. -/
def padDigits (width n : Nat) : List Char :=
  let digits := Nat.toDigits 10 n
  List.replicate (width - digits.length) '0' ++ digits

namespace Binary64

/-! ## A fixed number of places -/

/-- `n / 10 ^ places` with its point. -/
def placed (places n : Nat) : List Char :=
  let whole := Nat.toDigits 10 (n / Nat.pow 10 places)
  if places = 0 then whole else whole ++ '.' :: padDigits places (n % Nat.pow 10 places)

/-- A finite magnitude in units of the last of `places` places. -/
def units (places mantissa : Nat) (exponent : Int) : Nat :=
  let a := magnitude mantissa exponent
  roundDiv (a.1 * Nat.pow 10 places) a.2

/-- No number has digits other than zero behind so many places. -/
def finestPlaces : Nat := 1074

/-- The number with a fixed number of places. -/
def fixed (places : Nat) : Binary64 → String
  | .finite s m e =>
    let kept := min places finestPlaces
    String.ofList ((if s then ['-'] else []) ++ placed kept (units kept m e)
      ++ List.replicate (places - kept) '0')
  | .infinite s => if s then "-inf" else "inf"
  | .nan => "nan"

/-- The number nearest to the number's decimal with a fixed number of places. -/
def roundedTo (places : Nat) : Binary64 → Binary64
  | .finite s m e => ofRatio s (units places m e) (Nat.pow 10 places)
  | x => x

/-! ## The fewest digits -/

/-- The reals nearest to a finite number, as bounds in units of `2 ^ exponent`; the bounds
themselves belong to it if `closed`. -/
structure Neighbourhood where
  low : Nat
  value : Nat
  high : Nat
  exponent : Int
  closed : Bool
  deriving Repr, DecidableEq

/-- The gap to the number below is half as wide right at a power of two. -/
def neighbourhood (mantissa : Nat) (exponent : Int) : Neighbourhood where
  low := 4 * mantissa - (if mantissa = Nat.pow 2 52 ∧ -1074 < exponent then 1 else 2)
  value := 4 * mantissa
  high := 4 * mantissa + 2
  exponent := exponent - 2
  closed := mantissa % 2 == 0

/-- Brings `digits * 10 ^ power` and `n * 2 ^ exponent` to a common unit. -/
def common (digits : Nat) (power : Int) (n : Nat) (exponent : Int) : Nat × Nat :=
  (digits * Nat.pow 10 power.toNat * Nat.pow 2 (-exponent).toNat,
   n * Nat.pow 2 exponent.toNat * Nat.pow 10 (-power).toNat)

/-- The decimal reads back as the number. -/
def Neighbourhood.has (near : Neighbourhood) (digits : Nat) (power : Int) : Bool :=
  let (a, low) := common digits power near.low near.exponent
  let (b, high) := common digits power near.high near.exponent
  if near.closed then decide (low ≤ a) && decide (b ≤ high)
  else decide (low < a) && decide (b < high)

/-- The number of digits before the point; for numbers below a tenth, minus the number of zeros
behind it. -/
def pointPosition (num den : Nat) : Int :=
  if den ≤ num then Int.ofNat (Nat.toDigits 10 (num / den)).length
  else
    let zeros := (List.range 400).find? fun j => den ≤ num * Nat.pow 10 (j + 1)
    Int.negOfNat (zeros.getD 0)

/-- The decimal with `count` digits that reads back as the number and is nearest to it. -/
def candidate? (near : Neighbourhood) (num den : Nat) (point : Int) (count : Nat) :
    Option (Nat × Int) :=
  let power := point - Int.ofNat count
  let below := (num * Nat.pow 10 (-power).toNat) / (den * Nat.pow 10 power.toNat)
  let twice := common (2 * below + 1) power (2 * near.value) near.exponent
  match near.has below power, near.has (below + 1) power with
  | true, true =>
    if twice.2 < twice.1 ∨ twice.2 = twice.1 ∧ below % 2 = 0 then some (below, power)
    else some (below + 1, power)
  | true, false => some (below, power)
  | false, true => some (below + 1, power)
  | false, false => none

/-- The decimal with the fewest digits that reads back as a finite number other than zero. -/
def fewestDigits (mantissa : Nat) (exponent : Int) : Nat × Int :=
  let near := neighbourhood mantissa exponent
  let a := magnitude mantissa exponent
  let point := pointPosition a.1 a.2
  ((List.range 17).findSome? fun n => candidate? near a.1 a.2 point (n + 1)).getD
    (a.1 * Nat.pow 5 (-exponent).toNat, -Int.ofNat (-exponent).toNat)

/-- Digits without trailing zeros, the zeros counted into the power. -/
def stripZeros : List Char → Int → List Char × Int
  | digits, power =>
    let kept := (digits.reverse.dropWhile (· == '0')).reverse
    (kept, power + Int.ofNat (digits.length - kept.length))

/-- Digits with the point at `point`, in positional notation or with an exponent. -/
def layOut (digits : List Char) (point : Int) : List Char :=
  if -4 < point ∧ point ≤ 16 then
    if point ≤ 0 then '0' :: '.' :: List.replicate (-point).toNat '0' ++ digits
    else
      let whole := point.toNat
      if digits.length ≤ whole then
        digits ++ List.replicate (whole - digits.length) '0' ++ ['.', '0']
      else digits.take whole ++ '.' :: digits.drop whole
  else
    let power := point - 1
    let sign := if power < 0 then '-' else '+'
    let tail := 'e' :: sign :: padDigits 2 power.natAbs
    match digits with
    | [] => tail
    | [d] => d :: tail
    | d :: rest => d :: '.' :: rest ++ tail

/-- A finite magnitude in its shortest notation. -/
def shortestMagnitude (mantissa : Nat) (exponent : Int) : List Char :=
  if mantissa = 0 then ['0', '.', '0']
  else
    let (n, power) := fewestDigits mantissa exponent
    let (digits, power) := stripZeros (Nat.toDigits 10 n) power
    layOut digits (power + Int.ofNat digits.length)

/-- How the numbers that are not finite are written. -/
structure SpecialNames where
  infinity : String
  negInfinity : String
  nan : String

/-- The shortest notation. -/
def shortest (names : SpecialNames) : Binary64 → String
  | .finite s m e => String.ofList ((if s then ['-'] else []) ++ shortestMagnitude m e)
  | .infinite s => if s then names.negInfinity else names.infinity
  | .nan => names.nan

end Binary64

end UsageCensus.Number
