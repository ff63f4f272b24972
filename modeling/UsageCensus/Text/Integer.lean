import UsageCensus.Text.Class
import UsageCensus.Text.Reader

/-!
# Integers in text

Decimal digits of any script, with an optional sign before them, single underscores between
them, and blanks around.
-/

namespace UsageCensus.Text

/-- Blanks that may surround an integer: all but the information separators. -/
def isOuterBlank (c : Char) : Bool := isBlank c && !(28 ≤ c.toNat && c.toNat ≤ 31)

/-- Digits, with single underscores between them. -/
def isDigitGroup : List Char → Bool
  | [] => false
  | [c] => isDigit c
  | c :: '_' :: text => isDigit c && isDigitGroup text
  | c :: text => isDigit c && isDigitGroup text

/-- Longer numbers are not taken for integers, and longer integers are not written. -/
def maxIntegerDigits : Nat := 4300

/-- The integer has no more digits than can be written. -/
def isWritable (n : Int) : Bool := decide (n.natAbs < Nat.pow 10 maxIntegerDigits)

/-- The text is an integer. -/
def isInteger (text : List Char) : Bool :=
  let trimmed := ((text.dropWhile isOuterBlank).reverse.dropWhile isOuterBlank).reverse
  let unsigned := match trimmed with
    | '-' :: rest => rest
    | '+' :: rest => rest
    | rest => rest
  isDigitGroup unsigned && decide (unsigned.countP isDigit ≤ maxIntegerDigits)

end UsageCensus.Text
