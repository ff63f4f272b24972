import UsageCensus.Number.Decimal

/-!
# Sums, shares and averages of counts

A quotient of counts is the binary64 number nearest to it, and of nothing it is zero. Shares
are in percent.
-/

namespace UsageCensus.Number

/-- The sum of a count over items. -/
def sumOf {α : Type} (count : α → Nat) : List α → Nat
  | [] => 0
  | a :: items => count a + sumOf count items

/-- A hundred. -/
def Binary64.hundred : Binary64 := .ofRatio false 100 1

/-- `part` of `whole`; of nothing, zero. -/
def quotient (part whole : Nat) : Binary64 :=
  if whole = 0 then .zero false else .ofRatio false part whole

/-- `part` of `whole` in percent, to one decimal. -/
def percent (part whole : Nat) : Binary64 :=
  ((quotient part whole).mul .hundred).roundedTo 1

/-- `sum` spread over `count` items, to a number of decimals. -/
def average (places sum count : Nat) : Binary64 := (quotient sum count).roundedTo places

end UsageCensus.Number
