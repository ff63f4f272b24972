import UsageCensus.Number.Decimal

/-!
# Dates

A day of the calendar. Its text has four digits for the year and two each for the month and the
day, so that dates are in order as their texts are.
-/

namespace UsageCensus

open UsageCensus.Number

structure Date where
  year : Nat
  month : Nat
  day : Nat
  deriving Repr, DecidableEq

namespace Date

/-- Year, month and day with hyphens between them. -/
def text (date : Date) : String :=
  String.ofList
    (padDigits 4 date.year ++ '-' :: padDigits 2 date.month ++ '-' :: padDigits 2 date.day)

/-- The earlier date comes first. -/
def le (a b : Date) : Bool :=
  if a.year = b.year then
    if a.month = b.month then decide (a.day ≤ b.day) else decide (a.month < b.month)
  else decide (a.year < b.year)

end Date

end UsageCensus
