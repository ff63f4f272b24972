import UsageCensus.Fault
import UsageCensus.Document.Basic
import UsageCensus.Number.Share

/-!
# Amounts in documents

A number in a document is an amount, and so is a truth value, which counts as 0 or 1.
Quotients of integers are rounded once from the exact quotient; an integer meets a binary64
number as the nearest binary64 number, and comparisons are exact.
-/

namespace UsageCensus

open UsageCensus.Number

inductive Amount where
  | whole (n : Int)
  | real (x : Binary64)
  deriving Repr, DecidableEq

namespace Amount

def isZero : Amount → Bool
  | whole n => n == 0
  | real x => x.isZero

/-- The nearest binary64 number. -/
def toBinary64 : Amount → Except Fault Binary64
  | whole n => match Binary64.ofInt? n with
    | some x => .ok x
    | none => .error .tooLarge
  | real x => .ok x

def extended? : Amount → Option Binary64.Extended
  | whole n => some (.quotient n 1)
  | real x => x.extended?

/-- The amount has a place among all numbers. -/
def hasPlace (a : Amount) : Bool := a.extended?.isSome

/-- Exact comparison; a number that is none is not below any. -/
def lt (a b : Amount) : Bool :=
  match a.extended?, b.extended? with
  | some x, some y => x.lt y
  | _, _ => false

/-- Exact comparison; a number that is none is not below or at any. -/
def le (a b : Amount) : Bool :=
  match a.extended?, b.extended? with
  | some x, some y => !y.lt x
  | _, _ => false

def eq (a b : Amount) : Bool :=
  match a.extended?, b.extended? with
  | some x, some y => x.eq y
  | _, _ => false

/-- The quotient as a binary64 number. -/
def quotient (a b : Amount) : Except Fault Binary64 :=
  if b.isZero then .error .divisionByZero
  else
    match a, b with
    | whole m, whole n => match Binary64.ofQuotient? m n with
      | some x => .ok x
      | none => .error .tooLarge
    | _, _ => do
      let x ← a.toBinary64
      let y ← b.toBinary64
      return x.div y

/-- The share of `b` that `a` is, in percent. -/
def percent (a b : Amount) : Except Fault Binary64 := do
  let share ← a.quotient b
  return share.mul .hundred

/-- The largest number of places that is understood. -/
def largestPlaces : Int := 9223372036854775807

/-- The largest number of places that can be written. -/
def mostPlaces : Int := 2147483647

/-- A number with a fixed number of places, which can be neither negative nor too large. -/
def fixedText (places : Int) (x : Binary64) : Except Fault String :=
  if places < 0 then .error .negativePlaces
  else if largestPlaces < places then .error .unreadablePlaces
  else if mostPlaces < places then .error .tooManyPlaces
  else .ok (x.fixed places.toNat)

/-- A percentage with a fixed number of places; of nothing, zero. -/
def percentText (a b : Amount) (places : Int) : Except Fault String :=
  if b.isZero then fixedText places (.zero false)
  else do
    let share ← a.percent b
    fixedText places share

end Amount

namespace Document

/-- The amount that a value is. -/
def amount? : Document → Option Amount
  | int n => some (.whole n)
  | bool b => some (.whole (if b then 1 else 0))
  | float x => some (.real x)
  | _ => none

def amount (value : Document) : Except Fault Amount :=
  match value.amount? with
  | some a => .ok a
  | none => .error .wrongKind

end Document

end UsageCensus
