import UsageCensus.Document.Access

/-!
# Counts of value combinations

The summary of a prop combination counts lists of values, and counts them again in each
codebase. Here the counts of a codebase are looked up by a list of values.
-/

namespace UsageCensus.Report

/-- The two lists of values are the same. -/
def sameKeys : List Document → List Document → Bool
  | [], [] => true
  | a :: as, b :: bs => a.sameKey b && sameKeys as bs
  | _, _ => false

/-- The values of the props in an entry. -/
def keyOf (props entry : Document) : Except Fault (List Document) := do
  (← props.elements).mapM fun prop => do (← entry.member "values").part prop

/-- Counts by lists of values. -/
abbrev Counts := List (List Document × Document)

/-- All values that are looked up must be keys. -/
def checkKey (key : List Document) : Except Fault Unit :=
  if key.all Document.isKey then .ok () else .error .wrongKind

/-- The counts of a list of entries. -/
def countsOf (props entries : Document) : Except Fault Counts := do
  (← entries.elements).mapM fun entry => do
    let key ← keyOf props entry
    let count ← entry.member "count"
    checkKey key
    return (key, count)

/-- The counts of each codebase, in their order. -/
def countsByCodebase (summary props : Document) (codebases : List Document) :
    Except Fault (List Counts) :=
  codebases.mapM fun codebase => do
    let entries ← (← (← summary.member "by_codebase").part codebase).member "combinations"
    let counts ← countsOf props entries
    checkKey [codebase]
    return counts

/-- The last count of the values, or zero. -/
def Counts.find (counts : Counts) (key : List Document) : Except Fault Document := do
  checkKey key
  match (counts.reverse.find? fun entry => sameKeys entry.1 key) with
  | some (_, count) => return count
  | none => return .int 0

end UsageCensus.Report
