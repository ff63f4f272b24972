import UsageCensus.Document.Basic

/-!
# Totals by codebase

Measures of single files are added up twice: for their codebase, and over all of them.
-/

namespace UsageCensus.Census

/-- Sums of measures of files. -/
class Totals (τ : Type) (ρ : outParam Type) where
  /-- The sums over no file. -/
  zero : τ
  /-- One more file. -/
  add : τ → ρ → τ

/-- Sums for each codebase, in the order in which codebases came, and over all files. -/
structure Breakdown (τ : Type) where
  byCodebase : Table String τ
  overall : τ

namespace Breakdown

variable {τ ρ : Type} [Totals τ ρ]

def empty : Breakdown τ := ⟨.empty, Totals.zero⟩

def add (totals : Breakdown τ) (codebase : String) (measure : ρ) : Breakdown τ where
  byCodebase := totals.byCodebase.update codebase fun old =>
    Totals.add (old.getD Totals.zero) measure
  overall := Totals.add totals.overall measure

def summary {τ : Type} (toDocument : τ → Document) (generatedAt : String) (totals : Breakdown τ) :
    List (String × Document) :=
  [("generated_at", .string generatedAt),
   ("codebases", Document.ofTable toDocument totals.byCodebase),
   ("all", toDocument totals.overall)]

end Breakdown

end UsageCensus.Census
