import UsageCensus.Census.Aspect
import UsageCensus.Census.Combination
import UsageCensus.Census.Customization
import UsageCensus.Census.Inventory
import UsageCensus.Census.LineOwnership
import UsageCensus.Census.PropSurface

/-!
# The census

All that is counted in a run. Files are added one by one to the aspects that were chosen; when
all are in, defaults are detected, and the reports are made of the totals.
-/

namespace UsageCensus

open UsageCensus.Census UsageCensus.Source

/-- A source file that has been scanned. -/
structure ScannedFile where
  content : List Char
  scan : FileScan

def ScannedFile.ofText (tracked : Tracked) (content : List Char) : ScannedFile :=
  ⟨content, .ofText content tracked⟩

structure Census where
  tracked : Tracked
  combinations : List PropCombination
  aspects : List Aspect
  inventory : Inventory
  customizations : Breakdown CustomizationTotals
  lines : Breakdown LineTotals
  surface : Breakdown SurfaceTotals
  tallies : CombinationTallies

namespace Census

def start (tracked : Tracked) (combinations : List PropCombination) (aspects : List Aspect) :
    Census where
  tracked := tracked
  combinations := combinations
  aspects := aspects
  inventory := .ofTracked tracked
  customizations := .empty
  lines := .empty
  surface := .empty
  tallies := .ofCombinations combinations

def addTo (census : Census) (codebase path : String) (file : ScannedFile) :
    Aspect → Except Fault Census
  | .components => do
    let inventory ← census.inventory.add codebase path file.scan
    return { census with inventory }
  | .customizations =>
    let found := FileCustomizations.find file.content census.tracked
    .ok { census with customizations := census.customizations.add codebase found }
  | .lineOwnership =>
    let lines := FileLines.measure file.content file.scan census.tracked
    .ok { census with lines := census.lines.add codebase lines }
  | .propSurface =>
    let surface := FileSurface.measure file.content file.scan
    .ok { census with surface := census.surface.add codebase surface }
  | .propCombinations =>
    let found := FileCombinations.find file.scan census.combinations
    .ok { census with tallies := census.tallies.add codebase path found }

def addFile (census : Census) (codebase path : String) (file : ScannedFile) :
    Except Fault Census :=
  census.aspects.foldlM (fun census aspect => census.addTo codebase path file aspect) census

/-- Detects and applies defaults, if components are looked at. -/
def finalize (census : Census) : Except Fault Census := do
  if census.aspects.contains .components then
    let inventory ← census.inventory.finalize Detection.detect
    return { census with inventory }
  else return census

end Census

end UsageCensus
