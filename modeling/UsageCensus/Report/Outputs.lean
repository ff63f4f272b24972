import UsageCensus.Census
import UsageCensus.Defaults.Listing
import UsageCensus.Document.Saved
import UsageCensus.Report.Markdown
import UsageCensus.Report.Sheet

/-!
# Report files

The files that a census is written as, by their paths below the output directory: each aspect
as a document, a sheet and a page, and for components also a document for each used component
and the detected defaults.
-/

namespace UsageCensus.Census

open UsageCensus.Report

variable [Room]

/-- Texts by path. -/
abbrev Outputs := List (String × String)

/-- A summary as a document, a sheet and a page. -/
def threeWays (base : String) (summary : Document) (sheet : Document → Except Fault String)
    (page : Document → Except Fault String) : Except Fault Outputs := do
  let text ← summary.savedText
  let sheet ← sheet summary
  let page ← page summary
  return [(base ++ ".json", text), (base ++ ".csv", sheet), (base ++ ".md", page)]

/-- The path of a component's document, from the directory of all of them. -/
def detailPath (component : String) : String := "components/detail/" ++ component ++ ".json"

def componentOutputs (generatedAt library : String) (codebases : List String)
    (inventory : Inventory) : Except Fault Outputs := do
  let used := inventory.reports.entries.filter fun entry => entry.2.isUsed
  let details ← used.mapM fun (component, report) => do
    return (detailPath component, ← report.detail.savedText)
  let summary ← threeWays "components/summary"
    (inventory.reports.summary generatedAt codebases)
    Sheet.components (fun summary => Markdown.components summary library)
  let detected := inventory.detected
  let defaults ← (Detection.summary Document.ofNat (some generatedAt) detected).savedText
  return details ++ summary
    ++ [("components/detected-prop-defaults.json", defaults),
      ("components/detected-prop-defaults.txt", Detection.listing .none toString detected)]

def combinationOutputs (generatedAt library : String) (codebases : List String)
    (tally : CombinationTally) : Except Fault Outputs :=
  threeWays tally.reportPath (tally.summary generatedAt library codebases)
    Sheet.combinations
    (fun summary => Markdown.combinations summary Markdown.listedCombinations)

/-- The files of one aspect. -/
def outputsOf (census : Census) (generatedAt : String) (codebases : List String) :
    Aspect → Except Fault Outputs
  | .components => componentOutputs generatedAt census.tracked.name codebases census.inventory
  | .customizations =>
    threeWays "customizations/report" (customizationSummary generatedAt census.customizations)
      Sheet.customizations (fun summary => Markdown.customizations summary census.tracked.name)
  | .lineOwnership =>
    threeWays "line-ownership/report"
      (.object (census.lines.summary LineTotals.toDocument generatedAt))
      Sheet.lineOwnership (fun summary => Markdown.lineOwnership summary census.tracked.name)
  | .propSurface =>
    threeWays "prop-surface/report"
      (.object (census.surface.summary SurfaceTotals.toDocument generatedAt))
      Sheet.propSurface (fun summary => Markdown.propSurface summary census.tracked.name)
  | .propCombinations => do
    let outputs ← census.tallies.tallies.mapM
      (combinationOutputs generatedAt census.tracked.name codebases)
    return outputs.flatten

/-- The files of every chosen aspect; of two with one path the later one counts. -/
def outputs (census : Census) (generatedAt : String) (codebases : List String) :
    Except Fault (Table String String) := do
  let all ← census.aspects.mapM (census.outputsOf generatedAt codebases)
  return .ofPairs all.flatten

end UsageCensus.Census
