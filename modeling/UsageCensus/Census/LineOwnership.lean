import UsageCensus.Census.Breakdown
import UsageCensus.Number.Share
import UsageCensus.Source.Scan

/-!
# Line ownership

How many source lines belong to the tracked libraries. A line is owned if a tracked import
statement touches it, or an opening tag of a tracked component from its `<` through its `>`. A
line counts once in a file, however often it is touched. Shares are taken of the lines in files
that render markup.
-/

namespace UsageCensus.Census

open UsageCensus.Number UsageCensus.Source UsageCensus.Text

structure FileLines where
  total : Nat
  /-- Lines of imports or tags. -/
  tracked : Nat
  imports : Nat
  tags : Nat
  tagCount : Nat
  rendersMarkup : Bool
  /-- Lines of the tags of each component. -/
  byComponent : Table String Nat

/-- Every line that one of the spans touches, once. -/
def linesOfSpans (index : LineIndex) (spans : List (Nat × Nat)) : List Nat :=
  (spans.flatMap fun span => index.linesBetween span.1 span.2).eraseDups

/-- The tags of each component, from `<` through `>`. -/
def tagsByComponent (instances : List Instance) : Table String (List (Nat × Nat)) :=
  instances.foldl (fun table tag =>
    table.update tag.component fun spans => spans.getD [] ++ [(tag.start, tag.stop)]) .empty

def FileLines.measure (content : List Char) (scan : FileScan) (tracked : Tracked) : FileLines :=
  let index := LineIndex.ofText content
  let imports := linesOfSpans index (trackedImportSpans content tracked)
  let tags := linesOfSpans index (scan.instances.map fun tag => (tag.start, tag.stop))
  { total := lineCount content
    tracked := (imports ++ tags).eraseDups.length
    imports := imports.length
    tags := tags.length
    tagCount := scan.instances.length
    rendersMarkup := Source.rendersMarkup content
    byComponent := (tagsByComponent scan.instances).mapValues fun spans =>
      (linesOfSpans index spans).length }

structure LineTotals where
  files : Nat
  markupFiles : Nat
  trackedFiles : Nat
  lines : Nat
  /-- Lines of the files that render markup. -/
  markupLines : Nat
  tracked : Nat
  imports : Nat
  tags : Nat
  tagCount : Nat
  byComponent : Table String Nat

namespace LineTotals

instance : Totals LineTotals FileLines where
  zero := ⟨0, 0, 0, 0, 0, 0, 0, 0, 0, .empty⟩
  add sums file :=
    { files := sums.files + 1
      markupFiles := sums.markupFiles + if file.rendersMarkup then 1 else 0
      trackedFiles := sums.trackedFiles + if 0 < file.tracked then 1 else 0
      lines := sums.lines + file.total
      markupLines := sums.markupLines + if file.rendersMarkup then file.total else 0
      tracked := sums.tracked + file.tracked
      imports := sums.imports + file.imports
      tags := sums.tags + file.tags
      tagCount := sums.tagCount + file.tagCount
      byComponent := sums.byComponent.addAll file.byComponent }

def listed : Nat := 20

def toDocument (sums : LineTotals) : Document :=
  .object [("file_count", .ofNat sums.files),
    ("ui_file_count", .ofNat sums.markupFiles),
    ("files_with_tracked_ui", .ofNat sums.trackedFiles),
    ("total_lines", .ofNat sums.lines),
    ("ui_file_lines", .ofNat sums.markupLines),
    ("tracked_lines", .ofNat sums.tracked),
    ("import_lines", .ofNat sums.imports),
    ("tag_lines", .ofNat sums.tags),
    ("line_ownership_percent", .float (percent sums.tracked sums.markupLines)),
    ("tag_count", .ofNat sums.tagCount),
    ("avg_lines_per_tag", .float (average 2 sums.tags sums.tagCount)),
    ("top_components", .list <| ((sums.byComponent.ranked Int.ofNat).take listed).map
      fun (component, lines) => .object [("component", .string component),
        ("lines", .ofNat lines),
        ("percent_of_tracked_lines", .float (percent lines sums.tracked)),
        ("percent_of_ui_code", .float (percent lines sums.markupLines))])]

end LineTotals

end UsageCensus.Census
