import UsageCensus.Census.Breakdown
import UsageCensus.Number.Share
import UsageCensus.Source.Scan

/-!
# Prop surface

How many characters are spent on the attributes of tracked components: for every opening tag,
those between the name and the closing `>`. Shares are taken of the characters in files that
render markup.
-/

namespace UsageCensus.Census

open UsageCensus.Number UsageCensus.Source

structure FileSurface where
  total : Nat
  props : Nat
  tagCount : Nat
  rendersMarkup : Bool
  byComponent : Table String Nat

/-- Characters between the name and the closing `>`. -/
def surfaceOf (tag : Instance) : Nat := tag.stop - tag.bodyStart

def FileSurface.measure (content : List Char) (scan : FileScan) : FileSurface where
  total := content.length
  props := sumOf surfaceOf scan.instances
  tagCount := scan.instances.length
  rendersMarkup := Source.rendersMarkup content
  byComponent := scan.instances.foldl (fun table tag =>
    table.add tag.component (surfaceOf tag)) .empty

structure SurfaceTotals where
  files : Nat
  markupFiles : Nat
  trackedFiles : Nat
  chars : Nat
  /-- Characters of the files that render markup. -/
  markupChars : Nat
  props : Nat
  tagCount : Nat
  byComponent : Table String Nat

namespace SurfaceTotals

instance : Totals SurfaceTotals FileSurface where
  zero := ⟨0, 0, 0, 0, 0, 0, 0, .empty⟩
  add sums file :=
    { files := sums.files + 1
      markupFiles := sums.markupFiles + if file.rendersMarkup then 1 else 0
      trackedFiles := sums.trackedFiles + if 0 < file.tagCount then 1 else 0
      chars := sums.chars + file.total
      markupChars := sums.markupChars + if file.rendersMarkup then file.total else 0
      props := sums.props + file.props
      tagCount := sums.tagCount + file.tagCount
      byComponent := sums.byComponent.addAll file.byComponent }

def listed : Nat := 20

def toDocument (sums : SurfaceTotals) : Document :=
  .object [("file_count", .ofNat sums.files),
    ("ui_file_count", .ofNat sums.markupFiles),
    ("files_with_tracked_ui", .ofNat sums.trackedFiles),
    ("total_chars", .ofNat sums.chars),
    ("ui_file_chars", .ofNat sums.markupChars),
    ("prop_chars", .ofNat sums.props),
    ("prop_surface_percent", .float (percent sums.props sums.markupChars)),
    ("tag_count", .ofNat sums.tagCount),
    ("avg_prop_chars_per_tag", .float (average 1 sums.props sums.tagCount)),
    ("top_components", .list <| ((sums.byComponent.ranked Int.ofNat).take listed).map
      fun (component, chars) => .object [("component", .string component),
        ("prop_chars", .ofNat chars),
        ("percent_of_props", .float (percent chars sums.props)),
        ("percent_of_ui_code", .float (percent chars sums.markupChars))])]

end SurfaceTotals

end UsageCensus.Census
