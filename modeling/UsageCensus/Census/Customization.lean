import UsageCensus.Census.Breakdown
import UsageCensus.Source.Style
import UsageCensus.Source.Styled

/-!
# Customizations

How often the look of tracked components is overridden, by inline styles and by styled
wrappers, and with which properties.
-/

namespace UsageCensus.Census

open UsageCensus.Source

/-- The customizations in one file. -/
structure FileCustomizations where
  inline : List InlineStyle
  styled : List StyledUsage
  deriving Repr, DecidableEq

namespace FileCustomizations

def find (content : List Char) (tracked : Tracked) : FileCustomizations :=
  ⟨inlineStyles content tracked, styledUsages tracked.components content⟩

def total (file : FileCustomizations) : Nat := file.inline.length + file.styled.length

end FileCustomizations

/-- The customizations of one kind on one component. -/
structure CustomizedComponent where
  count : Nat
  properties : Table String Nat

namespace CustomizedComponent

def empty : CustomizedComponent := ⟨0, .empty⟩

def add (component : CustomizedComponent) (properties : List String) : CustomizedComponent :=
  ⟨component.count + 1, component.properties.addAll (.tally properties)⟩

end CustomizedComponent

structure KindTotals where
  count : Nat
  byComponent : Table String CustomizedComponent
  properties : Table String Nat

namespace KindTotals

def empty : KindTotals := ⟨0, .empty, .empty⟩

def add (sums : KindTotals) (component : String) (properties : List String) : KindTotals where
  count := sums.count + 1
  byComponent := sums.byComponent.update component fun old =>
    (old.getD .empty).add properties
  properties := sums.properties.addAll (.tally properties)

/-- Components by descending count. -/
def countsDocument (sums : KindTotals) : Document :=
  .object (((sums.byComponent.mapValues CustomizedComponent.count).ranked Int.ofNat).map
    fun (component, count) => (component, .ofNat count))

def listed : Nat := 20

def propertiesDocument (sums : KindTotals) : Document :=
  .list (((sums.properties.ranked Int.ofNat).take listed).map fun (property, count) =>
    .object [("property", .string property), ("count", .ofNat count)])

end KindTotals

structure CustomizationTotals where
  files : Nat
  customizedFiles : Nat
  inline : KindTotals
  styled : KindTotals

inductive CustomizationKind where
  | inline
  | styled
  deriving Repr, DecidableEq

namespace CustomizationKind

def label : CustomizationKind → String
  | inline => "inline style"
  | styled => "styled()"

def totals : CustomizationKind → CustomizationTotals → KindTotals
  | inline => CustomizationTotals.inline
  | styled => CustomizationTotals.styled

end CustomizationKind

namespace CustomizationTotals

instance : Totals CustomizationTotals FileCustomizations where
  zero := ⟨0, 0, .empty, .empty⟩
  add sums file :=
    { files := sums.files + 1
      customizedFiles := sums.customizedFiles + if 0 < file.total then 1 else 0
      inline := file.inline.foldl (fun kind style =>
        kind.add style.component style.properties) sums.inline
      styled := file.styled.foldl (fun kind usage =>
        kind.add usage.target.component usage.properties) sums.styled }

def toDocument (sums : CustomizationTotals) : Document :=
  .object [("total_files", .ofNat sums.files),
    ("files_with_customizations", .ofNat sums.customizedFiles),
    ("inline_style_count", .ofNat sums.inline.count),
    ("styled_count", .ofNat sums.styled.count),
    ("total_customizations", .ofNat (sums.inline.count + sums.styled.count)),
    ("inline_styles_by_component", sums.inline.countsDocument),
    ("styled_by_component", sums.styled.countsDocument),
    ("top_inline_properties", sums.inline.propertiesDocument),
    ("top_styled_properties", sums.styled.propertiesDocument)]

/-- Every customized component, in alphabetical order. -/
def components (byCodebase : Table String CustomizationTotals) : List String :=
  let names := byCodebase.values.flatMap fun sums =>
    sums.inline.byComponent.keys ++ sums.styled.byComponent.keys
  names.eraseDups.mergeSort fun a b => decide (a ≤ b)

end CustomizationTotals

/-- The customizations of one kind on one component, codebase by codebase. -/
structure CustomizationRow where
  component : String
  kind : CustomizationKind
  counts : Table String Nat
  properties : List String

namespace CustomizationRow

def total (row : CustomizationRow) : Nat := row.counts.total

def listed : Nat := 5

def ofComponent (byCodebase : Table String CustomizationTotals) (component : String)
    (kind : CustomizationKind) : CustomizationRow :=
  let found (sums : CustomizationTotals) := (kind.totals sums).byComponent.get? component
  let properties : Table String Nat :=
    (byCodebase.values.filterMap found).foldl (fun table c => table.addAll c.properties) .empty
  { component, kind
    counts := byCodebase.mapValues fun sums => ((found sums).map CustomizedComponent.count).getD 0
    properties := ((properties.ranked Int.ofNat).take listed).map Prod.fst }

/-- A row for each component and kind that occurs, most customized first. -/
def all (byCodebase : Table String CustomizationTotals) : List CustomizationRow :=
  let rows := (CustomizationTotals.components byCodebase).flatMap fun component =>
    [CustomizationKind.inline, .styled].map (ofComponent byCodebase component)
  (rows.filter fun row => row.total != 0).mergeSort fun a b => decide (b.total ≤ a.total)

def toDocument (row : CustomizationRow) : Document :=
  .object [("component", .string row.component),
    ("type", .string row.kind.label),
    ("counts", Document.ofCounts row.counts),
    ("total", .ofNat row.total),
    ("top_properties", Document.ofTexts row.properties)]

end CustomizationRow

def customizationSummary (generatedAt : String) (totals : Breakdown CustomizationTotals) :
    Document :=
  .object (totals.summary CustomizationTotals.toDocument generatedAt
    ++ [("rows", .list ((CustomizationRow.all totals.byCodebase).map CustomizationRow.toDocument))])

end UsageCensus.Census
