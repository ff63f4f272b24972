import UsageCensus.Report.Csv
import UsageCensus.Report.Lookup

/-!
# Sheets

The summaries of a census as records for a spreadsheet. Each function takes the summary as a
document and says which record stands where; a document that lacks a member, or has one of
another kind, raises the fault of reading it.
-/

namespace UsageCensus.Report.Sheet

open UsageCensus.Document

/-- A member as a field. -/
def field (value : Document) (key : String) : Except Fault String := do
  return Csv.cell (← value.member key)

/-- A member as a field with a number of decimals. -/
def decimal (places : Nat) (value : Document) (key : String) : Except Fault String := do
  (← value.member key).fixed places

/-- A member as a field in percent. -/
def percentage (value : Document) (key : String) : Except Fault String := do
  return (← decimal 1 value key) ++ "%"

/-- The count of each codebase in a member; a codebase that is missing counts zero. -/
def codebaseCounts (value : Document) (key : String) (codebases : List Document) :
    Except Fault (List String) :=
  codebases.mapM fun codebase => do
    return Csv.cell (← (← value.member key).partOr codebase (.int 0))

/-! ## Components -/

/-- A prop with its usages. -/
def propNote (prop : Document) : Except Fault String := do
  let name ← prop.member "name"
  let usages ← prop.member "usages"
  return name.display ++ "(" ++ usages.display ++ ")"

/-- How many props a record names. -/
def notedProps : Int := 5

def componentRecord (codebases : List Document) (component : Document) :
    Except Fault (List String) := do
  let top ← (← (← component.member "top_props").upTo notedProps).elements
  let notes ← top.mapM propNote
  let counts ← ["component", "total_imports", "total_instances", "total_default_usages"].mapM
    (field component)
  let imports ← codebaseCounts component "codebase_imports" codebases
  let instances ← codebaseCounts component "codebase_instances" codebases
  let props ← field component "unique_props"
  let average ← decimal 2 component "avg_props_per_instance"
  return counts ++ imports ++ instances ++ [props, average, "; ".intercalate notes]

/-- One record for each component. -/
def components (summary : Document) : Except Fault String := do
  let codebases ← (← summary.memberOr "codebases" (.list [])).elements
  let named (what : String) := codebases.map fun codebase => codebase.display ++ what
  let header := ["Component", "Total Imports", "Total Instances", "Default Value Usages"]
    ++ named " Imports" ++ named " Instances" ++ ["Unique Props", "Avg Props/Instance", "Top 5 Props"]
  let components ← (← summary.memberOr "components" (.list [])).elements
  let records ← components.mapM (componentRecord codebases)
  return Csv.render (header :: records)

/-! ## Customizations -/

def customizationRecord (codebases : List Document) (row : Document) :
    Except Fault (List String) := do
  let component ← field row "component"
  let kind ← field row "type"
  let counts ← codebaseCounts row "counts" codebases
  let total ← field row "total"
  let properties ← (← row.member "top_properties").joined "; "
  return [component, kind] ++ counts ++ [total, properties]

/-- One record for each component and kind. -/
def customizations (summary : Document) : Except Fault String := do
  let codebases ← (← summary.memberOr "codebases" (.object [])).elements
  let header := ["Component", "Type"]
    ++ codebases.map (fun codebase => codebase.display ++ " Count") ++ ["Total", "Top Properties"]
  let rows ← (← summary.memberOr "rows" (.list [])).elements
  let records ← rows.mapM (customizationRecord codebases)
  return Csv.render (header :: records)

/-! ## Line ownership and prop surface -/

/-- A column: its header, the member that it shows, and how. -/
structure Column where
  header : String
  key : String
  read : Document → String → Except Fault String

/-- A sheet of totals: columns of the totals, and columns of the components. -/
structure TotalsSheet where
  totals : List Column
  components : List Column

/-- The record of the totals of a codebase. -/
def totalsRecord (sheet : TotalsSheet) (label : String) (sums : Document) :
    Except Fault (List String) := do
  let fields ← sheet.totals.mapM fun column => column.read sums column.key
  return label :: fields

/-- The records of the components of a codebase. -/
def breakdownRecords (sheet : TotalsSheet) (codebase : String) (sums : Document) :
    Except Fault (List (List String)) := do
  (← (← sums.member "top_components").elements).mapM fun component => do
    let name ← field component "component"
    let fields ← sheet.components.mapM fun column => column.read component column.key
    return name :: codebase :: fields

/-- The totals of each codebase and of all, a blank line, and the components of each codebase. -/
def totals (sheet : TotalsSheet) (summary : Document) : Except Fault String := do
  let codebases ← (← summary.memberOr "codebases" (.object [])).members
  let records ← codebases.mapM fun (name, sums) => totalsRecord sheet name sums
  let all ← totalsRecord sheet "TOTAL" (← summary.member "all")
  let breakdown ← codebases.mapM fun (name, sums) => breakdownRecords sheet name sums
  let header := "Codebase" :: sheet.totals.map Column.header
  let breakdownHeader := "Component" :: "Codebase" :: sheet.components.map Column.header
  return Csv.render ((header :: records) ++ [all, [], breakdownHeader] ++ breakdown.flatten)

def lineOwnershipSheet : TotalsSheet where
  totals := [⟨"Total Files", "file_count", field⟩, ⟨"UI Files", "ui_file_count", field⟩,
    ⟨"Files with Tracked UI", "files_with_tracked_ui", field⟩,
    ⟨"Total Lines", "total_lines", field⟩, ⟨"UI File Lines", "ui_file_lines", field⟩,
    ⟨"Tracked Lines", "tracked_lines", field⟩, ⟨"Import Lines", "import_lines", field⟩,
    ⟨"JSX Tag Lines", "tag_lines", field⟩,
    ⟨"Line Ownership % (UI)", "line_ownership_percent", percentage⟩,
    ⟨"Tags", "tag_count", field⟩, ⟨"Avg Lines per Tag", "avg_lines_per_tag", decimal 2⟩]
  components := [⟨"Lines", "lines", field⟩,
    ⟨"% of Tracked Lines", "percent_of_tracked_lines", percentage⟩,
    ⟨"% of UI Code", "percent_of_ui_code", percentage⟩]

def lineOwnership : Document → Except Fault String := totals lineOwnershipSheet

def propSurfaceSheet : TotalsSheet where
  totals := [⟨"Total Files", "file_count", field⟩, ⟨"UI Files", "ui_file_count", field⟩,
    ⟨"Files with Tracked UI", "files_with_tracked_ui", field⟩,
    ⟨"Total Chars", "total_chars", field⟩, ⟨"UI File Chars", "ui_file_chars", field⟩,
    ⟨"Prop Chars", "prop_chars", field⟩,
    ⟨"Prop Surface % (UI)", "prop_surface_percent", percentage⟩,
    ⟨"Tags", "tag_count", field⟩,
    ⟨"Avg Prop Chars per Tag", "avg_prop_chars_per_tag", decimal 1⟩]
  components := [⟨"Prop Chars", "prop_chars", field⟩,
    ⟨"% of Props", "percent_of_props", percentage⟩,
    ⟨"% of UI Code", "percent_of_ui_code", percentage⟩]

def propSurface : Document → Except Fault String := totals propSurfaceSheet

/-! ## Prop combinations -/

def combinationRecord (summary props : Document) (counts : List Counts) (entry : Document) :
    Except Fault (List String) := do
  let key ← keyOf props entry
  let component ← field summary "component"
  let codebases ← counts.mapM fun counts => counts.find key
  let total ← field entry "count"
  return component :: key.map Csv.cell ++ codebases.map Csv.cell ++ [total]

/-- One record for each list of values, with its count in each codebase. -/
def combinations (summary : Document) : Except Fault String := do
  let props ← summary.member "props"
  let codebases ← (← summary.memberOr "by_codebase" (.object [])).elements
  let counts ← countsByCodebase summary props codebases
  let header := "Component" :: (← props.elements).map Csv.cell ++ codebases.map Csv.cell ++ ["Total"]
  let entries ← (← summary.memberOr "combinations" (.list [])).elements
  let records ← entries.mapM (combinationRecord summary props counts)
  return Csv.render (header :: records)

end UsageCensus.Report.Sheet
