import UsageCensus.Document.Access
import UsageCensus.Report.Lookup
import UsageCensus.Text.Integer

/-!
# Markdown

The summaries of a census as pages. Each function takes the summary as a document; a document
that lacks a member, or has one of another kind, raises the fault of reading it.
-/

namespace UsageCensus.Report.Markdown

open UsageCensus.Document

/-- A text in a cell of a table. -/
def cellText (text : String) : String :=
  String.ofList <| text.toList.flatMap fun c =>
    if c = '|' then ['\\', '|'] else if c = '\n' then [' '] else [c]

/-- A value in a cell of a table. -/
def cell (value : Document) : String := cellText value.display

/-- A value as code in a cell of a table. -/
def code (value : Document) : String := "\x60" ++ cell value ++ "\x60"

/-- A member in running text. -/
def text (value : Document) (key : String) : Except Fault String := do
  return (← value.member key).display

/-- A member in running text, or a default. -/
def textOr (value : Document) (key : String) (default : Document) : Except Fault String := do
  return (← value.memberOr key default).display

/-- A member with a number of decimals. -/
def decimal (places : Nat) (value : Document) (key : String) : Except Fault String := do
  (← value.member key).fixed places

/-- A member in percent. -/
def percentage (value : Document) (key : String) : Except Fault String := do
  return (← decimal 1 value key) ++ "%"

/-- A number of characters in its largest unit. -/
def size (value : Document) : Except Fault String := do
  let amount ← value.amount
  if (Amount.whole 1000000).le amount then
    return ((← amount.quotient (.whole 1000000)).fixed 2) ++ " MB"
  else if (Amount.whole 1000).le amount then
    return ((← amount.quotient (.whole 1000)).fixed 1) ++ " KB"
  else return value.display ++ " chars"

/-- A member that is a number of characters. -/
def sizeOf (value : Document) (key : String) : Except Fault String := do
  size (← value.member key)

/-- A row of a table. -/
def row (cells : List String) : String := "| " ++ " | ".intercalate cells ++ " |"

/-- The lines of a page. -/
def page (lines : List String) : String := "\n".intercalate lines

def generatedLine (summary : Document) : Except Fault String := do
  return "**Generated**: " ++ (← textOr summary "generated_at" (.string "unknown"))

/-! ## Components -/

/-- How many components a page tells more about. -/
def detailed : Int := 20

/-- The share of the instances that set a prop. -/
def instanceShare (prop instances : Document) : Except Fault String := do
  if instances.isPresent then
    let usages ← (← prop.member "usages").amount
    let share ← usages.percent (← instances.amount)
    return share.fixed 1 ++ "%"
  else return "0.0%"

def valueNote (entry : Document) : Except Fault String := do
  let value ← entry.member "value"
  let count ← text entry "count"
  return code value ++ " (" ++ count ++ ")"

def propRow (instances prop : Document) : Except Fault String := do
  let share ← instanceShare prop instances
  let values ← (← (← prop.member "top_values").elements).mapM valueNote
  let name ← prop.member "name"
  let usages ← text prop "usages"
  let defaults ← text prop "default_usages"
  return row [cell name, usages, defaults, share, ", ".intercalate values]

def componentLines (component : Document) : Except Fault (List String) := do
  let name ← text component "component"
  let imports ← text component "total_imports"
  let instances ← text component "total_instances"
  let props ← text component "unique_props"
  let heading := ["## " ++ name, "",
    "- **Imports**: " ++ imports ++ "  **Instances**: " ++ instances
      ++ "  **Unique props**: " ++ props, ""]
  let top ← component.member "top_props"
  if top.isPresent then
    let total ← component.member "total_instances"
    let rows ← (← top.elements).mapM (propRow total)
    return heading
      ++ ["| Prop | Usages | Defaults | % of instances | Top values |",
        "|------|--------|----------|----------------|------------|"] ++ rows ++ [""]
  else return heading ++ ["_No props used._", ""]

def rankingRow (component : Document) (rank : Nat) : Except Fault String := do
  let counts ← ["component", "total_imports", "total_instances", "unique_props"].mapM
    (text component)
  let average ← decimal 2 component "avg_props_per_instance"
  let defaults ← text component "total_default_usages"
  return row (toString rank :: counts ++ [average, defaults])

/-- The components by rank, and the props of the first ones. -/
def components (summary : Document) (library : String) : Except Fault String := do
  let components ← summary.memberOr "components" (.list [])
  let generated ← generatedLine summary
  let total (key : String) := textOr summary key (.int 0)
  let count ← total "total_components"
  let imports ← total "total_imports"
  let instances ← total "total_instances"
  let defaults ← total "total_default_usages"
  let ranking ← (← components.elements).zipIdx.mapM fun (component, index) =>
    rankingRow component (index + 1)
  let details ← (← (← components.upTo detailed).elements).mapM componentLines
  return page <|
    ["# Per-Component Usage: " ++ library, "", generated,
      "**Components**: " ++ count, "**Imports**: " ++ imports,
      "**JSX instances**: " ++ instances,
      "**Default value usages**: " ++ defaults ++ " (props explicitly set to their default)",
      "", "## Ranking", "",
      "| Rank | Component | Imports | Instances | Props | Avg Props/Instance | Defaults |",
      "|------|-----------|---------|-----------|-------|--------------------|----------|"]
    ++ ranking ++ [""] ++ details.flatten

/-! ## Customizations -/

/-- How many components a table of customizations lists. -/
def listedComponents : Nat := 20

/-- A table of components with their counts, if there are any. -/
def countTable (heading : String) (byComponent : Document) : Except Fault (List String) := do
  if byComponent.isPresent then
    let members ← byComponent.members
    let rows := (members.take listedComponents).map fun (component, count) =>
      row [component, count.display]
    return ["### " ++ heading, "", "| Component | Count |", "|-----------|-------|"] ++ rows ++ [""]
  else return []

/-- A table of properties with their counts, if there are any. -/
def propertyTable (heading : String) (properties : Document) : Except Fault (List String) := do
  if properties.isPresent then
    let rows ← (← properties.elements).mapM fun property => do
      let name ← property.member "property"
      let count ← text property "count"
      return row [code name, count]
    return ["### " ++ heading, "", "| Property | Count |", "|----------|-------|"] ++ rows ++ [""]
  else return []

def customizationLines (name : String) (sums : Document) : Except Fault (List String) := do
  let files ← text sums "total_files"
  let customized ← text sums "files_with_customizations"
  let inline ← text sums "inline_style_count"
  let styled ← text sums "styled_count"
  let inlineTable ← countTable "Inline styles by component"
    (← sums.member "inline_styles_by_component")
  let styledTable ← countTable "styled() by component" (← sums.member "styled_by_component")
  let inlineProperties ← propertyTable "Top inline style properties"
    (← sums.member "top_inline_properties")
  let styledProperties ← propertyTable "Top styled() properties"
    (← sums.member "top_styled_properties")
  return ["## " ++ name, "", "- **Files analyzed**: " ++ files,
      "- **Files with customizations**: " ++ customized, "- **Inline styles**: " ++ inline,
      "- **styled() wrappers**: " ++ styled, ""]
    ++ inlineTable ++ styledTable ++ inlineProperties ++ styledProperties

/-- The totals of every codebase, then those of all of them under a name of their own. -/
def withAll (summary : Document) (name : String) : Except Fault (List (String × Document)) := do
  let codebases ← (← summary.memberOr "codebases" (.object [])).members
  return codebases ++ [(name, ← summary.member "all")]

/-- A section for each codebase and one for all. -/
def customizations (summary : Document) (library : String) : Except Fault String := do
  let generated ← generatedLine summary
  let sections ← (← withAll summary "All codebases").mapM fun (name, sums) =>
    customizationLines name sums
  return page <|
    ["# " ++ library ++ " Customizations", "", generated, "",
      "Inline \x60style\x60 props and \x60styled()\x60 wrappers applied to tracked components.", ""]
    ++ sections.flatten

/-! ## Line ownership -/

def ownershipRow (name : String) (sums : Document) : Except Fault String := do
  let counts ← ["ui_file_count", "ui_file_lines", "tracked_lines", "import_lines",
    "tag_lines"].mapM (text sums)
  let share ← percentage sums "line_ownership_percent"
  let average ← decimal 2 sums "avg_lines_per_tag"
  return row (name :: counts ++ [share, average])

/-- A component with a count and two shares. -/
def shareRow (count first second : String) (component : Document) : Except Fault String := do
  let name ← text component "component"
  let count ← text component count
  let first ← percentage component first
  let second ← percentage component second
  return row [name, count, first, second]

/-- The table of components, if there are any. -/
def shareTable (lines : List String) (toRow : Document → Except Fault String)
    (components : Document) : Except Fault (List String) := do
  if components.isPresent then
    let rows ← (← components.elements).mapM toRow
    return lines ++ rows ++ [""]
  else return []

/-- The totals of each codebase, and the components. -/
def lineOwnership (summary : Document) (library : String) : Except Fault String := do
  let generated ← generatedLine summary
  let rows ← (← withAll summary "**Total**").mapM fun (name, sums) => ownershipRow name sums
  let components ← shareTable
    ["## Lines by component", "", "| Component | Lines | % of Tracked Lines | % of UI Code |",
      "|-----------|-------|--------------------|--------------|"]
    (shareRow "lines" "percent_of_tracked_lines" "percent_of_ui_code")
    (← (← summary.member "all").member "top_components")
  return page <|
    ["# " ++ library ++ " Line Ownership", "", generated, "",
      "Lines owned by tracked imports and opening tags, as a share of lines in",
      "files that render JSX.", "",
      "| Codebase | UI Files | UI File Lines | Tracked Lines | Imports | Tags | Ownership | Avg Lines/Tag |",
      "|----------|----------|---------------|---------------|---------|------|-----------|---------------|"]
    ++ rows ++ [""] ++ components

/-! ## Prop surface -/

def surfaceRow (name : String) (sums : Document) : Except Fault String := do
  let files ← text sums "ui_file_count"
  let chars ← sizeOf sums "ui_file_chars"
  let props ← sizeOf sums "prop_chars"
  let share ← percentage sums "prop_surface_percent"
  let tags ← text sums "tag_count"
  let average ← decimal 1 sums "avg_prop_chars_per_tag"
  return row [name, files, chars, props, share, tags, average]

/-- The totals of each codebase, and the components. -/
def propSurface (summary : Document) (library : String) : Except Fault String := do
  let generated ← generatedLine summary
  let rows ← (← withAll summary "**Total**").mapM fun (name, sums) => surfaceRow name sums
  let components ← shareTable
    ["## Prop characters by component", "", "| Component | Prop Chars | % of Props | % of UI Code |",
      "|-----------|------------|------------|--------------|"]
    (shareRow "prop_chars" "percent_of_props" "percent_of_ui_code")
    (← (← summary.member "all").member "top_components")
  return page <|
    ["# " ++ library ++ " Prop Surface", "", generated, "",
      "Characters between a tracked component's name and its closing \x60>\x60, as",
      "a share of characters in files that render JSX.", "",
      "| Codebase | UI Files | UI Code | Prop Chars | Surface | Tags | Avg Chars/Tag |",
      "|----------|----------|---------|------------|---------|------|---------------|"]
    ++ rows ++ [""] ++ components

/-! ## Prop combinations -/

/-- What stands between the values of a combination. -/
def times : String := " × "

def combinationRow (props entry : Document) (rank : Nat) : Except Fault String := do
  let values ← keyOf props entry
  let count ← text entry "count"
  let share ← percentage entry "percent_of_matched"
  return row (toString rank :: " | ".intercalate (values.map code) :: [count, share])

def codebaseRow (props : Document) (counts : List Counts) (entry : Document) :
    Except Fault String := do
  let key ← keyOf props entry
  let found ← counts.mapM fun counts => counts.find key
  let values ← key.mapM Document.asText
  let total ← text entry "count"
  return row [cellText (times.intercalate values),
    " | ".intercalate (found.map Document.display), total]

/-- How many combinations there are more, if there are any. -/
def moreLines (count : Int) : Except Fault (List String) :=
  if count ≤ 0 then .ok []
  else if Text.isWritable count then
    .ok ["", "_... and " ++ toString count ++ " more combinations_"]
  else .error (.tooManyDigits none)

/-- The counts in each codebase, if there are two or more. -/
def codebaseLines (summary props combinations : Document) (limit : Int) :
    Except Fault (List String) := do
  let codebases ← (← summary.memberOr "by_codebase" (.object [])).elements
  if codebases.length ≤ 1 then return []
  else
    let counts ← countsByCodebase summary props codebases
    let names ← codebases.mapM Document.asText
    let rows ← (← (← combinations.upTo limit).elements).mapM (codebaseRow props counts)
    let length ← combinations.length
    let more ← moreLines (Int.ofNat length - limit)
    return ["## By codebase", "", row ["Combination", " | ".intercalate names, "Total"],
        "|-------------|" ++ "|".intercalate (codebases.map fun _ => "---") ++ "|-------|"]
      ++ rows ++ more ++ [""]

/-- How many combinations the table of codebases lists. -/
def listedCombinations : Int := 30

/-- The combinations by rank, and their counts in each codebase. -/
def combinations (summary : Document) (limit : Int) : Except Fault String := do
  let component ← text summary "component"
  let props ← summary.member "props"
  let label ← props.joined times
  let combinations ← summary.memberOr "combinations" (.list [])
  let generated ← generatedLine summary
  let instances ← text summary "total_instances"
  let matched ← text summary "matched_instances"
  let unique ← text summary "unique_combinations"
  let heading :=
    ["# " ++ component ++ " Prop Combinations: " ++ label, "", generated, "",
      "Cross-tabulation of \x60" ++ label ++ "\x60 value combinations on \x60<" ++ component ++ ">\x60.",
      "Only instances where at least one of the listed props is set are included.", "",
      "- **Total \x60<" ++ component ++ ">\x60 instances**: " ++ instances,
      "- **Instances with at least one combo prop**: " ++ matched,
      "- **Unique combinations**: " ++ unique, ""]
  if combinations.isPresent then
    let names ← props.elements
    let rows ← (← combinations.elements).zipIdx.mapM fun (entry, index) =>
      combinationRow props entry (index + 1)
    let codebases ← codebaseLines summary props combinations limit
    return page <| heading
      ++ ["## Combinations", "",
        row ["Rank", " | ".intercalate (names.map code), "Count", "% of Matched"],
        "|------|" ++ "|".intercalate (names.map fun _ => "---") ++ "|-------|--------------|"]
      ++ rows ++ [""] ++ codebases
  else return page (heading ++ ["_No instances found with these props set._", ""])

end UsageCensus.Report.Markdown
