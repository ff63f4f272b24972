import UsageCensus.Defaults.Detection
import UsageCensus.PropValue
import UsageCensus.Source.Scan

/-!
# The inventory of components

One report for each tracked component: in how many files it is imported, how many instances
there are, and how often each value of each prop occurs. A component has a report even if it is
never used. When all files are in, the default of each prop is detected and applied; after that
no file can be added.
-/

namespace UsageCensus.Census

open UsageCensus.Number UsageCensus.Source

/-- A detected default that was applied: the value and how often it is set. -/
structure AppliedDefault where
  value : String
  usages : Nat
  deriving Repr, DecidableEq

/-- The usage of one prop of one component. -/
structure PropUsage where
  /-- How often each value occurs, by aggregation key. -/
  values : Table String Nat
  total : Nat
  applied : Option AppliedDefault

namespace PropUsage

def empty : PropUsage := ⟨.empty, 0, none⟩

def add (usage : PropUsage) (key : String) : PropUsage :=
  { usage with values := usage.values.add key 1, total := usage.total + 1 }

/-- Sets the default and counts how often it is set. -/
def apply (usage : PropUsage) (value : String) : PropUsage :=
  { usage with applied := some ⟨value, usage.values.getD value 0⟩ }

def defaultUsages (usage : PropUsage) : Nat := (usage.applied.map AppliedDefault.usages).getD 0

def toDocument (usage : PropUsage) : Document :=
  let applied := match usage.applied with
    | some default =>
      [("default_value", Document.string default.value), ("default_usages", .ofNat default.usages)]
    | none => []
  .object ([("total_usages", .ofNat usage.total),
    ("values", .object ((usage.values.ranked Int.ofNat).map fun (value, n) =>
      (value, .ofNat n)))] ++ applied)

end PropUsage

structure Reference where
  file : String
  line : Nat
  codebase : String
  deriving Repr, DecidableEq

def Reference.toDocument (reference : Reference) : Document :=
  .object [("file", .string reference.file), ("line", .ofNat reference.line),
    ("codebase", .string reference.codebase)]

structure ComponentReport where
  component : String
  imports : Nat
  instances : Nat
  props : Table String PropUsage
  codebaseImports : Table String Nat
  codebaseInstances : Table String Nat
  references : List Reference
  defaultUsages : Nat

namespace ComponentReport

def unused (component : String) : ComponentReport :=
  ⟨component, 0, 0, .empty, .empty, .empty, [], 0⟩

def addImport (report : ComponentReport) (codebase : String) : ComponentReport :=
  { report with
    imports := report.imports + 1
    codebaseImports := report.codebaseImports.add codebase 1 }

def addProp (report : ComponentReport) (name value : String) : ComponentReport :=
  { report with
    props := report.props.update name fun usage =>
      (usage.getD .empty).add (PropValue.aggregationKey value) }

def addInstance (report : ComponentReport) (codebase file : String) (tag : Instance) :
    ComponentReport :=
  let counted :=
    { report with
      instances := report.instances + 1
      codebaseInstances := report.codebaseInstances.add codebase 1
      references := report.references ++ [⟨file, tag.line, codebase⟩] }
  tag.attributes.foldl (fun report a => report.addProp a.name a.value) counted

def applyDefault (report : ComponentReport) (prop value : String) : ComponentReport :=
  match report.props.get? prop with
  | none => report
  | some usage =>
    let usage := usage.apply value
    { report with
      props := report.props.insert prop usage
      defaultUsages := report.defaultUsages + usage.defaultUsages }

def isUsed (report : ComponentReport) : Bool := report.instances != 0 || report.imports != 0

def propUsages (report : ComponentReport) : Nat :=
  sumOf PropUsage.total report.props.values

def propsByUsage (report : ComponentReport) : List (String × PropUsage) :=
  report.props.ranked fun usage => Int.ofNat usage.total

/-! ## As documents -/

/-- What both documents about a component begin with. -/
def counts (report : ComponentReport) : List (String × Document) :=
  [("component", .string report.component),
   ("total_imports", .ofNat report.imports),
   ("total_instances", .ofNat report.instances),
   ("codebase_imports", Document.ofCounts report.codebaseImports),
   ("codebase_instances", Document.ofCounts report.codebaseInstances),
   ("unique_props", .ofNat report.props.size),
   ("avg_props_per_instance", .float (average 2 report.propUsages report.instances)),
   ("total_default_usages", .ofNat report.defaultUsages)]

/-- All that is known about a component. -/
def detail (report : ComponentReport) : Document :=
  .object (report.counts
    ++ [("props", .object (report.propsByUsage.map fun (name, usage) => (name, usage.toDocument))),
      ("references", .list (report.references.map Reference.toDocument))])

def listedProps : Nat := 10

def listedValues : Nat := 3

def propEntry (name : String) (usage : PropUsage) : Document :=
  .object [("name", .string name),
    ("usages", .ofNat usage.total),
    ("default_value", Document.ofText? (usage.applied.map AppliedDefault.value)),
    ("default_usages", .ofNat usage.defaultUsages),
    ("top_values", .list (((usage.values.ranked Int.ofNat).take listedValues).map
      fun (value, n) => .object [("value", .string value), ("count", .ofNat n)]))]

def entry (report : ComponentReport) : Document :=
  .object (report.counts
    ++ [("top_props", .list ((report.propsByUsage.take listedProps).map fun (name, usage) =>
      propEntry name usage))])

end ComponentReport

abbrev ComponentReports := Table String ComponentReport

namespace ComponentReports

def seed (components : List String) : ComponentReports :=
  .ofPairs (components.map fun component => (component, .unused component))

/-- One more file. A component counts as imported once, under however many names. Instances of
components without a report do not count. -/
def addFile (reports : ComponentReports) (codebase file : String) (scan : FileScan) :
    ComponentReports :=
  let imported := scan.imported.foldl (fun (reports : ComponentReports) component =>
    reports.update component fun report =>
      (report.getD (.unused component)).addImport codebase) reports
  scan.instances.foldl (fun (reports : ComponentReports) tag =>
    match reports.get? tag.component with
    | some report => reports.insert tag.component (report.addInstance codebase file tag)
    | none => reports) imported

def usages (reports : ComponentReports) : Table String (Table String (Detection.Usage Nat)) :=
  reports.mapValues fun report => report.props.mapValues fun usage => ⟨usage.values, usage.total⟩

/-- Applies one detection if it is sure enough. -/
def applyDetection (reports : ComponentReports) (detection : Detection Nat) : ComponentReports :=
  if detection.confidence.isSure then
    match reports.get? detection.component with
    | some report =>
      reports.insert detection.component (report.applyDefault detection.prop detection.value)
    | none => reports
  else reports

/-- Detects defaults and applies the sure ones. -/
def applyDefaults (detector : Detection.Detector Nat (Except Fault))
    (reports : ComponentReports) : Except Fault (ComponentReports × List (Detection Nat)) := do
  let detections ← Detection.detectAll .none detector reports.usages
  return (detections.foldl applyDetection reports, detections)

def ranked (reports : ComponentReports) : List ComponentReport :=
  (Table.ranked reports fun report => Int.ofNat report.instances).map Prod.snd

def summary (generatedAt : String) (codebases : List String) (reports : ComponentReports) :
    Document :=
  let ranked := reports.ranked
  let sum (count : ComponentReport → Nat) : Document := .ofNat (sumOf count ranked)
  .object [("generated_at", .string generatedAt),
    ("codebases", Document.ofTexts codebases),
    ("total_components", .ofNat ranked.length),
    ("total_imports", sum ComponentReport.imports),
    ("total_instances", sum ComponentReport.instances),
    ("total_default_usages", sum ComponentReport.defaultUsages),
    ("components", .list (ranked.map ComponentReport.entry))]

end ComponentReports

/-- The reports of a run, and the detections once defaults have been applied. -/
structure Inventory where
  reports : ComponentReports
  detections : Option (List (Detection Nat))

namespace Inventory

def ofTracked (tracked : Tracked) : Inventory := ⟨.seed tracked.components, none⟩

/-- One more file, as long as defaults have not been applied. -/
def add (inventory : Inventory) (codebase file : String) (scan : FileScan) :
    Except Fault Inventory :=
  if inventory.detections.isSome then .error .alreadyFinal
  else .ok { inventory with reports := inventory.reports.addFile codebase file scan }

/-- Applies the defaults, the first time. -/
def finalize (detector : Detection.Detector Nat (Except Fault)) (inventory : Inventory) :
    Except Fault Inventory := do
  match inventory.detections with
  | some _ => return inventory
  | none =>
    let (reports, detections) ← inventory.reports.applyDefaults detector
    return ⟨reports, some detections⟩

def detected (inventory : Inventory) : List (Detection Nat) := inventory.detections.getD []

end Inventory

end UsageCensus.Census
