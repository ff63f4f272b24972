import UsageCensus.Defaults.Detection
import UsageCensus.Document.Printer
import UsageCensus.Text.Trim

/-!
# Detections from stored reports

A stored report says which component it is about and holds the usages of each of its props. It
may come from anywhere, so a component may be called by a value that is no name. Such a report
is judged like any other, but a list can only be put in order where its components are all of
one kind, and only components with a name can be listed for a reader.
-/

namespace UsageCensus.Defaults

open UsageCensus.Text

/-! ## Labels -/

/-- What a stored report calls its component. -/
inductive Label where
  | name (text : String)
  /-- A number or a truth value, and how it is written as a key. -/
  | amount (key : String) (value : Amount)
  | null
  deriving Repr, DecidableEq

namespace Label

/-- Lists and objects are no labels. -/
def ofDocument : Document → Except Fault Label
  | .string s => .ok (name s)
  | .null => .ok null
  | value => do
    let a ← value.amount
    return amount (value.render .oneLine) a

/-- The label as a key of a document. -/
def key : Label → String
  | name s => s
  | amount key _ => key
  | null => Document.null.render .oneLine

def isName : Label → Bool
  | name _ => true
  | _ => false

/-- Equal numbers are one label, however they are written, and so is the number that is none. -/
def same : Label → Label → Bool
  | name s, name t => s == t
  | amount _ a, amount _ b => a.eq b || a == b
  | null, null => true
  | _, _ => false

/-- The label has a place among those of its kind. -/
def hasPlace : Label → Bool
  | amount _ a => a.hasPlace
  | _ => true

/-- The order of labels of one kind. -/
def lt : Label → Label → Bool
  | name s, name t => decide (s < t)
  | amount _ a, amount _ b => a.lt b
  | _, _ => false

/-- Labels of one kind can be put in order. -/
def isComparable : Label → Label → Bool
  | name _, name _ => true
  | amount _ _, amount _ _ => true
  | null, null => true
  | _, _ => false

end Label

/-! ## Stored reports -/

structure StoredReport where
  label : Label
  props : Document

namespace StoredReport

/-- The report in a document, if it has one. Without a component in it, it is about `fallback`. -/
def ofDocument? (fallback : String) (document : Document) : Except Fault (Option StoredReport) :=
  match document with
  | .object members =>
    match members.lookup "props" with
    | none => .ok none
    | some props => do
      let label ← Label.ofDocument ((members.lookup "component").getD (.string fallback))
      return some ⟨label, props⟩
  | .list items =>
    let isProps : Document → Bool
      | .string s => s == "props"
      | _ => false
    if items.any isProps then .error .wrongKind else .ok none
  | .string s => if occurs "props".toList s.toList then .error .wrongKind else .ok none
  | value => if value.isPresent then .error .wrongKind else .ok none

/-- Adds a report; a later one about the same component takes the place of the first. -/
def insert (new : StoredReport) : List StoredReport → List StoredReport
  | [] => [new]
  | report :: reports =>
    if report.label.same new.label then { report with props := new.props } :: reports
    else report :: insert new reports

/-- The usages of a prop, if there are any. -/
def usage? (stored : Document) : Except Fault (Option (Detection.Usage Document)) := do
  let values ← stored.memberOr "values" (.object [])
  let total ← stored.memberOr "total_usages" (.int 0)
  if !values.isPresent || Quantity.isZero total then return none
  let entries ← values.members
  return some ⟨.ofPairs entries, total⟩

/-- A detection, and what its component is called. -/
abbrev Labelled : Type := Label × Detection Document

/-- The detection for one prop of a report, where characters may stand for surrogates. -/
def detectProp (surrogates : Surrogates) (report : StoredReport) (prop : String)
    (stored : Document) : Except Fault (Option Labelled) := do
  if isSkipped prop then return none
  match ← usage? stored with
  | none => return none
  | some usage =>
    let _ : Quantity Document (Except Fault) := .ofDocuments surrogates
    let found ← Detection.detect report.label.key prop usage.values usage.total
    return found.map fun detection => (report.label, detection)

def detect (surrogates : Surrogates) (report : StoredReport) : Except Fault (List Labelled) := do
  let props ← report.props.members
  let found ← props.mapM fun (prop, stored) => detectProp surrogates report prop stored
  return found.filterMap id

/-! ## Detections in order -/

/-- The first detection comes before the second. -/
def lt (a b : Labelled) : Bool :=
  if a.2.confidence.rank = b.2.confidence.rank then
    if a.1.same b.1 then decide (a.2.prop < b.2.prop) else a.1.lt b.1
  else decide (a.2.confidence.rank < b.2.confidence.rank)

/-- Detections in order; a label that is a number but none may stand anywhere. -/
def sort (found : List Labelled) : List Labelled :=
  if found.all fun a => a.1.hasPlace then found.mergeSort fun a b => !lt b a
  else Sorting.sort lt found

/-- Detections that are equally sure must be of comparable components. -/
def isSortable (found : List Labelled) : Bool :=
  found.all fun a => found.all fun b =>
    a.2.confidence.rank != b.2.confidence.rank || a.1.isComparable b.1

/-- The detections of all reports, in the order of a list of detections. -/
def detectAll (surrogates : Surrogates) (reports : List StoredReport) :
    Except Fault (List Labelled) := do
  let found ← reports.mapM (detect surrogates)
  if isSortable found.flatten then return sort found.flatten else throw .wrongKind

/-- The document about all detections. Labels of different kinds stay apart in it, also where
they are written as one key. -/
def summary [Room] (generatedAt : Option String) (found : List Labelled) :
    Except Fault Document := do
  if !found.all fun a => a.2.isShallow then throw .tooDeep
  let components := Detection.groupBy Prod.fst (fun a => a.2.prop)
    (fun a => a.2.detail id) found
  return Detection.summaryWith generatedAt (found.map Prod.snd)
    (.object (components.entries.map fun (label, props) => (label.key, .ofTable id props)))

end StoredReport

end UsageCensus.Defaults
