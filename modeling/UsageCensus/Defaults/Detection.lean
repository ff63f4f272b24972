import UsageCensus.Defaults.Known
import UsageCensus.Document.Access
import UsageCensus.Number.Share
import UsageCensus.Room
import UsageCensus.Sorting.Runs

/-!
# Detecting defaults

Which explicitly set value of a prop is likely its built-in default, judged by how often each
value occurs. The rules apply in this order: the element that the component is rendered as by
default; a known default of the prop; the least used value, if it is rare and looks like a
default; a value that is literally called default.

Usages are counted in naturals, or in amounts of a document. Counting fails where an amount is
none, or too large to be halved.
Detections are listed with high confidence first, then by component and prop.
-/

namespace UsageCensus

open UsageCensus.Number

namespace Defaults

/-! ## Counting usages -/

/-- What usages are counted in, with the effects that counting may have. -/
class Quantity (α : Type) (m : outParam (Type → Type)) where
  isZero : α → Bool
  /-- Values by descending count; equal counts keep their order. -/
  ranked : List (String × α) → m (List (String × α))
  /-- The first count is at most half of the second one. -/
  isAtMostHalf : α → α → m Bool
  /-- The first count as a share of the second one. -/
  share : α → α → m Binary64
  text : α → String

/-- Half of an amount. -/
def half (b : Amount) : Except Fault Binary64 := do
  let x ← b.toBinary64
  return x.mul (.ofRatio false 1 2)

instance : Quantity Nat (Except Fault) where
  isZero n := n == 0
  ranked values := .ok (values.mergeSort fun a b => decide (b.2 ≤ a.2))
  isAtMostHalf a b := do
    let bound ← half (.whole b)
    return (Amount.whole a).le (.real bound)
  share a b := (Amount.whole a).quotient (.whole b)
  text := toString

/-- Usages that are counted in values of a document, where characters may stand for surrogates. -/
abbrev Quantity.ofDocuments (surrogates : Text.Surrogates) : Quantity Document (Except Fault) where
  isZero total := match total.amount? with
    | some a => a.isZero
    | none => false
  ranked values := do
    let counted ← values.mapM fun (value, count) => do
      let amount ← count.amount
      return (value, count, amount)
    let sorted :=
      if counted.all fun entry => entry.2.2.hasPlace then
        counted.mergeSort fun a b => !a.2.2.lt b.2.2
      else Sorting.sort (fun a b => b.2.2.lt a.2.2) counted
    return sorted.map fun (value, count, _) => (value, count)
  isAtMostHalf a b := do
    let bound ← half (← b.amount)
    return (← a.amount).le (.real bound)
  share a b := do (← a.amount).quotient (← b.amount)
  text := Document.displayWith surrogates

instance : Quantity Document (Except Fault) := Quantity.ofDocuments .none

/-! ## Detections -/

inductive Confidence where
  | high
  | medium
  | low
  /-- A level that is none of the three. -/
  | other (label : String)
  deriving Repr, DecidableEq

namespace Confidence

/-- The levels that are counted. -/
def levels : List Confidence := [high, medium, low]

def label : Confidence → String
  | high => "high"
  | medium => "medium"
  | low => "low"
  | other label => label

/-- Place in a list of detections. -/
def rank : Confidence → Nat
  | high => 0
  | medium => 1
  | low => 2
  | other _ => 3

/-- High and medium: sure enough to be applied. -/
def isSure : Confidence → Bool
  | high => true
  | medium => true
  | _ => false

def ofLabel (label : String) : Confidence :=
  (levels.find? fun level => level.label == label).getD (other label)

end Confidence

end Defaults

open Defaults

/-- A value that is likely the default of a prop: how often it occurs, and of how many usages. -/
structure Detection (α : Type) where
  component : String
  prop : String
  value : String
  confidence : Confidence
  reason : String
  count : α
  total : α
  deriving Repr, DecidableEq

namespace Detection

variable {α : Type} {m : Type → Type}

/-- Below this share of the usages a value is rare. -/
def rareShare : Binary64 := .ofRatio false 15 100

/-- The prop's component is rendered as an element that is among the values. -/
def element? (component prop : String) (values : Table String α) : Option String :=
  if prop = "as" then
    (elementOf? component).filter fun element => values.contains (Defaults.text element)
  else none

/-- The detection by the element that the component is rendered as. -/
def ofElement? (component prop : String) (values : Table String α) (total : α) :
    Option (Detection α) := do
  let element ← element? component prop values
  let count ← values.get? (Defaults.text element)
  return ⟨component, prop, Defaults.text element, .high,
    "Known default: " ++ component ++ " renders as <" ++ element ++ "> by default", count, total⟩

/-- The most telling known default among the values, with its count. -/
def known? (prop : String) (values : Table String α) : Option (String × α) :=
  (knownValues prop).findSome? fun value =>
    (values.get? value).map fun count => (value, count)

variable [Monad m] [Quantity α m]

/-- The detection by a known default of the prop. -/
def ofKnown (component prop value : String) (count total : α) (ranked : List (String × α)) :
    m (Detection α) := do
  let isMinority ← match ranked with
    | (_, largest) :: _ :: _ => Quantity.isAtMostHalf count largest
    | _ => pure false
  let confidence : Confidence := if namesItself value || isMinority then .high else .medium
  let note := if isMinority then
      " (" ++ Quantity.text count ++ " of " ++ Quantity.text total ++ " usages, minority value)"
    else ""
  return ⟨component, prop, value, confidence,
    "Known default pattern: " ++ prop ++ "=" ++ value ++ note, count, total⟩

/-- The detection of the least used value, if it is rare and looks like a default. -/
def ofRare? (component prop : String) (total : α) (ranked : List (String × α)) :
    m (Option (Detection α)) := do
  match ranked, ranked.getLast? with
  | _ :: _ :: _, some (value, count) =>
    let share ← Quantity.share count total
    if share.lt rareShare && looksLikeDefault value then
      let ratio := Quantity.text count ++ "/" ++ Quantity.text total ++ " = "
        ++ (share.mul .hundred).fixed 1 ++ "%"
      return some ⟨component, prop, value, .low,
        "Statistical: " ++ value ++ " is the least-used value (" ++ ratio
          ++ ") and looks like a default", count, total⟩
    else return none
  | _, _ => return none

/-- The detection of a value that is literally called default. -/
def ofLiteral? (component prop : String) (values : Table String α) (total : α) :
    Option (Detection α) :=
  match values.get? literalDefault with
  | some count =>
    if prop = "data-testid" then none
    else some ⟨component, prop, literalDefault, .high,
      "Value is literally " ++ literalDefault ++ " (" ++ Quantity.text count ++ " of "
        ++ Quantity.text total ++ " usages)", count, total⟩
  | none => none

/-- The likely default of one prop. -/
def detect (component prop : String) (values : Table String α) (total : α) :
    m (Option (Detection α)) := do
  if values.isEmpty || Quantity.isZero total then return none
  let ranked ← Quantity.ranked values.entries
  match ofElement? component prop values total with
  | some detection => return some detection
  | none =>
    match known? prop values with
    | some (value, count) => return some (← ofKnown component prop value count total ranked)
    | none =>
      match ← ofRare? component prop total ranked with
      | some detection => return some detection
      | none => return ofLiteral? component prop values total

omit [Monad m] [Quantity α m]

/-! ## Lists of detections -/

/-- The order of a list of detections; texts are in the order of their code points. -/
def le (surrogates : Text.Surrogates) (a b : Detection α) : Bool :=
  if a.confidence.rank = b.confidence.rank then
    if a.component = b.component then surrogates.textLe a.prop b.prop
    else surrogates.textLe a.component b.component
  else decide (a.confidence.rank ≤ b.confidence.rank)

/-- Detections with high confidence first, then by component and prop. -/
def sort (surrogates : Text.Surrogates) (detections : List (Detection α)) : List (Detection α) :=
  detections.mergeSort (le surrogates)

/-- The usages of one prop: how often each value occurs, and how many usages there are. -/
structure Usage (α : Type) where
  values : Table String α
  total : α

/-- Judges one prop of a component. -/
abbrev Detector (α : Type) (m : Type → Type) : Type :=
  (component prop : String) → Table String α → α → m (Option (Detection α))

/-- The detections of every prop that may have a default. -/
def detectAll (surrogates : Text.Surrogates) (detector : Detector α m)
    (components : Table String (Table String (Usage α))) : m (List (Detection α)) := do
  let usages := components.entries.flatMap fun (component, props) =>
    props.entries.map fun (prop, usage) => (component, prop, usage)
  let detections ← (usages.filter fun u => !isSkipped u.2.1).mapM fun (component, prop, usage) =>
    detector component prop usage.values usage.total
  return sort surrogates (detections.filterMap id)

/-! ## As documents -/

/-- All but the component and the prop. -/
def detail (count : α → Document) (detection : Detection α) : Document :=
  .object [("value", .string detection.value),
    ("confidence", .string detection.confidence.label),
    ("reason", .string detection.reason),
    ("count", count detection.count),
    ("total", count detection.total)]

/-- The names of the fields of a detection. -/
def fieldNames : List String :=
  ["component", "prop", "value", "confidence", "reason", "count", "total"]

/-- The record of a detection with the given fields. -/
def recordOf (fields : List Document) : Document :=
  .record "DetectedDefault" (fieldNames.zip fields)

/-- All that is known of a detection. -/
def record (count : α → Document) (detection : Detection α) : Document :=
  recordOf [.string detection.component, .string detection.prop, .string detection.value,
    .string detection.confidence.label, .string detection.reason, count detection.count,
    count detection.total]

/-- How many detections there are at each level. -/
def countByConfidence (detections : List (Detection α)) : List (Confidence × Nat) :=
  Confidence.levels.map fun level =>
    (level, detections.countP fun detection => detection.confidence == level)

/-- Values by a key and the prop. -/
def groupBy {κ ν β : Type} [DecidableEq κ] (key : β → κ) (prop : β → String) (value : β → ν)
    (items : List β) : Table κ (Table String ν) :=
  items.foldl (fun table item =>
    table.update (key item) fun props =>
      (props.getD .empty).insert (prop item) (value item)) .empty

/-- Values by component and prop. -/
def byComponent {ν : Type} (value : Detection α → ν) (detections : List (Detection α)) :
    Table String (Table String ν) :=
  groupBy component prop value detections

/-- The document about all detections, with what there is on each component. -/
def summaryWith (generatedAt : Option String) (detections : List (Detection α))
    (components : Document) : Document :=
  .object [("generated_at", Document.ofText? generatedAt),
    ("total_detected", .ofNat detections.length),
    ("by_confidence", .object ((countByConfidence detections).map fun (level, n) =>
      (level.label, .ofNat n))),
    ("components", components)]

/-- The detection can be made a document, for which the values that it counts in are copied. -/
def isShallow [Room] (detection : Detection Document) : Bool :=
  Room.copying.fits detection.count && Room.copying.fits detection.total

/-- The document about all detections. -/
def summary (count : α → Document) (generatedAt : Option String)
    (detections : List (Detection α)) : Document :=
  summaryWith generatedAt detections
    (Document.ofTable (Document.ofTable id) (byComponent (detail count) detections))

/-- The document about all detections, which may count in any values of a document. -/
def trySummary [Room] (generatedAt : Option String) (detections : List (Detection Document)) :
    Except Fault Document :=
  if detections.all isShallow then .ok (summary id generatedAt detections) else .error .tooDeep

end Detection

end UsageCensus
