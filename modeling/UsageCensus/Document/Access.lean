import UsageCensus.Document.Display
import UsageCensus.Document.Key

/-!
# Reading report documents

Reports are rendered from documents, which may come from anywhere. Each operation here says what
it needs and which fault it raises where a document does not have it.
-/

namespace UsageCensus.Document

open UsageCensus.Number

/-- A value counts as present unless it is null, false, zero or empty. -/
def isPresent : Document → Bool
  | null => false
  | bool b => b
  | int n => n != 0
  | float x => !x.isZero
  | string s => !s.isEmpty
  | list items => !items.isEmpty
  | object members => !members.isEmpty
  | set members => !members.isEmpty
  | bytes content => !content.isEmpty
  | _ => true

/-- The member of an object. -/
def member (value : Document) (key : String) : Except Fault Document :=
  match value with
  | object members => match members.lookup key with
    | some found => .ok found
    | none => .error (.noMember key)
  | _ => .error .wrongKind

/-- The member of an object, or a default where it has none. -/
def memberOr (value : Document) (key : String) (default : Document) : Except Fault Document :=
  match value with
  | object members => .ok ((members.lookup key).getD default)
  | _ => .error .noOperation

/-- The item at an offset; negative ones count from the end. -/
def itemAt (items : List Document) (offset : Int) : Except Fault Document :=
  let position := if offset < 0 then offset + Int.ofNat items.length else offset
  if position < 0 then .error .outside
  else match items[position.toNat]? with
    | some item => .ok item
    | none => .error .outside

/-- The items of a value that has them in order: those of a list, the characters of a text, the
bytes as integers. -/
def itemsOf? : Document → Option (List Document)
  | list items => some items
  | string s => some (s.toList.map fun c => string c.toString)
  | bytes content => some (content.map fun byte => int byte.toNat)
  | _ => none

/-- The part of a value at any key: a member of an object, or an item at an offset. -/
def part (value key : Document) : Except Fault Document :=
  match value, key with
  | object _, string s => value.member s
  | object _, key => if key.isKey then .error (.noMember key.display) else .error .wrongKind
  | value, int n => match value.itemsOf? with
    | some items => itemAt items n
    | none => .error .wrongKind
  | value, bool b => match value.itemsOf? with
    | some items => itemAt items (if b then 1 else 0)
    | none => .error .wrongKind
  | _, _ => .error .wrongKind

/-- The member of an object at any key, or a default where it has none. -/
def partOr (value key default : Document) : Except Fault Document :=
  match value with
  | object members => match key with
    | string s => .ok ((members.lookup s).getD default)
    | _ => if key.isKey then .ok default else .error .wrongKind
  | _ => .error .noOperation

/-- The members of an object, in order. -/
def members (value : Document) : Except Fault (List (String × Document)) :=
  match value with
  | object members => .ok members
  | _ => .error .noOperation

/-- What a value is made of: its items, the keys of an object, the members of a set. -/
def elements (value : Document) : Except Fault (List Document) :=
  match value with
  | object members => .ok (members.map fun m => string m.1)
  | set members => .ok members
  | value => match value.itemsOf? with
    | some items => .ok items
    | none => .error .wrongKind

/-- The number of items before a bound; a negative bound counts from the end. -/
def cutLength (bound : Int) (length : Nat) : Nat :=
  if bound < 0 then (Int.ofNat length + bound).toNat else bound.toNat

/-- The items before a bound. -/
def upTo (value : Document) (bound : Int) : Except Fault Document :=
  match value with
  | list items => .ok (list (items.take (cutLength bound items.length)))
  | string s => .ok (string (String.ofList (s.toList.take (cutLength bound s.length))))
  | bytes content => .ok (bytes (content.take (cutLength bound content.length)))
  | _ => .error .wrongKind

/-- How many elements there are. -/
def length (value : Document) : Except Fault Nat := do return (← value.elements).length

/-- The text that a value is. -/
def asText (value : Document) : Except Fault String :=
  match value with
  | string s => .ok s
  | _ => .error .wrongKind

/-- Texts with a separator between them. -/
def joined (separator : String) (value : Document) : Except Fault String := do
  let items ← value.elements
  let texts ← items.mapM asText
  return separator.intercalate texts

/-- A number with a fixed number of places. A date takes the name of the format itself for its
text, in which no part of a date is asked for. -/
def fixed (places : Nat) (value : Document) : Except Fault String :=
  match value with
  | string _ => .error .textAsNumber
  | date _ => .ok ("." ++ toString places ++ "f")
  | value => do
    let amount ← value.amount
    let x ← amount.toBinary64
    return x.fixed places

end UsageCensus.Document
