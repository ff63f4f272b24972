import UsageCensus.Document.Key
import UsageCensus.Document.Printer
import UsageCensus.Room
import UsageCensus.Text.Integer

/-!
# Saving documents

What is written in the place of a document, as far as it can be saved: a set as the sorted list
of its members, a path and a date as their texts, a record as an object. Bytes cannot be saved,
nor can sets with members that cannot be compared, integers with too many digits, and documents
that there is no room for (`Room.saving`).
-/

namespace UsageCensus.Document

mutual

/-- The plain document that is written, where `room` more calls can be open. -/
def savedWithin (calls : Calls) (room : Nat) (value : Document) : Except Fault Document := do
  calls.meet room value
  match value with
  | int n => if Text.isWritable n then return int n else throw (.tooManyDigits none)
  | list items => return list (← savedItems calls (← calls.enter room value) items)
  | object members => return object (← savedMembers calls (← calls.enter room value) members)
  | set members =>
    if !areComparable members then throw .wrongKind
    return list (← savedItems calls (← calls.enter room value) members)
  | path p => return string p.text
  | date d => return string d.text
  | record _ fields => return object (← savedMembers calls (← calls.enter room value) fields)
  | bytes _ => throw .wrongKind
  | value => return value

def savedItems (calls : Calls) (room : Nat) : List Document → Except Fault (List Document)
  | [] => .ok []
  | item :: items => do
    let saved ← savedWithin calls room item
    let rest ← savedItems calls room items
    return saved :: rest

def savedMembers (calls : Calls) (room : Nat) :
    List (String × Document) → Except Fault (List (String × Document))
  | [] => .ok []
  | (key, value) :: members => do
    let saved ← savedWithin calls room value
    let rest ← savedMembers calls room members
    return (key, saved) :: rest

end

variable [Room]

/-- The plain document that is written in the place of a document. -/
def saved (document : Document) : Except Fault Document :=
  document.savedWithin Room.saving Room.saving.most

/-- The document as the text of a file, if it can be saved. -/
def savedTextWith (surrogates : Text.Surrogates) (document : Document) : Except Fault String := do
  return (← document.saved).renderFileWith surrogates

/-- The document as the text of a file, where no character stands for a surrogate. -/
def savedText (document : Document) : Except Fault String := document.savedTextWith .none

end UsageCensus.Document
