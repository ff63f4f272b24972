import UsageCensus.Document.Basic
import UsageCensus.Number.Decimal
import UsageCensus.Room
import UsageCensus.Text.Integer
import UsageCensus.Text.Quoted

/-!
# Documents in running text

How a document is shown in a table cell or a sentence: a text as it is, null as `None`, truth
values capitalized, numbers in their shortest notation, a path and a date as their texts, and
lists, objects, sets and records in brackets with the texts in them quoted. Quotes escape
surrogates, which a text as it is keeps.

`displayWith` is the text of a document that there is room for. A document that may come from
anywhere is shown by `tryDisplayWith`, which faults at the first integer with too many digits, and
where no more calls can be open (`Room.showing`).
-/

namespace UsageCensus.Document

open UsageCensus.Files UsageCensus.Number UsageCensus.Text

/-- The names of the numbers that are not finite, in running text. -/
def displayNames : Binary64.SpecialNames := ⟨"inf", "-inf", "nan"⟩

/-- A path inside another document. -/
def displayPath (surrogates : Surrogates) (path : Path) : List Char :=
  "PosixPath(".toList ++ quotedWith surrogates path.text.toList ++ [')']

/-- A date inside another document. -/
def displayDate (date : Date) : List Char :=
  let parts := [date.year, date.month, date.day].map toString
  "datetime.date(".toList ++ (", ".intercalate parts).toList ++ [')']

mutual

/-- A document inside another one. -/
def displayInner (surrogates : Surrogates) : Document → List Char
  | null => ['N', 'o', 'n', 'e']
  | bool true => ['T', 'r', 'u', 'e']
  | bool false => ['F', 'a', 'l', 's', 'e']
  | int n => (toString n).toList
  | float x => (x.shortest displayNames).toList
  | string s => quotedWith surrogates s.toList
  | list items => '[' :: displayItems surrogates items ++ [']']
  | object members => '{' :: displayMembers surrogates members ++ ['}']
  | set [] => ['s', 'e', 't', '(', ')']
  | set (member :: members) =>
    '{' :: displayInner surrogates member ++ displayRest surrogates members ++ ['}']
  | path p => displayPath surrogates p
  | date d => displayDate d
  | bytes content => quotedBytes content
  | record kind fields => kind.toList ++ '(' :: displayFields surrogates fields ++ [')']

def displayItems (surrogates : Surrogates) : List Document → List Char
  | [] => []
  | item :: items => displayInner surrogates item ++ displayRest surrogates items

/-- The items behind the first one. -/
def displayRest (surrogates : Surrogates) : List Document → List Char
  | [] => []
  | item :: items => ',' :: ' ' :: displayInner surrogates item ++ displayRest surrogates items

def displayMembers (surrogates : Surrogates) : List (String × Document) → List Char
  | [] => []
  | [(key, value)] =>
    quotedWith surrogates key.toList ++ ':' :: ' ' :: displayInner surrogates value
  | (key, value) :: members =>
    quotedWith surrogates key.toList ++ ':' :: ' ' :: displayInner surrogates value
      ++ ',' :: ' ' :: displayMembers surrogates members

def displayFields (surrogates : Surrogates) : List (String × Document) → List Char
  | [] => []
  | [(name, value)] => name.toList ++ '=' :: displayInner surrogates value
  | (name, value) :: fields =>
    name.toList ++ '=' :: displayInner surrogates value
      ++ ',' :: ' ' :: displayFields surrogates fields

end

/-- A document in running text, where characters may stand for surrogates. -/
def displayWith (surrogates : Surrogates) : Document → String
  | string s => s
  | path p => p.text
  | date d => d.text
  | value => String.ofList (displayInner surrogates value)

/-- A document in running text. -/
def display (value : Document) : String := displayWith .none value

/-! ## Documents that may not be shown -/

mutual

/-- Goes through a document in the order in which it is shown, where `room` more calls can be
open. -/
def checkShown (calls : Calls) (room : Nat) (value : Document) : Except Fault Unit := do
  calls.meet room value
  match value with
  | int n => if isWritable n then return () else throw (.tooManyDigits none)
  | list items => checkItems calls (← calls.enter room value) items
  | object members => checkMembers calls (← calls.enter room value) members
  | set members => checkItems calls (← calls.enter room value) members
  | record _ fields => checkMembers calls (← calls.enter room value) fields
  | _ => return ()

def checkItems (calls : Calls) (room : Nat) : List Document → Except Fault Unit
  | [] => .ok ()
  | item :: items => do
    checkShown calls room item
    checkItems calls room items

def checkMembers (calls : Calls) (room : Nat) : List (String × Document) → Except Fault Unit
  | [] => .ok ()
  | (_, value) :: members => do
    checkShown calls room value
    checkMembers calls room members

end

/-- A document in running text, if it can be shown. -/
def tryDisplayWith [Room] (surrogates : Surrogates) (value : Document) : Except Fault String := do
  checkShown Room.showing Room.showing.most value
  return displayWith surrogates value

end UsageCensus.Document
