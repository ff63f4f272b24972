import UsageCensus.Date
import UsageCensus.Files.Path
import UsageCensus.Number.Binary64
import UsageCensus.Table

/-!
# Documents

What reports are made of: the values of JSON, and beside them sets, paths, dates, bytes and
records. Objects keep the order of their members. Integers are exact and of any size; all other
numbers are binary64 numbers.
-/

namespace UsageCensus

open UsageCensus.Files UsageCensus.Number

inductive Document where
  | null
  | bool (value : Bool)
  | int (value : Int)
  | float (value : Binary64)
  | string (value : String)
  | list (items : List Document)
  | object (members : List (String × Document))
  | set (members : List Document)
  | path (path : Path)
  | date (date : Date)
  | bytes (content : List UInt8)
  /-- A record of a kind: its fields by their names. -/
  | record (kind : String) (fields : List (String × Document))
  deriving Repr, Inhabited

namespace Document

mutual

/-- How many lists, objects and the like stand inside of each other. -/
def depth : Document → Nat
  | list items => depthOfItems items + 1
  | object members => depthOfMembers members + 1
  | set members => depthOfItems members + 1
  | record _ fields => depthOfMembers fields + 1
  | _ => 0

def depthOfItems : List Document → Nat
  | [] => 0
  | item :: items => max item.depth (depthOfItems items)

def depthOfMembers : List (String × Document) → Nat
  | [] => 0
  | (_, value) :: members => max value.depth (depthOfMembers members)

end

/-- Members as an object: a repeated key keeps its first place and takes its last value. -/
def ofMembers (members : List (String × Document)) : Document :=
  .object (Table.ofPairs members).entries

/-- A table as an object, each value through `f`. -/
def ofTable {ν : Type} (f : ν → Document) (table : Table String ν) : Document :=
  .object (table.mapValues f).entries

def ofNat (n : Nat) : Document := .int n

/-- A table of counts as an object. -/
def ofCounts (counts : Table String Nat) : Document := ofTable ofNat counts

def ofTexts (texts : List String) : Document := .list (texts.map .string)

/-- The text, or null. -/
def ofText? : Option String → Document
  | some t => .string t
  | none => .null

end Document

end UsageCensus
