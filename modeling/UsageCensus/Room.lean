import UsageCensus.Document.Basic
import UsageCensus.Fault

/-!
# Room

How far a machine goes before it gives up: how many calls can be open inside of each other where
patterns are expanded, directories are gone through and made, and documents are read, saved, shown
and copied; and how many bytes one write takes. None of this is the same on two machines, or at two
places of a program, so it is taken from the context (`Room`). All that is asked for is that
documents of a few levels can be dealt with (`Document.fewLevels`).
-/

namespace UsageCensus

namespace Document

/-- Documents with at most this many levels can be dealt with on any machine. -/
def fewLevels : Nat := 8

section

variable (own around : Document → Nat)

mutual

/-- How many calls are open at once while a document is gone through, where each value takes some
by itself, and some around what is inside of it. -/
def callsFor : Document → Nat
  | list items => max (own (list items)) (around (list items) + callsForItems items)
  | object members => max (own (object members)) (around (object members) + callsForMembers members)
  | set members => max (own (set members)) (around (set members) + callsForItems members)
  | record kind fields =>
    max (own (record kind fields)) (around (record kind fields) + callsForMembers fields)
  | value => own value

def callsForItems : List Document → Nat
  | [] => 0
  | item :: items => max (callsFor item) (callsForItems items)

def callsForMembers : List (String × Document) → Nat
  | [] => 0
  | (_, value) :: members => max (callsFor value) (callsForMembers members)

end

end

mutual

theorem callsFor_levels (value : Document) :
    callsFor (fun _ => 0) (fun _ => 1) value = value.depth := by
  cases value with
  | list items => rw [callsFor, callsForItems_levels items, depth]; omega
  | object members => rw [callsFor, callsForMembers_levels members, depth]; omega
  | set members => rw [callsFor, callsForItems_levels members, depth]; omega
  | record kind fields => rw [callsFor, callsForMembers_levels fields, depth]; omega
  | _ => rfl

theorem callsForItems_levels (items : List Document) :
    callsForItems (fun _ => 0) (fun _ => 1) items = depthOfItems items := by
  cases items with
  | nil => rfl
  | cons item items =>
    rw [callsForItems, depthOfItems, callsFor_levels item, callsForItems_levels items]

theorem callsForMembers_levels (members : List (String × Document)) :
    callsForMembers (fun _ => 0) (fun _ => 1) members = depthOfMembers members := by
  cases members with
  | nil => rfl
  | cons member members =>
    rw [callsForMembers, depthOfMembers, callsFor_levels member.2,
      callsForMembers_levels members]

end

end Document

/-- The calls by which documents are gone through. -/
structure Calls where
  /-- How many can be open at once. -/
  most : Nat
  /-- How many a value takes by itself. -/
  own : Document → Nat
  /-- How many are open around what is inside of a value. -/
  around : Document → Nat
  few : ∀ value : Document, value.depth ≤ Document.fewLevels →
    Document.callsFor own around value ≤ most

namespace Calls

/-- A call for each level of a document. -/
def ofLevels (most : Nat) (h : Document.fewLevels ≤ most) : Calls where
  most := most
  own _ := 0
  around _ := 1
  few value hfew := by
    rw [Document.callsFor_levels]
    exact Nat.le_trans hfew h

variable (calls : Calls)

/-- There is room for all of a document. -/
def fits (value : Document) : Bool := decide (value.callsFor calls.own calls.around ≤ calls.most)

theorem fits_of_depth_le {value : Document} (h : value.depth ≤ Document.fewLevels) :
    calls.fits value = true := decide_eq_true (calls.few value h)

/-- Comes to a value, where `room` more calls can be open. -/
def meet (room : Nat) (value : Document) : Except Fault Unit :=
  if calls.own value ≤ room then .ok () else .error .tooDeep

/-- Goes into a value: how many more calls can be open inside of it. -/
def enter (room : Nat) (value : Document) : Except Fault Nat :=
  if calls.around value ≤ room then .ok (room - calls.around value) else .error .tooDeep

end Calls

/-- What a machine has room for. -/
class Room where
  /-- Rounds in which a pattern of files is expanded. -/
  pattern : Nat
  /-- Rounds in which a glob is expanded that is held against a file, to ignore it. -/
  ignored : Nat
  /-- Rounds in which a glob is expanded that is held against a directory. -/
  ignoredBelow : Nat
  /-- Directories inside of each other that are gone into. -/
  entered : Nat
  /-- Directories inside of each other that are made. -/
  made : Nat
  /-- Brackets that are open at once where a document is read. -/
  opened : Nat
  opened_few : Document.fewLevels ≤ opened
  saving : Calls
  showing : Calls
  copying : Calls
  /-- Bytes that one write takes. -/
  written : Nat

/-- The same room for everything. -/
@[reducible]
def Room.ofSize (size : Nat) (h : Document.fewLevels ≤ size) : Room where
  pattern := size
  ignored := size
  ignoredBelow := size
  entered := size
  made := size
  opened := size
  opened_few := h
  saving := .ofLevels size h
  showing := .ofLevels size h
  copying := .ofLevels size h
  written := size

end UsageCensus
