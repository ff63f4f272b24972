import UsageCensus.Files.Tree
import UsageCensus.Glob
import UsageCensus.Room

/-!
# File discovery

The files below a directory that a pattern covers and no ignored glob does, in the order of
their names, directory by directory. Directories below which all is ignored are not entered, and
those that the system does not let be listed are passed over without a word. A glob that there is no
room to expand is a fault only where something is held against it, and so is a directory that is
nested too deep only where it would be entered.
-/

namespace UsageCensus.Files

/-- A place as it is seen from the directory that discovery starts in. -/
def relativeText (place : Place) : String := "/".intercalate place

section

variable [Room]

/-- The pattern covers the place and no ignored glob does. -/
def isWanted (pattern : String) (ignored : List String) (place : Place) : Except Fault Bool := do
  let path := (relativeText place).toList
  if ← Glob.tryCovers Room.pattern pattern.toList path then
    return !(← Glob.tryIgnores Room.ignored ignored path)
  else return false

/-- The directory need not be entered. One that is nested too deep cannot be. -/
def isSkipped (ignored : List String) (place : Place) : Except Fault Bool := do
  let isIgnored ← Glob.tryIgnoresBelow Room.ignoredBelow ignored (relativeText place).toList
  if !isIgnored && decide (Room.entered < place.length) then throw .tooDeep
  return isIgnored

end

/-- The directory is skipped, or it cannot be listed and nothing is found below. -/
def isPassedOver (canList : Place → Bool) (skip : Place → Except Fault Bool) (place : Place) :
    Except Fault Bool := do
  return (← skip place) || !canList place

/-- Every file below a directory, as far as the directories can be listed, without entering those
that `skip` holds for. -/
def filesListed (canList : Place → Bool) (skip : Place → Except Fault Bool) (root : Tree) :
    Except Fault (List Place) := do
  if !canList [] then return []
  return (← root.filesFrom (isPassedOver canList skip) []).map Prod.fst

/-- Places in the order of their names. -/
def inOrder (places : List Place) : List Place := places.mergeSort Place.le

variable [Room]

/-- The wanted places among all. -/
def select (pattern : String) (ignored : List String) (places : List Place) :
    Except Fault (List Place) := do
  return inOrder (← places.filterM (isWanted pattern ignored))

/-- The wanted files below a directory, as far as the directories can be listed. -/
def find (canList : Place → Bool) (root : Tree) (pattern : String) (ignored : List String) :
    Except Fault (List Place) := do
  let reached ← filesListed canList (isSkipped ignored) root
  select pattern ignored reached

end UsageCensus.Files
