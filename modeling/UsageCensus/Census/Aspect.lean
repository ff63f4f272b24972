import UsageCensus.Fault

/-!
# Aspects

What a census can look at. Aspects are chosen by name; a name that is given twice counts once,
and no names at all mean every aspect.
-/

namespace UsageCensus.Census

inductive Aspect where
  /-- Imports, instances, prop values and defaults of each component. -/
  | components
  /-- Inline styles and styled wrappers. -/
  | customizations
  /-- Source lines taken by tracked imports and tags. -/
  | lineOwnership
  /-- Characters spent on props. -/
  | propSurface
  /-- Values that occur together. -/
  | propCombinations
  deriving Repr, DecidableEq

namespace Aspect

def all : List Aspect :=
  [components, customizations, lineOwnership, propSurface, propCombinations]

def name : Aspect → String
  | components => "components"
  | customizations => "customizations"
  | lineOwnership => "line-ownership"
  | propSurface => "prop-surface"
  | propCombinations => "prop-combos"

def ofName? (name : String) : Option Aspect := all.find? fun aspect => aspect.name == name

/-- The aspects of the given names. -/
def select (names : List String) : Except Fault (List Aspect) :=
  if names.isEmpty then .ok all
  else
    let unknown := names.filter fun name => (ofName? name).isNone
    if unknown.isEmpty then .ok (names.filterMap ofName?).eraseDups
    else .error (.unknownAnalyzers unknown (all.map Aspect.name))

end Aspect

end UsageCensus.Census
