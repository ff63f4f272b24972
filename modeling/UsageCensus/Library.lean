import UsageCensus.Text.Trim

/-!
# Tracked libraries

A UI library is known by the import paths it is imported from and the components it exports.
Several libraries are tracked as one: their lists are joined, each entry once, in order of first
appearance.
-/

namespace UsageCensus

open UsageCensus.Text

structure Library where
  name : String
  importSources : List String
  excludeSources : List String
  components : List String
  deriving Repr, DecidableEq

theorem nodup_eraseDups {α : Type} [DecidableEq α] (l : List α) : l.eraseDups.Nodup := by
  match l with
  | [] => simp
  | a :: as =>
    rw [List.eraseDups_cons, List.nodup_cons]
    refine ⟨?_, nodup_eraseDups _⟩
    rw [List.mem_eraseDups]
    simp
termination_by l.length
decreasing_by
  have := List.length_filter_le (fun b => !b == a) as
  simp only [List.length_cons]
  omega

/-- Which import paths and component names count. -/
structure Tracked where
  importSources : List String
  excludeSources : List String
  components : List String
  name : String
  nodup_components : components.Nodup
  deriving Repr, DecidableEq

namespace Tracked

/-- The name of a tracked set whose libraries have none. -/
def unnamed : String := "UI Library"

/-- Lists as given; a component listed twice counts once. -/
def ofLists (importSources excludeSources components : List String) (name : String) : Tracked :=
  ⟨importSources, excludeSources, components.eraseDups, name, nodup_eraseDups _⟩

/-- Every library joined into one tracked set. -/
def ofLibraries (libraries : List Library) : Tracked :=
  let joined (list : Library → List String) := (libraries.flatMap list).eraseDups
  let name := ", ".intercalate (libraries.map Library.name)
  ofLists (joined Library.importSources) (joined Library.excludeSources)
    (joined Library.components) (if name = "" then unnamed else name)

/-- The import path contains a tracked source and no excluded one. -/
def hasSource (tracked : Tracked) (source : String) : Bool :=
  tracked.importSources.any (fun s => occurs s.toList source.toList) &&
    !tracked.excludeSources.any (fun s => occurs s.toList source.toList)

def hasComponent (tracked : Tracked) (name : String) : Bool := tracked.components.contains name

end Tracked

end UsageCensus
