import UsageCensus.Fault
import UsageCensus.Files.Path
import UsageCensus.Table
import UsageCensus.Text.Quoted

/-!
# File trees

A tree is a file with its content or a directory with named entries. What is done to a tree either
is done as a whole or leaves the tree as it was; only directories are made one by one, and those
that were made before something stood in the way stay.
-/

namespace UsageCensus.Files

inductive Tree where
  | file (content : ByteArray)
  | directory (entries : List (String × Tree))

inductive Kind where
  | file
  | directory
  deriving Repr, DecidableEq

namespace Tree

instance : Inhabited Tree := ⟨directory []⟩

def kind : Tree → Kind
  | file _ => .file
  | directory _ => .directory

/-- What stands at a place. -/
def get? (tree : Tree) : Place → Option Tree
  | [] => some tree
  | name :: names =>
    match tree with
    | file _ => none
    | directory entries => match entries.lookup name with
      | some entry => entry.get? names
      | none => none

/-- Puts a tree at a place and makes the directories that are missing above it. -/
def put (tree : Tree) (new : Tree) : Place → Tree
  | [] => new
  | name :: names =>
    match tree with
    | file content => file content
    | directory entries =>
      directory <| updatePairs name (fun old => (old.getD (directory [])).put new names) entries

/-- Takes away what stands at a place; the root stays. -/
def erase (tree : Tree) : Place → Tree
  | [] => tree
  | name :: names =>
    match tree with
    | file content => file content
    | directory entries =>
      if names.isEmpty then directory (entries.filter fun entry => entry.1 != name)
      else directory <| entries.map fun entry =>
        if entry.1 = name then (name, entry.2.erase names) else entry

/-- What stands in the way of reaching, making or writing something. -/
inductive Obstacle where
  /-- There is nothing on the way or at its end. -/
  | missing
  /-- A file stands where a directory is needed on the way. -/
  | file
  /-- A directory stands in the place of a file. -/
  | directory
  /-- Something stands in the place of a new directory. -/
  | occupied
  /-- A name or the whole path is too long. -/
  | tooLong
  /-- Too many directories are missing above a new one. -/
  | tooDeep
  /-- No file system takes the text for a path. -/
  | unusable
  deriving Repr, DecidableEq

namespace Obstacle

/-- The fault that an obstacle on a path is. -/
def toFault (path : Path) : Obstacle → Fault
  | missing => .missing (.file (String.ofList (Text.quoted path.text.toList)))
  | file => .notDirectory
  | directory => .isDirectory
  | occupied => .occupied
  | tooLong => .nameTooLong
  | tooDeep => .tooDeep
  | unusable => .unusablePath

/-- What is wrong with a path itself, whatever stands on the way. -/
def ofPath? (path : Path) : Option Obstacle :=
  if path.isUnusable then some unusable
  else if path.isLong then some tooLong
  else none

end Obstacle

/-! ## Reaching -/

/-- Walks along names through directories. `above` holds the directories that lead to the tree,
the nearest one first; above the root is the root. -/
def walk (above : List Tree) (tree : Tree) : List String → Except Obstacle Tree
  | [] => .ok tree
  | name :: names =>
    match tree with
    | file _ => .error .file
    | directory entries =>
      if Path.isLongName name then .error .tooLong
      else if name = ".." then
        match above with
        | [] => walk [] tree names
        | parent :: above => walk above parent names
      else
        match entries.lookup name with
        | some entry => walk (tree :: above) entry names
        | none => .error .missing

/-- What stands where names lead to from the root. -/
def reach (tree : Tree) (names : List String) : Except Obstacle Tree := tree.walk [] names

/-- What stands at a path, seen from a place. -/
def find (tree : Tree) (here : Place) (path : Path) : Except Obstacle Tree :=
  match Obstacle.ofPath? path with
  | some obstacle => .error obstacle
  | none => tree.reach (path.namesFrom here)

/-! ## Making directories -/

/-- The place of a new entry: the directory above it is there, and its name can be given. -/
def placeFor (tree : Tree) (names : List String) : Except Obstacle Place := do
  match ← tree.reach names.dropLast with
  | file _ => throw .file
  | directory _ =>
    if names.getLast?.any Path.isLongName then throw .tooLong
    return Path.follow [] names

/-- Makes a directory where nothing stands. -/
def makeDirectory (tree : Tree) (names : List String) : Except Obstacle Tree := do
  let place ← tree.placeFor names
  match tree.get? place with
  | some _ => throw .occupied
  | none => return tree.put (directory []) place

/-- What is left of an obstacle to making a directory that may be there already. -/
def remaining (tree : Tree) (names : List String) (obstacle : Obstacle) : Option Obstacle :=
  match tree.reach names with
  | .ok (directory _) => none
  | _ => some obstacle

/-- Makes a directory, unless it is there, and the directories that are missing above it, if they
are `room` in all or fewer. Those that have been made before an obstacle stay. -/
def makeMissing (tree : Tree) : (room : Nat) → (names : List String) → Tree × Option Obstacle
  | 0, _ => (tree, some .tooDeep)
  | room + 1, names =>
    match tree.makeDirectory names with
    | .ok tree => (tree, none)
    | .error .missing =>
      match makeMissing tree room names.dropLast with
      | (tree, some obstacle) => (tree, some obstacle)
      | (tree, none) =>
        match tree.makeDirectory names with
        | .ok tree => (tree, none)
        | .error obstacle => (tree, tree.remaining names obstacle)
    | .error obstacle => (tree, tree.remaining names obstacle)

/-- Makes the directory at a path, unless it is there, with the directories above it, of which
`room` can be made inside of each other. -/
def makeDirectories (tree : Tree) (room : Nat) (here : Place) (path : Path) :
    Tree × Option Obstacle :=
  match Obstacle.ofPath? path with
  | some obstacle => (tree, some obstacle)
  | none => tree.makeMissing room (path.namesFrom here)

/-! ## Files -/

/-- Puts a file in its directory, which must be there. -/
def putFile (tree : Tree) (here : Place) (path : Path) (content : ByteArray) :
    Except Obstacle Tree := do
  match Obstacle.ofPath? path with
  | some obstacle => throw obstacle
  | none =>
    let place ← tree.placeFor (path.namesFrom here)
    match tree.get? place with
    | some (directory _) => throw .directory
    | _ => return tree.put (file content) place

/-- Moves a file to a path, over a file that stands there. -/
def moveFile (tree : Tree) (here : Place) (source target : Path) : Except Obstacle Tree := do
  match ← tree.find here source with
  | directory _ => throw .directory
  | file content =>
    let moved ← tree.putFile here target content
    if source.placeFrom here = target.placeFrom here then return moved
    else return moved.erase (source.placeFrom here)

/-- Removes a file. -/
def removeFile (tree : Tree) (here : Place) (path : Path) : Except Obstacle Tree := do
  match ← tree.find here path with
  | directory _ => throw .directory
  | file _ => return tree.erase (path.placeFrom here)

/-! ## Drafts -/

/-- The names that drafts can have. -/
def draftName (k : Nat) : String := "tmp" ++ toString (10000000 + k) ++ ".tmp"

/-- The first name for a draft that is not among the names. -/
def freshName? (names : List String) : Option String :=
  ((List.range (names.length + 1)).find? fun k => !names.contains (draftName k)).map draftName

/-- Makes an empty file of a new name in a directory. -/
def makeDraft (tree : Tree) (here : Place) (path : Path) : Except Obstacle (Tree × Path) := do
  match ← tree.find here path with
  | file _ => throw .file
  | directory entries =>
    match freshName? (entries.map Prod.fst) with
    | none => throw .occupied
    | some name =>
      let draft := Path.ofPlace (path.placeFrom here ++ [name])
      return (← tree.putFile here draft .empty, draft)

/-! ## Listing -/

section

variable {μ : Type → Type} [Monad μ]

mutual

/-- Every file with its place, without entering the directories that `skip` holds for. Each
directory that is come to is judged once. -/
def filesFrom (skip : Place → μ Bool) (here : Place) : Tree → μ (List (Place × ByteArray))
  | file content => return [(here, content)]
  | directory entries => entryFiles skip here entries

def entryFiles (skip : Place → μ Bool) (here : Place) :
    List (String × Tree) → μ (List (Place × ByteArray))
  | [] => return []
  | (name, file content) :: entries => do
    let rest ← entryFiles skip here entries
    return (here ++ [name], content) :: rest
  | (name, directory inner) :: entries => do
    let isSkipped ← skip (here ++ [name])
    let found ← if isSkipped then pure [] else entryFiles skip (here ++ [name]) inner
    let rest ← entryFiles skip here entries
    return found ++ rest

end

end

/-- Every file below with its place. -/
def files (tree : Tree) : List (Place × ByteArray) :=
  Id.run (tree.filesFrom (fun _ => return false) [])

/-- Puts files at their places, with the directories above them. One whose place is that of a
directory, or below that of a file, is left out. -/
def putFiles (tree : Tree) (files : List (Place × ByteArray)) : Tree :=
  files.foldl (fun tree f => match tree.get? f.1 with
    | some (directory _) => tree
    | _ => tree.put (file f.2) f.1) tree

/-- The tree of the given files. -/
def ofFiles (files : List (Place × ByteArray)) : Tree := (directory []).putFiles files

end Tree

end UsageCensus.Files
