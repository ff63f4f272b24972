import UsageCensus.Files.Discovery
import UsageCensus.Host

/-!
# Sandboxes

A host that is a value: a file tree, and what has been shown so far. What a command has done
before a fault stays done. No place leads to another one, and every directory can be listed whose
path is not too long.
-/

namespace UsageCensus

open UsageCensus.Files

structure Sandbox where
  disk : Tree
  here : Place
  console : Console
  moment : String
  /-- Lines that have been shown, last one first. -/
  shown : List String
  /-- Notes that have been shown, last one first. -/
  notes : List String

/-- Programs in a sandbox. -/
abbrev SandboxM := ExceptT Fault (StateM Sandbox)

namespace Sandbox

/-- The lines in order, each with its line end. -/
def textOf (lines : List String) : String :=
  String.join (lines.reverse.map fun line => line ++ "\n")

def kindAt (sandbox : Sandbox) (path : Path) : Except Fault (Option Kind) :=
  match sandbox.disk.find sandbox.here path with
  | .ok found => .ok (some found.kind)
  | .error .tooLong => .error .nameTooLong
  | .error _ => .ok none

def read (sandbox : Sandbox) (path : Path) : Except Fault ByteArray :=
  match sandbox.disk.find sandbox.here path with
  | .ok (.file content) => .ok content
  | .ok (.directory _) => .error .isDirectory
  | .error obstacle => .error (obstacle.toFault path)

/-- The sandbox with another disk in it. -/
def withDisk (sandbox : Sandbox) (disk : Tree) : Sandbox := { sandbox with disk }

/-- The names in a directory. -/
def namesIn (sandbox : Sandbox) (place : Place) : List String :=
  match sandbox.disk.get? place with
  | some (.directory entries) => entries.map Prod.fst
  | _ => []

/-- The directory at a place below another one can be listed. -/
def canList (place below : Place) : Bool := !(Path.ofPlace (place ++ below)).isLong

/-- The files below a directory; a place that is none has no files below. -/
def filesBelow (sandbox : Sandbox) (place : Place) (skip : Place → Except Fault Bool) :
    Except Fault (List Place) :=
  match sandbox.disk.get? place with
  | some (.directory entries) => filesListed (canList place) skip (.directory entries)
  | _ => .ok []

/-- A result that may be a fault. -/
def liftExcept {α : Type} : Except Fault α → SandboxM α
  | .ok a => pure a
  | .error fault => throw fault

/-- Changes the disk, unless something stands in the way. -/
def change (path : Path) (step : Tree → Place → Except Tree.Obstacle Tree) : SandboxM Unit := do
  let sandbox ← get
  match step sandbox.disk sandbox.here with
  | .ok disk => set (sandbox.withDisk disk)
  | .error obstacle => throw (obstacle.toFault path)

/-- Makes directories up to what stands in the way. -/
def makeDirectories [Room] (path : Path) : SandboxM Unit := do
  let sandbox ← get
  let (disk, obstacle) := sandbox.disk.makeDirectories Room.made sandbox.here path
  set (sandbox.withDisk disk)
  match obstacle with
  | some obstacle => throw (obstacle.toFault path)
  | none => return

def makeDraft (path : Path) : SandboxM Path := do
  let sandbox ← get
  match sandbox.disk.makeDraft sandbox.here path with
  | .ok (disk, draft) =>
    set (sandbox.withDisk disk)
    return draft
  | .error obstacle => throw (obstacle.toFault path)

instance [Room] : Host SandboxM where
  here := return (← get).here
  follow place path := return path.resolve place
  kindAt path := do liftExcept ((← get).kindAt path)
  readFile path := do liftExcept ((← get).read path)
  makeDirectories := makeDirectories
  makeDraft := makeDraft
  writeFile path content := change path fun disk here => disk.putFile here path content
  moveFile source target := change target fun disk here => disk.moveFile here source target
  removeFile path := change path fun disk here => disk.removeFile here path
  namesIn place := return (← get).namesIn place
  filesBelow place skip := do liftExcept ((← get).filesBelow place skip)
  console := return (← get).console
  print text := modify fun s => { s with shown := text :: s.shown }
  printNote text := modify fun s => { s with notes := text :: s.notes }
  now := return (← get).moment

/-- Runs a program: how it ended, and the sandbox it leaves. -/
def run {α : Type} (program : SandboxM α) (sandbox : Sandbox) : Except Fault α × Sandbox :=
  Id.run (StateT.run (ExceptT.run program) sandbox)

end Sandbox

end UsageCensus
