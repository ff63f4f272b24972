import UsageCensus.Command.Run
import UsageCensus.Text.Quoted
import Std.Time.DateTime.PlainDateTime
import Std.Time.DateTime.Timestamp

/-!
# The program

Runs the command that the arguments make, on this machine. The exit code is 0 where the command
has done its work, 1 where a fault has ended it, and 2 where the arguments make no command.
-/

namespace UsageCensus

open UsageCensus.Files UsageCensus.Text Std.Time

/-- What there is room for on this machine. -/
@[reducible]
def machineRoom : Room where
  pattern := 990
  ignored := 990
  ignoredBelow := 990
  entered := 990
  made := 987
  opened := 990
  opened_few := by decide
  saving := .ofLevels 987 (by decide)
  showing := .ofLevels 987 (by decide)
  copying := .ofLevels 494 (by decide)
  written := 2147479552

/-- Programs on this machine. -/
abbrev MachineM := ExceptT Fault IO

namespace MachineM

/-! ## Moments -/

/-- A number with at least two digits. -/
def twoDigits (n : Int) : String := (if 0 ≤ n ∧ n < 10 then "0" else "") ++ toString n

/-- A moment as a text, to the second and with its offset from universal time. -/
def momentText (moment : PlainDateTime) : String :=
  let date := "-".intercalate
    [toString moment.year, twoDigits moment.month.val, twoDigits moment.day.val]
  let time := ":".intercalate
    [twoDigits moment.hour.val, twoDigits moment.minute.val, twoDigits moment.second.val]
  date ++ "T" ++ time ++ "+00:00"

/-! ## Files -/

/-- A path with its quotes. -/
def quotedText (text : String) : String := String.ofList (quoted text.toList)

/-- Runs an action on the file system; what it refuses is a fault. -/
def guarded {α : Type} (path : Path) (action : IO α) : MachineM α := do
  if path.isUnusable then throw .unusablePath
  if path.isLong || path.names.any Path.isLongName then throw .nameTooLong
  match ← (action.toBaseIO : IO (Except IO.Error α)) with
  | .ok a => return a
  | .error (.noFileOrDirectory ..) =>
    throw (.missing (.file (quotedText path.text)))
  | .error reason => throw (.refused (toString reason))

/-- The place that names lead to from a place. A link is followed with all that is behind it; what
is not there is taken as it is named. -/
def followNames (place : Place) : List String → MachineM Place
  | [] => return place
  | name :: names => do
    if name = ".." then followNames place.dropLast names
    else
      let next := place ++ [name]
      match ← ((IO.FS.realPath next.text).toBaseIO : IO (Except IO.Error _)) with
      | .ok found => followNames (Path.ofText (toString found)).names names
      | .error _ => followNames next names

/-- The place that a path leads to, unless links on the way lead to each other. -/
def follow (start : Place) (path : Path) : MachineM Place := do
  let place ← followNames (path.start start) path.names
  match ← (((← IO.currentDir) / place.text).metadata.toBaseIO : IO (Except IO.Error _)) with
  | .error (.invalidArgument ..) => throw (.linkLoop (quotedText place.text))
  | _ => return place

/-- What stands at a path, if anything does. -/
def kindAt (path : Path) : MachineM (Option Kind) := do
  if path.isUnusable then return none
  if path.isLong || path.names.any Path.isLongName then throw .nameTooLong
  let place := (← IO.currentDir) / path.text
  if ← place.isDir then return some .directory
  if ← place.pathExists then return some .file else return none

def readFile (path : Path) : MachineM ByteArray := do
  match ← kindAt path with
  | some .directory => throw .isDirectory
  | _ => guarded path (IO.FS.readBinFile path.text)

/-- Names in a directory with their kinds; links to directories are told apart from these. -/
def entriesIn (place : Place) : IO (List (String × Option Kind)) := do
  let entries ← ((← IO.currentDir) / Place.text place).readDir
  entries.toList.mapM fun entry => do
    let isLink := (← entry.path.symlinkMetadata).type == .symlink
    let kind : Option Kind :=
      if ← entry.path.isDir then if isLink then none else some .directory else some .file
    return (entry.fileName, kind)

/-- Makes a directory with those above it. -/
def makeDirectories (path : Path) : MachineM Unit := do
  match ← kindAt path with
  | some .file => throw .occupied
  | _ => guarded path (IO.FS.createDirAll path.text)

/-- Makes an empty file of a new name in a directory. -/
def makeDraft (directory : Path) : MachineM Path := do
  let place := directory.placeFrom (Path.ofText (toString (← IO.currentDir))).names
  let names ← guarded directory (entriesIn place)
  match Tree.freshName? (names.map Prod.fst) with
  | none => throw .occupied
  | some name =>
    let draft := Path.ofPlace (place ++ [name])
    guarded draft do discard (IO.FS.Handle.mk draft.text .writeNew)
    return draft

def writeFile (path : Path) (content : ByteArray) : MachineM Unit := do
  match ← kindAt path with
  | some .directory => throw .isDirectory
  | _ => guarded path (IO.FS.writeBinFile path.text content)

def moveFile (source target : Path) : MachineM Unit := do
  match ← kindAt target with
  | some .directory => throw .isDirectory
  | _ => guarded target (IO.FS.rename source.text target.text)

/-- Files below a place, without entering the directories that `skip` holds for. A directory that
cannot be read has no files. -/
partial def filesFrom (start : Place) (skip : Place → Except Fault Bool) (here : Place) :
    MachineM (List Place) := do
  match ← ((entriesIn (start ++ here)).toBaseIO : IO (Except IO.Error _)) with
  | .error _ => return []
  | .ok entries =>
    let found ← entries.mapM fun (name, kind) => do
      let place := here ++ [name]
      match kind with
      | some .file => return [place]
      | some .directory => match skip place with
        | .ok isSkipped => if isSkipped then return [] else filesFrom start skip place
        | .error fault => throw fault
      | none => return []
    return found.flatten

instance : Host MachineM where
  here := return (Path.ofText (toString (← IO.currentDir))).names
  follow := follow
  kindAt path := kindAt path
  readFile := readFile
  makeDirectories := makeDirectories
  makeDraft := makeDraft
  writeFile := writeFile
  moveFile := moveFile
  removeFile path := guarded path (IO.FS.removeFile path.text)
  namesIn place := do
    let entries ← guarded (.ofPlace place) (entriesIn place)
    return entries.map Prod.fst
  filesBelow place skip := filesFrom place skip []
  console := do
    let isTerminal ← (← IO.getStdout).isTty
    let noColor := (← IO.getEnv "NO_COLOR").isSome
    return { isTerminal, noColor, asciiOnly := false }
  print text := IO.println text
  printNote text := IO.eprintln text
  now := do
    let moment ← Timestamp.now
    return momentText (.ofWallTime (.ofSeconds moment.toSecondsSinceUnixEpoch))

/-- Runs a command; a fault that no one was told of is told here. -/
def exitCode (command : Command) : IO UInt32 := do
  let _ : Room := machineRoom
  match ← (Command.run command : MachineM Nat).run with
  | .ok code => return UInt32.ofNat code
  | .error fault =>
    IO.eprintln ((fault.message?).getD (toString (repr fault)))
    return 1

end MachineM

/-- How the program is called. -/
def usage : String :=
  "usage: component-analytics " ++ "|".intercalate (Command.forms.map Command.Form.name)
    ++ " [arguments]"

end UsageCensus

/-- The program. -/
def main (arguments : List String) : IO UInt32 := do
  match UsageCensus.Command.ofArguments arguments with
  | .ok command => UsageCensus.MachineM.exitCode command
  | .error stop =>
    match stop with
    | .help => IO.println UsageCensus.usage
    | .misuse => IO.eprintln UsageCensus.usage
    return UInt32.ofNat stop.exitCode
