import UsageCensus.Console
import UsageCensus.Files.Tree
import UsageCensus.Room
import UsageCensus.Text.Surrogates

/-!
# Hosts

What a command needs of the machine that it runs on: files, a console, and the time. Commands
are written for any host. Reading and writing raise the fault that stands in the way; showing a
line raises one if the console lacks its characters. What the machine has room for is not asked of
a host, but taken from the context (`Room`).
-/

namespace UsageCensus

open UsageCensus.Files UsageCensus.Text

class Host (m : Type → Type) extends Monad m, MonadExceptOf Fault m where
  /-- The place that relative paths are seen from. -/
  here : m Place
  /-- The place that a path leads to, for relative paths seen from a place. -/
  follow : Place → Path → m Place
  /-- What stands at a path, if anything does. Only a path that is too long is a fault. -/
  kindAt : Path → m (Option Kind)
  readFile : Path → m ByteArray
  /-- Makes the directory at a path, unless it is there, and those above it. The directories that
  have been made before something stood in the way stay. -/
  makeDirectories : Path → m Unit
  /-- Makes an empty file of a new name in a directory. -/
  makeDraft : Path → m Path
  /-- Writes a file in its directory. -/
  writeFile : Path → ByteArray → m Unit
  /-- Moves a file to a path, over a file that stands there. -/
  moveFile : Path → Path → m Unit
  removeFile : Path → m Unit
  /-- Names in a directory. -/
  namesIn : Place → m (List String)
  /-- Files below a directory, seen from it, as far as the directories can be listed, without
  entering those that the predicate holds for. -/
  filesBelow : Place → (Place → Except Fault Bool) → m (List Place)
  console : m Console
  /-- Shows a text and a line end. -/
  print : String → m Unit
  /-- Shows a text and a line end beside the results. -/
  printNote : String → m Unit
  /-- The present moment. -/
  now : m String

namespace Host

variable {m : Type → Type} [Host m]

/-- A text that can be shown and stored: one without surrogates. -/
def encodable (surrogates : Surrogates) (text : String) : m String :=
  if surrogates.occurIn text.toList then throw .unencodable else return text

/-- Shows a line, in its plain form where the console lacks its characters. -/
def put (line : Line) : m Unit := do
  let console ← Host.console
  match line.shown? console with
  | some text => Host.print text
  | none => throw .unencodable

/-- Shows a styled text. -/
def putStyled (style : Style) (text : String) : m Unit := put (.styled style text)

def putText (text : String) : m Unit := put (.ofText text)

/-- Shows a styled note. -/
def note (style : Style) (text : String) : m Unit := do
  let console ← Host.console
  Host.printNote (console.paint (some style) text)

/-- A note on progress. -/
def log (text : String) : m Unit := note .dim text

def warn (text : String) : m Unit := note .yellow text

/-- Lifts a result that may be a fault. -/
def lift {α : Type} : Except Fault α → m α
  | .ok a => pure a
  | .error fault => throw fault

/-- Shows a table, up to the first line that cannot be drawn. -/
def putTable (headers : List Document) (rows : List (List Document)) (widths : List Int) :
    m Unit := do
  let lines ← lift (ConsoleTable.lines headers rows widths)
  lines.forM fun line => do put (← lift line)

/-- Shows lines in a frame. -/
def putBox (lines : List String) (width : Int) : m Unit := do
  (← lift (boxLines lines width)).forM put

end Host

end UsageCensus
