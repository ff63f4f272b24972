import UsageCensus.Config
import UsageCensus.Host
import UsageCensus.Document.Reader
import UsageCensus.Text.Utf8

/-!
# Loading the configuration

The configuration is in a file that is named, or in the nearest file of the usual name, in the
current directory or one of the four above it. Where there is no such file the defaults apply,
seen from the current directory. The directory of a named file is the one that its path leads to.
-/

namespace UsageCensus.Config

open UsageCensus.Files UsageCensus.Text

variable {m : Type → Type} [Host m] [Room]

/-- How many directories are looked into. -/
def searchDepth : Nat := 5

/-- The directories that are looked into, from a place upwards. -/
def searchPlaces : (depth : Nat) → Place → List Place
  | 0, _ => []
  | depth + 1, place =>
    if place.isEmpty then [place] else place :: searchPlaces depth place.dropLast

/-- The first of the places that is a file. -/
def firstFile? : List Place → m (Option Place)
  | [] => return none
  | place :: places => do
    match ← Host.kindAt (.ofPlace place) with
    | some .file => return some place
    | _ => firstFile? places

/-- Reads the configuration from a file. -/
def loadFrom (path : Path) : m Config := do
  let content ← Host.readFile path
  match decode? content with
  | none => throw (.config (.unreadable path.text "not a text in UTF-8"))
  | some text =>
    let surrogates := Document.surrogatesIn text.toList
    match Document.parseWith surrogates text.toList with
    | .error .malformed => throw (.config (.unreadable path.text "not a JSON document"))
    | .error fault => throw fault
    | .ok document =>
      let place ← Host.follow (← Host.here) path
      ofDocument (Host.follow place.dropLast) surrogates (some path) document

/-- Loads the named file, or the nearest one, or the defaults. -/
def load (choice : Choice) : m Config := do
  match choice with
  | .file text =>
    let path := Path.ofText text
    match ← Host.kindAt path with
    | none => throw (.missing (.configFile text))
    | some _ => loadFrom path
  | .unnamed => throw .wrongKind
  | .usual =>
    let here ← Host.here
    let candidates := (searchPlaces searchDepth here).map fun place => place ++ [fileName]
    match ← firstFile? candidates with
    | some place => loadFrom (.ofPlace place)
    | none => ofDocument (Host.follow here) .none none (.object [])

end UsageCensus.Config
