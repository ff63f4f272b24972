import UsageCensus.Text.Surrogates
import UsageCensus.Text.Trim

/-!
# Paths

A path is written as names between slashes; empty names and the name `.` mean nothing and are
dropped. A path that starts with a slash starts at the root, and one that starts with exactly
two slashes keeps them. A place is where an absolute path leads: the names from the root on,
with no `..` among them.
-/

namespace UsageCensus.Files

open UsageCensus.Text

/-- The names from the root on. -/
abbrev Place := List String

/-- A place as a text. -/
def Place.text (place : Place) : String := "/" ++ "/".intercalate place

/-- Places are in order name by name. -/
def Place.le (a b : Place) : Bool := !List.lex b a fun s t => decide (s < t)

/-- A path: the slashes it starts with, and its names. -/
structure Path where
  root : String
  names : List String
  deriving Repr, DecidableEq

namespace Path

/-- The slashes at the start of a path that count. -/
def rootOf : List Char → String
  | '/' :: '/' :: '/' :: _ => "/"
  | '/' :: '/' :: _ => "//"
  | '/' :: _ => "/"
  | _ => ""

def ofText (text : String) : Path where
  root := rootOf text.toList
  names := ((cutAt '/' text.toList).map String.ofList).filter fun name => name != "" && name != "."

def ofPlace (place : Place) : Path := ⟨"/", place⟩

/-- The path as a text; a path of no names is a point. -/
def text (path : Path) : String :=
  if path.root = "" ∧ path.names = [] then "." else path.root ++ "/".intercalate path.names

/-- What paths are put in order by: the slashes at the start, if any, and the names. -/
def parts (path : Path) : List String :=
  if path.root = "" then path.names else path.root :: path.names

def isAbsolute (path : Path) : Bool := path.root != ""

/-- The second path seen from the first one; an absolute one stands for itself. -/
def append (base path : Path) : Path :=
  if path.isAbsolute then path else ⟨base.root, base.names ++ path.names⟩

/-- A name with the character in it that ends texts of the file system. -/
def hasNull (name : String) : Bool := name.toList.contains '\x00'

/-- A text that no file system takes for a path. -/
def isUnusable (path : Path) : Bool := path.names.any hasNull

/-- A name with a surrogate in it that no name of a file can have. -/
def hasStraySurrogate (surrogates : Surrogates) (name : String) : Bool :=
  name.toList.any fun c => (surrogates.unit? c).any fun unit => !isByteSurrogate unit

/-- The most bytes that a name can have. -/
def maxNameSize : Nat := 255

/-- The most bytes that the text of a path can have. -/
def maxTextSize : Nat := 4095

def isLongName (name : String) : Bool := decide (maxNameSize < name.utf8ByteSize)

def isLong (path : Path) : Bool := decide (maxTextSize < path.text.utf8ByteSize)

/-- The path without its last name. -/
def parent (path : Path) : Path := { path with names := path.names.dropLast }

/-- The place that names lead to from a place, where `..` takes the last name away. -/
def follow (here : Place) (names : List String) : Place :=
  let back := names.foldl (fun back name =>
    if name = ".." then back.drop 1 else name :: back) here.reverse
  back.reverse

/-- The place where the names of a path start, for relative paths seen from `here`. -/
def start (here : Place) (path : Path) : Place := if path.isAbsolute then [] else here

/-- The names from the root on that a path leads along, for relative paths seen from `here`. -/
def namesFrom (here : Place) (path : Path) : List String := path.start here ++ path.names

/-- The place that these names lead to. -/
def placeFrom (here : Place) (path : Path) : Place := follow [] (path.namesFrom here)

/-- The place of a path, for relative paths seen from `here`. -/
def resolve (here : Place) (path : Path) : Place := follow (path.start here) path.names

end Path

/-- A file name without its ending, unless it is nothing but an ending. -/
def stem (name : String) : String :=
  let ending := (name.toList.reverse.takeWhile (· != '.')).length
  let cut := name.length - ending - 1
  if name.contains '.' ∧ 0 < ending ∧ 0 < cut then String.ofList (name.toList.take cut) else name

end UsageCensus.Files
