import UsageCensus.Text.Reader
import UsageCensus.Text.Search
import UsageCensus.Text.Trim

/-!
# Import statements

Two readings of the import statements of a source text. `Import.read?` reads a statement that
imports either a list of names in braces or one default name, and is what names are resolved
from. `ImportExtent.read?` also reads a default name and a list side by side, and takes the
semicolon behind the statement along; it says which lines an import occupies.
-/

namespace UsageCensus.Source

open UsageCensus.Text

/-- What stands between `import` and `from`. -/
inductive ImportClause where
  /-- The text between the braces of a list of names. -/
  | named (names : String)
  | defaultName (name : String)
  deriving Repr, DecidableEq

/-- An import statement and the offset at which it starts. -/
structure Import where
  clause : ImportClause
  source : String
  offset : Nat
  deriving Repr, DecidableEq

/-- The text up to the next `}`, which must be there, with what follows the brace. -/
def braced? : List Char → Option (List Char × List Char)
  | '{' :: text =>
    let (inner, rest) := run (· != '}') text
    match rest with
    | '}' :: rest => some (inner, rest)
    | _ => none
  | _ => none

/-- The word `from` with blanks around it, then a quoted source, with what follows it. The
closing quote may be of the other kind. -/
def fromSource? (text : List Char) : Option (List Char × List Char) := do
  let text ← blanks1? text
  let text ← after? ['f', 'r', 'o', 'm'] text
  let text ← blanks1? text
  let text ← one? isQuote text
  let (source, text) ← run1? (fun c => !isQuote c) text
  let text ← one? isQuote text
  return (source, text)

/-- The word `import` with the blanks behind it. -/
def importWord? (text : List Char) : Option (List Char) := do
  let text ← after? ['i', 'm', 'p', 'o', 'r', 't'] text
  blanks1? text

/-- A nonempty list of names in braces, or one name. -/
def clause? (text : List Char) : Option (ImportClause × List Char) :=
  match braced? text with
  | some ([], _) => none
  | some (names, rest) => some (.named (String.ofList names), rest)
  | none => (run1? isWord text).map fun (name, rest) => (.defaultName (String.ofList name), rest)

/-- Reads a statement that imports names in braces or a default name. -/
def Import.read? (text : List Char) : Option ((ImportClause × String) × List Char) := do
  let text ← importWord? text
  let (clause, text) ← clause? text
  let (source, text) ← fromSource? text
  return ((clause, String.ofList source), text)

/-- Every import of names in braces or of a default name. -/
def Import.all (text : List Char) : List Import :=
  (search (forward Import.read?) text).map fun found =>
    ⟨found.value.1, found.value.2, found.start⟩

/-! ## Extents -/

/-- A possibly empty list in braces, or a name. -/
def extentClause? (text : List Char) : Option (List Char) :=
  match braced? text with
  | some (_, rest) => some rest
  | none => (run1? isWord text).map Prod.snd

/-- A comma, with blanks around it, and a second clause; where there is no comma, nothing. -/
def secondClause? (text : List Char) : Option (List Char) :=
  match skipBlanks text with
  | ',' :: rest => extentClause? (skipBlanks rest)
  | _ => some text

/-- The semicolon behind a statement, with the blanks before it, if there is one. -/
def skipSemicolon (text : List Char) : List Char :=
  match skipBlanks text with
  | ';' :: rest => rest
  | _ => text

/-- Reads a whole statement; its value is the source. -/
def importExtent? (text : List Char) : Option (String × List Char) := do
  let text ← importWord? text
  let text ← extentClause? text
  let text ← secondClause? text
  let (source, text) ← fromSource? text
  return (String.ofList source, skipSemicolon text)

/-- Every import statement with its extent and its source. -/
def importExtents (text : List Char) : List (Found String) :=
  search (forward importExtent?) text

/-! ## Names in braces -/

/-- An imported name and the name it goes by in the file. -/
structure Binding where
  exported : String
  localName : String
  deriving Repr, DecidableEq

/-- Cuts an entry at the first `as` that has blanks on both sides: what stands before it, and
what stands behind it if it is there. `before` holds what has been passed, last character
first. -/
def cutAlias (before : List Char) : List Char → List Char × Option (List Char)
  | [] => (before.reverse, none)
  | c :: text =>
    match (if isBlank c then aliasMark? text else none) with
    | some rest => (before.reverse, some rest)
    | none => cutAlias (c :: before) text
where
  /-- What follows the `as` and its blanks. -/
  aliasMark? (text : List Char) : Option (List Char) := do
    let text ← after? ['a', 's'] (skipBlanks text)
    blanks1? text

/-- The binding of one entry of a list; entries that do not start with an ASCII capital bind
nothing. -/
def Binding.ofEntry? (entry : List Char) : Option Binding :=
  let entry := trim entry
  let (first, second) := cutAlias [] entry
  let exported := trim first
  let localName := match second with
    | some rest => trim (cutAlias [] rest).1
    | none => exported
  match exported with
  | c :: _ => if isAsciiUpper c then some ⟨String.ofList exported, String.ofList localName⟩ else none
  | [] => none

/-- The bindings of a list of names, in order. -/
def Binding.ofNames (names : String) : List Binding :=
  (cutAt ',' names.toList).filterMap Binding.ofEntry?

end UsageCensus.Source
