import UsageCensus.Fault
import UsageCensus.Text.Reader
import UsageCensus.Text.Search
import UsageCensus.Table

/-!
# Opening tags

A tag opens with `<` and one of the sought names, where a word ends or begins behind the name.
It closes at the first `>` at which as many braces have been closed as opened, so that arrows
and comparisons inside `{...}` do not end it. A tag that never closes is not reported.
-/

namespace UsageCensus.Source

open UsageCensus.Text

/-- The boundaries of an opening tag: `start` is the `<`, `bodyStart` the first character
behind the name and `stop` the closing `>`. -/
structure TagSpan where
  component : String
  localName : String
  start : Nat
  bodyStart : Nat
  stop : Nat
  deriving Repr, DecidableEq

/-- Characters between the name and the closing `>`. -/
def TagSpan.bodyLength (span : TagSpan) : Nat := span.stop - span.bodyStart

/-- Distinct names, longer ones first, and of equal length in alphabetical order. -/
def searchOrder (names : List String) : List String :=
  names.eraseDups.mergeSort fun a b =>
    decide (b.length < a.length) || (a.length == b.length && decide (a ≤ b))

/-- A word ends or begins between a character and the text behind it. -/
def wordBoundary (before : Char) (text : List Char) : Bool :=
  isWord before != (text.head?.any isWord)

/-- Reads `<` and the first of the names that stands behind it and ends at a word boundary. -/
def tagName? (names : List (List Char)) : List Char → Option (String × List Char)
  | '<' :: text => names.findSome? fun name =>
    match after? name text with
    | some rest =>
      if wordBoundary (name.getLastD '<') rest then some (String.ofList name, rest) else none
    | none => none
  | _ => none

/-- Offset of the first `>` outside of braces, for a text that starts at offset `at_` inside
`depth` braces. -/
def closingAngle (depth : Int) (at_ : Nat) : List Char → Option Nat
  | [] => none
  | c :: text =>
    if c = '{' then closingAngle (depth + 1) (at_ + 1) text
    else if c = '}' then closingAngle (depth - 1) (at_ + 1) text
    else if c = '>' ∧ depth = 0 then some at_
    else closingAngle depth (at_ + 1) text

/-- Offset of the `>` that closes the tag whose attributes begin at `start`. -/
def tagEnd? (content : List Char) (start : Nat) : Option Nat :=
  closingAngle 0 start (content.drop start)

/-- Offset of the `>` that closes a tag, where its attributes may also begin at an offset that is
counted back from the end of the text: then the text is gone through from there and once more
from its start, and an offset counted back is found as such. -/
def closingOffset (content : List Char) (start : Int) : Except Fault (Option Int) :=
  if 0 ≤ start then .ok ((tagEnd? content start.toNat).map Int.ofNat)
  else if content.length < start.natAbs then .error .outside
  else
    let ending := content.drop (content.length - start.natAbs)
    .ok ((closingAngle 0 0 (ending ++ content)).map fun found => start + Int.ofNat found)

/-- Every closed opening tag of the sought names. A name is reported as the component it stands
for in `components`, or as itself. -/
def tagSpans (names : List String) (content : List Char) (components : Table String String) :
    List TagSpan :=
  let sought := (searchOrder names).map String.toList
  (search (forward (tagName? sought)) content).filterMap fun found =>
    (tagEnd? content found.stop).map fun stop =>
      ⟨components.getD found.value found.value, found.value, found.start, found.stop, stop⟩

/-- Reads an opening tag of any element: `<`, a letter, letters and digits, then a blank, a
slash or `>`. -/
def elementTag? : List Char → Option (Unit × List Char)
  | '<' :: text => do
    let rest ← one? isAsciiLetter text
    let rest ← one? (fun c => isBlank c || c == '/' || c == '>') (rest.dropWhile isAsciiAlnum)
    return ((), rest)
  | _ => none

/-- The text renders an element: a component or an element of the page. -/
def rendersMarkup : List Char → Bool
  | [] => false
  | c :: text => (elementTag? (c :: text)).isSome || rendersMarkup text

end UsageCensus.Source
