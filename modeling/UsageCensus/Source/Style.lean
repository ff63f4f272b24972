import UsageCensus.Source.Scan

/-!
# Inline styles

A `style` attribute on a tag of a tracked component overrides its look. Tags are sought by the
component's own name, imported or not. The properties of a style are the keys of the object
literal: names and quoted texts before a colon, at the start of the text or behind `{`, `,`
or `;`.
-/

namespace UsageCensus.Source

open UsageCensus.Text

namespace StyleKey

def startsName (c : Char) : Bool := isAsciiLetter c || c == '_' || c == '$'

def continuesName (c : Char) : Bool := isWord c || c == '$'

/-- Characters behind which a key may stand. -/
def isDelimiter (c : Char) : Bool := c == '\x7b' || c == ',' || c == ';'

/-- A name. -/
def readName? : List Char → Option (List Char × List Char)
  | c :: text => if startsName c then some (run continuesName (c :: text)) else none
  | [] => none

/-- A text between quotes that is not empty. The quotes need not be of one kind. -/
def readQuoted? (text : List Char) : Option (List Char × List Char) := do
  let text ← one? isQuote text
  let (key, text) ← run1? (fun c => !isQuote c) text
  let text ← one? isQuote text
  return (key, text)

/-- A name or quoted text with a colon behind it. -/
def readKey? (text : List Char) : Option (String × List Char) := do
  let (key, text) ← (readName? text).or (readQuoted? text)
  let text ← one? (· == ':') (skipBlanks text)
  return (String.ofList key, text)

/-- A key with the delimiter before it; at the start of the text there need not be one. -/
def read? : SearchReader String := fun before text =>
  match text with
  | [] => none
  | c :: rest =>
    if isDelimiter c then readKey? (skipBlanks rest)
    else if before.isNone then readKey? text
    else none

end StyleKey

/-- The keys of a style object, in order. -/
def styleProperties (style : String) : List String :=
  (search StyleKey.read? style.toList).map Found.value

structure InlineStyle where
  component : String
  content : String
  properties : List String
  line : Nat
  deriving Repr, DecidableEq

/-- The style that an attribute holds, if it is one. -/
def InlineStyle.ofAttribute? (component : String) (line : Nat) (a : Attribute) :
    Option InlineStyle :=
  if a.name = "style" then
    some ⟨component, a.value, styleProperties a.value, line⟩
  else none

/-- The style attributes on tags of tracked components. -/
def inlineStyles (content : List Char) (tracked : Tracked) : List InlineStyle :=
  let lines := LineIndex.ofText content
  (tagSpans tracked.components content .empty).flatMap fun span =>
    let tag := Instance.ofSpan content lines span
    tag.attributes.filterMap (InlineStyle.ofAttribute? tag.component tag.line)

end UsageCensus.Source
