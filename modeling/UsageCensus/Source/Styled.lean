import UsageCensus.Fault
import UsageCensus.Source.Tag
import UsageCensus.Text.Line
import UsageCensus.Text.Trim

/-!
# Styled wrappers

`styled(Card)` wraps a tracked component in a look of its own. The look follows as a template
in backticks or as an argument in parentheses; type arguments and `.attrs(...)` may stand
before it, and a `const`, `let` or `var` that the wrapper is assigned to gives it a name.
Templates are reported first. A call with the component and the name of a template is the same
wrapper and is not reported again.
-/

namespace UsageCensus.Source

open UsageCensus.Text

namespace Styled

/-! ## Declarations of a template -/

/-- The name of a property. -/
def isPropertyChar (c : Char) : Bool := isAsciiLower c || c == '-'

/-- A property name with a colon behind it. -/
def readProperty? (text : List Char) : Option (String × List Char) := do
  let (name, text) ← run1? isPropertyChar (skipBlanks text)
  let text ← one? (· == ':') (skipBlanks text)
  return (String.ofList name, text)

/-- A property at the start of a line or behind a semicolon. -/
def readDeclaration? : SearchReader String := fun before text =>
  match text with
  | [] => none
  | c :: rest =>
    if c = '\n' ∨ c = ';' then readProperty? rest
    else if before = none ∨ before = some '\n' then readProperty? text
    else none

/-- Longer than one character, and no custom property or one with a vendor's prefix. -/
def isPlainProperty (name : String) : Bool :=
  name.toList.head? != some '-' && 1 < name.length

end Styled

/-- The properties declared in a template, in order. -/
def templateProperties (template : String) : List String :=
  ((search Styled.readDeclaration? template.toList).map Found.value).filter Styled.isPlainProperty

namespace Styled

/-! ## Wrappers -/

/-- The text up to the parenthesis that closes an opened one, or up to the end. -/
def parenBody (depth : Nat) : List Char → List Char
  | [] => []
  | c :: text =>
    if c = '(' then c :: parenBody (depth + 1) text
    else if c = ')' then
      match depth with
      | 0 => []
      | depth + 1 => c :: parenBody depth text
    else c :: parenBody depth text

/-- The trimmed text between an opened parenthesis and the one that closes it. Its start may be
counted back from the end of the text: then the closing parenthesis is sought from there and
once more from the start of the text, and only what lies between the two in the text is left. -/
def parenText (content : List Char) (start : Int) : Except Fault String :=
  if 0 ≤ start then .ok (String.ofList (trim (parenBody 0 (content.drop start.toNat))))
  else if content.length < start.natAbs then .error .outside
  else
    let first := content.length - start.natAbs
    let length := (parenBody 0 (content.drop first ++ content)).length
    let stop := if length < start.natAbs then first + length else length - start.natAbs
    .ok (String.ofList (trim ((content.take stop).drop first)))

/-- What follows a declaration word. -/
def declarationWord? (text : List Char) : Option (List Char) :=
  [['c', 'o', 'n', 's', 't'], ['l', 'e', 't'], ['v', 'a', 'r']].findSome? fun word =>
    after? word text

/-- The name that is assigned to, and what follows the equals sign. -/
def readAssignment? (text : List Char) : Option (String × List Char) := do
  let text ← match after? ['e', 'x', 'p', 'o', 'r', 't'] text with
    | some rest => blanks1? rest
    | none => some text
  let text ← blanks1? (← declarationWord? text)
  let (name, text) ← run1? isWord text
  let text ← one? (· == '=') (skipBlanks text)
  return (String.ofList name, skipBlanks text)

/-- What follows type arguments, if there are any. -/
def skipTypeArguments (text : List Char) : List Char :=
  match text with
  | '<' :: rest => (one? (· == '>') (rest.dropWhile (· != '>'))).getD text
  | _ => text

/-- What follows attached attributes, if there are any. -/
def skipAttrs (text : List Char) : List Char :=
  match after? ['.', 'a', 't', 't', 'r', 's', '('] text with
  | some rest => (one? (· == ')') (rest.dropWhile (· != ')'))).getD text
  | none => text

/-- A template in backticks. -/
def readTemplate? (text : List Char) : Option (List Char × List Char) := do
  let text ← one? (· == '\x60') text
  let rest ← one? (· == '\x60') (text.dropWhile (· != '\x60'))
  return (text.takeWhile (· != '\x60'), rest)

/-- An opening parenthesis; its value is the text behind it up to the closing one. -/
def readCall? (text : List Char) : Option (List Char × List Char) := do
  let rest ← one? (· == '(') text
  return (parenBody 0 rest, rest)

/-- A component and the name that its wrapper is assigned to. -/
structure Target where
  component : String
  variableName : Option String
  deriving Repr, DecidableEq

/-- `styled(` with one of the names and `)`, then a look that `look?` reads. -/
def readWrapped? (names : List String) (look? : List Char → Option (List Char × List Char))
    (text : List Char) : Option ((String × List Char) × List Char) := do
  let text ← after? ['s', 't', 'y', 'l', 'e', 'd', '('] text
  names.findSome? fun name => do
    let text ← one? (· == ')') (← after? name.toList text)
    let (look, rest) ← look? (skipTypeArguments (skipAttrs (skipTypeArguments text)))
    return ((name, look), rest)

/-- A wrapper with its assignment, if there is one. -/
def read? (names : List String) (look? : List Char → Option (List Char × List Char))
    (text : List Char) : Option ((Target × List Char) × List Char) :=
  match readAssignment? text with
  | some (variableName, rest) =>
    (readWrapped? names look? rest).map fun ((component, look), rest) =>
      ((⟨component, some variableName⟩, look), rest)
  | none =>
    (readWrapped? names look? text).map fun ((component, look), rest) =>
      ((⟨component, none⟩, look), rest)

end Styled

structure StyledUsage where
  target : Styled.Target
  content : String
  properties : List String
  line : Nat
  deriving Repr, DecidableEq

/-- The usage that was found. -/
def StyledUsage.ofFound (lines : LineIndex) (found : Found (Styled.Target × List Char)) :
    StyledUsage :=
  let content := String.ofList (trim found.value.2)
  ⟨found.value.1, content, templateProperties content, lines.lineAt found.start⟩

/-- Wrappers of the components: templates, then calls that are not among them. -/
def styledUsages (components : List String) (content : List Char) : List StyledUsage :=
  let names := searchOrder components
  if names = [] ∨ names = [""] then []
  else
    let lines := LineIndex.ofText content
    let usages (look? : List Char → Option (List Char × List Char)) : List StyledUsage :=
      (search (forward (Styled.read? names look?)) content).map (StyledUsage.ofFound lines)
    let templates := usages Styled.readTemplate?
    let seen := templates.map StyledUsage.target
    templates ++ (usages Styled.readCall?).filter fun usage => !seen.contains usage.target

end UsageCensus.Source
