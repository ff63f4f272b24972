import UsageCensus.Document.Basic
import UsageCensus.Number.Decimal
import UsageCensus.Text.Surrogates

/-!
# Writing JSON

Two layouts: one item a line with an indent of two, or all on one line. Characters outside of
printable ASCII are escaped, above the basic plane as a pair of surrogates, so that the text is
ASCII. Numbers that are not integers take their shortest notation.

What is written must be plain, made of the values of JSON alone; in the place of anything else
stands null.
-/

namespace UsageCensus.Document

open UsageCensus.Number UsageCensus.Text

/-- The names of the numbers that are not finite. -/
def specialNames : Binary64.SpecialNames := ⟨"Infinity", "-Infinity", "NaN"⟩

/-- Four hexadecimal digits. -/
def hex4 (n : Nat) : List Char :=
  let digits := Nat.toDigits 16 n
  List.replicate (4 - digits.length) '0' ++ digits

/-- The escape of a code point of the basic plane. -/
def escapeUnit (n : Nat) : List Char := '\\' :: 'u' :: hex4 n

/-- A character inside a quoted text. -/
def escapeChar (c : Char) : List Char :=
  if c = '"' then ['\\', '"']
  else if c = '\\' then ['\\', '\\']
  else if c = '\n' then ['\\', 'n']
  else if c = '\r' then ['\\', 'r']
  else if c = '\t' then ['\\', 't']
  else if c = '\x0c' then ['\\', 'f']
  else if c = '\x08' then ['\\', 'b']
  else if 32 ≤ c.toNat ∧ c.toNat < 127 then [c]
  else if c.toNat < 65536 then escapeUnit c.toNat
  else
    let n := c.toNat - 65536
    escapeUnit (55296 + n / 1024) ++ escapeUnit (56320 + n % 1024)

/-- A character inside a quoted text, or the surrogate that it stands for. -/
def escapeWith (surrogates : Surrogates) (c : Char) : List Char :=
  match surrogates.unit? c with
  | some unit => escapeUnit unit
  | none => escapeChar c

/-- A text in double quotes, in which surrogates are escaped like characters. -/
def quote (surrogates : Surrogates) (text : String) : List Char :=
  '"' :: text.toList.flatMap (escapeWith surrogates) ++ ['"']

inductive Layout where
  | oneLine
  | indented
  deriving Repr, DecidableEq

namespace Layout

/-- What stands before an item at a depth, and before the bracket that closes one. -/
def newline : Layout → Nat → List Char
  | oneLine, _ => []
  | indented, depth => '\n' :: List.replicate (2 * depth) ' '

/-- What stands between two items at a depth. -/
def separator : Layout → Nat → List Char
  | oneLine, _ => [',', ' ']
  | indented, depth => ',' :: newline indented depth

end Layout

mutual

/-- A value at a depth, in front of a text. -/
def write (surrogates : Surrogates) (layout : Layout) (depth : Nat) :
    Document → List Char → List Char
  | null, text => ['n', 'u', 'l', 'l'] ++ text
  | bool true, text => ['t', 'r', 'u', 'e'] ++ text
  | bool false, text => ['f', 'a', 'l', 's', 'e'] ++ text
  | int n, text => (toString n).toList ++ text
  | float x, text => (x.shortest specialNames).toList ++ text
  | string t, text => quote surrogates t ++ text
  | list [], text => '[' :: ']' :: text
  | list (item :: items), text =>
    '[' :: (layout.newline (depth + 1) ++ write surrogates layout (depth + 1) item
      (writeItems surrogates layout (depth + 1) items (layout.newline depth ++ ']' :: text)))
  | object [], text => '{' :: '}' :: text
  | object ((key, value) :: members), text =>
    '{' :: (layout.newline (depth + 1) ++ (quote surrogates key ++ ':' :: ' ' ::
      write surrogates layout (depth + 1) value
        (writeMembers surrogates layout (depth + 1) members (layout.newline depth ++ '}' :: text))))
  | _, text => ['n', 'u', 'l', 'l'] ++ text

/-- The items behind the first one. -/
def writeItems (surrogates : Surrogates) (layout : Layout) (depth : Nat) :
    List Document → List Char → List Char
  | [], text => text
  | item :: items, text =>
    layout.separator depth ++ write surrogates layout depth item
      (writeItems surrogates layout depth items text)

/-- The members behind the first one. -/
def writeMembers (surrogates : Surrogates) (layout : Layout) (depth : Nat) :
    List (String × Document) → List Char → List Char
  | [], text => text
  | (key, value) :: members, text =>
    layout.separator depth ++ (quote surrogates key ++ ':' :: ' ' ::
      write surrogates layout depth value (writeMembers surrogates layout depth members text))

end

/-- The value as a text, where characters may stand for surrogates. -/
def renderWith (surrogates : Surrogates) (layout : Layout) (value : Document) : String :=
  String.ofList (write surrogates layout 0 value [])

/-- The value as a text. -/
def render (layout : Layout) (value : Document) : String := renderWith .none layout value

/-- The value as a file: indented, with a line feed at the end. -/
def renderFileWith (surrogates : Surrogates) (value : Document) : String :=
  String.ofList (write surrogates .indented 0 value ['\n'])

/-- The value as a file, where no character stands for a surrogate. -/
def renderFile (value : Document) : String := renderFileWith .none value

end UsageCensus.Document
