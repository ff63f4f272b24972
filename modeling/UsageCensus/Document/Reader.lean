import UsageCensus.Document.Basic
import UsageCensus.Fault
import UsageCensus.Room
import UsageCensus.Text.Integer
import UsageCensus.Text.Surrogates

/-!
# Reading JSON

The whole text must be one value with blanks around it. Besides the standard's values the three
names of numbers that are not finite are read. An integer literal is exact, a literal with a
point or an exponent is the binary64 number nearest to it. A key that is repeated in an object
keeps its first place and takes its last value. Reading stops at the first place where the text
is no value, has an integer with too many digits, or opens a bracket inside of more others than
there is room for (`Room.opened`).

An escape may name a surrogate without its partner. Texts with such escapes are read with
characters in the place of surrogates (`surrogatesIn`).
-/

namespace UsageCensus.Document

open UsageCensus.Number UsageCensus.Text

/-- The four blanks of the format. -/
def isSpace (c : Char) : Bool := c == ' ' || c == '\t' || c == '\n' || c == '\r'

def skipSpace (text : List Char) : List Char := text.dropWhile isSpace

/-- The value of a hexadecimal digit. -/
def hexValue? (c : Char) : Option Nat :=
  if '0' ≤ c ∧ c ≤ '9' then some (c.toNat - 48)
  else if 'a' ≤ c ∧ c ≤ 'f' then some (c.toNat - 87)
  else if 'A' ≤ c ∧ c ≤ 'F' then some (c.toNat - 55)
  else none

/-- Four hexadecimal digits. -/
def readHex4? : List Char → Option (Nat × List Char)
  | a :: b :: c :: d :: text => do
    let a ← hexValue? a
    let b ← hexValue? b
    let c ← hexValue? c
    let d ← hexValue? d
    return (((a * 16 + b) * 16 + c) * 16 + d, text)
  | _ => none

/-- The code point behind `\u`: one unit, or two if they are a pair of surrogates. -/
def readUnit? (text : List Char) : Option (Nat × List Char) := do
  let (unit, rest) ← readHex4? text
  let pair : Option (Nat × List Char) :=
    match rest with
    | '\\' :: 'u' :: tail => readHex4? tail
    | _ => none
  match pair with
  | some (low, tail) =>
    if 55296 ≤ unit ∧ unit < 56320 ∧ 56320 ≤ low ∧ low ≤ 57343 then
      return (65536 + (unit - 55296) * 1024 + (low - 56320), tail)
    else return (unit, rest)
  | none => return (unit, rest)

/-- The code points behind the surrogates that a text has, as they are or escaped. -/
def highIn : List Char → List Nat
  | [] => []
  | c :: text =>
    let escaped := match c, text with
      | '\\', 'u' :: tail => (readUnit? tail).map Prod.fst
      | _, _ => none
    let n := escaped.getD c.toNat
    if n < Surrogates.firstBehind then highIn text else n :: highIn text

/-- An escape in a text names a surrogate without its partner. The first `skip` characters belong
to an escape that has been read. -/
def hasLoneSurrogate : (skip : Nat) → List Char → Bool
  | _, [] => false
  | skip + 1, _ :: text => hasLoneSurrogate skip text
  | 0, c :: text =>
    if c = '\\' then
      match text with
      | 'u' :: tail =>
        match readUnit? tail with
        | some (n, _) => isSurrogate n || hasLoneSurrogate (if n < 65536 then 5 else 11) text
        | none => hasLoneSurrogate 1 text
      | _ => hasLoneSurrogate 1 text
    else hasLoneSurrogate 0 text

/-- The characters that a text is read with in the place of surrogates; none, unless an escape in it
names one without its partner. -/
def surrogatesIn (text : List Char) : Surrogates :=
  if hasLoneSurrogate 0 text then .unusedBy (highIn text) else .none

/-- The character for a code point. -/
def characterFor (surrogates : Surrogates) (n : Nat) : Char :=
  if isSurrogate n then surrogates.standIn n else Char.ofNat n

/-- The character that a letter behind a backslash stands for. -/
def shortEscape? (c : Char) : Option Char :=
  if c = '"' ∨ c = '\\' ∨ c = '/' then some c
  else if c = 'b' then some '\x08'
  else if c = 'f' then some '\x0c'
  else if c = 'n' then some '\n'
  else if c = 'r' then some '\r'
  else if c = 't' then some '\t'
  else none

/-- The rest of a quoted text behind the opening quote. `fuel` bounds the characters read. -/
def readQuoted? (surrogates : Surrogates) :
    (fuel : Nat) → List Char → Option (List Char × List Char)
  | 0, _ => none
  | _, [] => none
  | fuel + 1, c :: text =>
    if c = '"' then some ([], text)
    else if c = '\\' then
      match text with
      | 'u' :: tail => do
        let (n, tail) ← readUnit? tail
        let (chars, rest) ← readQuoted? surrogates fuel tail
        return (characterFor surrogates n :: chars, rest)
      | e :: tail => do
        let d ← shortEscape? e
        let (chars, rest) ← readQuoted? surrogates fuel tail
        return (d :: chars, rest)
      | [] => none
    else if c.toNat < 32 then none
    else do
      let (chars, rest) ← readQuoted? surrogates fuel text
      return (c :: chars, rest)

/-- A quoted text. -/
def readText? (surrogates : Surrogates) : List Char → Option (String × List Char)
  | '"' :: text => do
    let (chars, rest) ← readQuoted? surrogates (text.length + 1) text
    return (String.ofList chars, rest)
  | _ => none

/-- The natural number that decimal digits stand for. -/
def digitsValue (digits : List Char) : Nat :=
  digits.foldl (fun n d => 10 * n + (d.toNat - 48)) 0

/-- The digits behind a point, if there are any. -/
def readPlaces? : List Char → Option (List Char × List Char)
  | '.' :: text => run1? isAsciiDigit text
  | _ => none

/-- The exponent behind its mark, if there is one. -/
def readExponent? : List Char → Option (Int × List Char)
  | e :: text =>
    if e = 'e' ∨ e = 'E' then
      match text with
      | '-' :: text => (run1? isAsciiDigit text).map fun (d, r) => (-Int.ofNat (digitsValue d), r)
      | '+' :: text => (run1? isAsciiDigit text).map fun (d, r) => (Int.ofNat (digitsValue d), r)
      | text => (run1? isAsciiDigit text).map fun (d, r) => (Int.ofNat (digitsValue d), r)
    else none
  | [] => none

/-- The digits before the point: a zero alone, or digits that do not start with one. -/
def readWhole? : List Char → Option (List Char × List Char)
  | '0' :: text => some (['0'], text)
  | text => run1? isAsciiDigit text

/-- The integer that digits stand for, if there are not too many of them. -/
def integerOf (negative : Bool) (digits : List Char) : Except Fault Document :=
  if digits.length ≤ maxIntegerDigits then
    let n := Int.ofNat (digitsValue digits)
    .ok (int (if negative then -n else n))
  else .error (.tooManyDigits (some digits.length))

/-- A number without its sign. -/
def readUnsigned (negative : Bool) (text : List Char) : Except Fault (Document × List Char) :=
  match readWhole? text with
  | none => .error .malformed
  | some (whole, rest) =>
    let (places, rest, hasPlaces) := match readPlaces? rest with
      | some (places, rest) => (places, rest, true)
      | none => ([], rest, false)
    let (exponent, rest, hasExponent) := match readExponent? rest with
      | some (exponent, rest) => (exponent, rest, true)
      | none => (0, rest, false)
    if hasPlaces || hasExponent then
      let digits := digitsValue (whole ++ places)
      .ok (.float (.ofDecimal negative digits (exponent - Int.ofNat places.length)), rest)
    else (integerOf negative whole).map fun value => (value, rest)

/-- The words of the format. -/
def words : List (List Char × Document) :=
  [(['n', 'u', 'l', 'l'], null), (['t', 'r', 'u', 'e'], bool true),
   (['f', 'a', 'l', 's', 'e'], bool false), (['N', 'a', 'N'], float .nan),
   (['I', 'n', 'f', 'i', 'n', 'i', 't', 'y'], float (.infinite false)),
   (['-', 'I', 'n', 'f', 'i', 'n', 'i', 't', 'y'], float (.infinite true))]

/-- A word or a number. -/
def readScalar (text : List Char) : Except Fault (Document × List Char) :=
  match words.findSome? fun w => (after? w.1 text).map fun rest => (w.2, rest) with
  | some found => .ok found
  | none =>
    match text with
    | '-' :: text => readUnsigned true text
    | text => readUnsigned false text

mutual

/-- A value at the start of the text, where `room` more brackets may be open at once. -/
def readValue (surrogates : Surrogates) :
    (fuel room : Nat) → List Char → Except Fault (Document × List Char)
  | 0, _, _ => .error .malformed
  | fuel + 1, room, text =>
    match text with
    | '"' :: _ => match readText? surrogates text with
      | some (t, rest) => .ok (.string t, rest)
      | none => .error .malformed
    | '[' :: text =>
      if room = 0 then .error .tooDeep
      else match skipSpace text with
        | ']' :: rest => .ok (.list [], rest)
        | text => (readItems surrogates fuel (room - 1) text).map fun (items, rest) =>
          (.list items, rest)
    | '{' :: text =>
      if room = 0 then .error .tooDeep
      else match skipSpace text with
        | '}' :: rest => .ok (.object [], rest)
        | text => (readMembers surrogates fuel (room - 1) text).map fun (members, rest) =>
          (ofMembers members, rest)
    | text => readScalar text

/-- Items up to the bracket that closes their list. -/
def readItems (surrogates : Surrogates) :
    (fuel room : Nat) → List Char → Except Fault (List Document × List Char)
  | 0, _, _ => .error .malformed
  | fuel + 1, room, text => do
    let (item, text) ← readValue surrogates fuel room text
    match skipSpace text with
    | ']' :: rest => return ([item], rest)
    | ',' :: text => do
      let (items, rest) ← readItems surrogates fuel room (skipSpace text)
      return (item :: items, rest)
    | _ => .error .malformed

/-- Members up to the brace that closes their object. -/
def readMembers (surrogates : Surrogates) :
    (fuel room : Nat) → List Char → Except Fault (List (String × Document) × List Char)
  | 0, _, _ => .error .malformed
  | fuel + 1, room, text =>
    match readText? surrogates text with
    | none => .error .malformed
    | some (key, text) =>
      match skipSpace text with
      | ':' :: text => do
        let (value, text) ← readValue surrogates fuel room (skipSpace text)
        match skipSpace text with
        | '}' :: rest => return ([(key, value)], rest)
        | ',' :: text => do
          let (members, rest) ← readMembers surrogates fuel room (skipSpace text)
          return ((key, value) :: members, rest)
        | _ => .error .malformed
      | _ => .error .malformed

end

variable [Room]

/-- Reads a text that is one value, with characters in the place of surrogates. -/
def parseWith (surrogates : Surrogates) (text : List Char) : Except Fault Document := do
  let (value, rest) ← readValue surrogates (2 * text.length + 2) Room.opened (skipSpace text)
  match skipSpace rest with
  | [] => return value
  | _ => .error .malformed

/-- Reads a text that is one value. -/
def parse (text : List Char) : Except Fault Document := parseWith (surrogatesIn text) text

end UsageCensus.Document
