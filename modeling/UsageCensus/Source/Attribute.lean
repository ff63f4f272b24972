import UsageCensus.Text.Reader
import UsageCensus.Text.Trim

/-!
# Attributes

The attribute text of an opening tag as a list of attributes, in order. A value in quotes is
kept in single quotes, a value in braces is the trimmed text between them, any other value runs
up to the next blank, `/` or `>`, and a name alone is `true`. A spread `{...}` is no attribute,
a `/` ends the list, and any other character that starts no name is passed over.
-/

namespace UsageCensus.Source

open UsageCensus.Text

structure Attribute where
  name : String
  value : String
  deriving Repr, DecidableEq

namespace Attribute

def startsName (c : Char) : Bool := isAsciiLetter c || c == '_' || c == '$'

def continuesName (c : Char) : Bool := isAsciiAlnum c || c == '_' || c == '$' || c == '-'

/-- Characters of a value that stands without quotes or braces. -/
def isBare (c : Char) : Bool := !(isBlank c || c == '/' || c == '>')

/-- The text up to the `}` that closes an opened brace, and what follows it. Where the brace
is never closed the text goes up to the end. -/
def braceBody (depth : Nat) : List Char → List Char × List Char
  | [] => ([], [])
  | c :: text =>
    if c = '{' then
      let (inner, rest) := braceBody (depth + 1) text
      (c :: inner, rest)
    else if c = '}' then
      match depth with
      | 0 => ([], text)
      | depth + 1 =>
        let (inner, rest) := braceBody depth text
        (c :: inner, rest)
    else
      let (inner, rest) := braceBody depth text
      (c :: inner, rest)

/-- The text up to a closing quote, and what follows it. Where the quote is never closed the
text goes up to the end. -/
def quoteBody (quote : Char) (text : List Char) : List Char × List Char :=
  (text.takeWhile (· != quote), (text.dropWhile (· != quote)).drop 1)

/-- The value behind an equals sign, and what follows it; an attribute whose text ends there is
`true`. -/
def readValue (text : List Char) : List Char × List Char :=
  match skipBlanks text with
  | [] => (['t', 'r', 'u', 'e'], [])
  | c :: rest =>
    if isQuote c then
      let (inner, rest) := quoteBody c rest
      ('\'' :: inner ++ ['\''], rest)
    else if c = '{' then
      let (inner, rest) := braceBody 0 rest
      (trim inner, rest)
    else run isBare (c :: rest)

/-- One step of the tokenizer: an attribute, or a character or spread passed over, and what
follows; nothing at the end of the list. -/
def step? (text : List Char) : Option (Option Attribute × List Char) :=
  match skipBlanks text with
  | [] => none
  | c :: text =>
    if c = '/' then none
    else if c = '{' then some (none, (braceBody 0 text).2)
    else if startsName c then
      let name := String.ofList (c :: text.takeWhile continuesName)
      match skipBlanks (text.dropWhile continuesName) with
      | '=' :: rest =>
        let (value, rest) := readValue rest
        some (some ⟨name, String.ofList value⟩, rest)
      | rest => some (some ⟨name, "true"⟩, rest)
    else some (none, text)

/-! ## Every step goes forward -/

theorem braceBody_length_le (depth : Nat) (text : List Char) :
    (braceBody depth text).2.length ≤ text.length := by
  induction text generalizing depth with
  | nil => simp [braceBody]
  | cons c text ih =>
    simp only [braceBody]
    split
    · exact Nat.le_succ_of_le (ih _)
    · split
      · cases depth with
        | zero => simp
        | succ d => exact Nat.le_succ_of_le (ih _)
      · exact Nat.le_succ_of_le (ih _)

theorem length_dropWhile_le (p : Char → Bool) (text : List Char) :
    (text.dropWhile p).length ≤ text.length :=
  (List.dropWhile_suffix p).length_le

theorem readValue_length_le (text : List Char) : (readValue text).2.length ≤ text.length := by
  have hb := length_dropWhile_le isBlank text
  unfold readValue skipBlanks
  split
  · simp
  · rename_i c rest e
    rw [e, List.length_cons] at hb
    split
    · have := length_dropWhile_le (· != c) rest
      simp only [quoteBody, List.length_drop]
      omega
    · split
      · have := braceBody_length_le 0 rest
        simp only
        omega
      · have := length_dropWhile_le isBare (c :: rest)
        rw [List.length_cons] at this
        simp only [run]
        omega

theorem step?_length_lt {text rest : List Char} {a : Option Attribute}
    (h : step? text = some (a, rest)) : rest.length < text.length := by
  have hb := length_dropWhile_le isBlank text
  unfold step? skipBlanks at h
  split at h
  · simp at h
  · rename_i c tail e
    rw [e, List.length_cons] at hb
    have hn := length_dropWhile_le continuesName tail
    have hs := length_dropWhile_le isBlank (tail.dropWhile continuesName)
    split at h
    · simp at h
    · split at h
      · simp only [Option.some.injEq, Prod.mk.injEq] at h
        have := braceBody_length_le 0 tail
        rw [← h.2]
        omega
      · split at h
        · simp only at h
          split at h
          · rename_i r er
            simp only [Option.some.injEq, Prod.mk.injEq] at h
            have hv := readValue_length_le r
            rw [er, List.length_cons] at hs
            rw [← h.2]
            omega
          · simp only [Option.some.injEq, Prod.mk.injEq] at h
            rw [← h.2]
            omega
        · simp only [Option.some.injEq, Prod.mk.injEq] at h
          rw [← h.2]
          omega

/-- The attributes of an attribute text, in order. -/
def parse (text : List Char) : List Attribute :=
  match h : step? text with
  | none => []
  | some (some a, rest) =>
    have := step?_length_lt h
    a :: parse rest
  | some (none, rest) =>
    have := step?_length_lt h
    parse rest
termination_by text.length

end Attribute

end UsageCensus.Source
