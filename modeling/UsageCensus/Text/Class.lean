import UsageCensus.Text.Ranges
import UsageCensus.Text.Alphanumeric
import UsageCensus.Text.Uppercase
import UsageCensus.Text.Printable
import UsageCensus.Text.DecimalDigit

/-!
# Character classes

The classes that source text is read with. `isBlank` and `isWord` cover every script; names of
tags and attributes and numeric literals use the ASCII classes. A blank is never a word
character (`isWord_of_isBlank`).
-/

namespace UsageCensus.Text

/-! ## ASCII -/

def isAsciiLower (c : Char) : Bool := 'a' ≤ c && c ≤ 'z'

def isAsciiUpper (c : Char) : Bool := 'A' ≤ c && c ≤ 'Z'

def isAsciiDigit (c : Char) : Bool := '0' ≤ c && c ≤ '9'

def isAsciiLetter (c : Char) : Bool := isAsciiLower c || isAsciiUpper c

def isAsciiAlnum (c : Char) : Bool := isAsciiLetter c || isAsciiDigit c

def isAscii (c : Char) : Bool := c.toNat < 128

/-- A double or a single quote. -/
def isQuote (c : Char) : Bool := c == '"' || c == '\''

/-! ## Every script -/

/-- White space: the Unicode white space characters and the four information separators. -/
def blankRanges : Ranges :=
  [(9, 13), (28, 32), (133, 133), (160, 160), (5760, 5760), (8192, 8202), (8232, 8233),
   (8239, 8239), (8287, 8287), (12288, 12288)]

def isBlank (c : Char) : Bool := blankRanges.has c

/-- A letter or number of any script, or the underscore. -/
def isWord (c : Char) : Bool :=
  if isAscii c then isAsciiAlnum c || c == '_' else alphanumericRanges.has c

/-- A decimal digit of any script. -/
def isDigit (c : Char) : Bool :=
  if isAscii c then isAsciiDigit c else decimalDigitRanges.has c

def isUpper (c : Char) : Bool :=
  if isAscii c then isAsciiUpper c else uppercaseRanges.has c

def isPrintable (c : Char) : Bool := printableRanges.has c

/-! ## Blanks and word characters -/

/-- The characters of `blankRanges`, one by one. -/
def blanks : List Nat :=
  [9, 10, 11, 12, 13, 28, 29, 30, 31, 32, 133, 160, 5760, 8192, 8193, 8194, 8195, 8196, 8197,
   8198, 8199, 8200, 8201, 8202, 8232, 8233, 8239, 8287, 12288]

theorem mem_blanks {c : Char} (h : isBlank c = true) : c.toNat ∈ blanks := by
  obtain ⟨p, hp, h1, h2⟩ := Ranges.has_iff.1 h
  simp only [blankRanges, List.mem_cons, List.not_mem_nil, or_false] at hp
  simp only [blanks, List.mem_cons, List.not_mem_nil, or_false]
  rcases hp with rfl | rfl | rfl | rfl | rfl | rfl | rfl | rfl | rfl | rfl <;>
    simp only at h1 h2 <;> omega

theorem blanks_not_alphanumeric :
    blanks.all (fun n => alphanumericRanges.all fun p => !(Nat.ble p.1 n && Nat.ble n p.2)) = true := by
  decide +kernel

theorem isWord_of_isBlank {c : Char} (h : isBlank c = true) : isWord c = false := by
  have hm := mem_blanks h
  unfold isWord
  split
  · rename_i ha
    simp only [isAscii, decide_eq_true_eq] at ha
    simp only [blanks, List.mem_cons, List.not_mem_nil, or_false] at hm
    have hc : ∀ d : Char, c = d → c.toNat = d.toNat := fun d e => by rw [e]
    simp only [isAsciiAlnum, isAsciiLetter, isAsciiLower, isAsciiUpper, isAsciiDigit,
      Bool.or_eq_false_iff, Bool.and_eq_false_iff, decide_eq_false_iff_not, beq_eq_false_iff_ne,
      ne_eq, Char.le_def, UInt32.le_iff_toNat_le]
    refine ⟨⟨⟨?_, ?_⟩, ?_⟩, fun e => ?_⟩
    · have : c.val.toNat = c.toNat := rfl
      have h1 : 'a'.val.toNat = 97 := rfl
      omega
    · have : c.val.toNat = c.toNat := rfl
      have h1 : 'A'.val.toNat = 65 := rfl
      omega
    · have : c.val.toNat = c.toNat := rfl
      have h1 : '0'.val.toNat = 48 := rfl
      omega
    · have := hc _ e
      have h1 : '_'.toNat = 95 := rfl
      omega
  · have := List.all_eq_true.1 blanks_not_alphanumeric _ hm
    rw [← Bool.not_eq_true, Ranges.has_iff]
    rintro ⟨p, hp, h1, h2⟩
    have := List.all_eq_true.1 this p hp
    simp [Nat.ble_eq_true_of_le h1, Nat.ble_eq_true_of_le h2] at this

end UsageCensus.Text
