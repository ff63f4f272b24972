import UsageCensus.Text.Class

/-!
# Trimming and cutting

Blanks around a text do not count (`trim`); a list written in a text is cut at its separators
(`cutAt`).
-/

namespace UsageCensus.Text

/-- The text without the blanks before it. -/
def trimStart (text : List Char) : List Char := text.dropWhile isBlank

/-- The text without the blanks behind it. -/
def trimEnd (text : List Char) : List Char := (text.reverse.dropWhile isBlank).reverse

/-- The text without the blanks around it. -/
def trim (text : List Char) : List Char := trimEnd (trimStart text)

/-- The pieces between the occurrences of a separator: one more than there are separators. -/
def cutAt (sep : Char) : List Char → List (List Char)
  | [] => [[]]
  | c :: text =>
    if c = sep then [] :: cutAt sep text
    else
      match cutAt sep text with
      | [] => [[c]]
      | piece :: pieces => (c :: piece) :: pieces

/-- `part` stands somewhere in the text. -/
def occurs (part : List Char) : List Char → Bool
  | [] => part.isEmpty
  | c :: text => part.isPrefixOf (c :: text) || occurs part text

theorem cutAt_ne_nil (sep : Char) (text : List Char) : cutAt sep text ≠ [] := by
  cases text with
  | nil => simp [cutAt]
  | cons c text =>
    simp only [cutAt]
    split
    · simp
    · split <;> simp

theorem occurs_iff {part text : List Char} : occurs part text = true ↔ part <:+: text := by
  induction text with
  | nil => simp [occurs, List.isEmpty_iff]
  | cons c text ih =>
    rw [occurs, Bool.or_eq_true, ih, List.isPrefixOf_iff_prefix, List.infix_cons_iff]

end UsageCensus.Text
