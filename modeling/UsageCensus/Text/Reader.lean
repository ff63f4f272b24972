import UsageCensus.Text.Class

/-!
# Readers

A reader takes a prefix off a text and gives back what is left, or refuses. The readers of
this library never try a shorter prefix after a longer one has failed: each run (`blanks1?`,
`run1?`) is as long as it can be, and what may follow it starts with a character outside the
run.
-/

namespace UsageCensus.Text

/-- What follows `word` at the start of the text. -/
def after? : List Char → List Char → Option (List Char)
  | [], text => some text
  | _ :: _, [] => none
  | w :: word, c :: text => if w = c then after? word text else none

/-- The longest run of characters of a class, with what follows it. -/
def run (p : Char → Bool) (text : List Char) : List Char × List Char :=
  (text.takeWhile p, text.dropWhile p)

/-- The longest run of characters of a class, if it is not empty. -/
def run1? (p : Char → Bool) (text : List Char) : Option (List Char × List Char) :=
  match text.takeWhile p with
  | [] => none
  | c :: cs => some (c :: cs, text.dropWhile p)

/-- What follows the blanks at the start of the text. -/
def skipBlanks (text : List Char) : List Char := text.dropWhile isBlank

/-- What follows one or more blanks. -/
def blanks1? (text : List Char) : Option (List Char) := (run1? isBlank text).map Prod.snd

/-- What follows one character of a class. -/
def one? (p : Char → Bool) : List Char → Option (List Char)
  | c :: text => if p c then some text else none
  | [] => none

/-! ## What a reader leaves -/

theorem after?_append (word text : List Char) : after? word (word ++ text) = some text := by
  induction word with
  | nil => cases text <;> rfl
  | cons w word ih => simpa [after?] using ih

theorem after?_eq_some_iff {word text rest : List Char} :
    after? word text = some rest ↔ text = word ++ rest := by
  refine ⟨fun h => ?_, fun h => h ▸ after?_append word rest⟩
  induction word generalizing text with
  | nil => cases text <;> simpa [after?] using h
  | cons w word ih =>
    cases text with
    | nil => simp [after?] at h
    | cons c text =>
      simp only [after?] at h
      split at h
      · rename_i e; subst e; rw [ih h]; rfl
      · simp at h

theorem run1?_eq_some {p : Char → Bool} {text w rest : List Char}
    (h : run1? p text = some (w, rest)) : text = w ++ rest ∧ w ≠ [] := by
  unfold run1? at h
  split at h
  · simp at h
  · rename_i c cs e
    simp only [Option.some.injEq, Prod.mk.injEq] at h
    obtain ⟨rfl, rfl⟩ := h
    exact ⟨by rw [← e, List.takeWhile_append_dropWhile], by simp⟩

end UsageCensus.Text
