import UsageCensus.Proofs.Source.Braces
import UsageCensus.Proofs.Text.Reading

/-!
# Attributes as they are written

`WrittenAttribute` is an attribute with the way it is written: alone, with a value behind an
equals sign, or as a spread. Reading a list of written attributes gives back the attributes, in
order (`parse_textOf`), whatever blanks stand between them and around the equals signs, and
whatever a value in quotes or in balanced braces is made of.
-/

namespace UsageCensus.Source

open UsageCensus.Text

/-- A name that an attribute can have. -/
structure AttributeName where
  first : Char
  others : List Char
  starts : Attribute.startsName first = true
  continues : ∀ c ∈ others, Attribute.continuesName c = true

def AttributeName.chars (name : AttributeName) : List Char := name.first :: name.others

/-- The value of an attribute as it is written. -/
inductive WrittenValue where
  | quoted (quote : Char) (text : List Char) (hquote : isQuote quote = true)
      (hinner : quote ∉ text)
  | braced (text : List Char) (balanced : IsBalanced text)
  | bare (first : Char) (others : List Char) (hfirst : isQuote first = false ∧ first ≠ '{')
      (hbare : ∀ c ∈ first :: others, Attribute.isBare c = true)

namespace WrittenValue

def text : WrittenValue → List Char
  | quoted quote text _ _ => quote :: (text ++ [quote])
  | braced text _ => '{' :: (text ++ ['}'])
  | bare first others _ _ => first :: others

/-- What the value is read as. -/
def value : WrittenValue → List Char
  | quoted _ text _ _ => '\'' :: text ++ ['\'']
  | braced text _ => trim text
  | bare first others _ _ => first :: others

end WrittenValue

/-- An attribute as it is written. -/
inductive WrittenAttribute where
  | flag (name : AttributeName)
  /-- A value behind an equals sign, which may have blanks around it. -/
  | valued (name : AttributeName) (before behind : Blanks) (value : WrittenValue)
  | spread (text : List Char) (balanced : IsBalanced text)

namespace WrittenAttribute

def text : WrittenAttribute → List Char
  | flag name => name.chars
  | valued name before behind value =>
    name.chars ++ (before.chars ++ '=' :: (behind.chars ++ value.text))
  | spread text _ => '{' :: (text ++ ['}'])

/-- The attribute that it stands for. A spread is none. -/
def attribute? : WrittenAttribute → Option Attribute
  | flag name => some ⟨String.ofList name.chars, "true"⟩
  | valued name _ _ value => some ⟨String.ofList name.chars, String.ofList value.value⟩
  | spread _ _ => none

/-- Attributes one behind the other, each with the blanks before it. -/
def textOf (attributes : List (Gap × WrittenAttribute)) : List Char :=
  attributes.flatMap fun a => a.1.chars ++ a.2.text

theorem textOf_cons (gap : Gap) (a : WrittenAttribute)
    (attributes : List (Gap × WrittenAttribute)) :
    textOf ((gap, a) :: attributes) = gap.chars ++ (a.text ++ textOf attributes) := by
  simp only [textOf, List.flatMap_cons, List.append_assoc]

end WrittenAttribute

/-! ## Characters of names and values -/

namespace Attribute

theorem continuesName_of_startsName {c : Char} (h : startsName c = true) :
    continuesName c = true := by
  simp only [startsName, Bool.or_eq_true] at h
  simp only [continuesName, isAsciiAlnum, Bool.or_eq_true]
  rcases h with (h | h) | h
  · exact .inl (.inl (.inl (.inl h)))
  · exact .inl (.inl (.inr h))
  · exact .inl (.inr h)

/-- Every character of a name is a word character but two. -/
theorem isWord_of_continuesName {c : Char} (h : continuesName c = true) (h1 : c ≠ '$')
    (h2 : c ≠ '-') : isWord c = true := by
  have hascii : ∀ {d : Char}, isAsciiAlnum d = true → isAscii d = true := by
    intro d hd
    simp only [isAsciiAlnum, isAsciiLetter, isAsciiLower, isAsciiUpper, isAsciiDigit,
      Bool.or_eq_true, Bool.and_eq_true, decide_eq_true_eq, Char.le_def,
      UInt32.le_iff_toNat_le] at hd
    have hz : 'z'.val.toNat = 122 := rfl
    have hZ : 'Z'.val.toNat = 90 := rfl
    have h9 : '9'.val.toNat = 57 := rfl
    have hc : d.val.toNat = d.toNat := rfl
    simp only [isAscii, decide_eq_true_eq]
    omega
  simp only [continuesName, Bool.or_eq_true, beq_iff_eq] at h
  rcases h with ((h | rfl) | rfl) | rfl
  · simp only [isWord, hascii h, if_true, h, Bool.true_or]
  · decide
  · exact absurd rfl h1
  · exact absurd rfl h2

/-- A blank is in no name. -/
theorem continuesName_of_isBlank {c : Char} (h : isBlank c = true) : continuesName c = false := by
  cases hn : continuesName c with
  | false => rfl
  | true =>
    by_cases h1 : c = '$'
    · subst h1; exact absurd h (by decide)
    · by_cases h2 : c = '-'
      · subst h2; exact absurd h (by decide)
      · rw [isBlank_of_isWord (isWord_of_continuesName hn h1 h2)] at h
        cases h

theorem isBare_eq_false_iff {c : Char} :
    isBare c = false ↔ isBlank c = true ∨ c = '/' ∨ c = '>' := by
  simp only [isBare, Bool.not_eq_false', Bool.or_eq_true, beq_iff_eq, or_assoc]

/-- What ends a bare value ends a name. -/
theorem isBare_of_continuesName {c : Char} (h : continuesName c = true) : isBare c = true := by
  cases hb : isBare c with
  | true => rfl
  | false =>
    rcases isBare_eq_false_iff.1 hb with hblank | rfl | rfl
    · rw [continuesName_of_isBlank hblank] at h; cases h
    · exact absurd h (by decide)
    · exact absurd h (by decide)

theorem isBlank_of_isBare {c : Char} (h : isBare c = true) : isBlank c = false := by
  cases hb : isBlank c with
  | false => rfl
  | true => rw [isBare_eq_false_iff.2 (.inl hb)] at h; cases h

end Attribute

/-! ## Reading one attribute -/

open Attribute

/-- What may follow an attribute: the end, or a blank or a slash, and no equals sign behind the
blanks. -/
structure EndsAttribute (rest : List Char) : Prop where
  ends : Ends isBare rest
  noValue : ∀ tail, skipBlanks rest ≠ '=' :: tail

theorem quoteBody_append {quote : Char} {text : List Char} (h : quote ∉ text) (rest : List Char) :
    quoteBody quote (text ++ quote :: rest) = (text, rest) := by
  have hinner : ∀ c ∈ text, (c != quote) = true := by
    intro c hc
    have hne : c ≠ quote := fun e => h (e ▸ hc)
    simpa using hne
  have hends : Ends (· != quote) (quote :: rest) := .cons (by simp)
  rw [quoteBody, takeWhile_append_of_ends hinner hends, dropWhile_append_of_ends hinner hends]
  rfl

theorem isBlank_of_isQuote {c : Char} (h : isQuote c = true) : isBlank c = false := by
  simp only [isQuote, Bool.or_eq_true, beq_iff_eq] at h
  rcases h with rfl | rfl <;> decide

/-- A written value is read as far as it goes. -/
theorem readValue_written (behind : Blanks) (value : WrittenValue) {rest : List Char}
    (h : Ends isBare rest) :
    readValue (behind.chars ++ (value.text ++ rest)) = (value.value, rest) := by
  unfold readValue
  cases value with
  | quoted quote text hquote hinner =>
    have hends : Ends isBlank ((quote :: (text ++ [quote])) ++ rest) :=
      .cons (isBlank_of_isQuote hquote)
    rw [WrittenValue.text, behind.skipBlanks_append_of_ends hends]
    simp only [List.cons_append, List.append_assoc, List.nil_append, hquote, if_true,
      quoteBody_append hinner]
    rfl
  | braced text balanced =>
    have hends : Ends isBlank (('{' :: (text ++ ['}'])) ++ rest) := .cons (by decide)
    rw [WrittenValue.text, behind.skipBlanks_append_of_ends hends]
    simp only [List.cons_append, List.append_assoc, List.nil_append, braceBody_balanced balanced,
      show isQuote '{' = false by decide, Bool.false_eq_true, if_false, if_true]
    rfl
  | bare first others hfirst hbare =>
    have hends : Ends isBlank ((first :: others) ++ rest) :=
      .cons (isBlank_of_isBare (hbare first (by simp)))
    rw [WrittenValue.text, behind.skipBlanks_append_of_ends hends]
    simp only [List.cons_append, hfirst.1, hfirst.2, Bool.false_eq_true, if_false]
    exact run_of_ends hbare h

/-- A name is taken as a whole. -/
theorem run_others (name : AttributeName) {rest : List Char}
    (h : Ends continuesName rest) :
    (name.others ++ rest).takeWhile continuesName = name.others ∧
      (name.others ++ rest).dropWhile continuesName = rest :=
  ⟨takeWhile_append_of_ends name.continues h, dropWhile_append_of_ends name.continues h⟩

theorem startsName_facts {c : Char} (h : startsName c = true) :
    isBlank c = false ∧ c ≠ '/' ∧ c ≠ '{' := by
  refine ⟨isBlank_of_isBare (isBare_of_continuesName (continuesName_of_startsName h)), ?_, ?_⟩
  · rintro rfl; exact absurd h (by decide)
  · rintro rfl; exact absurd h (by decide)

/-- One step on a text that starts with a name. -/
theorem step?_name (name : AttributeName) {rest : List Char} (h : Ends continuesName rest) :
    step? (name.chars ++ rest) = match skipBlanks rest with
      | '=' :: tail =>
        some (some ⟨String.ofList name.chars, String.ofList (readValue tail).1⟩, (readValue tail).2)
      | rest => some (some ⟨String.ofList name.chars, "true"⟩, rest) := by
  obtain ⟨hblank, hslash, hbrace⟩ := startsName_facts name.starts
  obtain ⟨htake, hdrop⟩ := run_others name h
  have hskip : skipBlanks (name.chars ++ rest) = name.first :: (name.others ++ rest) :=
    dropWhile_of_ends (.cons hblank)
  unfold step?
  rw [hskip]
  simp only [hslash, hbrace, name.starts, htake, hdrop, if_false, if_true]
  rfl

/-- One step on a name with an equals sign. -/
theorem step?_valued (name : AttributeName) (before : Blanks) (tail : List Char) :
    step? (name.chars ++ (before.chars ++ '=' :: tail))
      = some (some ⟨String.ofList name.chars, String.ofList (readValue tail).1⟩,
          (readValue tail).2) := by
  have hname : Ends continuesName (before.chars ++ '=' :: tail) := by
    cases hb : before.chars with
    | nil => exact .cons (by decide)
    | cons c chars => exact .cons (continuesName_of_isBlank (before.blank c (by simp [hb])))
  rw [step?_name name hname, before.skipBlanks_append_of_ends (.cons (by decide))]
  rfl

theorem step?_spread {text : List Char} (balanced : IsBalanced text) (rest : List Char) :
    step? ('{' :: (text ++ '}' :: rest)) = some (none, rest) := by
  have hskip : skipBlanks ('{' :: (text ++ '}' :: rest)) = '{' :: (text ++ '}' :: rest) :=
    dropWhile_of_ends (.cons (by decide))
  unfold step?
  rw [hskip]
  simp only [Char.reduceEq, if_false, if_true, braceBody_balanced balanced]

theorem step?_blanks (blanks : Blanks) (rest : List Char) :
    step? (blanks.chars ++ rest) = step? rest := by
  unfold step?
  rw [blanks.skipBlanks_append]

/-! ## Reading a list -/

theorem parse_of_step?_none {text : List Char} (h : step? text = none) : parse text = [] := by
  rw [parse]
  split
  · rfl
  · rename_i h'; rw [h] at h'; cases h'
  · rename_i h'; rw [h] at h'; cases h'

theorem parse_of_step?_some {text rest : List Char} {a : Option Attribute}
    (h : step? text = some (a, rest)) : parse text = a.toList ++ parse rest := by
  rw [parse]
  split
  · rename_i h'; rw [h] at h'; cases h'
  · rename_i h'; rw [h] at h'; cases h'; rfl
  · rename_i h'; rw [h] at h'; cases h'; rfl

theorem parse_congr {text text' : List Char} (h : step? text = step? text') :
    parse text = parse text' := by
  cases hs : step? text' with
  | none => rw [parse_of_step?_none (h.trans hs), parse_of_step?_none hs]
  | some p => rw [parse_of_step?_some (h.trans hs), parse_of_step?_some hs]

theorem parse_blanks (blanks : Blanks) (rest : List Char) :
    parse (blanks.chars ++ rest) = parse rest :=
  parse_congr (step?_blanks blanks rest)

theorem parse_skipBlanks (text : List Char) : parse (skipBlanks text) = parse text := by
  have hskip : skipBlanks (skipBlanks text) = skipBlanks text :=
    dropWhile_of_ends (ends_dropWhile isBlank text)
  refine parse_congr ?_
  unfold step?
  rw [hskip]

theorem parse_attribute (a : WrittenAttribute) {rest : List Char} (h : EndsAttribute rest) :
    parse (a.text ++ rest) = a.attribute?.toList ++ parse rest := by
  cases a with
  | flag name =>
    have hstep : step? (name.chars ++ rest)
        = some (some ⟨String.ofList name.chars, "true"⟩, skipBlanks rest) := by
      rw [step?_name name (h.ends.mono fun _ => isBare_of_continuesName)]
      split
      · rename_i tail e
        exact absurd e (h.noValue tail)
      · rfl
    rw [WrittenAttribute.text, parse_of_step?_some hstep, parse_skipBlanks]
    rfl
  | valued name before behind value =>
    have hstep := step?_valued name before (behind.chars ++ (value.text ++ rest))
    rw [readValue_written behind value h.ends] at hstep
    have htext : (WrittenAttribute.valued name before behind value).text ++ rest
        = name.chars ++ (before.chars ++ '=' :: (behind.chars ++ (value.text ++ rest))) := by
      simp only [WrittenAttribute.text, List.append_assoc, List.cons_append]
    rw [htext, parse_of_step?_some hstep]
    rfl
  | spread text balanced =>
    have htext : (WrittenAttribute.spread text balanced).text ++ rest
        = '{' :: (text ++ '}' :: rest) := by
      simp only [WrittenAttribute.text, List.append_assoc, List.cons_append, List.nil_append]
    rw [htext, parse_of_step?_some (step?_spread balanced rest)]
    rfl

/-- Where a list of attributes ends: at the end of the text, or at a slash. -/
inductive EndsAttributes : List Char → Prop where
  | nil : EndsAttributes []
  | slash (rest : List Char) : EndsAttributes ('/' :: rest)

theorem EndsAttributes.parse_eq {rest : List Char} (h : EndsAttributes rest) : parse rest = [] := by
  refine parse_of_step?_none ?_
  cases h with
  | nil => rfl
  | slash rest => rw [step?, skipBlanks, dropWhile_of_ends (.cons (by decide))]; rfl

theorem endsAttribute_of_blanks (blanks : Blanks) {rest : List Char} (h : EndsAttributes rest) :
    EndsAttribute (blanks.chars ++ rest) := by
  have hends : Ends isBlank rest ∧ Ends isBare rest ∧ ∀ tail, rest ≠ '=' :: tail := by
    cases h with
    | nil => exact ⟨.nil, .nil, by simp⟩
    | slash rest => exact ⟨.cons (by decide), .cons (by decide), by simp⟩
  constructor
  · cases hb : blanks.chars with
    | nil => exact hends.2.1
    | cons c chars =>
      exact .cons (isBare_eq_false_iff.2 (.inl (blanks.blank c (by simp [hb]))))
  · intro tail
    rw [blanks.skipBlanks_append_of_ends hends.1]
    exact hends.2.2 tail

/-- An attribute starts with no blank and no equals sign. -/
theorem WrittenAttribute.text_head (a : WrittenAttribute) (rest : List Char) :
    Ends isBlank (a.text ++ rest) ∧ ∀ tail, a.text ++ rest ≠ '=' :: tail := by
  have hname : ∀ (name : AttributeName) (text : List Char),
      Ends isBlank (name.chars ++ text) ∧ ∀ tail, name.chars ++ text ≠ '=' :: tail := by
    intro name text
    refine ⟨.cons (startsName_facts name.starts).1, fun tail e => ?_⟩
    have := name.starts
    rw [(List.cons.inj e).1] at this
    exact absurd this (by decide)
  cases a with
  | flag name => exact hname name rest
  | valued name before behind value =>
    rw [WrittenAttribute.text, List.append_assoc]
    exact hname name _
  | spread text balanced => exact ⟨.cons (by decide), by simp [WrittenAttribute.text]⟩

theorem endsAttribute_of_gap (gap : Gap) (a : WrittenAttribute) (rest : List Char) :
    EndsAttribute (gap.chars ++ (a.text ++ rest)) := by
  obtain ⟨hblank, hequals⟩ := a.text_head rest
  refine ⟨gap.ends isBare (fun _ h => isBare_eq_false_iff.2 (.inl h)) _, fun tail => ?_⟩
  rw [gap.skipBlanks_append_of_ends hblank]
  exact hequals tail

/-- Reading written attributes gives them back, in order. -/
theorem parse_textOf (attributes : List (Gap × WrittenAttribute)) (trailing : Blanks)
    {rest : List Char} (h : EndsAttributes rest) :
    parse (WrittenAttribute.textOf attributes ++ (trailing.chars ++ rest))
      = attributes.filterMap fun a => a.2.attribute? := by
  have hlist : ∀ (attributes : List (Gap × WrittenAttribute)),
      EndsAttribute (WrittenAttribute.textOf attributes ++ (trailing.chars ++ rest)) := by
    intro attributes
    cases attributes with
    | nil => exact endsAttribute_of_blanks trailing h
    | cons a attributes =>
      rw [WrittenAttribute.textOf_cons, List.append_assoc, List.append_assoc]
      exact endsAttribute_of_gap a.1 a.2 _
  induction attributes with
  | nil =>
    rw [WrittenAttribute.textOf, List.flatMap_nil, List.nil_append, parse_blanks, h.parse_eq]
    rfl
  | cons a attributes ih =>
    rw [WrittenAttribute.textOf_cons, List.append_assoc, List.append_assoc, parse_blanks,
      parse_attribute a.2 (hlist attributes), ih]
    rw [List.filterMap_cons]
    cases a.2.attribute? <;> rfl

/-- How an attribute text goes on behind its attributes: not at all, or with a slash and any text. -/
def behindAttributes : Option (List Char) → List Char
  | none => []
  | some text => '/' :: text

theorem endsAttributes_behind (ending : Option (List Char)) :
    EndsAttributes (behindAttributes ending) := by
  cases ending with
  | none => exact .nil
  | some text => exact .slash text

/-- Reading a list of attributes undoes writing it: each attribute but the spreads comes back once
and in order, and nothing is read behind a slash. -/
theorem parse_written (attributes : List (Gap × WrittenAttribute)) (trailing : Blanks)
    (ending : Option (List Char)) :
    parse (WrittenAttribute.textOf attributes ++ (trailing.chars ++ behindAttributes ending))
      = attributes.filterMap fun a => a.2.attribute? :=
  parse_textOf attributes trailing (endsAttributes_behind ending)

end UsageCensus.Source
