import UsageCensus.PropValue
import UsageCensus.Proofs.Source.WrittenAttributes

/-!
# Values in quotes

A value in quotes is kept in single quotes, whatever its text is made of. If the text has no line
break it counts as a literal (`aggregationKey_inQuotes`). A text with a line break is not seen to
be in quotes (`quoted?_inQuotes`), so it counts as what its characters look like
(`lookOf`), and as the literal only by chance (`key_of_quoted_attribute`).
-/

namespace UsageCensus.PropValue

open UsageCensus.Source UsageCensus.Text

variable {text : List Char}

/-- A text as it is kept, in single quotes. -/
def inQuotes (text : List Char) : List Char := '\'' :: text ++ ['\'']

/-- What a text in quotes looks like where it is not seen to be in quotes. -/
def lookOf (text : List Char) : Category :=
  if occurs ['=', '>'] text then .function
  else if isTernary text then .ternary
  else .expression

/-! ## Forms of texts in quotes -/

theorem between?_inQuotes (first last : Char → Bool) (text : List Char) :
    between? first last (inQuotes text)
      = if first '\'' && last '\'' && !text.contains '\n' then some text else none := by
  have hreverse : (text ++ ['\'']).reverse = '\'' :: text.reverse := List.reverse_concat
  unfold inQuotes between?
  simp only [List.cons_append, hreverse, List.reverse_reverse, List.contains_reverse]

/-- A line break hides the quotes. -/
theorem quoted?_inQuotes (text : List Char) :
    quoted? (inQuotes text) = if '\n' ∈ text then none else some text := by
  rw [quoted?, between?_inQuotes]
  by_cases h : '\n' ∈ text
  · simp [h]
  · simp [h, isQuote]

theorem isNumeral_inQuotes (text : List Char) : isNumeral (inQuotes text) = false := rfl

theorem isBoolean_inQuotes (text : List Char) :
    isBoolean (String.ofList (inQuotes text)) = false := by
  have hne : ∀ word : List Char, word.head? ≠ some '\'' →
      (String.ofList (inQuotes text) == String.ofList word) = false := by
    intro word hword
    rw [beq_eq_false_iff_ne, Ne, String.ofList_inj]
    rintro rfl
    exact hword rfl
  have htrue := hne ['t', 'r', 'u', 'e'] (by decide)
  have hfalse := hne ['f', 'a', 'l', 's', 'e'] (by decide)
  exact Bool.or_eq_false_iff.2 ⟨htrue, hfalse⟩

/-- No arrow has a quote in it. -/
theorem occurs_inQuotes (text : List Char) :
    occurs ['=', '>'] (inQuotes text) = occurs ['=', '>'] text := by
  have hend : ∀ text : List Char, occurs ['=', '>'] (text ++ ['\'']) = occurs ['=', '>'] text := by
    intro text
    induction text with
    | nil => rfl
    | cons c text ih =>
      have hprefix : ['=', '>'].isPrefixOf (c :: (text ++ ['\'']))
          = ['=', '>'].isPrefixOf (c :: text) := by
        cases text <;> simp [List.isPrefixOf]
      rw [List.cons_append, occurs, occurs, ih, hprefix]
  rw [inQuotes, List.cons_append, occurs, hend]
  rfl

theorem isFunction_inQuotes (text : List Char) :
    isFunction (inQuotes text) = occurs ['=', '>'] text := by
  have hword : after? ['f', 'u', 'n', 'c', 't', 'i', 'o', 'n'] (inQuotes text) = none := rfl
  rw [isFunction, hword, occurs_inQuotes, Bool.or_false]

theorem isTernary_inQuotes (text : List Char) : isTernary (inQuotes text) = isTernary text := by
  simp [isTernary, inQuotes]

theorem classify_inQuotes (h : '\n' ∈ text) :
    classify (String.ofList (inQuotes text)) = (lookOf text).tag := by
  have hquoted : quoted? (inQuotes text) = none := by rw [quoted?_inQuotes, if_pos h]
  have harray : isArray (inQuotes text) = false := by rw [isArray, between?_inQuotes]; rfl
  have hobject : isObject (inQuotes text) = false := by rw [isObject, between?_inQuotes]; rfl
  have hhandler : isHandler (inQuotes text) = false := rfl
  have htemplate : (inQuotes text).head? ≠ some '\x60' := by
    rw [inQuotes, List.cons_append, List.head?_cons]
    decide
  have hvariable : isVariable (inQuotes text) = false := rfl
  unfold classify lookOf
  simp only [isBoolean_inQuotes, String.toList_ofList, isNumeral_inQuotes, hquoted, harray, hobject,
    isFunction_inQuotes, hhandler, isTernary_inQuotes, htemplate, hvariable, Bool.or_self,
    Bool.false_eq_true, if_false, apply_ite Category.tag]

/-! ## Keys -/

/-- The tag of a category is its own key. -/
theorem normalize_tag (category : Category) : normalize category.tag = category.tag := by
  cases category <;> decide +kernel

theorem aggregationKey_inQuotes (text : List Char) :
    aggregationKey (String.ofList (inQuotes text))
      = if '\n' ∈ text then (lookOf text).tag else literalKey (String.ofList text) := by
  unfold aggregationKey
  rw [String.toList_ofList, quoted?_inQuotes]
  by_cases h : '\n' ∈ text
  · rw [if_pos h, if_pos h]
    exact (congrArg normalize (classify_inQuotes h)).trans (normalize_tag _)
  · rw [if_neg h, if_neg h]

/-- A tag is the key of a text if it is that of all long texts. -/
theorem tag_eq_literalKey_iff {category : Category} {text : String} :
    category.tag = literalKey text ↔ maxLiteralLength < text.length ∧ category = .expression := by
  have hquote : category.tag ≠ "\"" ++ text ++ "\"" := by
    intro h
    have hhead := congrArg (fun key : String => key.toList.head?) h
    cases category <;> simp [Category.tag] at hhead
  have htag : category.tag = Category.expression.tag ↔ category = .expression := by
    cases category <;> decide
  unfold literalKey
  by_cases hlength : text.length ≤ maxLiteralLength
  · rw [if_pos hlength]
    exact iff_of_false hquote fun h => absurd h.1 (by omega)
  · rw [if_neg hlength, htag]
    exact (and_iff_right (by omega)).symm

/-! ## Attributes in quotes -/

theorem parse_quoted (name : AttributeName) {quote : Char} {text : List Char}
    (hquote : isQuote quote = true) (hinner : quote ∉ text) :
    Attribute.parse (name.chars ++ '=' :: quote :: (text ++ [quote]))
      = [⟨String.ofList name.chars, String.ofList (inQuotes text)⟩] := by
  have hend : EndsAttribute [] := ⟨.nil, fun tail => by simp [skipBlanks]⟩
  have hparse := parse_attribute (.valued name ⟨[], by simp⟩ ⟨[], by simp⟩
    (.quoted quote text hquote hinner)) hend
  rw [List.append_nil, EndsAttributes.nil.parse_eq, List.append_nil] at hparse
  exact hparse

/-- A value in quotes is read whole. Its key is that of its text where the text has no line break,
and else only where the text is long and looks like no function and no ternary. -/
theorem key_of_quoted_attribute (name : AttributeName) {quote : Char} {text : List Char}
    (hquote : isQuote quote = true) (hinner : quote ∉ text) :
    ∃ value,
      Attribute.parse (name.chars ++ '=' :: quote :: (text ++ [quote]))
        = [⟨String.ofList name.chars, value⟩] ∧
      (aggregationKey value
        = if '\n' ∈ text then (lookOf text).tag else literalKey (String.ofList text)) ∧
      (aggregationKey value = literalKey (String.ofList text)
        ↔ '\n' ∉ text ∨ maxLiteralLength < text.length ∧ lookOf text = .expression) := by
  have hkey := aggregationKey_inQuotes text
  refine ⟨_, parse_quoted name hquote hinner, hkey, ?_⟩
  by_cases h : '\n' ∈ text
  · rw [if_pos h] at hkey
    rw [hkey, tag_eq_literalKey_iff, String.length_ofList]
    exact (or_iff_right (not_not.2 h)).symm
  · rw [if_neg h] at hkey
    exact iff_of_true hkey (.inl h)

def titleName : AttributeName where
  first := 't'
  others := ['i', 't', 'l', 'e']
  starts := by decide
  continues := forall_mem_of_all (by decide)

/-- A text in one line that could be much else. -/
theorem key_of_title_in_one_line : ∃ value,
    Attribute.parse "title=\"2 ? x => 'y' : <b>{1}</b>/\"".toList = [⟨"title", value⟩] ∧
      aggregationKey value = "\"2 ? x => 'y' : <b>{1}</b>/\"" := by
  have hquote : isQuote '"' = true := by decide
  have hinner : '"' ∉ "2 ? x => 'y' : <b>{1}</b>/".toList := by decide +kernel
  obtain ⟨value, hparse, hkey, -⟩ := key_of_quoted_attribute titleName hquote hinner
  refine ⟨value, hparse, hkey.trans ?_⟩
  decide +kernel

/-- A short text in two lines is not counted as a text. -/
theorem key_of_title_in_two_lines :
    Attribute.parse "title=\"a\nb\"".toList = [⟨"title", "'a\nb'"⟩] ∧
      aggregationKey "'a\nb'" = "<expression>" ∧ literalKey "a\nb" = "\"a\nb\"" := by
  have hquote : isQuote '"' = true := by decide
  have hinner : '"' ∉ ['a', '\n', 'b'] := by decide
  exact ⟨parse_quoted titleName hquote hinner, by decide +kernel, by decide +kernel⟩

end UsageCensus.PropValue
