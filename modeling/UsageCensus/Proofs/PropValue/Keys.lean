import Mathlib.Data.List.Nodup
import UsageCensus.Census.Combination
import UsageCensus.Proofs.Document.Decimals
import UsageCensus.Proofs.Source.QuotedValues

/-!
# What keys there are

A key is a boolean or a number as it was written, the tag of a category, or a short text in double
quotes (`Key`), and no key is two of these (`Key.text_injective`). Which it is depends on the raw
value alone (`exists_isKeyOf`): a text in double quotes is the key of exactly the raw values that
quote this text in one line, and a boolean or number is the key of itself only (`key_vocabulary`).
-/

namespace UsageCensus.PropValue

open UsageCensus.Document UsageCensus.Text

/-! ## Booleans and numbers -/

/-- Digits, or digits on both sides of a point. -/
inductive IsUnsigned : List Char → Prop where
  | whole {digits : List Char} (h : IsDigits digits) : IsUnsigned digits
  | placed {digits places : List Char} (h : IsDigits digits) (hplaces : IsDigits places) :
    IsUnsigned (digits ++ '.' :: places)

/-- A decimal number, which may have a minus sign. -/
inductive IsNumber : List Char → Prop where
  | unsigned {text : List Char} (h : IsUnsigned text) : IsNumber text
  | negative {text : List Char} (h : IsUnsigned text) : IsNumber ('-' :: text)

/-- A boolean or a decimal number. -/
def IsConstant (text : String) : Prop :=
  text = "true" ∨ text = "false" ∨ IsNumber text.toList

theorem head_of_isDigits {digits : List Char} (h : IsDigits digits) (rest : List Char) :
    ∃ c, (digits ++ rest).head? = some c ∧ isAsciiDigit c = true := by
  obtain ⟨hdigit, hne⟩ := h
  cases digits with
  | nil => exact absurd rfl hne
  | cons c digits => exact ⟨c, rfl, hdigit c (by simp)⟩

theorem head_of_isUnsigned {text : List Char} (h : IsUnsigned text) :
    ∃ c, text.head? = some c ∧ isAsciiDigit c = true := by
  cases h with
  | whole h => simpa using head_of_isDigits h []
  | placed h hplaces => exact head_of_isDigits h _

/-- What `isNumeral` asks of a text without its sign. -/
def isUnsigned (text : List Char) : Bool :=
  match run1? isAsciiDigit text with
  | none => false
  | some (_, []) => true
  | some (_, '.' :: places) => !places.isEmpty && places.all isAsciiDigit
  | some _ => false

theorem isUnsigned_iff {text : List Char} : isUnsigned text = true ↔ IsUnsigned text := by
  unfold isUnsigned
  constructor
  · intro h
    split at h
    · cases h
    · rename_i digits hrun
      obtain ⟨htext, hne⟩ := run1?_eq_some hrun
      rw [List.append_nil] at htext
      subst htext
      exact .whole ⟨forall_of_run1? hrun, hne⟩
    · rename_i digits places hrun
      obtain ⟨rfl, hne⟩ := run1?_eq_some hrun
      rw [Bool.and_eq_true, Bool.not_eq_true', List.isEmpty_eq_false_iff, List.all_eq_true] at h
      exact .placed ⟨forall_of_run1? hrun, hne⟩ ⟨h.2, h.1⟩
    · cases h
  · intro h
    cases h with
    | whole h =>
      have hrun := run1?_of_ends h.digit h.nonempty (Ends.nil (p := isAsciiDigit))
      rw [List.append_nil] at hrun
      rw [hrun]
    | @placed digits places h hplaces =>
      have hpoint : Ends isAsciiDigit ('.' :: places) := .cons (by decide)
      rw [run1?_of_ends h.digit h.nonempty hpoint]
      simp only [Bool.and_eq_true, Bool.not_eq_true', List.isEmpty_eq_false_iff, List.all_eq_true]
      exact ⟨hplaces.nonempty, hplaces.digit⟩

theorem isNumeral_eq (text : List Char) :
    isNumeral text = isUnsigned (match text with
      | '-' :: rest => rest
      | _ => text) := rfl

theorem isNumeral_iff {text : List Char} : isNumeral text = true ↔ IsNumber text := by
  rw [isNumeral_eq]
  constructor
  · intro h
    split at h
    · exact .negative (isUnsigned_iff.1 h)
    · exact .unsigned (isUnsigned_iff.1 h)
  · intro h
    cases h with
    | unsigned h =>
      obtain ⟨c, hhead, hdigit⟩ := head_of_isUnsigned h
      split
      · -- a digit is no sign
        cases hhead
        exact absurd hdigit (by decide)
      · exact isUnsigned_iff.2 h
    | negative h => exact isUnsigned_iff.2 h

theorem isConstant_iff {text : String} :
    IsConstant text ↔ (isBoolean text || isNumeral text.toList) = true := by
  rw [IsConstant, ← isNumeral_iff, isBoolean]
  simp only [Bool.or_eq_true, beq_iff_eq, or_assoc]

/-- What booleans and numbers start with, and nothing that is in quotes or brackets. -/
def startsConstant (c : Char) : Bool := isAsciiDigit c || c == '-' || c == 't' || c == 'f'

theorem head_of_isConstant {text : String} (h : IsConstant text) :
    ∃ c, text.toList.head? = some c ∧ startsConstant c = true := by
  rcases h with rfl | rfl | h
  · exact ⟨'t', rfl, by decide⟩
  · exact ⟨'f', rfl, by decide⟩
  · generalize text.toList = chars at h ⊢
    cases h with
    | unsigned h =>
      obtain ⟨c, hhead, hc⟩ := head_of_isUnsigned h
      exact ⟨c, hhead, by simp [startsConstant, hc]⟩
    | negative => exact ⟨'-', rfl, by decide⟩

theorem not_isConstant_of_head {text : String} {c : Char} (hhead : text.toList.head? = some c)
    (hc : startsConstant c = false) : ¬ IsConstant text := by
  intro h
  obtain ⟨d, hd, hstarts⟩ := head_of_isConstant h
  rw [hhead] at hd
  cases hd
  rw [hc] at hstarts
  cases hstarts

theorem startsConstant_of_isQuote {c : Char} (h : isQuote c = true) : startsConstant c = false := by
  have hc : c = '"' ∨ c = '\'' := by simpa [isQuote] using h
  rcases hc with rfl | rfl <;> decide

/-! ## Keys -/

/-- A key, in one of its three forms. -/
inductive Key where
  | constant (text : String) (h : IsConstant text)
  | tag (category : Category)
  | literal (text : String) (h : text.length ≤ maxLiteralLength)

/-- A text in double quotes. -/
def inDoubleQuotes (text : String) : String := "\"" ++ text ++ "\""

namespace Key

/-- How the key is written. -/
def text : Key → String
  | constant text _ => text
  | tag category => category.tag
  | literal text _ => inDoubleQuotes text

end Key

theorem head_tag (category : Category) : category.tag.toList.head? = some '<' := by
  cases category <;> rfl

theorem head_inDoubleQuotes (text : String) : (inDoubleQuotes text).toList.head? = some '"' := by
  simp [inDoubleQuotes]

theorem inDoubleQuotes_injective : Function.Injective inDoubleQuotes := by
  intro text other h
  simpa [inDoubleQuotes, ← String.toList_inj] using h

theorem tag_injective : Function.Injective Category.tag := by
  intro category other h
  have hall : ∀ category, category ∈ Category.all := by
    intro category
    cases category <;> decide
  have hnodup : (Category.all.map Category.tag).Nodup := by decide +kernel
  exact List.inj_on_of_nodup_map hnodup (hall _) (hall _) h

theorem not_isConstant_tag (category : Category) : ¬ IsConstant category.tag :=
  not_isConstant_of_head (head_tag category) (by decide)

theorem not_isConstant_inDoubleQuotes (text : String) : ¬ IsConstant (inDoubleQuotes text) :=
  not_isConstant_of_head (head_inDoubleQuotes text) (by decide)

theorem tag_ne_inDoubleQuotes (category : Category) (text : String) :
    category.tag ≠ inDoubleQuotes text := by
  intro h
  have hhead := head_tag category
  rw [h, head_inDoubleQuotes] at hhead
  cases hhead

/-- A key has one form only. -/
theorem Key.text_injective : Function.Injective Key.text := by
  intro key other h
  cases key with
  | constant text hconstant =>
    cases other with
    | constant => cases h; rfl
    | tag category =>
      exact absurd (Eq.subst h hconstant) (not_isConstant_tag category)
    | literal other =>
      exact absurd (Eq.subst h hconstant) (not_isConstant_inDoubleQuotes other)
  | tag category =>
    cases other with
    | constant _ hconstant =>
      exact absurd (Eq.subst h.symm hconstant) (not_isConstant_tag category)
    | tag other => exact congrArg Key.tag (tag_injective h)
    | literal text => exact absurd h (tag_ne_inDoubleQuotes category text)
  | literal text hlength =>
    cases other with
    | constant _ hconstant =>
      exact absurd (Eq.subst h.symm hconstant) (not_isConstant_inDoubleQuotes text)
    | tag category => exact absurd h.symm (tag_ne_inDoubleQuotes category text)
    | literal other => cases inDoubleQuotes_injective h; rfl

/-- What stands for a value that is not set is no key. -/
theorem Key.text_ne_unset (key : Key) : key.text ≠ Census.unset := by
  intro h
  have hhead : some '(' = key.text.toList.head? := h ▸ rfl
  cases key with
  | constant text hconstant => exact not_isConstant_of_head hhead.symm (by decide) hconstant
  | tag category =>
    rw [Key.text, head_tag] at hhead
    cases hhead
  | literal text =>
    rw [Key.text, head_inDoubleQuotes] at hhead
    cases hhead

/-! ## Texts in quotes -/

theorem between?_eq_some_iff {first last : Char → Bool} {raw inner : List Char} :
    between? first last raw = some inner ↔
      (∃ c d, first c = true ∧ last d = true ∧ raw = c :: (inner ++ [d])) ∧ '\n' ∉ inner := by
  cases raw with
  | nil => simp [between?]
  | cons c text =>
    rcases List.eq_nil_or_concat text with rfl | ⟨body, d, rfl⟩
    · simp [between?]
    · rw [List.concat_eq_append]
      unfold between?
      simp only [List.reverse_append, List.reverse_singleton, List.singleton_append,
        List.reverse_reverse, List.contains_reverse]
      rw [Option.ite_none_right_eq_some, Bool.and_eq_true, Bool.and_eq_true, Bool.not_eq_true',
        List.contains_eq_mem, decide_eq_false_iff_not]
      constructor
      · rintro ⟨⟨⟨hc, hd⟩, hline⟩, hbody⟩
        cases hbody
        exact ⟨⟨c, d, hc, hd, rfl⟩, hline⟩
      · rintro ⟨⟨c', d', hc, hd, htext⟩, hline⟩
        obtain ⟨rfl, hrest⟩ := List.cons.inj htext
        obtain ⟨rfl, hlast⟩ := List.append_inj' hrest rfl
        cases hlast
        exact ⟨⟨⟨hc, hd⟩, hline⟩, rfl⟩

/-- The raw value is the text with a quote on both sides. The quotes need not be of one kind. -/
def IsQuotation (raw text : String) : Prop :=
  ∃ first last, isQuote first = true ∧ isQuote last = true ∧
    raw.toList = first :: (text.toList ++ [last])

variable {raw text : String}

theorem IsQuotation.text_eq {other : String} (h : IsQuotation raw text)
    (hother : IsQuotation raw other) : text = other := by
  obtain ⟨_, _, -, -, hraw⟩ := h
  obtain ⟨_, _, -, -, hraw'⟩ := hother
  rw [hraw] at hraw'
  obtain ⟨-, hrest⟩ := List.cons.inj hraw'
  exact String.toList_injective (List.append_inj' hrest rfl).1

theorem IsQuotation.not_isConstant (h : IsQuotation raw text) : ¬ IsConstant raw := by
  obtain ⟨first, _, hfirst, -, hraw⟩ := h
  have hhead : raw.toList.head? = some first := by rw [hraw]; rfl
  exact not_isConstant_of_head hhead (startsConstant_of_isQuote hfirst)

/-- Quotes are seen around a text in one line. -/
theorem quoted?_eq_some_iff {inner : List Char} :
    quoted? raw.toList = some inner ↔ IsQuotation raw (String.ofList inner) ∧ '\n' ∉ inner := by
  rw [quoted?, between?_eq_some_iff, IsQuotation, String.toList_ofList]

/-! ## Which key a raw value has -/

theorem normalize_constant (h : IsConstant text) : normalize text = text := by
  unfold normalize
  rw [if_pos (isConstant_iff.1 h)]

theorem isNamedVariable_named (name : String) :
    isNamedVariable (variableMark ++ name ++ ">") = true := by
  unfold isNamedVariable
  rw [Bool.and_eq_true, List.isPrefixOf_iff_prefix, beq_iff_eq]
  constructor
  · rw [String.append_assoc, String.toList_append]
    exact List.prefix_append _ _
  · rw [String.toList_append]
    exact List.getLast?_concat

/-- Variables are not told apart. -/
theorem normalize_named (name : String) :
    normalize (variableMark ++ name ++ ">") = Category.identifier.tag := by
  have hhead : (variableMark ++ name ++ ">").toList.head? = some '<' := by
    simp [variableMark]
  have hconstant := mt isConstant_iff.2 (not_isConstant_of_head hhead (by decide))
  unfold normalize
  rw [if_neg hconstant, if_pos (isNamedVariable_named name)]

/-- What is no boolean and no number and is not seen to be in quotes is put in a category. -/
theorem exists_classify (hconstant : ¬ IsConstant raw) (hquoted : quoted? raw.toList = none) :
    (∃ category, classify raw = Category.tag category) ∨
      classify raw = variableMark ++ raw ++ ">" := by
  unfold classify
  dsimp only
  rw [if_neg (mt isConstant_iff.2 hconstant), hquoted]
  dsimp only
  split
  · exact .inl ⟨.array, rfl⟩
  split
  · exact .inl ⟨.object, rfl⟩
  split
  · exact .inl ⟨.function, rfl⟩
  split
  · exact .inl ⟨.handler, rfl⟩
  split
  · exact .inl ⟨.ternary, rfl⟩
  split
  · exact .inl ⟨.template, rfl⟩
  split
  · exact .inr rfl
  · exact .inl ⟨.expression, rfl⟩

theorem exists_tag (hconstant : ¬ IsConstant raw) (hquoted : quoted? raw.toList = none) :
    ∃ category, normalize (classify raw) = Category.tag category := by
  rcases exists_classify hconstant hquoted with ⟨category, hclassify⟩ | hclassify
  · exact ⟨category, hclassify ▸ normalize_tag category⟩
  · exact ⟨.identifier, hclassify ▸ normalize_named raw⟩

/-- Which raw values a key is for. -/
def IsKeyOf (raw : String) : Key → Prop
  | .constant text _ => raw = text
  | .tag _ => ¬ IsConstant raw ∧
    ∀ text, IsQuotation raw text → maxLiteralLength < text.length ∨ '\n' ∈ text.toList
  | .literal text _ => IsQuotation raw text ∧ '\n' ∉ text.toList

theorem exists_isKeyOf (raw : String) : ∃ key, IsKeyOf raw key ∧ key.text = aggregationKey raw := by
  unfold aggregationKey
  cases hquoted : quoted? raw.toList with
  | none =>
    dsimp only
    by_cases hconstant : IsConstant raw
    · have hclassify : classify raw = raw := by
        unfold classify
        exact if_pos (isConstant_iff.1 hconstant)
      exact ⟨.constant raw hconstant, rfl, by rw [hclassify, normalize_constant hconstant]; rfl⟩
    · obtain ⟨category, hkey⟩ := exists_tag hconstant hquoted
      refine ⟨.tag category, ⟨hconstant, fun text hquotation => .inr ?_⟩, hkey.symm⟩
      by_contra hline
      rw [← String.ofList_toList (s := text)] at hquotation
      rw [quoted?_eq_some_iff.2 ⟨hquotation, hline⟩] at hquoted
      cases hquoted
  | some inner =>
    obtain ⟨hquotation, hline⟩ := quoted?_eq_some_iff.1 hquoted
    dsimp only
    unfold literalKey
    split
    · rename_i hlength
      exact ⟨.literal _ hlength, ⟨hquotation, by rwa [String.toList_ofList]⟩, rfl⟩
    · rename_i hlength
      refine ⟨.tag .expression, ⟨hquotation.not_isConstant, fun text htext => .inl ?_⟩, rfl⟩
      rw [← hquotation.text_eq htext]
      omega

/-- A value has no other key than the one it has. -/
theorem isKeyOf_of_text {key : Key} (h : key.text = aggregationKey raw) : IsKeyOf raw key := by
  obtain ⟨other, hother, htext⟩ := exists_isKeyOf raw
  rwa [Key.text_injective (h.trans htext.symm)]

theorem aggregationKey_ne_unset (raw : String) : aggregationKey raw ≠ Census.unset := by
  obtain ⟨key, -, htext⟩ := exists_isKeyOf raw
  exact htext ▸ key.text_ne_unset

theorem aggregationKey_eq_constant_iff {constant : String} (h : IsConstant constant) :
    aggregationKey raw = constant ↔ raw = constant := by
  constructor
  · intro hkey
    have hof : IsKeyOf raw (.constant constant h) := isKeyOf_of_text hkey.symm
    exact hof
  · rintro rfl
    obtain ⟨key, hkey, htext⟩ := exists_isKeyOf raw
    rw [← htext]
    cases key with
    | constant text => exact hkey.symm
    | tag category => exact absurd h hkey.1
    | literal text => exact absurd h hkey.1.not_isConstant

theorem aggregationKey_eq_literal_iff :
    aggregationKey raw = inDoubleQuotes text ↔
      IsQuotation raw text ∧ text.length ≤ maxLiteralLength ∧ '\n' ∉ text.toList := by
  obtain ⟨key, hkey, htext⟩ := exists_isKeyOf raw
  rw [← htext]
  constructor
  · intro h
    cases key with
    | constant _ hconstant =>
      exact absurd (Eq.subst h hconstant) (not_isConstant_inDoubleQuotes text)
    | tag category => exact absurd h (tag_ne_inDoubleQuotes category text)
    | literal other hlength =>
      cases inDoubleQuotes_injective h
      exact ⟨hkey.1, hlength, hkey.2⟩
  · rintro ⟨hquotation, hlength, hline⟩
    cases key with
    | constant _ hconstant =>
      cases hkey
      exact absurd hconstant hquotation.not_isConstant
    | tag category =>
      rcases hkey.2 text hquotation with hlong | hbreak
      · exact absurd hlength (by omega)
      · exact absurd hbreak hline
    | literal other =>
      exact congrArg inDoubleQuotes (hkey.1.text_eq hquotation)

/-- What keys there are, and what they are the keys of. A key is a boolean or number, a tag or a
short text in double quotes, and only one of these. It is a boolean or number if the raw value is
this one, and a text in double quotes if the raw value quotes this text in one line. -/
theorem key_vocabulary :
    (∀ raw, ∃! key : Key, key.text = aggregationKey raw) ∧
    (∀ raw constant, IsConstant constant → (aggregationKey raw = constant ↔ raw = constant)) ∧
    (∀ raw text, aggregationKey raw = "\"" ++ text ++ "\"" ↔
      IsQuotation raw text ∧ text.length ≤ maxLiteralLength ∧ '\n' ∉ text.toList) ∧
    (∀ raw other text, aggregationKey raw = "\"" ++ text ++ "\"" →
      aggregationKey other = aggregationKey raw →
      IsQuotation raw text ∧ IsQuotation other text) ∧
    (∀ raw text, IsQuotation raw text →
      (∀ constant, IsConstant constant → aggregationKey raw ≠ aggregationKey constant) ∧
      aggregationKey raw ≠ Census.unset) ∧
    (∀ raw, (∀ category : Category, aggregationKey raw ≠ category.tag) →
      (∀ text, aggregationKey raw ≠ "\"" ++ text ++ "\"") →
      ∀ other, aggregationKey other = aggregationKey raw ↔ other = raw) := by
  refine ⟨fun raw => ?_, fun raw constant h => aggregationKey_eq_constant_iff h,
    fun raw text => aggregationKey_eq_literal_iff, fun raw other text hkey hsame => ?_,
    fun raw text hquotation => ⟨fun constant h hsame => ?_, aggregationKey_ne_unset raw⟩,
    fun raw htag hliteral other => ?_⟩
  · obtain ⟨key, -, htext⟩ := exists_isKeyOf raw
    exact ⟨key, htext, fun other hother => Key.text_injective (hother.trans htext.symm)⟩
  · exact ⟨(aggregationKey_eq_literal_iff.1 hkey).1,
      (aggregationKey_eq_literal_iff.1 (hsame.trans hkey)).1⟩
  · have hconstant := (aggregationKey_eq_constant_iff h).2 rfl
    cases (aggregationKey_eq_constant_iff h).1 (hsame.trans hconstant)
    exact hquotation.not_isConstant h
  · obtain ⟨key, hkey, htext⟩ := exists_isKeyOf raw
    cases key with
    | constant text hconstant =>
      cases hkey
      rw [← htext]
      exact aggregationKey_eq_constant_iff hconstant
    | tag category => exact absurd htext.symm (htag category)
    | literal text => exact absurd htext.symm (hliteral text)

/-- A number in quotes is not the number. -/
example : aggregationKey "'2'" = "\"2\"" ∧ aggregationKey "2" = "2" := by decide +kernel

end UsageCensus.PropValue
