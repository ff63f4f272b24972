import UsageCensus.Proofs.PropValue.Keys

/-!
# Values in more than one line

A value is written in one line or in several: blanks become line breaks (`Reflows`). Most forms of
values do not depend on it, as they are the same if all blanks are made alike (`isFunction_level`
and its like), and so is the key (`aggregationKey_of_not_bracketed`). A value in brackets or braces is
seen to be an array or an object only in one line; in several lines it counts as what its characters
look like (`aggregationKey_of_bracketed`). So its key changes with its first line break
(`aggregationKey_reflow`).
-/

namespace UsageCensus.PropValue

open UsageCensus.Document UsageCensus.Text

/-- Blanks have become line breaks, maybe not all of them. -/
def Reflows (text other : List Char) : Prop :=
  List.Forall₂ (fun c d => d = c ∨ isBlank c = true ∧ d = '\n') text other

instance (text other : List Char) : Decidable (Reflows text other) :=
  decidable_of_iff (text.length = other.length ∧
    ∀ pair ∈ text.zip other, pair.2 = pair.1 ∨ isBlank pair.1 = true ∧ pair.2 = '\n')
    (by simp only [Reflows, List.forall₂_iff_zip, Prod.forall])

/-! ## Blanks made alike -/

def levelBlank (c : Char) : Char := if isBlank c then ' ' else c

/-- The text with a space in place of each blank. -/
def level (text : List Char) : List Char := text.map levelBlank

section

variable {c : Char} {part text other word : List Char}

theorem levelBlank_of_not (h : isBlank c = false) : levelBlank c = c := by
  rw [levelBlank, h]
  rfl

theorem isBlank_levelBlank (c : Char) : isBlank (levelBlank c) = isBlank c := by
  unfold levelBlank
  split
  · rename_i h
    rw [h]
    decide
  · rfl

/-- A character that is no blank comes from itself only. -/
theorem levelBlank_eq_iff {d : Char} (h : isBlank d = false) : levelBlank c = d ↔ c = d := by
  constructor
  · intro hlevel
    rw [← hlevel, isBlank_levelBlank] at h
    rw [← hlevel, levelBlank_of_not h]
  · rintro rfl
    exact levelBlank_of_not h

theorem level_of_reflows (h : Reflows text other) : level other = level text := by
  induction h with
  | nil => rfl
  | @cons c d text other hchar _ ih =>
    have hhead : levelBlank d = levelBlank c := by
      rcases hchar with rfl | ⟨hblank, rfl⟩
      · rfl
      · rw [levelBlank, levelBlank, hblank]
        rfl
    show levelBlank d :: level other = levelBlank c :: level text
    rw [hhead, ih]

theorem mem_line_break_of_reflows (h : Reflows text other) (hline : '\n' ∈ text) :
    '\n' ∈ other := by
  induction h with
  | nil => cases hline
  | cons hchar _ ih =>
    rcases List.mem_cons.1 hline with rfl | hline
    · rcases hchar with rfl | ⟨-, rfl⟩ <;> exact List.mem_cons_self
    · exact List.mem_cons_of_mem _ (ih hline)

theorem mem_level (h : isBlank c = false) : c ∈ level text ↔ c ∈ text := by
  simp only [level, List.mem_map, levelBlank_eq_iff h, exists_eq_right]

theorem level_of_no_blank (h : ∀ c ∈ text, isBlank c = false) : level text = text :=
  (List.map_congr_left fun c hc => levelBlank_of_not (h c hc)).trans (List.map_id text)

/-! ## Forms that do not depend on blanks -/

/-- A form that has no blanks is the same if blanks are made alike. -/
theorem form_level {form : List Char → Bool}
    (h : ∀ text, form text = true → ∀ c ∈ text, isBlank c = false) (text : List Char) :
    form (level text) = form text := by
  by_cases hblank : ∀ c ∈ text, isBlank c = false
  · rw [level_of_no_blank hblank]
  · have hfalse : form text = false := Bool.eq_false_iff.2 fun hform => hblank (h text hform)
    rw [hfalse, Bool.eq_false_iff]
    intro hform
    refine hblank fun c hc => ?_
    rw [← isBlank_levelBlank]
    exact h _ hform _ (List.mem_map_of_mem hc)

theorem class_level {p : Char → Bool} (h : ∀ c, isBlank c = true → p c = false) (c : Char) :
    p (levelBlank c) = p c := by
  cases hblank : isBlank c with
  | false => rw [levelBlank_of_not hblank]
  | true => rw [h c hblank, h _ ((isBlank_levelBlank c).trans hblank)]

theorem isPrefixOf_level (hpart : ∀ c ∈ part, isBlank c = false) (text : List Char) :
    part.isPrefixOf (level text) = part.isPrefixOf text := by
  induction part generalizing text with
  | nil => simp
  | cons d part ih =>
    cases text with
    | nil => rfl
    | cons c text =>
      have hd := levelBlank_eq_iff (c := c) (hpart d List.mem_cons_self)
      have hbeq : (d == levelBlank c) = (d == c) := by
        rw [Bool.eq_iff_iff, beq_iff_eq, beq_iff_eq, eq_comm, hd, eq_comm]
      have htail := ih (fun c hc => hpart c (List.mem_cons_of_mem d hc)) text
      show (d == levelBlank c && part.isPrefixOf (level text)) = (d == c && part.isPrefixOf text)
      rw [hbeq, htail]

theorem occurs_level (hpart : ∀ c ∈ part, isBlank c = false) (text : List Char) :
    occurs part (level text) = occurs part text := by
  induction text with
  | nil => rfl
  | cons c text ih =>
    have hstart := isPrefixOf_level hpart (c :: text)
    show (part.isPrefixOf (level (c :: text)) || occurs part (level text)) = _
    rw [hstart, ih, occurs]

theorem after?_level (hword : ∀ c ∈ word, isBlank c = false) (text : List Char) :
    after? word (level text) = (after? word text).map level := by
  induction word generalizing text with
  | nil => cases text <;> rfl
  | cons d word ih =>
    cases text with
    | nil => rfl
    | cons c text =>
      have hd := levelBlank_eq_iff (c := c) (hword d List.mem_cons_self)
      have htail := ih (fun c hc => hword c (List.mem_cons_of_mem d hc)) text
      show (if d = levelBlank c then after? word (level text) else none) = _
      rw [after?, htail, apply_ite (Option.map level)]
      exact if_congr (by rw [eq_comm, hd, eq_comm]) rfl rfl

theorem isBlank_of_isAsciiAlnum (h : isAsciiAlnum c = true) : isBlank c = false := by
  have hname : Source.Attribute.continuesName c = true := by
    simp [Source.Attribute.continuesName, h]
  cases hblank : isBlank c with
  | false => rfl
  | true => rw [Source.Attribute.continuesName_of_isBlank hblank] at hname; cases hname

theorem not_isBlank_of_isConstant {raw : String} (h : IsConstant raw) :
    ∀ c ∈ raw.toList, isBlank c = false := by
  have hdigits : ∀ {digits : List Char}, IsDigits digits → ∀ c ∈ digits, isBlank c = false :=
    fun h c hc => isBlank_of_isAsciiAlnum (by simp [isAsciiAlnum, h.digit c hc])
  have hunsigned : ∀ {text : List Char}, IsUnsigned text → ∀ c ∈ text, isBlank c = false := by
    intro text h
    cases h with
    | whole h => exact hdigits h
    | placed h hplaces =>
      intro c hc
      rcases List.mem_append.1 hc with hc | hc
      · exact hdigits h c hc
      · rcases List.mem_cons.1 hc with rfl | hc
        · decide
        · exact hdigits hplaces c hc
  rcases h with rfl | rfl | h
  · exact forall_mem_of_all (by decide)
  · exact forall_mem_of_all (by decide)
  · generalize raw.toList = text at h ⊢
    cases h with
    | unsigned h => exact hunsigned h
    | negative h =>
      intro c hc
      rcases List.mem_cons.1 hc with rfl | hc
      · decide
      · exact hunsigned h c hc

theorem not_isBlank_of_isVariable (text : List Char) (h : isVariable text = true) :
    ∀ c ∈ text, isBlank c = false := by
  have hother : ∀ c, isAsciiAlnum c = true ∨ c = '_' ∨ c = '$' ∨ c = '.' → isBlank c = false := by
    rintro c (h | rfl | rfl | rfl)
    · exact isBlank_of_isAsciiAlnum h
    · decide
    · decide
    · decide
  cases text with
  | nil => cases h
  | cons d text =>
    simp only [isVariable, Bool.and_eq_true, Bool.or_eq_true, beq_iff_eq, List.all_eq_true] at h
    intro c hc
    rcases List.mem_cons.1 hc with rfl | hc
    · refine hother c ?_
      rcases h.1 with (h | h) | h
      · exact .inl (by simp [isAsciiAlnum, h])
      · exact .inr (.inl h)
      · exact .inr (.inr (.inl h))
    · refine hother c ?_
      rcases h.2 c hc with ((h | h) | h) | h
      · exact .inl h
      · exact .inr (.inl h)
      · exact .inr (.inr (.inl h))
      · exact .inr (.inr (.inr h))

theorem isFunction_level (text : List Char) : isFunction (level text) = isFunction text := by
  have harrow : ∀ c ∈ ['=', '>'], isBlank c = false := forall_mem_of_all (by decide)
  have hword : ∀ c ∈ ['f', 'u', 'n', 'c', 't', 'i', 'o', 'n'], isBlank c = false :=
    forall_mem_of_all (by decide)
  unfold isFunction
  rw [occurs_level harrow, after?_level hword]
  rcases after? ['f', 'u', 'n', 'c', 't', 'i', 'o', 'n'] text with _ | (_ | ⟨c, rest⟩)
  · rfl
  · rfl
  · have hclass := class_level (fun c => isWord_of_isBlank) c
    simp [level, hclass]

/-- A capital stands behind the word that the text starts with. -/
def startsWithCapital (word text : List Char) : Bool :=
  match after? word text with
  | some (c :: _) => isAsciiUpper c
  | _ => false

theorem isHandler_eq (text : List Char) : isHandler text
    = (startsWithCapital ['h', 'a', 'n', 'd', 'l', 'e'] text
      || startsWithCapital ['o', 'n'] text) := rfl

theorem startsWithCapital_level (hword : ∀ c ∈ word, isBlank c = false) (text : List Char) :
    startsWithCapital word (level text) = startsWithCapital word text := by
  have hupper : ∀ c, isBlank c = true → isAsciiUpper c = false := by
    intro c hblank
    cases hc : isAsciiUpper c with
    | false => rfl
    | true =>
      rw [isBlank_of_isAsciiAlnum (by simp [isAsciiAlnum, isAsciiLetter, hc])] at hblank
      cases hblank
  unfold startsWithCapital
  rw [after?_level hword]
  rcases after? word text with _ | (_ | ⟨c, rest⟩)
  · rfl
  · rfl
  · exact class_level hupper c

theorem isHandler_level (text : List Char) : isHandler (level text) = isHandler text := by
  rw [isHandler_eq, isHandler_eq, startsWithCapital_level (forall_mem_of_all (by decide)),
    startsWithCapital_level (forall_mem_of_all (by decide))]

theorem isTernary_level (text : List Char) : isTernary (level text) = isTernary text := by
  have hmark : isBlank '?' = false := by decide
  have hcolon : isBlank ':' = false := by decide
  simp only [isTernary, List.contains_eq_mem, mem_level hmark, mem_level hcolon]

end

/-! ## Values by their form -/

/-- What a text looks like that is no constant and is not in quotes or brackets. -/
def formOf (text : List Char) : Category :=
  if isFunction text then .function
  else if isHandler text then .handler
  else if isTernary text then .ternary
  else if text.head? = some '\x60' then .template
  else if isVariable text then .identifier
  else .expression

/-- What brackets or braces around a text stand for. -/
def bracketed? (text : List Char) : Option Category :=
  if text.head? = some '[' ∧ text.getLast? = some ']' then some .array
  else if text.head? = some '{' ∧ text.getLast? = some '}' then some .object
  else none

/-- What a text is that is no constant and is not in quotes. -/
def categoryOf (text : List Char) : Category :=
  match bracketed? text with
  | some category => if '\n' ∈ text then formOf text else category
  | none => formOf text

section

variable {text other : List Char} {raw : String}

theorem head?_level {c : Char} (hc : isBlank c = false) :
    (level text).head? = some c ↔ text.head? = some c := by
  rw [level, List.head?_map]
  simp only [Option.map_eq_some_iff, levelBlank_eq_iff hc, exists_eq_right]

theorem getLast?_level {c : Char} (hc : isBlank c = false) :
    (level text).getLast? = some c ↔ text.getLast? = some c := by
  rw [level, List.getLast?_map]
  simp only [Option.map_eq_some_iff, levelBlank_eq_iff hc, exists_eq_right]

theorem formOf_level (text : List Char) : formOf (level text) = formOf text := by
  unfold formOf
  rw [isFunction_level, isHandler_level, isTernary_level,
    form_level not_isBlank_of_isVariable]
  simp only [head?_level (c := '\x60') (by decide)]

theorem bracketed?_level (text : List Char) : bracketed? (level text) = bracketed? text := by
  unfold bracketed?
  simp only [head?_level (c := '[') (by decide), head?_level (c := '{') (by decide),
    getLast?_level (c := ']') (by decide), getLast?_level (c := '}') (by decide)]

theorem bracketed?_cases {category : Category} (h : bracketed? text = some category) :
    category = .array ∧ text.head? = some '[' ∨ category = .object ∧ text.head? = some '{' := by
  unfold bracketed? at h
  split at h
  · rename_i hsquare
    exact .inl ⟨(Option.some.inj h).symm, hsquare.1⟩
  · split at h
    · rename_i hcurly
      exact .inr ⟨(Option.some.inj h).symm, hcurly.1⟩
    · cases h

theorem formOf_ne_bracketed {category : Category} (h : bracketed? text = some category) :
    formOf text ≠ category := by
  have hform : formOf text ≠ .array ∧ formOf text ≠ .object := by
    unfold formOf
    split_ifs <;> decide
  rcases bracketed?_cases h with ⟨rfl, -⟩ | ⟨rfl, -⟩
  · exact hform.1
  · exact hform.2

/-- Brackets are seen around a text in one line. -/
theorem isSome_between?_iff {opening closing : Char} (hne : opening ≠ closing)
    (hopening : opening ≠ '\n') (hclosing : closing ≠ '\n') :
    (between? (· == opening) (· == closing) text).isSome = true ↔
      (text.head? = some opening ∧ text.getLast? = some closing) ∧ '\n' ∉ text := by
  rw [Option.isSome_iff_exists]
  simp only [between?_eq_some_iff, beq_iff_eq]
  constructor
  · rintro ⟨inner, ⟨c, d, rfl, rfl, rfl⟩, hline⟩
    refine ⟨⟨rfl, by rw [← List.cons_append, List.getLast?_concat]⟩, ?_⟩
    simp [hline, Ne.symm hopening, Ne.symm hclosing]
  · rintro ⟨⟨hhead, hlast⟩, hline⟩
    obtain ⟨rest, rfl⟩ := List.head?_eq_some_iff.1 hhead
    rcases List.eq_nil_or_concat rest with rfl | ⟨inner, d, rfl⟩
    · exact absurd (Option.some.inj hlast) hne
    · rw [List.concat_eq_append, ← List.cons_append, List.getLast?_concat] at hlast
      cases hlast
      exact ⟨inner, ⟨opening, closing, rfl, rfl, by simp⟩, fun h => hline (by simp [h])⟩

theorem normalize_classify (hconstant : ¬ IsConstant raw) (hquoted : quoted? raw.toList = none) :
    normalize (classify raw) = (categoryOf raw.toList).tag := by
  have harray : isArray raw.toList = true ↔ _ :=
    isSome_between?_iff (by decide) (by decide) (by decide)
  have hobject : isObject raw.toList = true ↔ _ :=
    isSome_between?_iff (by decide) (by decide) (by decide)
  have hform : normalize (if isFunction raw.toList then Category.function.tag
      else if isHandler raw.toList then Category.handler.tag
      else if isTernary raw.toList then Category.ternary.tag
      else if raw.toList.head? = some '\x60' then Category.template.tag
      else if isVariable raw.toList then variableMark ++ raw ++ ">"
      else Category.expression.tag) = (formOf raw.toList).tag := by
    unfold formOf
    split_ifs
    · exact normalize_tag .function
    · exact normalize_tag .handler
    · exact normalize_tag .ternary
    · exact normalize_tag .template
    · exact normalize_named raw
    · exact normalize_tag .expression
  unfold classify
  dsimp only
  rw [if_neg (mt isConstant_iff.2 hconstant), hquoted]
  dsimp only
  unfold categoryOf bracketed?
  by_cases hline : '\n' ∈ raw.toList
  · -- a line break hides the brackets
    rw [if_neg fun h => (harray.1 h).2 hline, if_neg fun h => (hobject.1 h).2 hline, hform]
    simp only [hline, if_true]
    split <;> rfl
  · simp only [harray, hobject, hline, not_false_iff, and_true, if_false]
    by_cases hsquare : raw.toList.head? = some '[' ∧ raw.toList.getLast? = some ']'
    · rw [if_pos hsquare, if_pos hsquare]
      exact normalize_tag .array
    · rw [if_neg hsquare, if_neg hsquare]
      by_cases hcurly : raw.toList.head? = some '{' ∧ raw.toList.getLast? = some '}'
      · rw [if_pos hcurly, if_pos hcurly]
        exact normalize_tag .object
      · rw [if_neg hcurly, if_neg hcurly]
        exact hform

/-- The text starts with a quote. -/
def startsQuoted (text : List Char) : Bool := text.head?.any isQuote

theorem startsQuoted_level (text : List Char) : startsQuoted (level text) = startsQuoted text := by
  have hquote : ∀ c, isBlank c = true → isQuote c = false := by
    intro c hblank
    cases hc : isQuote c with
    | false => rfl
    | true =>
      have hc : c = '"' ∨ c = '\'' := by simpa [isQuote] using hc
      rcases hc with rfl | rfl <;> exact absurd hblank (by decide)
  unfold startsQuoted level
  rw [List.head?_map]
  cases text.head? with
  | none => rfl
  | some c => exact class_level hquote c

/-- The key of a value that is no constant and does not start with a quote. -/
theorem aggregationKey_eq_tag (hquote : startsQuoted raw.toList = false)
    (hconstant : ¬ IsConstant raw) : aggregationKey raw = (categoryOf raw.toList).tag := by
  have hquoted : quoted? raw.toList = none := by
    cases hquoted : quoted? raw.toList with
    | none => rfl
    | some inner =>
      obtain ⟨⟨c, d, hc, -, hraw⟩, -⟩ := between?_eq_some_iff.1 hquoted
      rw [hraw, startsQuoted, List.head?_cons, Option.any_some, hc] at hquote
      cases hquote
  unfold aggregationKey
  rw [hquoted]
  exact normalize_classify hconstant hquoted

/-! ## Values in other lines -/

variable {rewritten : String}

theorem eq_of_isConstant (hlevel : level rewritten.toList = level raw.toList) (h : IsConstant raw) :
    rewritten = raw := by
  have hraw := not_isBlank_of_isConstant h
  have hrewritten : ∀ c ∈ rewritten.toList, isBlank c = false := by
    intro c hc
    have hmem : levelBlank c ∈ level rewritten.toList := List.mem_map_of_mem hc
    rw [hlevel, level_of_no_blank hraw] at hmem
    rw [← isBlank_levelBlank]
    exact hraw _ hmem
  rw [level_of_no_blank hraw, level_of_no_blank hrewritten] at hlevel
  exact String.toList_injective hlevel

theorem not_isConstant_of_bracketed {category : Category}
    (h : bracketed? raw.toList = some category) : ¬ IsConstant raw := by
  rcases bracketed?_cases h with ⟨-, hhead⟩ | ⟨-, hhead⟩
  · exact not_isConstant_of_head hhead (by decide)
  · exact not_isConstant_of_head hhead (by decide)

theorem aggregationKey_of_bracketed {category : Category}
    (h : bracketed? raw.toList = some category) :
    aggregationKey raw
      = (if '\n' ∈ raw.toList then formOf raw.toList else category).tag := by
  have hquote : startsQuoted raw.toList = false := by
    rcases bracketed?_cases h with ⟨-, hhead⟩ | ⟨-, hhead⟩
    · rw [startsQuoted, hhead]
      decide
    · rw [startsQuoted, hhead]
      decide
  rw [aggregationKey_eq_tag hquote (not_isConstant_of_bracketed h), categoryOf, h]

theorem aggregationKey_of_not_bracketed (hlevel : level rewritten.toList = level raw.toList)
    (hquote : startsQuoted raw.toList = false) (h : bracketed? raw.toList = none) :
    aggregationKey rewritten = aggregationKey raw := by
  by_cases hconstant : IsConstant raw
  · rw [eq_of_isConstant hlevel hconstant]
  · have hrewritten : ¬ IsConstant rewritten := by
      intro hrewritten
      rw [eq_of_isConstant hlevel.symm hrewritten] at hconstant
      exact hconstant hrewritten
    have hquote' : startsQuoted rewritten.toList = false := by
      rw [← startsQuoted_level, hlevel, startsQuoted_level, hquote]
    have h' : bracketed? rewritten.toList = none := by
      rw [← bracketed?_level, hlevel, bracketed?_level, h]
    rw [aggregationKey_eq_tag hquote hconstant, aggregationKey_eq_tag hquote' hrewritten,
      categoryOf, categoryOf, h, h', ← formOf_level, hlevel, formOf_level]

end

/-- A value that does not start with a quote keeps its key when blanks become line breaks, unless it
is in brackets or braces and the first line break comes into it: until then it is an array or an
object, and from then on what it looks like otherwise. -/
theorem aggregationKey_reflow {raw rewritten : String} (h : Reflows raw.toList rewritten.toList)
    (hquote : startsQuoted raw.toList = false) :
    (bracketed? raw.toList = none → aggregationKey rewritten = aggregationKey raw) ∧
    (∀ category, bracketed? raw.toList = some category →
      aggregationKey raw = (if '\n' ∈ raw.toList then formOf raw.toList else category).tag ∧
      aggregationKey rewritten
        = (if '\n' ∈ rewritten.toList then formOf raw.toList else category).tag) ∧
    (aggregationKey rewritten = aggregationKey raw ↔
      bracketed? raw.toList = none ∨ '\n' ∈ raw.toList ∨ '\n' ∉ rewritten.toList) := by
  have hlevel := level_of_reflows h
  have hplain := aggregationKey_of_not_bracketed hlevel hquote
  have hbracketed : ∀ category, bracketed? raw.toList = some category →
      aggregationKey raw = (if '\n' ∈ raw.toList then formOf raw.toList else category).tag ∧
      aggregationKey rewritten
        = (if '\n' ∈ rewritten.toList then formOf raw.toList else category).tag := by
    intro category hcategory
    have hcategory' : bracketed? rewritten.toList = some category := by
      rw [← bracketed?_level, hlevel, bracketed?_level, hcategory]
    have hform : formOf rewritten.toList = formOf raw.toList := by
      rw [← formOf_level, hlevel, formOf_level]
    exact ⟨aggregationKey_of_bracketed hcategory, hform ▸ aggregationKey_of_bracketed hcategory'⟩
  refine ⟨hplain, hbracketed, ?_⟩
  cases hcategory : bracketed? raw.toList with
  | none => exact iff_of_true (hplain hcategory) (.inl rfl)
  | some category =>
    obtain ⟨hraw, hrewritten⟩ := hbracketed category hcategory
    have hne := formOf_ne_bracketed hcategory
    rw [hraw, hrewritten, tag_injective.eq_iff]
    by_cases hline : '\n' ∈ raw.toList
    · have hline' := mem_line_break_of_reflows h hline
      simp [hline, hline']
    · by_cases hline' : '\n' ∈ rewritten.toList
      · simp [hline, hline', hne]
      · simp [hline, hline']

/-- A choice in three lines. -/
theorem aggregationKey_choice :
    Reflows "isOpen ? 1 : 2".toList "isOpen\n? 1\n: 2".toList ∧
    startsQuoted "isOpen ? 1 : 2".toList = false ∧
    aggregationKey "isOpen\n? 1\n: 2" = aggregationKey "isOpen ? 1 : 2" := by
  have h : Reflows "isOpen ? 1 : 2".toList "isOpen\n? 1\n: 2".toList := by decide +kernel
  have hquote : startsQuoted "isOpen ? 1 : 2".toList = false := by decide +kernel
  exact ⟨h, hquote, (aggregationKey_reflow h hquote).1 (by decide +kernel)⟩

/-- A list in two lines is no array. -/
theorem aggregationKey_list_in_two_lines :
    Reflows "[1, 2]".toList "[1,\n2]".toList ∧
    aggregationKey "[1, 2]" = "<array>" ∧ aggregationKey "[1,\n2]" = "<expression>" := by
  decide +kernel

end UsageCensus.PropValue
