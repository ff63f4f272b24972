import UsageCensus.Proofs.Source.Elements
import UsageCensus.Proofs.Text.Searching
import UsageCensus.Source.Style

/-!
# Style objects as they are written

`WrittenStyle` is an object literal with the way it is written: which blanks stand between its
tokens, which keys are in quotes, and whether a comma follows the last entry. Its values may be any
texts without the characters behind which a key may stand. The keys are found as they are listed
(`styleProperties_written`): each is read behind the brace or the comma before it, up to its colon,
and nothing is read in a value.
-/

namespace UsageCensus.Source

open UsageCensus.Text

/-- A key of an object literal as it is written. -/
inductive WrittenKey where
  | name (first : Char) (others : List Char) (starts : StyleKey.startsName first = true)
      (continues : ∀ c ∈ others, StyleKey.continuesName c = true)
  /-- A text in quotes, which need not be of one kind. -/
  | quoted (opening closing : Char) (inner : List Char) (opens : isQuote opening = true)
      (closes : isQuote closing = true) (unquoted : ∀ c ∈ inner, isQuote c = false)
      (nonempty : inner ≠ [])

namespace WrittenKey

def text : WrittenKey → List Char
  | name first others _ _ => first :: others
  | quoted opening closing inner _ _ _ _ => opening :: (inner ++ [closing])

def bare : WrittenKey → List Char
  | name first others _ _ => first :: others
  | quoted _ _ inner _ _ _ _ => inner

end WrittenKey

/-- An entry of an object literal with the blanks around its tokens. -/
structure StyleEntry where
  before : Blanks
  key : WrittenKey
  beforeColon : Blanks
  behindColon : Blanks
  value : List Char
  behind : Blanks
  value_plain : ∀ c ∈ value, c ≠ '{' ∧ c ≠ ',' ∧ c ≠ ';'

namespace StyleEntry

def valueText (entry : StyleEntry) : List Char :=
  entry.behindColon.chars ++ (entry.value ++ entry.behind.chars)

def text (entry : StyleEntry) : List Char :=
  entry.before.chars ++ (entry.key.text ++ (entry.beforeColon.chars ++ ':' :: entry.valueText))

end StyleEntry

/-- An object literal as it is written. -/
structure WrittenStyle where
  entries : List StyleEntry
  /-- A comma follows the last entry. -/
  trailingComma : Bool
  closing : Blanks

namespace WrittenStyle

def ending (style : WrittenStyle) : List Char :=
  (if style.trailingComma then [','] else []) ++ (style.closing.chars ++ ['}'])

def text (style : WrittenStyle) : List Char :=
  '{' :: ([','].intercalate (style.entries.map StyleEntry.text) ++ style.ending)

end WrittenStyle

namespace StyleKey

/-! ## Reading behind a delimiter -/

/-- A key with the delimiter before it. -/
def readBehind? : List Char → Option (String × List Char)
  | [] => none
  | c :: rest => if isDelimiter c then readKey? (skipBlanks rest) else none

theorem searchFrom_read? (skip : Nat) (before : Char) (at_ : Nat) (text : List Char) :
    searchFrom read? skip (some before) at_ text
      = searchFrom (forward readBehind?) skip (some before) at_ text := by
  induction text generalizing skip before at_ with
  | nil => cases skip <;> rfl
  | cons c text ih =>
    cases skip with
    | succ skip => exact ih skip c (at_ + 1)
    | zero =>
      have hread : read? (some before) (c :: text)
          = forward readBehind? (some before) (c :: text) :=
        rfl
      rw [searchFrom, searchFrom, hread]
      simp only [ih]

/-- Only at the start of a text there need not be a delimiter; where there is one, all keys are
sought behind delimiters. -/
theorem search_eq_found {c : Char} (h : isDelimiter c = true) (text : List Char) :
    search read? (c :: text) = found readBehind? 0 (c :: text) := by
  have hread : read? none (c :: text) = forward readBehind? none (c :: text) := by
    rw [read?, forward, readBehind?, if_pos h, if_pos h]
  rw [search, found, searchFrom, searchFrom, hread]
  simp only [searchFrom_read?]

theorem readBehind?_of_ne {c : Char} (h : isDelimiter c = false) (text : List Char) :
    readBehind? (c :: text) = none := by
  rw [readBehind?, h]
  rfl

/-! ## Characters of keys and values -/

theorem isDelimiter_eq_false {c : Char} (h : c ≠ '{' ∧ c ≠ ',' ∧ c ≠ ';') :
    isDelimiter c = false := by
  simp only [isDelimiter, Bool.or_eq_false_iff, beq_eq_false_iff_ne]
  exact ⟨⟨h.1, h.2.1⟩, h.2.2⟩

theorem isDelimiter_of_isBlank {c : Char} (h : isBlank c = true) : isDelimiter c = false := by
  apply isDelimiter_eq_false
  refine ⟨?_, ?_, ?_⟩ <;> (rintro rfl; exact absurd h (by decide))

theorem continuesName_of_isBlank {c : Char} (h : isBlank c = true) : continuesName c = false := by
  rw [continuesName, isWord_of_isBlank h, Bool.false_or, beq_eq_false_iff_ne]
  rintro rfl
  exact absurd h (by decide)

theorem continuesName_of_startsName {c : Char} (h : startsName c = true) :
    continuesName c = true := by
  simp only [startsName, Bool.or_eq_true, beq_iff_eq] at h
  rcases h with (h | rfl) | rfl
  · rw [continuesName, isWord_of_isAsciiAlnum (by rw [isAsciiAlnum, h]; rfl)]
    rfl
  · decide
  · decide

theorem startsName_of_isQuote {c : Char} (h : isQuote c = true) : startsName c = false := by
  simp only [isQuote, Bool.or_eq_true, beq_iff_eq] at h
  rcases h with rfl | rfl <;> decide

theorem ends_colon (blanks : Blanks) (rest : List Char) :
    Ends continuesName (blanks.chars ++ ':' :: rest) := by
  obtain ⟨chars, blank⟩ := blanks
  cases chars with
  | nil => exact .cons (by decide)
  | cons c chars => exact .cons (continuesName_of_isBlank (blank c List.mem_cons_self))

theorem ends_key (key : WrittenKey) (rest : List Char) : Ends isBlank (key.text ++ rest) := by
  cases key with
  | name first others starts continues =>
    refine .cons ?_
    cases hblank : isBlank first with
    | false => rfl
    | true =>
      rw [← continuesName_of_startsName starts, continuesName_of_isBlank hblank]
  | quoted opening closing inner opens closes unquoted nonempty =>
    simp only [isQuote, Bool.or_eq_true, beq_iff_eq] at opens
    rcases opens with rfl | rfl <;> exact .cons (by decide)

/-! ## Reading keys -/

theorem readName?_of_ne {c : Char} (h : startsName c = false) (text : List Char) :
    readName? (c :: text) = none := by
  rw [readName?, h]
  rfl

theorem readKey?_text (key : WrittenKey) (blanks : Blanks) (rest : List Char) :
    readKey? (key.text ++ (blanks.chars ++ ':' :: rest)) = some (String.ofList key.bare, rest) := by
  have hcolon : one? (· == ':') (skipBlanks (blanks.chars ++ ':' :: rest)) = some rest := by
    rw [blanks.skipBlanks_append_of_ends (.cons (by decide))]
    rfl
  unfold readKey?
  cases key with
  | name first others starts continues =>
    have hall : ∀ c ∈ first :: others, continuesName c = true :=
      List.forall_mem_cons.2 ⟨continuesName_of_startsName starts, continues⟩
    have hname : readName? ((first :: others) ++ (blanks.chars ++ ':' :: rest))
        = some (first :: others, blanks.chars ++ ':' :: rest) := by
      rw [List.cons_append, readName?, if_pos starts, ← List.cons_append,
        run_of_ends hall (ends_colon blanks rest)]
    rw [WrittenKey.text, hname]
    simp only [Option.some_or, Option.bind_eq_bind, Option.bind_some, hcolon]
    rfl
  | quoted opening closing inner opens closes unquoted nonempty =>
    have hinner : run1? (fun c => !isQuote c) (inner ++ closing :: (blanks.chars ++ ':' :: rest))
        = some (inner, closing :: (blanks.chars ++ ':' :: rest)) :=
      run1?_of_ends (fun c hc => by rw [unquoted c hc]; rfl) nonempty
        (.cons (by rw [closes]; rfl))
    have hquoted : readQuoted? (opening :: (inner ++ closing :: (blanks.chars ++ ':' :: rest)))
        = some (inner, blanks.chars ++ ':' :: rest) := by
      simp only [readQuoted?, one?, if_pos opens, Option.bind_eq_bind, Option.bind_some, hinner,
        if_pos closes]
      rfl
    rw [WrittenKey.text, List.cons_append, List.append_assoc, List.singleton_append,
      readName?_of_ne (startsName_of_isQuote opens), hquoted]
    simp only [Option.none_or, Option.bind_eq_bind, Option.bind_some, hcolon]
    rfl

theorem readKey?_of_ne {c : Char} (hstarts : startsName c = false) (hquote : isQuote c = false)
    (text : List Char) : readKey? (c :: text) = none := by
  have hquoted : readQuoted? (c :: text) = none := by
    rw [readQuoted?, one?, hquote]
    rfl
  rw [readKey?, readName?_of_ne hstarts, hquoted]
  rfl

/-! ## Entries -/

/-- What is read behind a delimiter in front of an entry: its key, up to the colon. -/
theorem readBehind?_entry {c : Char} (h : isDelimiter c = true) (entry : StyleEntry)
    (rest : List Char) :
    readBehind? (c :: (entry.text ++ rest))
      = some (String.ofList entry.key.bare, entry.valueText ++ rest) := by
  have htext : entry.text ++ rest = entry.before.chars ++ (entry.key.text
      ++ (entry.beforeColon.chars ++ ':' :: (entry.valueText ++ rest))) := by
    simp only [StyleEntry.text, List.append_assoc, List.cons_append]
  rw [readBehind?, if_pos h, htext, entry.before.skipBlanks_append_of_ends (ends_key _ _),
    readKey?_text]

theorem silent_blanks (blanks : Blanks) (rest : List Char) :
    Silent readBehind? blanks.chars rest :=
  silent_of_forall fun c hc => readBehind?_of_ne (isDelimiter_of_isBlank (blanks.blank c hc))

theorem silent_valueText (entry : StyleEntry) (rest : List Char) :
    Silent readBehind? entry.valueText rest :=
  silent_append (silent_blanks _ _) (silent_append
    (silent_of_forall fun c hc => readBehind?_of_ne (isDelimiter_eq_false (entry.value_plain c hc)))
    (silent_blanks _ _))

/-- An entry behind a delimiter gives its key, and the search goes on behind the entry. -/
theorem values_entry {c : Char} (h : isDelimiter c = true) (entry : StyleEntry) (at_ : Nat)
    (rest : List Char) :
    ∃ behind, (found readBehind? at_ (c :: (entry.text ++ rest))).map Found.value
      = String.ofList entry.key.bare :: (found readBehind? behind rest).map Found.value := by
  obtain ⟨front, hfront⟩ : ∃ front, entry.text = front ++ entry.valueText :=
    ⟨entry.before.chars ++ (entry.key.text ++ (entry.beforeColon.chars ++ [':'])), by
      simp only [StyleEntry.text, List.append_assoc, List.singleton_append]⟩
  have hsplit : c :: (entry.text ++ rest) = (c :: front) ++ (entry.valueText ++ rest) := by
    rw [hfront, List.append_assoc, List.cons_append]
  have hread := readBehind?_entry h entry rest
  rw [hsplit] at hread
  refine ⟨at_ + (c :: front).length + entry.valueText.length, ?_⟩
  rw [hsplit, found_of_read hread (List.cons_ne_nil _ _), found_of_silent (silent_valueText _ _),
    List.map_cons]

/-- Behind the last entry no key is read, with a comma or without. -/
theorem silent_ending (style : WrittenStyle) : Silent readBehind? style.ending [] := by
  have hclosing : Silent readBehind? (style.closing.chars ++ ['}']) [] :=
    silent_append (silent_blanks _ _)
      (silent_of_forall fun c hc => readBehind?_of_ne (by rw [List.mem_singleton.1 hc]; decide))
  unfold WrittenStyle.ending
  cases style.trailingComma with
  | false => exact hclosing
  | true =>
    refine ⟨?_, hclosing⟩
    have hskip : skipBlanks (style.closing.chars ++ ['}']) = ['}'] :=
      style.closing.skipBlanks_append_of_ends (.cons (by decide))
    rw [readBehind?, if_pos (by decide)]
    show readKey? (skipBlanks ((style.closing.chars ++ ['}']) ++ [])) = none
    rw [List.append_nil, hskip]
    exact readKey?_of_ne (by decide) (by decide) []

theorem readBehind?_ending (style : WrittenStyle) : readBehind? ('{' :: style.ending) = none := by
  rw [readBehind?, if_pos (by decide)]
  unfold WrittenStyle.ending
  cases style.trailingComma with
  | true => exact readKey?_of_ne (by decide) (by decide) _
  | false =>
    have hskip : skipBlanks ((if false then [','] else []) ++ (style.closing.chars ++ ['}']))
        = ['}'] :=
      style.closing.skipBlanks_append_of_ends (.cons (by decide))
    rw [hskip]
    exact readKey?_of_ne (by decide) (by decide) []

theorem values_entries (entries : List StyleEntry) (at_ : Nat) {ending : List Char}
    (h : Silent readBehind? ending []) :
    (found readBehind? at_ ((entries.flatMap fun entry => ',' :: entry.text) ++ ending)).map
        Found.value
      = entries.map fun entry => String.ofList entry.key.bare := by
  induction entries generalizing at_ with
  | nil =>
    rw [List.flatMap_nil, List.nil_append, found_of_silent_nil h]
    rfl
  | cons entry entries ih =>
    obtain ⟨behind, hvalues⟩ := values_entry (c := ',') (by decide) entry at_
      ((entries.flatMap fun entry => ',' :: entry.text) ++ ending)
    rw [List.flatMap_cons, List.cons_append, List.cons_append, List.append_assoc, hvalues, ih,
      List.map_cons]

end StyleKey

theorem intercalate_texts (entry : StyleEntry) (entries : List StyleEntry) :
    [','].intercalate ((entry :: entries).map StyleEntry.text)
      = entry.text ++ entries.flatMap fun entry => ',' :: entry.text := by
  induction entries generalizing entry with
  | nil => simp [List.intercalate]
  | cons next entries ih =>
    rw [List.map_cons, List.map_cons, List.intercalate_cons_cons, ← List.map_cons, ih,
      List.append_assoc]
    rfl

/-- The keys of an object literal that is written are found as they are listed, without their
quotes. -/
theorem styleProperties_written (style : WrittenStyle) :
    styleProperties (String.ofList style.text)
      = style.entries.map fun entry => String.ofList entry.key.bare := by
  have hsilent := StyleKey.silent_ending style
  rw [styleProperties, String.toList_ofList, WrittenStyle.text,
    StyleKey.search_eq_found (by decide)]
  cases hentries : style.entries with
  | nil =>
    have hempty : Silent StyleKey.readBehind? ('{' :: style.ending) [] :=
      ⟨by rw [List.append_nil]; exact StyleKey.readBehind?_ending style, hsilent⟩
    have hnone : [','].intercalate (([] : List StyleEntry).map StyleEntry.text) = [] := rfl
    rw [hnone, List.nil_append, found_of_silent_nil hempty]
    rfl
  | cons entry entries =>
    obtain ⟨behind, hvalues⟩ := StyleKey.values_entry (c := '{') (by decide) entry 0
      ((entries.flatMap fun entry => ',' :: entry.text) ++ style.ending)
    rw [intercalate_texts, List.append_assoc, hvalues,
      StyleKey.values_entries entries behind hsilent, List.map_cons]

/-- Values with colons, quotes and calls in them, a key with a comma, and a comma at the end. -/
example : styleProperties "\x7b color: a ? 'b: c' : d, '--gap,x' :f('y:'),\n$z: 2 , \x7d"
    = ["color", "--gap,x", "$z"] := by
  decide +kernel

end UsageCensus.Source
