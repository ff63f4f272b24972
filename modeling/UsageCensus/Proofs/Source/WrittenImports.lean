import UsageCensus.Proofs.Text.Reading
import UsageCensus.Source.Import

/-!
# Import statements as they are written

`WrittenImport` is an import statement with the way it is written: which blanks stand between
its words, which quotes the source has, and whether a semicolon follows. The names in braces are
bound as they are listed (`ofNames_text`): an entry binds its local name to the exported one if
the exported one starts with an ASCII capital, and an entry for a type binds nothing.
-/

namespace UsageCensus.Source

open UsageCensus.Text

/-- An entry of a list of names as it is written. -/
inductive WrittenEntry where
  | plain (name : Word)
  /-- A name and the name it goes by, with `as` between them. -/
  | renamed (name : Word) (before behind : Gap) (localName : Word)
  | type (gap : Gap) (name : Word)

namespace WrittenEntry

def text : WrittenEntry → List Char
  | plain name => name.chars
  | renamed name before behind localName =>
    name.chars ++ (before.chars ++ (['a', 's'] ++ (behind.chars ++ localName.chars)))
  | type gap name => ['t', 'y', 'p', 'e'] ++ (gap.chars ++ name.chars)

/-- The binding of a name, if it starts with an ASCII capital. -/
def bind? (name localName : Word) : Option Binding :=
  if name.chars.head?.any isAsciiUpper then
    some ⟨String.ofList name.chars, String.ofList localName.chars⟩
  else none

/-- What the entry binds. -/
def binding? : WrittenEntry → Option Binding
  | plain name => bind? name name
  | renamed name _ _ localName => bind? name localName
  | type _ _ => none

end WrittenEntry

/-- An entry with the blanks around it. -/
structure WrittenItem where
  before : Blanks
  entry : WrittenEntry
  behind : Blanks

def WrittenItem.text (item : WrittenItem) : List Char :=
  item.before.chars ++ (item.entry.text ++ item.behind.chars)

/-- One entry or more between commas, and maybe blanks behind a last comma. -/
structure WrittenNames where
  first : WrittenItem
  others : List WrittenItem
  trailing : Option Blanks

namespace WrittenNames

def items (names : WrittenNames) : List WrittenItem := names.first :: names.others

/-- What follows the commas. -/
def behindCommas (names : WrittenNames) : List (List Char) :=
  names.others.map WrittenItem.text ++ names.trailing.toList.map Blanks.chars

def text (names : WrittenNames) : List Char :=
  names.first.text ++ names.behindCommas.flatMap fun piece => ',' :: piece

end WrittenNames

/-- What stands between `import` and `from`, as it is written. -/
inductive WrittenClause where
  | named (names : WrittenNames)
  | defaultName (name : Word)
  /-- A default name, a comma and names in braces. -/
  | both (name : Word) (before behind : Blanks) (names : WrittenNames)

def WrittenClause.text : WrittenClause → List Char
  | named names => '{' :: (names.text ++ ['}'])
  | defaultName name => name.chars
  | both name before behind names =>
    name.chars ++ (before.chars ++ ',' :: (behind.chars ++ '{' :: (names.text ++ ['}'])))

/-- An import statement as it is written. -/
structure WrittenImport where
  beforeClause : Gap
  clause : WrittenClause
  beforeFrom : Gap
  beforeSource : Gap
  quote : Char
  source : List Char
  semicolon : Bool
  quote_isQuote : isQuote quote = true
  source_ne_nil : source ≠ []
  source_plain : ∀ c ∈ source, isQuote c = false ∧ isBlank c = false

namespace WrittenImport

/-- The statement from the blanks before `from` on, up to the closing quote. -/
def fromText (statement : WrittenImport) : List Char :=
  statement.beforeFrom.chars ++ (['f', 'r', 'o', 'm'] ++ (statement.beforeSource.chars ++
    statement.quote :: (statement.source ++ [statement.quote])))

/-- The statement up to the closing quote. -/
def head (statement : WrittenImport) : List Char :=
  ['i', 'm', 'p', 'o', 'r', 't'] ++
    (statement.beforeClause.chars ++ (statement.clause.text ++ statement.fromText))

def text (statement : WrittenImport) : List Char :=
  statement.head ++ if statement.semicolon then [';'] else []

/-- Statements one per line. -/
def document (statements : List WrittenImport) : List Char :=
  ['\n'].intercalate (statements.map text)

end WrittenImport

/-! ## Characters of entries -/

/-- Word characters and blanks only. -/
def IsWordy (text : List Char) : Prop := ∀ c ∈ text, isWord c = true ∨ isBlank c = true

theorem IsWordy.append {text text' : List Char} (h : IsWordy text) (h' : IsWordy text') :
    IsWordy (text ++ text') := by
  intro c hc
  rcases List.mem_append.1 hc with hc | hc
  · exact h c hc
  · exact h' c hc

theorem isWordy_word (word : Word) : IsWordy word.chars := fun c hc => .inl (word.word c hc)

theorem isWordy_blanks (blanks : Blanks) : IsWordy blanks.chars :=
  fun c hc => .inr (blanks.blank c hc)

/-- A text without commas, braces and quotes. -/
theorem IsWordy.not_mem {text : List Char} (h : IsWordy text) {c : Char}
    (hword : isWord c = false) (hblank : isBlank c = false) : c ∉ text := by
  intro hc
  rcases h c hc with h | h
  · rw [hword] at h; cases h
  · rw [hblank] at h; cases h

theorem isWordy_entry (entry : WrittenEntry) : IsWordy entry.text := by
  have has : IsWordy ['a', 's'] := by simp [IsWordy]; decide
  have htype : IsWordy ['t', 'y', 'p', 'e'] := by simp [IsWordy]; decide
  cases entry with
  | plain name => exact isWordy_word name
  | renamed name before behind localName =>
    exact (isWordy_word name).append ((isWordy_blanks before.toBlanks).append
      (has.append ((isWordy_blanks behind.toBlanks).append (isWordy_word localName))))
  | type gap name =>
    exact htype.append ((isWordy_blanks gap.toBlanks).append (isWordy_word name))

theorem isWordy_item (item : WrittenItem) : IsWordy item.text :=
  (isWordy_blanks item.before).append
    ((isWordy_entry item.entry).append (isWordy_blanks item.behind))

theorem isWordy_behindCommas (names : WrittenNames) :
    ∀ piece ∈ names.behindCommas, IsWordy piece := by
  intro piece hpiece
  rcases List.mem_append.1 hpiece with h | h
  · obtain ⟨item, -, rfl⟩ := List.mem_map.1 h
    exact isWordy_item item
  · obtain ⟨blanks, -, rfl⟩ := List.mem_map.1 h
    exact isWordy_blanks blanks

/-! ## Reading entries -/

theorem trimEnd_append_blanks {text : List Char} (h : Ends isBlank text.reverse) (blanks : Blanks) :
    trimEnd (text ++ blanks.chars) = text := by
  have hblank : ∀ c ∈ blanks.chars.reverse, isBlank c = true := fun c hc =>
    blanks.blank c (List.mem_reverse.1 hc)
  rw [trimEnd, List.reverse_append, dropWhile_append_of_ends hblank h, List.reverse_reverse]

/-- Blanks around a text that neither starts nor ends with one do not count. -/
theorem trim_blanks {text : List Char} (before behind : Blanks) (hne : text ≠ [])
    (hstart : Ends isBlank text) (hend : Ends isBlank text.reverse) :
    trim (before.chars ++ (text ++ behind.chars)) = text := by
  rw [trim, trimStart, dropWhile_append_of_ends before.blank (hstart.append hne),
    trimEnd_append_blanks hend]

theorem trim_of_ends {text : List Char} (hne : text ≠ []) (hstart : Ends isBlank text)
    (hend : Ends isBlank text.reverse) : trim text = text := by
  simpa [Blanks.none] using trim_blanks .none .none hne hstart hend

theorem trim_onlyBlanks (blanks : Blanks) : trim blanks.chars = [] := by
  have h : blanks.chars.dropWhile isBlank = [] := by
    simpa using dropWhile_append_of_ends blanks.blank .nil
  rw [trim, trimStart, h]
  rfl

theorem ends_word (word : Word) : Ends isBlank word.chars := by
  simpa using word.ends_isBlank []

theorem ends_reverse_word (word : Word) (front : List Char) :
    Ends isBlank (front ++ word.chars).reverse := by
  have hreverse : word.chars.reverse ≠ [] := by simpa using word.nonempty
  rw [List.reverse_append]
  refine Ends.append (fun c hc => ?_) hreverse
  exact isBlank_of_isWord (word.word c (List.mem_reverse.1 (List.mem_of_mem_head? hc)))

/-- A text without blanks has none around it. -/
theorem trim_of_not_blank {text : List Char} (h : ∀ c ∈ text, isBlank c = false) :
    trim text = text := by
  rw [trim, trimStart, dropWhile_of_ends fun c hc => h c (List.mem_of_mem_head? hc), trimEnd,
    dropWhile_of_ends fun c hc => h c (List.mem_reverse.1 (List.mem_of_mem_head? hc)),
    List.reverse_reverse]

theorem trim_word (word : Word) : trim word.chars = word.chars :=
  trim_of_not_blank fun c hc => isBlank_of_isWord (word.word c hc)

/-- Characters that are no blanks are passed. -/
theorem cutAlias_pass {text : List Char} (h : ∀ c ∈ text, isBlank c = false)
    (before rest : List Char) :
    cutAlias before (text ++ rest) = cutAlias (text.reverse ++ before) rest := by
  induction text generalizing before with
  | nil => rfl
  | cons c text ih =>
    rw [List.cons_append, cutAlias]
    simp only [h c (by simp), Bool.false_eq_true, if_false]
    rw [ih fun d hd => h d (by simp [hd])]
    simp

theorem cutAlias_of_not_blank {text : List Char} (h : ∀ c ∈ text, isBlank c = false) :
    cutAlias [] text = (text, none) := by
  have := cutAlias_pass h [] []
  rw [List.append_nil, List.append_nil] at this
  rw [this, cutAlias, List.reverse_reverse]

theorem cutAlias_word (word : Word) : cutAlias [] word.chars = (word.chars, none) :=
  cutAlias_of_not_blank fun c hc => isBlank_of_isWord (word.word c hc)

/-- An entry is cut at an `as` between blanks. -/
theorem cutAlias_as {name localName : List Char} (hname : ∀ c ∈ name, isBlank c = false)
    (before behind : Gap) (hlocal : Ends isBlank localName) :
    cutAlias [] (name ++ (before.chars ++ (['a', 's'] ++ (behind.chars ++ localName))))
      = (name, some localName) := by
  rw [cutAlias_pass hname, List.append_nil]
  obtain ⟨⟨blanks, hblank⟩, hne⟩ := before
  cases blanks with
  | nil => exact absurd rfl hne
  | cons c blanks =>
    have hskip : skipBlanks (blanks ++ (['a', 's'] ++ (behind.chars ++ localName)))
        = ['a', 's'] ++ (behind.chars ++ localName) :=
      dropWhile_append_of_ends (fun d hd => hblank d (by simp [hd])) (.cons (by decide))
    have hmark : cutAlias.aliasMark? (blanks ++ (['a', 's'] ++ (behind.chars ++ localName)))
        = some localName := by
      unfold cutAlias.aliasMark?
      rw [hskip, after?_append]
      exact behind.blanks1?_append hlocal
    simp only [List.cons_append] at hmark ⊢
    rw [cutAlias, hblank c (by simp), if_pos rfl, hmark]
    simp

theorem cutAlias_renamed (name : Word) (before behind : Gap) (localName : Word) :
    cutAlias [] (WrittenEntry.renamed name before behind localName).text
      = (name.chars, some localName.chars) :=
  cutAlias_as (fun c hc => isBlank_of_isWord (name.word c hc)) before behind (ends_word localName)

/-- An `as` at the end, with no blank behind it, is none. -/
theorem aliasMark?_word (blanks : Blanks) (word : Word) :
    cutAlias.aliasMark? (blanks.chars ++ word.chars) = none := by
  unfold cutAlias.aliasMark?
  rw [blanks.skipBlanks_append_of_ends (ends_word word)]
  cases h : after? ['a', 's'] word.chars with
  | none => rfl
  | some rest =>
    have hends : Ends isBlank rest := by
      intro c hc
      refine isBlank_of_isWord (word.word c ?_)
      rw [after?_eq_some_iff.1 h]
      exact List.mem_append_right _ (List.mem_of_mem_head? hc)
    simp only [Option.bind_eq_bind, Option.bind_some, blanks1?, run1?_eq_none hends,
      Option.map_none]

/-- Blanks before a last word are passed. -/
theorem cutAlias_blanks_word (blanks : Blanks) (word : Word) (before : List Char) :
    cutAlias before (blanks.chars ++ word.chars)
      = (before.reverse ++ (blanks.chars ++ word.chars), none) := by
  obtain ⟨blanks, hblank⟩ := blanks
  induction blanks generalizing before with
  | nil =>
    have := cutAlias_pass (fun c hc => isBlank_of_isWord (word.word c hc)) before []
    rw [List.append_nil] at this
    rw [List.nil_append, this, cutAlias]
    simp
  | cons c blanks ih =>
    have hrest : ∀ d ∈ blanks, isBlank d = true := fun d hd => hblank d (by simp [hd])
    have hmark := aliasMark?_word ⟨blanks, hrest⟩ word
    simp only [List.cons_append] at hmark ⊢
    rw [cutAlias, hblank c (by simp), if_pos rfl, hmark]
    simp only
    rw [ih (c :: before) hrest]
    simp

theorem cutAlias_type (gap : Gap) (name : Word) :
    cutAlias [] (WrittenEntry.type gap name).text = ((WrittenEntry.type gap name).text, none) := by
  have htype : ∀ c ∈ ['t', 'y', 'p', 'e'], isBlank c = false := forall_mem_of_all (by decide)
  rw [WrittenEntry.text, cutAlias_pass htype, cutAlias_blanks_word gap.toBlanks]
  rfl

theorem entry_facts (entry : WrittenEntry) :
    entry.text ≠ [] ∧ Ends isBlank entry.text ∧ Ends isBlank entry.text.reverse := by
  cases entry with
  | plain name =>
    exact ⟨name.nonempty, ends_word name, by
      simpa [WrittenEntry.text] using ends_reverse_word name []⟩
  | renamed name before behind localName =>
    refine ⟨by simp [WrittenEntry.text], name.ends_isBlank _, ?_⟩
    simp only [WrittenEntry.text, ← List.append_assoc]
    exact ends_reverse_word localName _
  | type gap name =>
    refine ⟨by simp [WrittenEntry.text], .cons (by decide), ?_⟩
    simp only [WrittenEntry.text, ← List.append_assoc]
    exact ends_reverse_word name _

theorem ofEntry?_item (item : WrittenItem) :
    Binding.ofEntry? item.text = item.entry.binding? := by
  obtain ⟨hne, hstart, hend⟩ := entry_facts item.entry
  unfold Binding.ofEntry?
  rw [WrittenItem.text, trim_blanks item.before item.behind hne hstart hend]
  cases he : item.entry with
  | plain name =>
    simp only [WrittenEntry.text, cutAlias_word, trim_word]
    show _ = WrittenEntry.bind? name name
    unfold WrittenEntry.bind?
    cases name.chars <;> rfl
  | renamed name before behind localName =>
    simp only [cutAlias_renamed, cutAlias_word, trim_word]
    show _ = WrittenEntry.bind? name localName
    unfold WrittenEntry.bind?
    cases name.chars <;> rfl
  | type gap name =>
    rw [he] at hne hstart hend
    simp only [cutAlias_type, trim_of_ends hne hstart hend]
    rfl

/-- Blanks alone bind nothing. -/
theorem ofEntry?_blanks (blanks : Blanks) : Binding.ofEntry? blanks.chars = none := by
  unfold Binding.ofEntry?
  rw [trim_onlyBlanks]
  rfl

/-- The bindings of a written list are those of its entries, in order. -/
theorem ofNames_text (names : WrittenNames) :
    Binding.ofNames (String.ofList names.text)
      = names.items.filterMap fun item => item.entry.binding? := by
  have hcomma : ∀ {text : List Char}, IsWordy text → ',' ∉ text := fun h =>
    h.not_mem (by decide) (by decide)
  have htrailing : (names.trailing.toList.map Blanks.chars).filterMap Binding.ofEntry? = [] := by
    rw [List.filterMap_map, List.filterMap_eq_nil_iff]
    exact fun blanks _ => ofEntry?_blanks blanks
  have hitems : ∀ items : List WrittenItem, (items.map WrittenItem.text).filterMap Binding.ofEntry?
      = items.filterMap fun item => item.entry.binding? := by
    intro items
    rw [List.filterMap_map]
    exact congrArg (fun read => items.filterMap read) (funext ofEntry?_item)
  have hcut : cutAt ',' names.text
      = names.items.map WrittenItem.text ++ names.trailing.toList.map Blanks.chars := by
    rw [WrittenNames.text, cutAt_pieces (hcomma (isWordy_item names.first))
      fun piece hpiece => hcomma (isWordy_behindCommas names piece hpiece)]
    rfl
  rw [Binding.ofNames, String.toList_ofList, hcut, List.filterMap_append, htrailing,
    List.append_nil, hitems]

end UsageCensus.Source
