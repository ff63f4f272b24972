import UsageCensus.Proofs.Source.ImportDocuments
import UsageCensus.Proofs.Source.ImportedNames
import UsageCensus.Proofs.Source.TagSpans
import UsageCensus.Proofs.Source.WrittenTags

/-!
# Tags of renamed components

An import gives a component another name, and behind it stands one tag of that name. The tag is
the one instance of the file, with the component's own name, if the new name ends with a word
character (`instances_renamed`). A name that ends with a dollar sign is imported and never found:
no word ends between the dollar sign and the blank behind it.

What stands in a tag may read as a second import, if the new name ends with `import`. Its names
are then tried at the tag too. None of them begins with the name of the tag, since this one holds
an `import` and the body of the tag holds none, so the name of the tag is the first that fits
(`IsLeading`).
-/

namespace UsageCensus.Source

open UsageCensus.Text

/-- A name that a component goes by in a file: word characters and dollar signs. -/
structure Alias where
  chars : List Char
  nonempty : chars ≠ []
  allowed : ∀ c ∈ chars, isWord c = true ∨ c = '$'

def Alias.last (name : Alias) : Char := name.chars.getLast name.nonempty

def IsEnclosed (body : List Char) : Prop :=
  ∀ front, front ++ ['>'] <+: body → front.count '}' < front.count '{'

instance (body : List Char) : Decidable (IsEnclosed body) :=
  decidable_of_iff (∀ front ∈ body.inits, front ++ ['>'] <+: body →
      front.count '}' < front.count '{') (by
    simp only [List.mem_inits, IsEnclosed]
    exact ⟨fun h front hfront => h front ((List.prefix_append front ['>']).trans hfront) hfront,
      fun h front _ => h front⟩)

/-- The import of one component by another name, and a tag of that name on the next line. -/
structure RenamedTag where
  component : Word
  capital : component.chars.head?.any isAsciiUpper = true
  localName : Alias
  source : List Char
  source_ne_nil : source ≠ []
  source_plain : ∀ c ∈ source, isQuote c = false ∧ c ≠ '<' ∧ c ≠ '\n'
  body : List Char
  blank_first : body.head?.any isBlank = true
  balanced : IsBalanced body
  enclosed : IsEnclosed body
  untagged : '<' ∉ body
  not_imported : ¬['i', 'm', 'p', 'o', 'r', 't'] <:+: body

namespace RenamedTag

def entry (tag : RenamedTag) : List Char :=
  tag.component.chars ++ ([' '] ++ (['a', 's'] ++ ([' '] ++ tag.localName.chars)))

def names (tag : RenamedTag) : List Char := [' '] ++ (tag.entry ++ [' '])

def statement (tag : RenamedTag) : List Char :=
  ['i', 'm', 'p', 'o', 'r', 't'] ++ ([' '] ++ '{' :: (tag.names ++ '}' ::
    ([' '] ++ (['f', 'r', 'o', 'm'] ++ ([' '] ++ '\'' :: (tag.source ++ ['\'']))))))

def tagText (tag : RenamedTag) : List Char := tag.localName.chars ++ (tag.body ++ ['>'])

def text (tag : RenamedTag) : List Char := tag.statement ++ '\n' :: '<' :: tag.tagText

/-- The tag as an instance of its component. -/
def reported (tag : RenamedTag) : Instance where
  component := String.ofList tag.component.chars
  attributes := Attribute.parse tag.body
  line := 2
  start := tag.statement.length + 1
  bodyStart := tag.statement.length + 2 + tag.localName.chars.length
  stop := tag.statement.length + 2 + tag.localName.chars.length + tag.body.length

end RenamedTag

/-! ## Characters of the document -/

namespace Alias

variable (name : Alias)

theorem not_mem {c : Char} (hword : isWord c = false) (hdollar : c ≠ '$') : c ∉ name.chars := by
  intro hc
  rcases name.allowed c hc with h | h
  · rw [hword] at h
    cases h
  · exact hdollar h

theorem not_blank : ∀ c ∈ name.chars, isBlank c = false := by
  intro c hc
  rcases name.allowed c hc with h | rfl
  · exact isBlank_of_isWord h
  · decide

theorem getLastD_chars (c : Char) : name.chars.getLastD c = name.last := by
  rw [List.getLastD_eq_getLast?, List.getLast?_eq_some_getLast name.nonempty]
  rfl

end Alias

namespace RenamedTag

variable (tag : RenamedTag)

theorem exists_body : ∃ c others, tag.body = c :: others ∧ isBlank c = true := by
  have h := tag.blank_first
  cases hbody : tag.body with
  | nil => rw [hbody] at h; cases h
  | cons c others => rw [hbody] at h; exact ⟨c, others, rfl, h⟩

theorem not_mem_names {c : Char} (hword : isWord c = false) (hdollar : c ≠ '$') (hblank : c ≠ ' ') :
    c ∉ tag.names := by
  have hcomponent : c ∉ tag.component.chars := fun hc => by
    have h := tag.component.word c hc
    rw [hword] at h
    cases h
  have has : c ≠ 'a' ∧ c ≠ 's' := by
    constructor <;> (rintro rfl; exact absurd hword (by decide))
  simp [names, entry, hcomponent, tag.localName.not_mem hword hdollar, hblank, has]

theorem not_mem_statement {c : Char} (hword : isWord c = false) (hdollar : c ≠ '$')
    (hblank : c ≠ ' ') (hopen : c ≠ '{') (hclose : c ≠ '}') (hquote : c ≠ '\'')
    (hsource : c ∉ tag.source) : c ∉ tag.statement := by
  have hletters : ∀ d ∈ ['i', 'm', 'p', 'o', 'r', 't', 'f'], c ≠ d := by
    rintro d hd rfl
    have h := forall_mem_of_all (p := fun c => isWord c = true) (by decide) c hd
    rw [hword] at h
    cases h
  simp only [List.forall_mem_cons] at hletters
  simp [statement, tag.not_mem_names hword hdollar hblank, hblank, hopen, hclose, hquote, hsource,
    hletters]

theorem untagged_statement : '<' ∉ tag.statement ++ ['\n'] := by
  have h := tag.not_mem_statement (c := '<') (by decide) (by decide) (by decide) (by decide)
    (by decide) (by decide) fun hc => (tag.source_plain '<' hc).2.1 rfl
  simp [h]

theorem count_statement : tag.statement.count '\n' = 0 :=
  List.count_eq_zero.2 (tag.not_mem_statement (by decide) (by decide) (by decide) (by decide)
    (by decide) (by decide) fun hc => (tag.source_plain '\n' hc).2.2 rfl)

theorem not_imported_behind : ¬['i', 'm', 'p', 'o', 'r', 't'] <:+: tag.body ++ ['>'] := by
  rw [List.infix_concat_iff, List.suffix_concat_iff]
  rintro ((h | ⟨front, h, -⟩) | h)
  · cases h
  · have hmem : '>' ∈ ['i', 'm', 'p', 'o', 'r', 't'] := by simp [h]
    exact absurd hmem (by decide)
  · exact tag.not_imported h

/-! ## The import -/

theorem read?_statement (rest : List Char) :
    Import.read? (tag.statement ++ rest)
      = some ((.named (String.ofList tag.names), String.ofList tag.source), rest) := by
  have htext : tag.statement ++ rest = ['i', 'm', 'p', 'o', 'r', 't'] ++ (Gap.single.chars ++
      '{' :: (tag.names ++ '}' :: (Gap.single.chars ++ (['f', 'r', 'o', 'm'] ++
        (Gap.single.chars ++ '\'' :: (tag.source ++ '\'' :: rest)))))) := by
    simp [statement, Gap.single]
  have hbrace : '}' ∉ tag.names := tag.not_mem_names (by decide) (by decide) (by decide)
  have hclause : ∀ text, clause? ('{' :: (tag.names ++ '}' :: text))
      = some (.named (String.ofList tag.names), text) := by
    intro text
    rw [clause?, braced?_append hbrace]
    rfl
  unfold Import.read?
  rw [htext, importWord?_append Gap.single (.cons (by decide))]
  simp only [Option.bind_eq_bind, Option.bind_some, hclause]
  rw [fromSource?_append Gap.single Gap.single (by decide) tag.source_ne_nil
    fun c hc => (tag.source_plain c hc).1]
  rfl

theorem ofNames_names :
    Binding.ofNames (String.ofList tag.names)
      = [⟨String.ofList tag.component.chars, String.ofList tag.localName.chars⟩] := by
  have hword : ∀ c ∈ tag.component.chars, isBlank c = false := fun c hc =>
    isBlank_of_isWord (tag.component.word c hc)
  have hlocal : Ends isBlank tag.localName.chars := fun c hc =>
    tag.localName.not_blank c (List.mem_of_mem_head? hc)
  have hback : Ends isBlank tag.entry.reverse := by
    have hfront : tag.localName.chars.reverse ≠ [] := by simpa using tag.localName.nonempty
    have hreverse : Ends isBlank tag.localName.chars.reverse := fun c hc =>
      tag.localName.not_blank c (List.mem_reverse.1 (List.mem_of_mem_head? hc))
    simp only [entry, List.reverse_append, List.append_assoc]
    exact hreverse.append hfront
  have htrim : trim tag.names = tag.entry :=
    trim_blanks Gap.single.toBlanks Gap.single.toBlanks (by simp [entry])
      (tag.component.ends_isBlank _) hback
  have hcut : cutAlias [] tag.entry = (tag.component.chars, some tag.localName.chars) :=
    cutAlias_as hword Gap.single Gap.single hlocal
  have hentry : Binding.ofEntry? tag.names
      = some ⟨String.ofList tag.component.chars, String.ofList tag.localName.chars⟩ := by
    unfold Binding.ofEntry?
    simp only [htrim, hcut, cutAlias_of_not_blank tag.localName.not_blank,
      trim_of_not_blank hword, trim_of_not_blank tag.localName.not_blank]
    have hcapital := tag.capital
    cases hchars : tag.component.chars with
    | nil => exact absurd hchars tag.component.nonempty
    | cons c others =>
      rw [hchars] at hcapital
      exact if_pos hcapital
  rw [Binding.ofNames, String.toList_ofList,
    cutAt_of_not_mem (tag.not_mem_names (by decide) (by decide) (by decide)), List.filterMap_cons,
    hentry]
  rfl

end RenamedTag

/-! ## What the tag may read as -/

theorem isInfix_of_clause? {text rest : List Char} {list : String}
    (h : clause? text = some (.named list, rest)) : list.toList <:+: text := by
  unfold clause? at h
  split at h
  · cases h
  · rename_i names rest' _ hbraced
    cases h
    rw [String.toList_ofList]
    unfold braced? at hbraced
    split at hbraced
    · simp only [run] at hbraced
      split at hbraced
      · cases hbraced
        exact List.infix_cons (List.takeWhile_prefix _).isInfix
      · cases hbraced
    · cases hbraced
  · obtain ⟨_, -, hname⟩ := Option.map_eq_some_iff.1 h
    cases hname

/-- A statement starts with the word `import` and a blank, and its list of names stands behind. -/
theorem exists_of_read? {text rest : List Char} {reading : ImportClause × String}
    (h : Import.read? text = some (reading, rest)) :
    ∃ c behind, text = ['i', 'm', 'p', 'o', 'r', 't'] ++ c :: behind ∧ isBlank c = true ∧
      ∀ list, reading.1 = .named list → list.toList <:+: c :: behind := by
  simp only [Import.read?, importWord?, Option.bind_eq_bind, Option.bind_eq_some_iff] at h
  obtain ⟨behind, ⟨blanks, hword, hblanks⟩, ⟨clause, text2⟩, hclause, _, -, hreading⟩ := h
  cases hreading
  obtain ⟨⟨gap, behind⟩, hrun, rfl⟩ := Option.map_eq_some_iff.1 hblanks
  obtain ⟨rfl, hne⟩ := run1?_eq_some hrun
  obtain ⟨c, gap, rfl⟩ := List.exists_cons_of_ne_nil hne
  refine ⟨c, gap ++ behind, after?_eq_some_iff.1 hword,
    forall_of_run1? hrun c List.mem_cons_self, fun list hlist => ?_⟩
  obtain rfl : clause = .named list := hlist
  exact (isInfix_of_clause? hclause).trans (List.suffix_append (c :: gap) behind).isInfix

/-- Where a word without blanks is followed by a blank, behind a name without blanks, the word ends
the name, if it does not stand behind the name. -/
theorem name_eq_append {name body front word rest : List Char} {b c : Char}
    (hname : ∀ d ∈ name, isBlank d = false) (hword : ∀ d ∈ word, isBlank d = false)
    (hb : isBlank b = true) (hc : isBlank c = true) (hbody : ¬word <:+: b :: body)
    (h : name ++ b :: body = (front ++ word) ++ c :: rest) :
    name = front ++ word ∧ b :: body = c :: rest := by
  rcases List.append_eq_append_iff.1 h with ⟨others, hfront, hbehind⟩ | ⟨others, hfront, hbehind⟩
  · cases others with
    | nil => exact ⟨by simpa using hfront.symm, hbehind⟩
    | cons d others =>
      obtain ⟨rfl, -⟩ := List.cons.inj hbehind
      -- the word would stand behind the blank, or hold it
      rcases List.append_eq_append_iff.1 hfront with ⟨_, -, hsplit⟩ | ⟨before, -, hsplit⟩
      · have hmem : b ∈ word := by simp [hsplit]
        rw [hword b hmem] at hb
        cases hb
      · refine absurd ?_ hbody
        rw [hbehind, hsplit]
        exact ⟨before, c :: rest, rfl⟩
  · cases others with
    | nil => exact ⟨by simpa using hfront, hbehind.symm⟩
    | cons d others =>
      obtain ⟨rfl, -⟩ := List.cons.inj hbehind
      have hmem : c ∈ name := by simp [hfront]
      rw [hname c hmem] at hc
      cases hc

/-- What reads as an import in a tag is the end of its name, and the names are those of its body. -/
theorem RenamedTag.import_in_tag (tag : RenamedTag) {at_ : Nat}
    {f : Found (ImportClause × String)} (h : f ∈ found Import.read? at_ tag.tagText) :
    ['i', 'm', 'p', 'o', 'r', 't'] <:+ tag.localName.chars ∧
      ∀ list, f.value.1 = .named list → list.toList <:+: tag.body ++ ['>'] := by
  obtain ⟨_, i, rest, -, hread, -⟩ := exists_read_of_mem h
  obtain ⟨c, behind, htext, hc, hlist⟩ := exists_of_read? hread
  obtain ⟨b, body, hbody, hb⟩ := tag.exists_body
  have hno := tag.not_imported_behind
  have hsplit : tag.localName.chars ++ b :: (body ++ ['>'])
      = (tag.tagText.take i ++ ['i', 'm', 'p', 'o', 'r', 't']) ++ c :: behind := by
    rw [List.append_assoc, ← htext, List.take_append_drop, tagText, hbody, List.cons_append]
  rw [hbody, List.cons_append] at hno ⊢
  obtain ⟨hname, hbehind⟩ := name_eq_append tag.localName.not_blank
    (forall_mem_of_all (by decide)) hb hc hno hsplit
  rw [hbehind]
  exact ⟨⟨_, hname.symm⟩, hlist⟩

/-! ## The names of the file -/

/-- A name stands for its component, and no other name of the table begins with it. -/
structure IsLeading (names : Table String String) (localName exported : String) : Prop where
  stands : names.get? localName = some exported
  longest : ∀ other ∈ names.keys, localName.toList <+: other.toList → other = localName

namespace IsLeading

variable {names : Table String String} {localName exported : String}

theorem single (localName exported : String) :
    IsLeading (Table.empty.insert localName exported) localName exported where
  stands := by
    rw [Table.insert, Table.get?_update, if_pos rfl]
  longest := by
    intro other hother _
    exact (Table.mem_keys_update.1 hother).resolve_left (by simp [Table.keys, Table.empty])

theorem insert (h : IsLeading names localName exported) {other : String}
    (hother : ¬localName.toList <+: other.toList) (value : String) :
    IsLeading (names.insert other value) localName exported where
  stands := by
    have hne : localName ≠ other := by
      rintro rfl
      exact hother List.prefix_rfl
    rw [Table.insert, Table.get?_update, if_neg hne, h.stands]
  longest := by
    intro key hkey hprefix
    rcases Table.mem_keys_update.1 hkey with hkey | rfl
    · exact h.longest key hkey hprefix
    · exact absurd hprefix hother

/-- A list of names that come from a text without `import` takes nothing from a name with one. -/
theorem bindReading (h : IsLeading names localName exported) (tracked : Tracked)
    {reading : ImportClause × String} {text : List Char}
    (hname : ['i', 'm', 'p', 'o', 'r', 't'] <:+: localName.toList)
    (htext : ¬['i', 'm', 'p', 'o', 'r', 't'] <:+: text)
    (hlist : ∀ list, reading.1 = .named list → list.toList <:+: text) :
    IsLeading (bindReading tracked names reading) localName exported := by
  unfold Source.bindReading
  split
  · exact h
  · rename_i list hclause
    split
    · refine List.foldlRecOn (motive := fun names => IsLeading names localName exported) _ _ h ?_
      intro names hnames binding hbinding
      obtain ⟨entry, hentry, hbinding⟩ := List.mem_filterMap.1 hbinding
      have hlocal : binding.localName.toList <:+: text :=
        (isInfix_of_binding hbinding).trans
          ((isInfix_of_mem_cutAt hentry).trans (hlist list hclause))
      split
      · exact hnames.insert (fun hstart => htext (hname.trans (hstart.isInfix.trans hlocal))) _
      · exact hnames
    · exact h

end IsLeading

namespace RenamedTag

variable (tag : RenamedTag) {tracked : Tracked}

theorem resolveImports_text (hsource : tracked.hasSource (String.ofList tag.source) = true)
    (hcomponent : tracked.hasComponent (String.ofList tag.component.chars) = true) :
    resolveImports tag.text tracked
      = ((found Import.read? (tag.statement.length + 2) tag.tagText).map Found.value).foldl
        (bindReading tracked) (Table.empty.insert (String.ofList tag.localName.chars)
          (String.ofList tag.component.chars)) := by
  have hne : tag.statement ≠ [] := by simp [statement]
  have hfirst : bindReading tracked .empty
      (.named (String.ofList tag.names), String.ofList tag.source)
        = Table.empty.insert (String.ofList tag.localName.chars)
          (String.ofList tag.component.chars) := by
    simp only [bindReading, hsource, if_true, ofNames_names, List.foldl_cons, List.foldl_nil,
      hcomponent]
  rw [resolveImports_eq_foldl, search_forward, text, found_of_read (tag.read?_statement _) hne,
    found_cons_of_none (read?_of_ne (by decide) _), found_cons_of_none (read?_of_ne (by decide) _),
    List.map_cons, List.foldl_cons, hfirst, Nat.zero_add]

theorem isLeading (hsource : tracked.hasSource (String.ofList tag.source) = true)
    (hcomponent : tracked.hasComponent (String.ofList tag.component.chars) = true) :
    IsLeading (resolveImports tag.text tracked) (String.ofList tag.localName.chars)
      (String.ofList tag.component.chars) := by
  rw [tag.resolveImports_text hsource hcomponent, List.foldl_map]
  refine List.foldlRecOn (motive := fun names => IsLeading names (String.ofList tag.localName.chars)
    (String.ofList tag.component.chars)) _ _ (.single _ _) ?_
  intro names hnames f hf
  obtain ⟨hname, hlist⟩ := tag.import_in_tag hf
  refine hnames.bindReading tracked ?_ tag.not_imported_behind hlist
  rw [String.toList_ofList]
  exact hname.isInfix

theorem resolveImports_of_dollar (hsource : tracked.hasSource (String.ofList tag.source) = true)
    (hcomponent : tracked.hasComponent (String.ofList tag.component.chars) = true)
    (hlast : isWord tag.localName.last = false) :
    resolveImports tag.text tracked = Table.empty.insert (String.ofList tag.localName.chars)
      (String.ofList tag.component.chars) := by
  have hnone : found Import.read? (tag.statement.length + 2) tag.tagText = [] := by
    refine List.eq_nil_iff_forall_not_mem.2 fun f hf => ?_
    obtain ⟨⟨front, hname⟩, -⟩ := tag.import_in_tag hf
    have hend := tag.localName.getLastD_chars ' '
    have hletter : ['i', 'm', 'p', 'o', 'r', 't'].getLast? = some 't' := rfl
    rw [← hname, List.getLastD_eq_getLast?, List.getLast?_append, hletter, Option.some_or,
      Option.getD_some] at hend
    rw [← hend] at hlast
    exact absurd hlast (by decide)
  rw [tag.resolveImports_text hsource hcomponent, hnone]
  rfl

/-! ## The tag -/

theorem text_eq_line : tag.text = (tag.statement ++ ['\n']) ++ '<' :: tag.tagText := by
  simp [text]

theorem text_eq_body : tag.text = (tag.statement ++ '\n' :: '<' :: tag.localName.chars)
    ++ (tag.body ++ ['>']) := by
  simp [text, tagText]

theorem length_before_body : (tag.statement ++ '\n' :: '<' :: tag.localName.chars).length
    = tag.statement.length + 2 + tag.localName.chars.length := by
  simp only [List.length_append, List.length_cons]
  omega

theorem tagEnd?_text :
    tagEnd? tag.text (tag.statement.length + 2 + tag.localName.chars.length)
      = some tag.reported.stop := by
  have hcloses : Closes 0 (tag.body ++ ['>']) tag.body.length := by
    refine ⟨by simp, ?_⟩
    rw [List.take_left, Int.zero_add, tag.balanced.2]
  have hbefore : ∀ j < tag.body.length, ¬Closes 0 (tag.body ++ ['>']) j := by
    rintro j hj ⟨hangle, hcount⟩
    rw [List.take_append_of_le_length hj.le, Int.zero_add, Int.natCast_inj] at hcount
    rw [List.getElem?_append_left hj] at hangle
    have hprefix : tag.body.take j ++ ['>'] <+: tag.body := by
      have htake : tag.body.take (j + 1) = tag.body.take j ++ ['>'] := by
        rw [List.take_add_one, hangle]
        rfl
      rw [← htake]
      exact List.take_prefix _ _
    have hlt := tag.enclosed _ hprefix
    omega
  rw [tagEnd?, text_eq_body, ← length_before_body, List.drop_left, closingAngle_eq_some_iff]
  exact ⟨tag.body.length, by rw [length_before_body]; rfl, hcloses, hbefore⟩

theorem wordBoundary_body : wordBoundary (tag.localName.chars.getLastD '<') (tag.body ++ ['>'])
    = isWord tag.localName.last := by
  obtain ⟨c, others, hbody, hc⟩ := tag.exists_body
  rw [wordBoundary, hbody, List.cons_append, List.head?_cons, Option.any_some,
    isWord_of_isBlank hc, tag.localName.getLastD_chars, Bool.bne_false]

theorem found_text {names : List (List Char)} :
    found (tagName? names) 0 tag.text
      = found (tagName? names) (tag.statement.length + 1) ('<' :: tag.tagText) := by
  rw [text_eq_line, found_of_silent (silent_tagName? tag.untagged_statement _), Nat.zero_add,
    List.length_append]
  rfl

theorem silent_behind {names : List (List Char)} (at_ : Nat) :
    found (tagName? names) at_ (tag.body ++ ['>']) = [] := by
  refine found_of_silent_nil (silent_tagName? ?_ [])
  simp [tag.untagged]

/-- The tag is found where its name is the first that fits. -/
theorem scanInstances_of_isLeading {imports : Table String String}
    (himports : IsLeading imports (String.ofList tag.localName.chars)
      (String.ofList tag.component.chars))
    (hlast : isWord tag.localName.last = true) :
    scanInstances tag.text imports = [tag.reported] := by
  have hmem : String.ofList tag.localName.chars ∈ imports.keys := by
    by_contra hnot
    have hstands := himports.stands
    rw [Table.get?_eq_none_iff.2 hnot] at hstands
    cases hstands
  have hread : tagName? ((searchOrder imports.keys).map String.toList)
      (('<' :: tag.localName.chars) ++ (tag.body ++ ['>']))
        = some (String.ofList tag.localName.chars, tag.body ++ ['>']) := by
    have hboundary : wordBoundary ((String.ofList tag.localName.chars).toList.getLastD '<')
        (tag.body ++ ['>']) = true := by
      rw [String.toList_ofList, tag.wordBoundary_body, hlast]
    have hfirst := tagName?_of_longest hmem himports.longest hboundary
    rwa [String.toList_ofList] at hfirst
  have hstop : tag.statement.length + 1 + ('<' :: tag.localName.chars).length
      = tag.statement.length + 2 + tag.localName.chars.length := by
    rw [List.length_cons]
    omega
  have hcomponent : imports.getD (String.ofList tag.localName.chars)
      (String.ofList tag.localName.chars) = String.ofList tag.component.chars := by
    rw [Table.getD, himports.stands, Option.getD_some]
  have hdrop : tag.text.drop (tag.statement.length + 2 + tag.localName.chars.length)
      = tag.body ++ ['>'] := by
    rw [text_eq_body, List.drop_left' tag.length_before_body]
  have hline : (LineIndex.ofText tag.text).lineAt (tag.statement.length + 1 : Nat) = 2 := by
    rw [LineIndex.lineAt_ofText, lineNumber, Int.toNat_natCast, text_eq_line,
      List.take_left' (by simp), List.count_append, tag.count_statement]
    rfl
  rw [scanInstances_eq, tag.found_text]
  show instancesAt _ _ (found _ _ (('<' :: tag.localName.chars) ++ (tag.body ++ ['>']))) = _
  rw [found_of_read hread (by simp), tag.silent_behind, instancesAt, List.filterMap_cons]
  simp only [hstop, tag.tagEnd?_text, Option.map_some, List.filterMap_nil, List.map_cons,
    List.map_nil, hcomponent, Instance.ofSpan, TagSpan.bodyLength, hdrop, hline]
  simp [reported]

theorem scanInstances_of_dollar (hlast : isWord tag.localName.last = false) (exported : String) :
    scanInstances tag.text (Table.empty.insert (String.ofList tag.localName.chars) exported)
      = [] := by
  have hread : tagName? ((searchOrder
      (Table.empty.insert (String.ofList tag.localName.chars) exported).keys).map String.toList)
        ('<' :: tag.tagText) = none := by
    refine Option.eq_none_iff_forall_ne_some.2 ?_
    rintro ⟨found, rest⟩ hfound
    obtain ⟨sought, hsought, -, htext, hboundary⟩ := boundary_of_tagName? hfound
    obtain ⟨name, hname, rfl⟩ := List.mem_map.1 hsought
    obtain rfl : name = String.ofList tag.localName.chars :=
      (Table.mem_keys_update.1 (mem_searchOrder.1 hname)).resolve_left
        (by simp [Table.keys, Table.empty])
    rw [String.toList_ofList] at htext hboundary
    rw [← List.append_cancel_left (List.cons.inj htext).2, tag.wordBoundary_body, hlast]
      at hboundary
    cases hboundary
  have hname : '<' ∉ tag.tagText := by
    have hlocal := tag.localName.not_mem (c := '<') (by decide) (by decide)
    simp [tagText, hlocal, tag.untagged]
  rw [scanInstances_eq, tag.found_text, found_cons_of_none hread,
    found_of_silent_nil (silent_tagName? hname [])]
  rfl

/-- The tag of a renamed component is the one instance of its file, with the component's own name
and the attributes of its body, if the name ends with a word character; the tag of a name that ends
with a dollar sign is missed. -/
theorem instances_renamed (hsource : tracked.hasSource (String.ofList tag.source) = true)
    (hcomponent : tracked.hasComponent (String.ofList tag.component.chars) = true) :
    (FileScan.ofText tag.text tracked).instances
      = if isWord tag.localName.last = true then [tag.reported] else [] := by
  show scanInstances tag.text (resolveImports tag.text tracked) = _
  cases hlast : isWord tag.localName.last with
  | true =>
    exact tag.scanInstances_of_isLeading (tag.isLeading hsource hcomponent) hlast
  | false =>
    rw [tag.resolveImports_of_dollar hsource hcomponent hlast]
    exact tag.scanInstances_of_dollar hlast _

def cardsRows : Tracked := .ofLists ["ui"] [] ["Card", "Row"] "UI"

/-- A tag that reads as an import of rows. -/
def reimported : RenamedTag where
  component := ⟨"Card".toList, forall_mem_of_all (by decide), by decide⟩
  capital := by decide
  localName := ⟨"$reimport".toList, by decide, forall_mem_of_all (by decide)⟩
  source := "ui".toList
  source_ne_nil := by decide
  source_plain := forall_mem_of_all (by decide)
  body := " \x7bRow as $re\x7d from 'ui' on=\x7ba => b\x7d".toList
  blank_first := by decide
  balanced := by decide
  enclosed := by decide
  untagged := by decide
  not_imported := by decide

theorem instances_reimported :
    cardsRows.hasSource "ui" = true ∧ cardsRows.hasComponent "Card" = true ∧
    reimported.text = ("import \x7b Card as $reimport \x7d from 'ui'\n"
      ++ "<$reimport \x7bRow as $re\x7d from 'ui' on=\x7ba => b\x7d>").toList ∧
    (resolveImports reimported.text cardsRows).entries = [("$reimport", "Card"), ("$re", "Row")] ∧
    (FileScan.ofText reimported.text cardsRows).instances
      = [⟨"Card", [⟨"from", "true"⟩, ⟨"ui", "true"⟩, ⟨"on", "a => b"⟩], 2, 39, 49, 84⟩] := by
  have hsource : cardsRows.hasSource "ui" = true := by decide +kernel
  have hcomponent : cardsRows.hasComponent "Card" = true := by decide +kernel
  refine ⟨hsource, hcomponent, by decide +kernel, by decide +kernel, ?_⟩
  have hattributes : Attribute.parse reimported.body
      = [⟨"from", "true"⟩, ⟨"ui", "true"⟩, ⟨"on", "a => b"⟩] := by
    have hspread : Attribute.step? reimported.body
        = some (none, " from 'ui' on=\x7ba => b\x7d".toList) := by decide +kernel
    have hfrom : Attribute.step? " from 'ui' on=\x7ba => b\x7d".toList
        = some (some ⟨"from", "true"⟩, "'ui' on=\x7ba => b\x7d".toList) := by decide +kernel
    have hquote : Attribute.step? "'ui' on=\x7ba => b\x7d".toList
        = some (none, "ui' on=\x7ba => b\x7d".toList) := by decide +kernel
    have hui : Attribute.step? "ui' on=\x7ba => b\x7d".toList
        = some (some ⟨"ui", "true"⟩, "' on=\x7ba => b\x7d".toList) := by decide +kernel
    have hquote' : Attribute.step? "' on=\x7ba => b\x7d".toList
        = some (none, " on=\x7ba => b\x7d".toList) := by decide +kernel
    have hon : Attribute.step? " on=\x7ba => b\x7d".toList = some (some ⟨"on", "a => b"⟩, []) := by
      decide +kernel
    rw [parse_of_step?_some hspread, parse_of_step?_some hfrom, parse_of_step?_some hquote,
      parse_of_step?_some hui, parse_of_step?_some hquote', parse_of_step?_some hon,
      parse_of_step?_none rfl]
    rfl
  rw [reimported.instances_renamed hsource hcomponent, if_pos (by decide +kernel),
    RenamedTag.reported, hattributes]
  decide +kernel

def dollarCard : RenamedTag where
  component := ⟨"Card".toList, forall_mem_of_all (by decide), by decide⟩
  capital := by decide
  localName := ⟨"C$".toList, by decide, forall_mem_of_all (by decide)⟩
  source := "ui".toList
  source_ne_nil := by decide
  source_plain := forall_mem_of_all (by decide)
  body := " a/".toList
  blank_first := by decide
  balanced := by decide
  enclosed := by decide
  untagged := by decide
  not_imported := by decide

/-- The name is imported, and its tag is no instance. -/
theorem dollarCard_missed :
    dollarCard.text = "import \x7b Card as C$ \x7d from 'ui'\n<C$ a/>".toList ∧
    (FileScan.ofText dollarCard.text cardsRows).imports.entries = [("C$", "Card")] ∧
    (FileScan.ofText dollarCard.text cardsRows).instances = [] := by
  refine ⟨?_, ?_, ?_⟩ <;> decide +kernel

end RenamedTag

end UsageCensus.Source
