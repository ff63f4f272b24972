import Mathlib.Data.List.DropRight
import UsageCensus.Proofs.Tables
import UsageCensus.Proofs.Text.Reading
import UsageCensus.Proofs.Text.Searching
import UsageCensus.Source.Scan

/-!
# Names that a file imports

What can be said of the names that a file imports, whatever stands in the file. An entry of a list
of names is cut at commas, trimmed, and cut again at an `as`; so a local name is never empty, has
no blanks around it, and holds neither a comma nor the brace that ends the list (`IsLocalName`). The
exported name starts with an ASCII capital and is a tracked component (`isImport_of_mem`).
-/

namespace UsageCensus.Text

variable {p : Char → Bool} {c : Char} {text rest : List Char}

theorem Ends.of_front {front : List Char} (h : Ends p text) (hfront : front <+: text) :
    Ends p front := by
  obtain ⟨behind, rfl⟩ := hfront
  cases front with
  | nil => exact .nil
  | cons c front => exact .cons h.head

theorem mem_dropWhile (hc : c ∈ text) (h : p c = false) : c ∈ text.dropWhile p := by
  rw [← List.takeWhile_append_dropWhile (p := p) (l := text), List.mem_append] at hc
  rcases hc with hc | hc
  · rw [List.mem_takeWhile_imp hc] at h
    cases h
  · exact hc

/-! ## Trimming -/

/-- No blank stands at either end of the text. -/
structure IsTrimmed (text : List Char) : Prop where
  front : Ends isBlank text
  back : Ends isBlank text.reverse

theorem trim_isPrefix (text : List Char) : trim text <+: trimStart text :=
  List.rdropWhile_prefix isBlank (trimStart text)

theorem trim_isInfix (text : List Char) : trim text <:+: text :=
  (trim_isPrefix text).isInfix.trans (List.dropWhile_suffix isBlank).isInfix

theorem isTrimmed_trim (text : List Char) : IsTrimmed (trim text) where
  front := (ends_dropWhile isBlank text).of_front (trim_isPrefix text)
  back := by
    rw [trim, trimEnd, List.reverse_reverse]
    exact ends_dropWhile isBlank _

/-- Trimming takes nothing but blanks. -/
theorem mem_trim (hc : c ∈ text) (h : isBlank c = false) : c ∈ trim text := by
  rw [trim, trimEnd, List.mem_reverse]
  exact mem_dropWhile (List.mem_reverse.2 (mem_dropWhile hc h)) h

/-! ## Cutting -/

/-- The first piece stands at the start of the text, and every other one somewhere in it. -/
theorem cutAt_eq_cons {sep : Char} {piece : List Char} {pieces : List (List Char)}
    (h : cutAt sep text = piece :: pieces) : piece <+: text ∧ ∀ p ∈ pieces, p <:+: text := by
  induction text generalizing piece pieces with
  | nil =>
    cases h
    exact ⟨List.nil_prefix, fun p hp => by cases hp⟩
  | cons c text ih =>
    cases hcut : cutAt sep text with
    | nil => exact absurd hcut (cutAt_ne_nil sep text)
    | cons first others =>
      obtain ⟨hfirst, hothers⟩ := ih hcut
      rw [cutAt, hcut] at h
      split at h
      · cases h
        refine ⟨List.nil_prefix, fun p hp => List.infix_cons ?_⟩
        rcases List.mem_cons.1 hp with rfl | hp
        · exact hfirst.isInfix
        · exact hothers p hp
      · cases h
        exact ⟨List.cons_prefix_cons.2 ⟨rfl, hfirst⟩, fun p hp => List.infix_cons (hothers p hp)⟩

theorem isInfix_of_mem_cutAt {sep : Char} {piece : List Char} (h : piece ∈ cutAt sep text) :
    piece <:+: text := by
  cases hcut : cutAt sep text with
  | nil => exact absurd hcut (cutAt_ne_nil sep text)
  | cons first others =>
    obtain ⟨hfirst, hothers⟩ := cutAt_eq_cons hcut
    rw [hcut] at h
    rcases List.mem_cons.1 h with rfl | h
    · exact hfirst.isInfix
    · exact hothers piece h

/-- What stands behind blanks has a blank before it and none at its start. -/
theorem blanks1?_spec (h : blanks1? text = some rest) :
    Ends isBlank rest ∧ ∃ front c, isBlank c = true ∧ text = front ++ c :: rest := by
  obtain ⟨⟨blanks, _⟩, hrun, rfl⟩ := Option.map_eq_some_iff.1 h
  obtain ⟨htext, hne⟩ := run1?_eq_some hrun
  unfold run1? at hrun
  split at hrun
  · cases hrun
  · rename_i d ds htake
    cases hrun
    refine ⟨ends_dropWhile isBlank text, ?_⟩
    obtain ⟨front, c, hblanks⟩ := (List.eq_nil_or_concat' (d :: ds)).resolve_left hne
    refine ⟨front, c, ?_, ?_⟩
    · apply List.mem_takeWhile_imp (l := text)
      rw [htake, hblanks]
      simp
    · rw [hblanks, List.append_assoc] at htext
      exact htext

end UsageCensus.Text

namespace UsageCensus.Source

open UsageCensus.Text

/-! ## Entries -/

theorem aliasMark?_spec {text rest : List Char} (h : cutAlias.aliasMark? text = some rest) :
    Ends isBlank rest ∧ ∃ front c, isBlank c = true ∧ text = front ++ c :: rest := by
  simp only [cutAlias.aliasMark?, Option.bind_eq_bind, Option.bind_eq_some_iff] at h
  obtain ⟨behind, hmark, hblanks⟩ := h
  obtain ⟨hends, front, c, hc, rfl⟩ := blanks1?_spec hblanks
  refine ⟨hends, text.takeWhile isBlank ++ (['a', 's'] ++ front), c, hc, ?_⟩
  have hskip : skipBlanks text = ['a', 's'] ++ (front ++ c :: rest) := after?_eq_some_iff.1 hmark
  have hsplit := List.takeWhile_append_dropWhile (p := isBlank) (l := text)
  rw [← skipBlanks, hskip] at hsplit
  simpa only [List.append_assoc] using hsplit.symm

/-- Before the cut stands a first part of the entry; behind it, what follows a blank and does not
start with one. -/
theorem cutAlias_spec (before text : List Char) :
    (∃ front, front <+: text ∧ (cutAlias before text).1 = before.reverse ++ front) ∧
      ∀ rest ∈ (cutAlias before text).2,
        Ends isBlank rest ∧ ∃ front c, isBlank c = true ∧ text = front ++ c :: rest := by
  induction text generalizing before with
  | nil => exact ⟨⟨[], List.nil_prefix, by simp [cutAlias]⟩, fun rest h => by simp [cutAlias] at h⟩
  | cons c text ih =>
    rw [cutAlias]
    cases hmark : (if isBlank c then cutAlias.aliasMark? text else none) with
    | some rest =>
      refine ⟨⟨[], List.nil_prefix, (List.append_nil _).symm⟩, fun rest' h => ?_⟩
      cases h
      split at hmark
      · obtain ⟨hends, front, d, hd, rfl⟩ := aliasMark?_spec hmark
        exact ⟨hends, c :: front, d, hd, rfl⟩
      · cases hmark
    | none =>
      obtain ⟨⟨front, hfront, hfirst⟩, hsecond⟩ := ih (c :: before)
      refine ⟨⟨c :: front, List.cons_prefix_cons.2 ⟨rfl, hfront⟩, ?_⟩, fun rest h => ?_⟩
      · rw [hfirst, List.reverse_cons, List.append_assoc]
        rfl
      · obtain ⟨hends, front, d, hd, rfl⟩ := hsecond rest h
        exact ⟨hends, c :: front, d, hd, rfl⟩

/-- An entry is not cut at its start, unless a blank stands there. -/
theorem mem_cutAlias {c : Char} (h : isBlank c = false) (text : List Char) :
    c ∈ (cutAlias [] (c :: text)).1 := by
  obtain ⟨⟨front, -, hfirst⟩, -⟩ := cutAlias_spec [c] text
  have hcut : cutAlias [] (c :: text) = cutAlias [c] text := by
    rw [cutAlias]
    simp [h]
  rw [hcut, hfirst]
  exact List.mem_append_left front (by simp)

/-- A local name stands as it is in its entry. -/
theorem isInfix_of_binding {entry : List Char} {binding : Binding}
    (h : Binding.ofEntry? entry = some binding) : binding.localName.toList <:+: entry := by
  unfold Binding.ofEntry? at h
  dsimp only at h
  obtain ⟨⟨front, hfront, hfirst⟩, hsecond⟩ := cutAlias_spec [] (trim entry)
  generalize cutAlias [] (trim entry) = cut at h hfirst hsecond
  obtain ⟨first, second⟩ := cut
  obtain rfl : first = front := hfirst
  split at h
  case h_2 => cases h
  case h_1 c cs hexported =>
    split at h
    case isFalse => cases h
    case isTrue =>
      cases h
      rw [String.toList_ofList]
      refine List.IsInfix.trans ?_ (trim_isInfix entry)
      cases second with
      | none => exact (trim_isInfix first).trans hfront.isInfix
      | some rest =>
        obtain ⟨-, before, d, -, hentry⟩ := hsecond rest rfl
        obtain ⟨⟨front, hfront, hcut⟩, -⟩ := cutAlias_spec [] rest
        obtain hcut : (cutAlias [] rest).1 = front := hcut
        have hrest : rest <:+: trim entry :=
          ⟨before ++ [d], [], by rw [hentry]; simp⟩
        dsimp only
        rw [hcut]
        exact (trim_isInfix front).trans (hfront.isInfix.trans hrest)

/-- What an entry binds: a local name that is a trimmed part of the entry, for an exported name
that starts with an ASCII capital. -/
structure Binding.IsFrom (entry : List Char) (binding : Binding) : Prop where
  capital : ∃ c ∈ binding.exported.toList.head?, isAsciiUpper c = true
  nonempty : binding.localName.toList ≠ []
  trimmed : IsTrimmed binding.localName.toList
  subset : ∀ c ∈ binding.localName.toList, c ∈ entry

theorem isFrom_of_ofEntry? {entry : List Char} {binding : Binding}
    (h : Binding.ofEntry? entry = some binding) : binding.IsFrom entry := by
  have hinfix := isInfix_of_binding h
  unfold Binding.ofEntry? at h
  dsimp only at h
  obtain ⟨⟨front, hfront, hfirst⟩, hsecond⟩ := cutAlias_spec [] (trim entry)
  generalize cutAlias [] (trim entry) = cut at h hfirst hsecond
  obtain ⟨first, second⟩ := cut
  obtain rfl : first = front := hfirst
  split at h
  case h_2 => cases h
  case h_1 c cs hexported =>
    split at h
    case isFalse => cases h
    case isTrue hupper =>
      cases h
      have hcapital : ∃ c ∈ (String.ofList (trim first)).toList.head?, isAsciiUpper c = true := by
        rw [String.toList_ofList, hexported]
        exact ⟨c, rfl, hupper⟩
      cases second with
      | none =>
        refine ⟨hcapital, ?_, ?_, hinfix.subset⟩ <;> rw [String.toList_ofList]
        · rw [hexported]
          exact List.cons_ne_nil c cs
        · exact isTrimmed_trim first
      | some rest =>
        obtain ⟨hends, before, d, hd, hentry⟩ := hsecond rest rfl
        -- a trimmed entry does not end with the blank that stands before the local name
        have hrest : ∃ e more, rest = e :: more ∧ isBlank e = false := by
          cases rest with
          | nil =>
            have hback := (isTrimmed_trim entry).back
            rw [hentry, List.reverse_append] at hback
            rw [hback.head] at hd
            cases hd
          | cons e more => exact ⟨e, more, rfl, hends.head⟩
        obtain ⟨e, more, rfl, he⟩ := hrest
        refine ⟨hcapital, ?_, ?_, hinfix.subset⟩ <;> rw [String.toList_ofList]
        · exact List.ne_nil_of_mem (mem_trim (mem_cutAlias he more) he)
        · exact isTrimmed_trim _

/-! ## Lists of names -/

/-- A name that an import can be known by in its file. -/
structure IsLocalName (name : List Char) : Prop where
  nonempty : name ≠ []
  trimmed : IsTrimmed name
  comma : ',' ∉ name
  brace : '}' ∉ name

theorem brace_not_mem_of_braced? {text inner rest : List Char}
    (h : braced? text = some (inner, rest)) : '}' ∉ inner := by
  unfold braced? at h
  split at h
  · simp only [run] at h
    split at h
    · cases h
      intro hmem
      have hbrace := List.mem_takeWhile_imp hmem
      simp at hbrace
    · cases h
  · cases h

/-- A list of names ends before its brace. -/
theorem brace_not_mem_of_all {text : List Char} {statement : Import} {list : String}
    (h : statement ∈ Import.all text) (hlist : statement.clause = .named list) :
    '}' ∉ list.toList := by
  obtain ⟨f, hfound, rfl⟩ := List.mem_map.1 h
  obtain ⟨_, i, rest, -, hread, -⟩ := exists_read_of_mem hfound
  simp only [forward, Import.read?, Option.bind_eq_bind, Option.bind_eq_some_iff] at hread
  obtain ⟨text1, -, ⟨clause, text2⟩, hclause, ⟨source, text3⟩, -, hvalue⟩ := hread
  obtain ⟨hvalue, -⟩ := Prod.mk.inj (Option.some.inj hvalue)
  obtain rfl : clause = .named list := by rw [← hlist, ← hvalue]
  unfold clause? at hclause
  split at hclause
  · cases hclause
  · rename_i names rest' _ hbraced
    cases hclause
    rw [String.toList_ofList]
    exact brace_not_mem_of_braced? hbraced
  · obtain ⟨_, -, hname⟩ := Option.map_eq_some_iff.1 hclause
    cases hname

/-! ## Names of a file -/

/-- What holds of every binding that the file may enter holds of every name of the file. -/
theorem forall_resolveImports {P : String → String → Prop} {content : List Char} {tracked : Tracked}
    (h : ∀ statement ∈ Import.all content, ∀ list, statement.clause = .named list →
      ∀ binding ∈ Binding.ofNames list, binding.exported ∈ tracked.components →
        P binding.localName binding.exported) :
    ∀ entry ∈ (resolveImports content tracked).entries, P entry.1 entry.2 := by
  unfold resolveImports
  apply List.foldlRecOn (motive := fun names : Table String String =>
    ∀ entry ∈ names.entries, P entry.1 entry.2)
  · exact fun entry hentry => by cases hentry
  intro names hnames statement hstatement
  have hlist := h statement hstatement
  cases hclause : statement.clause with
  | defaultName name => exact hnames
  | named list =>
    by_cases hsource : tracked.hasSource statement.source
    · simp only [hsource, if_true]
      apply List.foldlRecOn (motive := fun names : Table String String =>
        ∀ entry ∈ names.entries, P entry.1 entry.2) _ _ hnames
      intro names hnames binding hbinding
      by_cases hcomponent : tracked.hasComponent binding.exported
      · rw [if_pos hcomponent]
        exact Table.forall_update hnames
          (hlist list hclause binding hbinding (List.contains_iff_mem.1 hcomponent))
      · rw [if_neg hcomponent]
        exact hnames
    · simp only [hsource]
      exact hnames

/-- A local name of a file and what it stands for: a tracked component, which starts with an ASCII
capital. -/
structure IsImport (tracked : Tracked) (localName exported : String) : Prop where
  localName : IsLocalName localName.toList
  component : exported ∈ tracked.components
  capital : ∃ c ∈ exported.toList.head?, isAsciiUpper c = true

theorem isImport_of_mem (content : List Char) (tracked : Tracked) :
    ∀ entry ∈ (resolveImports content tracked).entries, IsImport tracked entry.1 entry.2 := by
  apply forall_resolveImports
  intro statement hstatement list hlist binding hbinding hcomponent
  obtain ⟨entry, hentry, hbinding⟩ := List.mem_filterMap.1 hbinding
  obtain ⟨hcapital, hnonempty, htrimmed, hsubset⟩ := isFrom_of_ofEntry? hbinding
  obtain ⟨hcomma, hlistSubset⟩ := cutAt_spec hentry
  have hbrace := brace_not_mem_of_all hstatement hlist
  exact {
    localName := ⟨hnonempty, htrimmed, fun h => hcomma (hsubset _ h),
      fun h => hbrace (hlistSubset _ (hsubset _ h))⟩
    component := hcomponent
    capital := hcapital }

end UsageCensus.Source
