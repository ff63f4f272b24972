import UsageCensus.Proofs.Source.Traceable
import UsageCensus.Proofs.Source.WrittenAttributes

/-!
# Elements of a page

A text renders markup where an element opens in it (`rendersMarkup_iff`): a `<`, a name of ASCII
letters and digits, and behind it a blank, a slash or a `>`. The tags of a scan have other names as
well, and anything may follow these: such a tag is an element exactly if its name and what follows
it are those of an element (`Instance.opensElement_iff`).
-/

namespace UsageCensus.Source

open UsageCensus.Text

/-- A name that elements have: a letter, then letters and digits. -/
def IsElementName (name : List Char) : Prop :=
  (∃ c ∈ name.head?, isAsciiLetter c = true) ∧ ∀ c ∈ name, isAsciiAlnum c = true

instance (name : List Char) : Decidable (IsElementName name) :=
  decidable_of_iff (name.head?.any isAsciiLetter = true ∧ name.all isAsciiAlnum = true) (by
    rw [Option.any_eq_true, List.all_eq_true, IsElementName]
    rfl)

/-- What may stand behind the name of an element. -/
def endsElementName (c : Char) : Bool := isBlank c || c == '/' || c == '>'

/-- An element opens at the start of the text. -/
def OpensElement (text : List Char) : Prop :=
  ∃ name c rest, text = '<' :: (name ++ c :: rest) ∧ IsElementName name ∧ endsElementName c = true

theorem isWord_of_isAsciiAlnum {c : Char} (h : isAsciiAlnum c = true) : isWord c = true := by
  have hname : Attribute.continuesName c = true := by simp [Attribute.continuesName, h]
  have hne : c ≠ '$' ∧ c ≠ '-' := by constructor <;> (rintro rfl; exact absurd h (by decide))
  exact Attribute.isWord_of_continuesName hname hne.1 hne.2

/-- No word character ends a name. -/
theorem isWord_of_endsElementName {c : Char} (h : endsElementName c = true) : isWord c = false := by
  simp only [endsElementName, Bool.or_eq_true, beq_iff_eq] at h
  rcases h with (h | rfl) | rfl
  · exact isWord_of_isBlank h
  · decide
  · decide

theorem isAsciiAlnum_of_endsElementName {c : Char} (h : endsElementName c = true) :
    isAsciiAlnum c = false := by
  cases hc : isAsciiAlnum c with
  | false => rfl
  | true =>
    rw [← isWord_of_isAsciiAlnum hc, isWord_of_endsElementName h]

theorem isSome_elementTag?_iff {text : List Char} :
    (elementTag? text).isSome = true ↔ OpensElement text := by
  constructor
  · intro h
    unfold elementTag? at h
    split at h
    case h_2 => cases h
    case h_1 text =>
      obtain ⟨_, h⟩ := Option.isSome_iff_exists.1 h
      obtain ⟨behind, hfirst, h⟩ := Option.bind_eq_some_iff.1 h
      obtain ⟨rest, hlast, -⟩ := Option.bind_eq_some_iff.1 h
      obtain ⟨c, hc, rfl⟩ := one?_eq_some hfirst
      obtain ⟨d, hd, hbehind⟩ := one?_eq_some hlast
      refine ⟨c :: behind.takeWhile isAsciiAlnum, d, rest, ?_, ⟨⟨c, rfl, hc⟩, ?_⟩, hd⟩
      · rw [List.cons_append, ← hbehind, List.takeWhile_append_dropWhile]
      · intro e he
        rcases List.mem_cons.1 he with rfl | he
        · simp [isAsciiAlnum, hc]
        · exact List.mem_takeWhile_imp he
  · rintro ⟨name, d, rest, rfl, ⟨⟨c, hfirst, hc⟩, hname⟩, hd⟩
    cases name with
    | nil => cases hfirst
    | cons e name =>
      cases hfirst
      have hends : Ends isAsciiAlnum (d :: rest) := .cons (isAsciiAlnum_of_endsElementName hd)
      have hafter : (name ++ d :: rest).dropWhile isAsciiAlnum = d :: rest :=
        dropWhile_append_of_ends (fun a ha => hname a (List.mem_cons_of_mem _ ha)) hends
      have hletter : one? isAsciiLetter (c :: (name ++ d :: rest)) = some (name ++ d :: rest) :=
        if_pos hc
      have hend : one? (fun c => isBlank c || c == '/' || c == '>') (d :: rest) = some rest :=
        if_pos hd
      rw [List.cons_append, elementTag?, hletter]
      simp only [Option.bind_eq_bind, Option.bind_some, hafter, hend]
      rfl

/-- A text renders markup where an element opens in it. -/
theorem rendersMarkup_iff {content : List Char} :
    rendersMarkup content = true ↔ ∃ i, OpensElement (content.drop i) := by
  induction content with
  | nil =>
    constructor
    · intro h
      cases h
    · rintro ⟨i, name, c, rest, htext, -⟩
      rw [List.drop_nil] at htext
      cases htext
  | cons c content ih =>
    rw [rendersMarkup, Bool.or_eq_true, isSome_elementTag?_iff, ih]
    constructor
    · rintro (h | ⟨i, h⟩)
      · exact ⟨0, h⟩
      · exact ⟨i + 1, h⟩
    · rintro ⟨i, h⟩
      cases i with
      | zero => exact .inl h
      | succ i => exact .inr ⟨i, h⟩

/-! ## Tags of a scan -/

/-- The name that a tag is written with. -/
def Instance.writtenName (content : List Char) (tag : Instance) : List Char :=
  content.extract (tag.start + 1) tag.bodyStart

/-- The tag is one of an element: its name, and what follows it. -/
structure Instance.IsElement (content : List Char) (tag : Instance) : Prop where
  name : IsElementName (tag.writtenName content)
  behind : ∃ c ∈ content[tag.bodyStart]?, endsElementName c = true

namespace Instance

instance (content : List Char) (tag : Instance) : Decidable (tag.IsElement content) :=
  decidable_of_iff (IsElementName (tag.writtenName content) ∧
      content[tag.bodyStart]?.any endsElementName = true) (by
    rw [Option.any_eq_true]
    exact ⟨fun h => ⟨h.1, h.2⟩, fun h => ⟨h.name, h.behind⟩⟩)

variable {content : List Char} {imports : Table String String} {tracked : Tracked} {tag : Instance}

theorem drop_start (h : tag.IsTraceable content imports) (hne : tag.writtenName content ≠ []) :
    content.drop tag.start = '<' :: (tag.writtenName content ++ content.drop tag.bodyStart) := by
  have hlength : tag.start + 1 ≤ tag.bodyStart := by
    apply Nat.le_of_not_lt
    intro hlt
    apply hne
    rw [writtenName, List.extract_eq_take_drop, Nat.sub_eq_zero_of_le (Nat.le_of_lt hlt),
      List.take_zero]
  have hbehind : content.drop (tag.start + 1)
      = tag.writtenName content ++ content.drop tag.bodyStart := by
    have hsplit := List.take_append_drop (tag.bodyStart - (tag.start + 1))
      (content.drop (tag.start + 1))
    rw [List.drop_drop, Nat.add_sub_cancel' hlength] at hsplit
    rw [writtenName, List.extract_eq_take_drop]
    exact hsplit.symm
  exact drop_eq_cons_iff.2 ⟨h.opens, hbehind⟩

/-- An element opens where its tag does. -/
theorem IsElement.opensElement (helement : tag.IsElement content)
    (h : tag.IsTraceable content imports) : OpensElement (content.drop tag.start) := by
  obtain ⟨hname, c, hbehind, hc⟩ := helement
  have hne : tag.writtenName content ≠ [] := by
    intro hnone
    obtain ⟨⟨d, hd, -⟩, -⟩ := hname
    rw [hnone] at hd
    cases hd
  have htext : content.drop tag.bodyStart = c :: content.drop (tag.bodyStart + 1) :=
    drop_eq_cons_iff.2 ⟨hbehind, rfl⟩
  exact ⟨_, c, _, (drop_start h hne).trans (by rw [htext]), hname, hc⟩

theorem writtenName_ne_nil (h : tag ∈ (FileScan.ofText content tracked).instances) :
    tag.writtenName content ≠ [] := by
  obtain ⟨name, hget, hwritten⟩ := (isTraceable_of_mem h).named
  have himport := isImport_of_mem content tracked _ (Table.get?_eq_some_iff.1 hget)
  rw [writtenName, hwritten]
  exact himport.localName.nonempty

/-- A name of word characters goes on up to another character. -/
theorem ends_isWord (h : tag ∈ scanInstances content imports)
    (hword : ∀ c ∈ tag.writtenName content, isWord c = true) (hne : tag.writtenName content ≠ []) :
    Ends isWord (content.drop tag.bodyStart) := by
  obtain ⟨span, hspan, rfl⟩ := List.mem_map.1 h
  obtain ⟨f, hfound, hspan⟩ := List.mem_filterMap.1 hspan
  obtain ⟨stop, hstop, rfl⟩ := Option.map_eq_some_iff.1 hspan
  obtain ⟨_, i, rest, hstart, hread, hbody⟩ := exists_read_of_mem hfound
  obtain rfl : f.start = i := by omega
  obtain ⟨name, -, -, htext, hboundary⟩ := boundary_of_tagName? hread
  have hstop : f.stop = f.start + 1 + name.length := by
    rw [hbody, htext, List.length_cons, List.length_append]
    omega
  have hbehind := (drop_eq_cons_iff.1 htext).2
  have hname : content.extract (f.start + 1) f.stop = name := by
    rw [List.extract_eq_take_drop, hbehind, hstop, Nat.add_sub_cancel_left, List.take_left]
  have hrest : content.drop f.stop = rest := by
    rw [hstop, ← List.drop_drop, hbehind, List.drop_left]
  change ∀ c ∈ content.extract (f.start + 1) f.stop, isWord c = true at hword
  change content.extract (f.start + 1) f.stop ≠ [] at hne
  show Ends isWord (content.drop f.stop)
  rw [hname] at hword hne
  rw [hrest]
  exact (wordBoundary_getLastD hne hword).1 hboundary

/-- A tag whose name has word characters only is seen as an element exactly if it is one. -/
theorem opensElement_iff (h : tag ∈ (FileScan.ofText content tracked).instances)
    (hword : ∀ c ∈ tag.writtenName content, isWord c = true) :
    OpensElement (content.drop tag.start) ↔ tag.IsElement content := by
  have htraceable := isTraceable_of_mem h
  have hne := writtenName_ne_nil h
  have hends := ends_isWord h hword hne
  refine ⟨?_, fun helement => helement.opensElement htraceable⟩
  rintro ⟨name, c, rest, htext, hname, hc⟩
  rw [drop_start htraceable hne] at htext
  obtain ⟨-, hbehind⟩ := List.cons.inj htext
  -- both names are the longest word behind the `<`
  have hlast : Ends isWord (c :: rest) := .cons (isWord_of_endsElementName hc)
  have hname_word : ∀ d ∈ name, isWord d = true := fun d hd => isWord_of_isAsciiAlnum (hname.2 d hd)
  have hsame : tag.writtenName content = name := by
    rw [← takeWhile_append_of_ends hword hends, hbehind, takeWhile_append_of_ends hname_word hlast]
  have hrest : content.drop tag.bodyStart = c :: rest := by
    rw [← dropWhile_append_of_ends hword hends, hbehind, dropWhile_append_of_ends hname_word hlast]
  exact ⟨by rwa [hsame], c, (drop_eq_cons_iff.1 hrest).1, hc⟩

end Instance

end UsageCensus.Source
