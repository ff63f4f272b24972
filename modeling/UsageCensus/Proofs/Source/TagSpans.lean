import Mathlib.Data.Nat.Find
import Mathlib.Order.Bounds.Basic
import UsageCensus.Proofs.Source.TagNames

/-!
# Where tags stand

The opening tags of a text are told by their offsets alone: a `<` opens one if the whole word
behind it is a sought name and some `>` behind the word closes it (`OpensTag`), and the first such
`>` is where it ends (`IsTagSpan`). The search finds exactly these, each once, from left to right
(`tagSpans_exact`), for names of any order, repeated ones and beginnings of each other included.
-/

namespace UsageCensus.Source

open UsageCensus.Text

/-! ## The `>` that closes a tag -/

/-- At the offset `i` stands a `>` outside of braces, in a text that starts inside `depth` braces. -/
def Closes (depth : Int) (text : List Char) (i : Nat) : Prop :=
  text[i]? = some '>' ∧ depth + (text.take i).count '{' = (text.take i).count '}'

theorem closes_zero {depth : Int} {c : Char} {text : List Char} :
    Closes depth (c :: text) 0 ↔ c = '>' ∧ depth = 0 := by
  simp [Closes]

theorem closes_succ {depth : Int} {c : Char} {text : List Char} {i : Nat} :
    Closes depth (c :: text) (i + 1)
      ↔ Closes (depth + (if c = '{' then 1 else 0) - if c = '}' then 1 else 0) text i := by
  simp only [Closes, List.getElem?_cons_succ, List.take_succ_cons, List.count_cons, beq_iff_eq]
  refine and_congr_right fun _ => ?_
  split <;> split <;> push_cast <;> omega

theorem closingAngle_eq_some_iff {depth : Int} {at_ stop : Nat} {text : List Char} :
    closingAngle depth at_ text = some stop
      ↔ ∃ i, stop = at_ + i ∧ Closes depth text i ∧ ∀ j < i, ¬Closes depth text j := by
  induction text generalizing depth at_ with
  | nil => simp [closingAngle, Closes]
  | cons c text ih =>
    -- unless the `>` is the first character, it is one of the text behind it
    have hlater : ∀ depth' : Int, (∀ i, Closes depth (c :: text) (i + 1) ↔ Closes depth' text i) →
        ¬Closes depth (c :: text) 0 →
        (closingAngle depth' (at_ + 1) text = some stop
          ↔ ∃ i, stop = at_ + i ∧ Closes depth (c :: text) i ∧
            ∀ j < i, ¬Closes depth (c :: text) j) := by
      intro depth' hsucc hzero
      rw [ih]
      constructor
      · rintro ⟨i, rfl, hi, hbefore⟩
        refine ⟨i + 1, by omega, (hsucc i).2 hi, fun j hj => ?_⟩
        cases j with
        | zero => exact hzero
        | succ j => exact fun hclose => hbefore j (by omega) ((hsucc j).1 hclose)
      · rintro ⟨i, rfl, hi, hbefore⟩
        cases i with
        | zero => exact absurd hi hzero
        | succ i =>
          exact ⟨i, by omega, (hsucc i).1 hi,
            fun j hj hclose => hbefore (j + 1) (by omega) ((hsucc j).2 hclose)⟩
    rw [closingAngle]
    by_cases h1 : c = '{'
    · subst h1
      rw [if_pos rfl]
      exact hlater _ (fun i => by rw [closes_succ]; simp) (by simp [closes_zero])
    · rw [if_neg h1]
      by_cases h2 : c = '}'
      · subst h2
        rw [if_pos rfl]
        exact hlater _ (fun i => by rw [closes_succ]; simp) (by simp [closes_zero])
      · rw [if_neg h2]
        by_cases h3 : c = '>' ∧ depth = 0
        · rw [if_pos h3]
          have hzero : Closes depth (c :: text) 0 := closes_zero.2 h3
          constructor
          · intro h
            cases h
            exact ⟨0, rfl, hzero, fun j hj => absurd hj (Nat.not_lt_zero j)⟩
          · rintro ⟨i, rfl, -, hbefore⟩
            cases i with
            | zero => rfl
            | succ i => exact absurd hzero (hbefore 0 (Nat.succ_pos i))
        · rw [if_neg h3]
          exact hlater _ (fun i => by rw [closes_succ]; simp [h1, h2]) (mt closes_zero.1 h3)

/-- At the offset `stop` stands a `>`, with as many braces opened as closed since `body`. -/
structure ClosesTag (content : List Char) (body stop : Nat) : Prop where
  behind : body ≤ stop
  angle : content[stop]? = some '>'
  balanced : (content.extract body stop).count '{' = (content.extract body stop).count '}'

theorem closesTag_iff {content : List Char} {body stop : Nat} :
    ClosesTag content body stop ↔ ∃ i, stop = body + i ∧ Closes 0 (content.drop body) i := by
  have hcloses : ∀ i, Closes 0 (content.drop body) i ↔ content[body + i]? = some '>' ∧
      (content.extract body (body + i)).count '{' = (content.extract body (body + i)).count '}' := by
    intro i
    rw [Closes, List.getElem?_drop, List.extract_eq_take_drop, Nat.add_sub_cancel_left, Int.zero_add,
      Int.natCast_inj]
  constructor
  · rintro ⟨hbehind, hangle, hbalanced⟩
    obtain ⟨i, rfl⟩ := Nat.exists_eq_add_of_le hbehind
    exact ⟨i, rfl, (hcloses i).2 ⟨hangle, hbalanced⟩⟩
  · rintro ⟨i, rfl, hi⟩
    obtain ⟨hangle, hbalanced⟩ := (hcloses i).1 hi
    exact ⟨Nat.le_add_right body i, hangle, hbalanced⟩

/-- A tag ends at the first `>` that closes it. -/
theorem tagEnd?_eq_some_iff {content : List Char} {body stop : Nat} :
    tagEnd? content body = some stop ↔ IsLeast {stop | ClosesTag content body stop} stop := by
  rw [tagEnd?, closingAngle_eq_some_iff]
  constructor
  · rintro ⟨i, rfl, hi, hbefore⟩
    refine ⟨closesTag_iff.2 ⟨i, rfl, hi⟩, fun other hother => ?_⟩
    obtain ⟨j, rfl, hj⟩ := closesTag_iff.1 hother
    have hle : i ≤ j := Nat.le_of_not_lt fun hlt => hbefore j hlt hj
    omega
  · rintro ⟨hcloses, hleast⟩
    obtain ⟨i, rfl, hi⟩ := closesTag_iff.1 hcloses
    refine ⟨i, rfl, hi, fun j hj hclose => ?_⟩
    have hle : body + i ≤ body + j := hleast (closesTag_iff.2 ⟨j, rfl, hclose⟩)
    omega

/-- A tag ends if some `>` closes it. -/
theorem exists_tagEnd? {content : List Char} {body stop : Nat} (h : ClosesTag content body stop) :
    ∃ first, tagEnd? content body = some first := by
  classical
  have hexists : ∃ stop, ClosesTag content body stop := ⟨stop, h⟩
  exact ⟨Nat.find hexists, tagEnd?_eq_some_iff.2
    ⟨Nat.find_spec hexists, fun _ hother => Nat.find_min' hexists hother⟩⟩

/-! ## The word behind a `<` -/

/-- The longest word behind the character at an offset. -/
def wordBehind (content : List Char) (offset : Nat) : List Char :=
  (content.drop (offset + 1)).takeWhile isWord

section

variable {names : List String}

/-- A tag of a sought name is read where that name is the longest word behind a `<`. -/
theorem tagName?_eq_some_iff (hnames : ∀ name ∈ names, IsTagName name) {text rest : List Char}
    {name : String} :
    tagName? ((searchOrder names).map String.toList) text = some (name, rest)
      ↔ name ∈ names ∧ ∃ behind, text = '<' :: behind ∧ name.toList = behind.takeWhile isWord ∧
        rest = behind.dropWhile isWord := by
  constructor
  · intro h
    cases text with
    | nil => cases h
    | cons c behind =>
      by_cases hc : c = '<'
      · subst hc
        rw [tagName?_eq hnames] at h
        split at h
        · rename_i hmem
          cases h
          exact ⟨hmem, behind, rfl, String.toList_ofList, rfl⟩
        · cases h
      · rw [tagName?_of_ne hc] at h
        cases h
  · rintro ⟨hmem, behind, rfl, hname, rfl⟩
    rw [tagName?_eq hnames, ← hname, String.ofList_toList, if_pos hmem]

theorem isSelfSilent_tagName? (hnames : ∀ name ∈ names, IsTagName name) :
    IsSelfSilent (tagName? ((searchOrder names).map String.toList)) := by
  intro text name rest h
  obtain ⟨-, behind, rfl, -, rfl⟩ := (tagName?_eq_some_iff hnames).1 h
  refine ⟨'<', behind.takeWhile isWord, by rw [List.takeWhile_append_dropWhile], ?_⟩
  exact silent_tagName? (fun hmem => absurd (List.mem_takeWhile_imp hmem) (by decide)) _

theorem mem_found_tagName?_iff (hnames : ∀ name ∈ names, IsTagName name) {content : List Char}
    {f : Found String} :
    f ∈ found (tagName? ((searchOrder names).map String.toList)) 0 content
      ↔ content[f.start]? = some '<' ∧ f.value.toList = wordBehind content f.start ∧
        f.value ∈ names ∧ f.stop = f.start + 1 + f.value.length := by
  have hlength : ∀ {behind : List Char}, f.value.toList = behind.takeWhile isWord →
      ('<' :: behind).length - (behind.dropWhile isWord).length = 1 + f.value.length := by
    intro behind hname
    have hsplit := congrArg List.length (List.takeWhile_append_dropWhile (p := isWord) (l := behind))
    rw [← hname, List.length_append, String.length_toList] at hsplit
    rw [List.length_cons]
    omega
  constructor
  · intro h
    obtain ⟨_, i, rest, hstart, hread, hstop⟩ := exists_read_of_mem h
    obtain ⟨hmem, behind, hdrop, hname, rfl⟩ := (tagName?_eq_some_iff hnames).1 hread
    obtain rfl : f.start = i := by omega
    rw [hdrop, hlength hname] at hstop
    obtain ⟨hangle, rfl⟩ := drop_eq_cons_iff.1 hdrop
    exact ⟨hangle, hname, hmem, by omega⟩
  · rintro ⟨hangle, hname, hmem, hstop⟩
    have hdrop : content.drop f.start = '<' :: content.drop (f.start + 1) :=
      drop_eq_cons_iff.2 ⟨hangle, rfl⟩
    have hread : tagName? ((searchOrder names).map String.toList) (content.drop f.start)
        = some (f.value, (content.drop (f.start + 1)).dropWhile isWord) :=
      (tagName?_eq_some_iff hnames).2 ⟨hmem, _, hdrop, hname, rfl⟩
    have hfound := mem_found_of_read (isSelfSilent_tagName? hnames) hread 0
    rw [hdrop, hlength hname, Nat.zero_add, ← Nat.add_assoc, ← hstop] at hfound
    exact hfound

/-! ## Spans -/

/-- A tag of one of the names opens at an offset. -/
structure OpensTag (names : List String) (content : List Char) (offset : Nat) : Prop where
  angle : content[offset]? = some '<'
  sought : String.ofList (wordBehind content offset) ∈ names
  closed : ∃ stop, ClosesTag content (offset + 1 + (wordBehind content offset).length) stop

/-- The boundaries of a tag of one of the names. -/
structure IsTagSpan (names : List String) (content : List Char) (components : Table String String)
    (span : TagSpan) : Prop where
  angle : content[span.start]? = some '<'
  word : span.localName.toList = wordBehind content span.start
  sought : span.localName ∈ names
  component : span.component = components.getD span.localName span.localName
  body : span.bodyStart = span.start + 1 + span.localName.length
  stop : IsLeast {stop | ClosesTag content span.bodyStart stop} span.stop

/-- Where a tag starts, all of its boundaries are determined. -/
theorem IsTagSpan.eq_of_start {content : List Char} {components : Table String String}
    {span other : TagSpan} (h : IsTagSpan names content components span)
    (hother : IsTagSpan names content components other) (hstart : span.start = other.start) :
    span = other := by
  have hname : span.localName = other.localName := by
    apply String.toList_injective
    rw [h.word, hother.word, hstart]
  have hcomponent : span.component = other.component := by
    rw [h.component, hother.component, hname]
  have hbody : span.bodyStart = other.bodyStart := by rw [h.body, hother.body, hstart, hname]
  have hstop : span.stop = other.stop := by
    apply h.stop.unique
    rw [hbody]
    exact hother.stop
  cases span
  cases other
  rw [TagSpan.mk.injEq]
  exact ⟨hcomponent, hname, hstart, hbody, hstop⟩

theorem mem_tagSpans_iff (hnames : ∀ name ∈ names, IsTagName name) {content : List Char}
    {components : Table String String} {span : TagSpan} :
    span ∈ tagSpans names content components ↔ IsTagSpan names content components span := by
  rw [tagSpans, search_forward, List.mem_filterMap]
  constructor
  · rintro ⟨f, hfound, hspan⟩
    obtain ⟨hangle, hword, hsought, hbody⟩ := (mem_found_tagName?_iff hnames).1 hfound
    obtain ⟨stop, hstop, rfl⟩ := Option.map_eq_some_iff.1 hspan
    exact ⟨hangle, hword, hsought, rfl, hbody, tagEnd?_eq_some_iff.1 hstop⟩
  · rintro ⟨hangle, hword, hsought, hcomponent, hbody, hstop⟩
    refine ⟨⟨span.start, span.bodyStart, span.localName⟩,
      (mem_found_tagName?_iff hnames).2 ⟨hangle, hword, hsought, hbody⟩, ?_⟩
    rw [tagEnd?_eq_some_iff.2 hstop, Option.map_some, ← hcomponent]

end

/-- Spans come in the order of their tags in the text. -/
theorem pairwise_tagSpans (names : List String) (content : List Char)
    (components : Table String String) :
    (tagSpans names content components).Pairwise fun span later => span.start < later.start := by
  refine (pairwise_searchFrom _ 0 none 0 content).filterMap _ fun f g hlt span hspan later hlater => ?_
  obtain ⟨_, -, rfl⟩ := Option.map_eq_some_iff.1 hspan
  obtain ⟨_, -, rfl⟩ := Option.map_eq_some_iff.1 hlater
  exact hlt

/-- The tags of sought names are found exactly where they open, each once and from left to right,
and each ends at the first `>` that closes it. -/
theorem tagSpans_exact {names : List String} (hnames : ∀ name ∈ names, IsTagName name)
    (content : List Char) (components : Table String String) :
    ((tagSpans names content components).Pairwise fun span later => span.start < later.start) ∧
      (∀ span, span ∈ tagSpans names content components
        ↔ IsTagSpan names content components span) ∧
      ∀ offset, (∃! span, span ∈ tagSpans names content components ∧ span.start = offset)
        ↔ OpensTag names content offset := by
  refine ⟨pairwise_tagSpans names content components, fun span => mem_tagSpans_iff hnames, ?_⟩
  intro offset
  constructor
  · rintro ⟨span, ⟨hspan, rfl⟩, -⟩
    obtain ⟨hangle, hword, hsought, -, hbody, hstop⟩ := (mem_tagSpans_iff hnames).1 hspan
    refine ⟨hangle, ?_, span.stop, ?_⟩
    · rwa [← hword, String.ofList_toList]
    · rw [← hword, String.length_toList, ← hbody]
      exact hstop.1
  · rintro ⟨hangle, hsought, stop, hstop⟩
    obtain ⟨name, hword⟩ : ∃ name : String, name.toList = wordBehind content offset :=
      ⟨_, String.toList_ofList⟩
    rw [← hword, String.ofList_toList] at hsought
    rw [← hword, String.length_toList] at hstop
    obtain ⟨first, hfirst⟩ := exists_tagEnd? hstop
    have hspan : IsTagSpan names content components
        ⟨components.getD name name, name, offset, offset + 1 + name.length, first⟩ :=
      ⟨hangle, hword, hsought, rfl, rfl, tagEnd?_eq_some_iff.1 hfirst⟩
    refine ⟨_, ⟨(mem_tagSpans_iff hnames).2 hspan, rfl⟩, ?_⟩
    rintro other ⟨hother, hstart⟩
    exact ((mem_tagSpans_iff hnames).1 hother).eq_of_start hspan hstart

/-- A tag among the attributes of another one, and one with its braces out of order. -/
def nestedCards : List Char := "<Ca a=\x7b<C>\x7d><C\x7d>\x7b>".toList

theorem tagSpans_nestedCards :
    (∀ name ∈ ["C", "Ca", "C"], IsTagName name) ∧
      ⟨"Ca", "Ca", 0, 3, 11⟩ ∈ tagSpans ["C", "Ca", "C"] nestedCards .empty ∧
      ⟨"C", "C", 12, 14, 17⟩ ∈ tagSpans ["C", "Ca", "C"] nestedCards .empty ∧
      ∃! span, span ∈ tagSpans ["C", "Ca", "C"] nestedCards .empty ∧ span.start = 7 := by
  have hnames : ∀ name ∈ ["C", "Ca", "C"], IsTagName name := by decide
  obtain ⟨-, hspans, hopens⟩ := tagSpans_exact hnames nestedCards .empty
  refine ⟨hnames, (hspans _).2 ?_, (hspans _).2 ?_, (hopens 7).2 ?_⟩
  · exact ⟨by decide, by decide, by decide, rfl, rfl, tagEnd?_eq_some_iff.1 (by decide)⟩
  · exact ⟨by decide, by decide, by decide, rfl, rfl, tagEnd?_eq_some_iff.1 (by decide)⟩
  · exact ⟨by decide, by decide, 9, by decide, by decide, by decide⟩

end UsageCensus.Source
