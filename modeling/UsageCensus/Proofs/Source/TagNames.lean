import UsageCensus.Proofs.Text.Reading
import UsageCensus.Proofs.Text.Searching
import UsageCensus.Source.Tag

/-!
# Names of opening tags

Of the sought names at most one stands behind a `<`: the longest run of word characters there.
So the order in which the names are tried does not matter (`tagName?_eq`).
-/

namespace UsageCensus.Source

open UsageCensus.Text

/-- A name that can be sought: nonempty, and word characters only. -/
def IsTagName (name : String) : Prop := name.toList ≠ [] ∧ ∀ c ∈ name.toList, isWord c = true

instance (name : String) : Decidable (IsTagName name) :=
  decidable_of_iff (name.toList ≠ [] ∧ name.toList.all isWord = true) (by
    rw [List.all_eq_true, IsTagName])

theorem findSome?_eq_of_unique {α β : Type} {f : α → Option β} {l : List α} {a : α} {b : β}
    (ha : a ∈ l) (hb : f a = some b) (hunique : ∀ x ∈ l, ∀ y, f x = some y → y = b) :
    l.findSome? f = some b := by
  cases h : l.findSome? f with
  | none => rw [List.findSome?_eq_none_iff.1 h a ha] at hb; cases hb
  | some y =>
    obtain ⟨x, hx, hy⟩ := List.exists_of_findSome?_eq_some h
    rw [hunique x hx y hy]

theorem mem_searchOrder {names : List String} {name : String} :
    name ∈ searchOrder names ↔ name ∈ names := by
  rw [searchOrder, List.mem_mergeSort, List.mem_eraseDups]

/-- Behind a word, the boundary of a word is where no word character follows. -/
theorem wordBoundary_getLastD {name rest : List Char} (hne : name ≠ [])
    (hword : ∀ c ∈ name, isWord c = true) :
    wordBoundary (name.getLastD '<') rest = true ↔ Ends isWord rest := by
  have hlast : isWord (name.getLastD '<') = true := by
    cases name with
    | nil => exact absurd rfl hne
    | cons c name =>
      rw [List.getLastD_cons]
      exact hword _ List.getLastD_mem_cons
  unfold wordBoundary Ends
  rw [hlast]
  cases rest with
  | nil => simp
  | cons d rest => simp

/-- A sought name is read where it is the whole word behind the `<`. -/
theorem readName_eq_some_iff {name text rest : List Char} {found : String} (hne : name ≠ [])
    (hword : ∀ c ∈ name, isWord c = true) :
    (match after? name text with
      | some rest =>
        if wordBoundary (name.getLastD '<') rest then some (String.ofList name, rest) else none
      | none => none) = some (found, rest)
      ↔ text.takeWhile isWord = name ∧ text.dropWhile isWord = rest ∧
        found = String.ofList name := by
  constructor
  · intro h
    split at h
    · rename_i tail htail
      split at h
      · rename_i hboundary
        simp only [Option.some.injEq, Prod.mk.injEq] at h
        obtain ⟨rfl, rfl⟩ := h
        have hends := (wordBoundary_getLastD hne hword).1 hboundary
        rw [after?_eq_some_iff.1 htail]
        exact ⟨takeWhile_append_of_ends hword hends, dropWhile_append_of_ends hword hends, rfl⟩
      · cases h
    · cases h
  · rintro ⟨hname, hrest, rfl⟩
    have hends : Ends isWord rest := hrest ▸ ends_dropWhile isWord text
    have htext : text = name ++ rest := by
      rw [← hname, ← hrest, List.takeWhile_append_dropWhile]
    rw [htext, after?_append]
    simp only [(wordBoundary_getLastD hne hword).2 hends, if_true]

/-- The name of an opening tag is the longest word behind the `<`, if it is a sought one. -/
theorem tagName?_eq {names : List String} (hnames : ∀ name ∈ names, IsTagName name)
    (text : List Char) :
    tagName? ((searchOrder names).map String.toList) ('<' :: text)
      = if String.ofList (text.takeWhile isWord) ∈ names
        then some (String.ofList (text.takeWhile isWord), text.dropWhile isWord) else none := by
  have hsought : ∀ sought ∈ (searchOrder names).map String.toList,
      String.ofList sought ∈ names ∧ sought ≠ [] ∧ ∀ c ∈ sought, isWord c = true := by
    intro sought h
    obtain ⟨name, hname, rfl⟩ := List.mem_map.1 h
    have hmem := mem_searchOrder.1 hname
    exact ⟨by rwa [String.ofList_toList], hnames name hmem⟩
  rw [tagName?]
  by_cases hmem : String.ofList (text.takeWhile isWord) ∈ names
  · rw [if_pos hmem]
    refine findSome?_eq_of_unique (a := text.takeWhile isWord) ?_ ?_ ?_
    · exact List.mem_map.2 ⟨_, mem_searchOrder.2 hmem, String.toList_ofList⟩
    · have hname := hnames _ hmem
      rw [IsTagName, String.toList_ofList] at hname
      exact (readName_eq_some_iff hname.1 hname.2).2 ⟨rfl, rfl, rfl⟩
    · rintro sought hs ⟨found, rest⟩ hfound
      obtain ⟨-, hne, hword⟩ := hsought sought hs
      obtain ⟨hname, hrest, rfl⟩ := (readName_eq_some_iff hne hword).1 hfound
      rw [hname, hrest]
  · rw [if_neg hmem]
    apply List.findSome?_eq_none_iff.2
    intro sought hs
    obtain ⟨hin, hne, hword⟩ := hsought sought hs
    refine Option.eq_none_iff_forall_ne_some.2 ?_
    rintro ⟨found, rest⟩ hfound
    obtain ⟨hname, -, -⟩ := (readName_eq_some_iff hne hword).1 hfound
    exact hmem (hname ▸ hin)

/-- Only sought names are read, each right behind a `<` and up to the boundary of a word. -/
theorem boundary_of_tagName? {names : List (List Char)} {text rest : List Char} {found : String}
    (h : tagName? names text = some (found, rest)) :
    ∃ name ∈ names, found = String.ofList name ∧ text = '<' :: (name ++ rest) ∧
      wordBoundary (name.getLastD '<') rest = true := by
  unfold tagName? at h
  split at h
  · rename_i text
    obtain ⟨name, hname, hread⟩ := List.exists_of_findSome?_eq_some h
    refine ⟨name, hname, ?_⟩
    split at hread
    · rename_i behind hbehind
      split at hread
      · rename_i hboundary
        cases hread
        exact ⟨rfl, by rw [after?_eq_some_iff.1 hbehind], hboundary⟩
      · cases hread
    · cases hread
  · cases h

theorem mem_of_tagName? {names : List (List Char)} {text rest : List Char} {found : String}
    (h : tagName? names text = some (found, rest)) :
    ∃ name ∈ names, found = String.ofList name ∧ text = '<' :: (name ++ rest) := by
  obtain ⟨name, hname, hfound, htext, -⟩ := boundary_of_tagName? h
  exact ⟨name, hname, hfound, htext⟩

theorem pairwise_searchOrder (names : List String) :
    (searchOrder names).Pairwise fun name later => later.length ≤ name.length := by
  have hsorted : (searchOrder names).Pairwise fun name later =>
      (decide (later.length < name.length)
        || (name.length == later.length && decide (name ≤ later))) = true := by
    apply List.pairwise_mergeSort
    · intro a b c hab hbc
      simp only [Bool.or_eq_true, Bool.and_eq_true, decide_eq_true_eq, beq_iff_eq] at hab hbc ⊢
      rcases hab with hab | ⟨hab, hle⟩ <;> rcases hbc with hbc | ⟨hbc, hle'⟩
      · exact .inl (by omega)
      · exact .inl (by omega)
      · exact .inl (by omega)
      · exact .inr ⟨by omega, String.le_trans hle hle'⟩
    · intro a b
      simp only [Bool.or_eq_true, Bool.and_eq_true, decide_eq_true_eq, beq_iff_eq]
      rcases Nat.lt_trichotomy a.length b.length with h | h | h
      · exact .inr (.inl h)
      · rcases String.le_total a b with hle | hle
        · exact .inl (.inr ⟨h, hle⟩)
        · exact .inr (.inr ⟨h.symm, hle⟩)
      · exact .inl (.inl h)
  refine hsorted.imp fun {name later} h => ?_
  simp only [Bool.or_eq_true, Bool.and_eq_true, decide_eq_true_eq, beq_iff_eq] at h
  omega

/-- Names of any characters: one with which no other name begins is read where it stands. -/
theorem tagName?_of_longest {names : List String} {name : String} (hmem : name ∈ names)
    (hlongest : ∀ other ∈ names, name.toList <+: other.toList → other = name) {rest : List Char}
    (hboundary : wordBoundary (name.toList.getLastD '<') rest = true) :
    tagName? ((searchOrder names).map String.toList) ('<' :: (name.toList ++ rest))
      = some (name, rest) := by
  -- the names that are tried before it are at least as long, so they would begin with it
  obtain ⟨tried, others, horder, hfirst⟩ :=
    List.eq_append_cons_of_mem (mem_searchOrder.2 hmem)
  have hlength : ∀ other ∈ tried, name.length ≤ other.length := by
    have hpairwise := pairwise_searchOrder names
    rw [horder, List.pairwise_append] at hpairwise
    exact fun other hother => hpairwise.2.2 other hother name List.mem_cons_self
  have htried : ∀ other ∈ tried, after? other.toList (name.toList ++ rest) = none := by
    intro other hother
    refine Option.eq_none_iff_forall_ne_some.2 fun behind hbehind => hfirst ?_
    have hprefix : other.toList <+: name.toList ++ rest :=
      ⟨behind, (after?_eq_some_iff.1 hbehind).symm⟩
    have hlonger : name.toList <+: other.toList :=
      List.prefix_of_prefix_length_le (List.prefix_append _ rest) hprefix (by
        rw [String.length_toList, String.length_toList]
        exact hlength other hother)
    have hsought : other ∈ names := by
      rw [← mem_searchOrder, horder]
      exact List.mem_append_left _ hother
    exact hlongest other hsought hlonger ▸ hother
  rw [tagName?, horder, List.map_append, List.map_cons, List.findSome?_append,
    List.findSome?_eq_none_iff.2, Option.none_or, List.findSome?_cons, after?_append]
  · simp only [hboundary, if_true, String.ofList_toList]
  · intro sought hsought
    obtain ⟨other, hother, rfl⟩ := List.mem_map.1 hsought
    rw [htried other hother]

/-- No tag opens at another character than `<`. -/
theorem tagName?_of_ne {names : List (List Char)} {c : Char} (h : c ≠ '<') (text : List Char) :
    tagName? names (c :: text) = none := by
  unfold tagName?
  split
  · rename_i text' e
    exact absurd (List.cons.inj e).1 h
  · rfl

/-- Nothing opens in a text without `<`. -/
theorem silent_tagName? {names : List (List Char)} {pre : List Char} (h : '<' ∉ pre)
    (rest : List Char) : Silent (tagName? names) pre rest :=
  silent_of_forall fun _ hc text => tagName?_of_ne (fun e => h (e ▸ hc)) text

end UsageCensus.Source
