import UsageCensus.Proofs.Source.Traceable
import UsageCensus.Source.Scan

/-!
# Extents in the text

An import statement and an opening tag reach from an offset of the text to one that is not before
it (`isExtent_of_mem_imports`, `isExtent_of_mem_tags`), whatever the text is. For imports this is so
because the reader of a statement takes its first word at least (`importExtent?_length_lt`).
-/

namespace UsageCensus.Source

open UsageCensus.Text

/-- A first and a last offset, both in the text. -/
structure IsExtent (content : List Char) (span : Nat × Nat) : Prop where
  order : span.1 ≤ span.2
  inside : span.2 < content.length

/-- From the `<` of a tag to its `>`. -/
def Instance.extent (tag : Instance) : Nat × Nat := (tag.start, tag.stop)

theorem isExtent_of_mem_tags {content : List Char} {imports : Table String String} {tag : Instance}
    (h : tag ∈ scanInstances content imports) : IsExtent content tag.extent := by
  obtain ⟨span, hspan, rfl⟩ := List.mem_map.1 h
  obtain ⟨-, -, -, -, hcloses⟩ := span_written hspan
  obtain ⟨f, hfound, hstop⟩ := List.mem_filterMap.1 hspan
  obtain ⟨stop, -, rfl⟩ := Option.map_eq_some_iff.1 hstop
  obtain ⟨_, _, _, -, -, hbody⟩ := exists_read_of_mem hfound
  have horder : f.stop ≤ stop := hcloses.behind
  have hinside : stop < content.length := (List.getElem?_eq_some_iff.1 hcloses.angle).1
  exact ⟨show f.start ≤ stop by omega, hinside⟩

/-! ## Import statements -/

section

variable {text rest : List Char}

theorem isSuffix_of_braced? {inner : List Char} (h : braced? text = some (inner, rest)) :
    rest <:+ text := by
  unfold braced? at h
  split at h
  · rename_i tail
    simp only [run] at h
    split at h
    · rename_i rest' hdrop
      cases h
      exact ((List.suffix_cons _ _).trans (hdrop ▸ List.dropWhile_suffix _)).trans
        (List.suffix_cons _ tail)
    · cases h
  · cases h

theorem isSuffix_of_extentClause? (h : extentClause? text = some rest) : rest <:+ text := by
  unfold extentClause? at h
  split at h
  · rename_i hbraced
    cases h
    exact isSuffix_of_braced? hbraced
  · obtain ⟨⟨word, _⟩, hrun, rfl⟩ := Option.map_eq_some_iff.1 h
    exact isSuffix_of_run1? hrun

theorem isSuffix_of_secondClause? (h : secondClause? text = some rest) : rest <:+ text := by
  unfold secondClause? at h
  split at h
  · rename_i tail hskip
    have hclause := (isSuffix_of_extentClause? h).trans (List.dropWhile_suffix _)
    have hcomma : ',' :: tail <:+ text := hskip ▸ List.dropWhile_suffix _
    exact (hclause.trans (List.suffix_cons ',' tail)).trans hcomma
  · cases h
    exact List.suffix_rfl

theorem isSuffix_of_fromSource? {source : List Char} (h : fromSource? text = some (source, rest)) :
    rest <:+ text := by
  simp only [fromSource?, Option.bind_eq_bind, Option.bind_eq_some_iff] at h
  obtain ⟨text1, h1, text2, h2, text3, h3, text4, h4, ⟨_, text5⟩, h5, text6, h6, hrest⟩ := h
  cases hrest
  calc rest <:+ text5 := isSuffix_of_one? h6
    _ <:+ text4 := isSuffix_of_run1? h5
    _ <:+ text3 := isSuffix_of_one? h4
    _ <:+ text2 := isSuffix_of_blanks1? h3
    _ <:+ text1 := isSuffix_of_after? h2
    _ <:+ text := isSuffix_of_blanks1? h1

theorem skipSemicolon_isSuffix (text : List Char) : skipSemicolon text <:+ text := by
  unfold skipSemicolon
  split
  · rename_i tail hskip
    exact (List.suffix_cons ';' tail).trans (hskip ▸ List.dropWhile_suffix _)
  · exact List.suffix_rfl

/-- Of a statement at least the word `import` is read. -/
theorem importExtent?_length_lt {source : String} (h : importExtent? text = some (source, rest)) :
    rest.length < text.length := by
  simp only [importExtent?, importWord?, Option.bind_eq_bind, Option.bind_eq_some_iff] at h
  obtain ⟨text2, ⟨text1, h1, h2⟩, text3, h3, text4, h4, ⟨_, text5⟩, h5, hrest⟩ := h
  cases hrest
  have hsuffix : skipSemicolon text5 <:+ text1 :=
    calc skipSemicolon text5 <:+ text5 := skipSemicolon_isSuffix text5
      _ <:+ text4 := isSuffix_of_fromSource? h5
      _ <:+ text3 := isSuffix_of_secondClause? h4
      _ <:+ text2 := isSuffix_of_extentClause? h3
      _ <:+ text1 := isSuffix_of_blanks1? h2
  have hlength := hsuffix.length_le
  rw [after?_eq_some_iff.1 h1, List.length_append]
  simp only [List.length_cons, List.length_nil]
  omega

end

theorem isExtent_of_mem_imports {content : List Char} {tracked : Tracked} {span : Nat × Nat}
    (h : span ∈ trackedImportSpans content tracked) : IsExtent content span := by
  obtain ⟨f, hf, hspan⟩ := List.mem_filterMap.1 h
  obtain ⟨hstart, hstop⟩ := bounds_of_mem (fun _ _ _ => importExtent?_length_lt) hf
  split at hspan
  · cases hspan
    exact ⟨by simp only; omega, by simp only; omega⟩
  · cases hspan

end UsageCensus.Source
