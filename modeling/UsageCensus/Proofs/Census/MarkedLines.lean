import Mathlib.Data.Finset.Card
import UsageCensus.Proofs.Census.Ownership
import UsageCensus.Proofs.Source.Extents

/-!
# Lines marked character by character

The lines of imports and tags can be counted without an index: mark every character of an import or
a tag, and count the lines that have a marked character (`markedLines`). The lines of a file are
counted as if they had been marked in this way (`lines_marked`), because a span is never empty and
from its first line to its last no line is left out.
-/

namespace UsageCensus.Census

open UsageCensus.Number UsageCensus.Source UsageCensus.Text

/-- The lines with a character that stands in one of the spans, which include both of their ends. -/
def markedLines (content : List Char) (spans : List (Nat × Nat)) : Finset Nat :=
  ((Finset.range content.length).filter fun offset =>
    ∃ span ∈ spans, span.1 ≤ offset ∧ offset ≤ span.2).image
      fun offset => lineNumber content (Int.ofNat offset)

section

variable {content : List Char} {spans others : List (Nat × Nat)} {line : Nat}

theorem mem_markedLines : line ∈ markedLines content spans ↔ ∃ span ∈ spans, ∃ offset,
    offset < content.length ∧ span.1 ≤ offset ∧ offset ≤ span.2 ∧
      lineNumber content (Int.ofNat offset) = line := by
  simp only [markedLines, Finset.mem_image, Finset.mem_filter, Finset.mem_range]
  constructor
  · rintro ⟨offset, ⟨hlength, span, hspan, hfirst, hlast⟩, hline⟩
    exact ⟨span, hspan, offset, hlength, hfirst, hlast, hline⟩
  · rintro ⟨span, hspan, offset, hlength, hfirst, hlast, hline⟩
    exact ⟨offset, ⟨hlength, span, hspan, hfirst, hlast⟩, hline⟩

theorem markedLines_append :
    markedLines content (spans ++ others) = markedLines content spans ∪ markedLines content others := by
  ext line
  simp only [Finset.mem_union, mem_markedLines, List.mem_append, or_and_right, exists_or]

theorem markedLines_mono (h : spans ⊆ others) :
    markedLines content spans ⊆ markedLines content others := by
  intro line hline
  obtain ⟨span, hspan, hoffset⟩ := mem_markedLines.1 hline
  exact mem_markedLines.2 ⟨span, h hspan, hoffset⟩

/-! ## Marking and counting by index -/

/-- The lines between the ends of a span are those of its characters. -/
theorem mem_linesBetween_extent {span : Nat × Nat} (h : IsExtent content span) :
    line ∈ (LineIndex.ofText content).linesBetween span.1 span.2
      ↔ ∃ offset, offset < content.length ∧ span.1 ≤ offset ∧ offset ≤ span.2 ∧
        lineNumber content (Int.ofNat offset) = line := by
  obtain ⟨horder, hinside⟩ := h
  rw [LineIndex.mem_linesBetween_iff_exists (by omega)]
  constructor
  · rintro ⟨offset, hfirst, hlast, hline⟩
    obtain ⟨offset, rfl⟩ := Int.eq_ofNat_of_zero_le (show 0 ≤ offset by omega)
    exact ⟨offset, by omega, by omega, by omega, hline⟩
  · rintro ⟨offset, -, hfirst, hlast, hline⟩
    exact ⟨Int.ofNat offset, by simpa using hfirst, by simpa using hlast, hline⟩

theorem toFinset_linesOfSpans (h : ∀ span ∈ spans, IsExtent content span) :
    (linesOfSpans (.ofText content) spans).toFinset = markedLines content spans := by
  ext line
  rw [List.mem_toFinset, linesOfSpans, List.mem_eraseDups, List.mem_flatMap, mem_markedLines]
  refine exists_congr fun span => and_congr_right fun hspan => ?_
  exact mem_linesBetween_extent (h span hspan)

theorem length_eraseDups (items : List Nat) : items.eraseDups.length = items.toFinset.card := by
  rw [← List.toFinset_card_of_nodup (nodup_eraseDups items)]
  congr 1
  ext line
  simp only [List.mem_toFinset, List.mem_eraseDups]

theorem length_linesOfSpans (h : ∀ span ∈ spans, IsExtent content span) :
    (linesOfSpans (.ofText content) spans).length = (markedLines content spans).card := by
  rw [← toFinset_linesOfSpans h, linesOfSpans, List.toFinset_card_of_nodup (nodup_eraseDups _)]

end

/-! ## Tags by component -/

def ownTags (component : String) (tags : List Instance) : List Instance :=
  tags.filter fun tag => tag.component == component

theorem ownTags_concat (component : String) (tags : List Instance) (tag : Instance) :
    ownTags component (tags ++ [tag])
      = ownTags component tags ++ if tag.component = component then [tag] else [] := by
  rw [ownTags, List.filter_append, List.filter_singleton]
  by_cases h : tag.component = component
  · rw [beq_iff_eq.2 h, if_pos h]
    rfl
  · rw [beq_eq_false_iff_ne.2 h, if_neg h]
    rfl

theorem ownTags_eq_nil {component : String} {tags : List Instance}
    (h : ¬∃ tag ∈ tags, tag.component = component) : ownTags component tags = [] := by
  rw [ownTags, List.filter_eq_nil_iff]
  intro tag htag hsame
  exact h ⟨tag, htag, beq_iff_eq.1 hsame⟩

/-- The tags of each component are its own, from left to right. -/
theorem get?_tagsByComponent (tags : List Instance) (component : String) :
    (tagsByComponent tags).get? component
      = if ∃ tag ∈ tags, tag.component = component then
          some ((ownTags component tags).map Instance.extent)
        else none := by
  induction tags using List.reverseRecOn with
  | nil => simp [tagsByComponent, Table.get?, Table.empty]
  | append_singleton tags tag ih =>
    have hupdate : tagsByComponent (tags ++ [tag])
        = (tagsByComponent tags).update tag.component fun spans =>
          spans.getD [] ++ [tag.extent] := by
      rw [tagsByComponent, List.foldl_append]
      rfl
    have hbefore : ((tagsByComponent tags).get? component).getD []
        = (ownTags component tags).map Instance.extent := by
      rw [ih]
      split
      · rfl
      · rename_i hnone
        rw [ownTags_eq_nil hnone]
        rfl
    rw [hupdate, Table.get?_update, ownTags_concat]
    by_cases h : component = tag.component
    · subst h
      rw [if_pos rfl, if_pos ⟨tag, by simp, rfl⟩, if_pos rfl, hbefore, List.map_append]
      rfl
    · rw [if_neg h, ih, if_neg (Ne.symm h), List.append_nil]
      simp [Ne.symm h]

/-- A set is no larger than all of the sets together that its members are in. -/
theorem card_le_sumOf {α : Type} {s : Finset Nat} {items : List α} {f : α → Finset Nat}
    (h : ∀ n ∈ s, ∃ a ∈ items, n ∈ f a) : s.card ≤ sumOf (fun a => (f a).card) items := by
  induction items generalizing s with
  | nil =>
    have hempty : s = ∅ := Finset.eq_empty_of_forall_notMem fun n hn => by
      obtain ⟨a, ha, -⟩ := h n hn
      cases ha
    rw [hempty]
    exact Nat.le_refl 0
  | cons a items ih =>
    have hrest : (s \ f a).card ≤ sumOf (fun a => (f a).card) items := by
      apply ih
      intro n hn
      obtain ⟨hs, hna⟩ := Finset.mem_sdiff.1 hn
      obtain ⟨b, hb, hnb⟩ := h n hs
      rcases List.mem_cons.1 hb with rfl | hb
      · exact absurd hnb hna
      · exact ⟨b, hb, hnb⟩
    have hsplit := Finset.card_le_card_sdiff_add_card (s := s) (t := f a)
    rw [sumOf]
    omega

/-! ## The lines of a file -/

/-- Lines are counted as if the characters of the imports and tags had been marked. -/
structure FileLines.IsMarking (content : List Char) (importSpans : List (Nat × Nat))
    (instances : List Instance) (lines : FileLines) : Prop where
  imports : lines.imports = (markedLines content importSpans).card
  tags : lines.tags = (markedLines content (instances.map Instance.extent)).card
  tracked : lines.tracked
    = (markedLines content (importSpans ++ instances.map Instance.extent)).card
  /-- A component that has tags has the lines of its own ones, and another one has no entry. -/
  byComponent : ∀ component, lines.byComponent.get? component
    = if ∃ tag ∈ instances, tag.component = component then
        some (markedLines content ((ownTags component instances).map Instance.extent)).card
      else none

structure FileLines.IsOrdered (lines : FileLines) : Prop where
  parts_le : max lines.imports lines.tags ≤ lines.tracked
  le_parts : lines.tracked ≤ min lines.total (lines.imports + lines.tags)
  component_le : ∀ count ∈ lines.byComponent.values, count ≤ lines.tags
  le_components : lines.tags ≤ lines.byComponent.total

namespace FileLines

variable {content : List Char} {importSpans : List (Nat × Nat)} {instances : List Instance}
  {lines : FileLines}

theorem IsMarking.component_le (h : lines.IsMarking content importSpans instances) {count : Nat}
    (hcount : count ∈ lines.byComponent.values) : count ≤ lines.tags := by
  obtain ⟨component, hget⟩ := Table.mem_values_iff.1 hcount
  rw [h.byComponent] at hget
  split at hget
  · cases hget
    rw [h.tags]
    apply Finset.card_le_card
    exact markedLines_mono (List.map_subset _ List.filter_sublist.subset)
  · cases hget

theorem IsMarking.le_components (h : lines.IsMarking content importSpans instances) :
    lines.tags ≤ lines.byComponent.total := by
  have hkeys : ∀ component ∈ lines.byComponent.keys,
      ((lines.byComponent.get? component).map id).getD 0
        = (markedLines content ((ownTags component instances).map Instance.extent)).card := by
    intro component hkey
    have hsome := mt Table.get?_eq_none_iff.1 (not_not.2 hkey)
    rw [h.byComponent] at hsome ⊢
    split at hsome
    · rename_i hown
      rw [if_pos hown]
      rfl
    · exact absurd rfl hsome
  have hnodup : lines.byComponent.keys.Nodup := lines.byComponent.nodup_keys
  have hsum := Table.sumOf_get? id lines.byComponent hnodup fun _ hkey => hkey
  rw [h.tags, Table.total_eq_sumOf, ← hsum, sumOf_congr hkeys]
  apply card_le_sumOf
  intro line hline
  obtain ⟨span, hspan, hoffset⟩ := mem_markedLines.1 hline
  obtain ⟨tag, htag, rfl⟩ := List.mem_map.1 hspan
  have hkey : tag.component ∈ lines.byComponent.keys := by
    by_contra hnone
    have hget := Table.get?_eq_none_iff.2 hnone
    rw [h.byComponent, if_pos ⟨tag, htag, rfl⟩] at hget
    cases hget
  have hown : tag ∈ ownTags tag.component instances :=
    List.mem_filter.2 ⟨htag, beq_self_eq_true _⟩
  exact ⟨tag.component, hkey, mem_markedLines.2 ⟨tag.extent, List.mem_map_of_mem hown, hoffset⟩⟩

theorem IsMarking.isOrdered (h : lines.IsMarking content importSpans instances)
    (htotal : lines.tracked ≤ lines.total) : lines.IsOrdered := by
  have himports : lines.imports ≤ lines.tracked := by
    rw [h.imports, h.tracked]
    exact Finset.card_le_card (markedLines_mono (List.subset_append_left _ _))
  have htags : lines.tags ≤ lines.tracked := by
    rw [h.tags, h.tracked]
    exact Finset.card_le_card (markedLines_mono (List.subset_append_right _ _))
  have hboth : lines.tracked ≤ lines.imports + lines.tags := by
    rw [h.imports, h.tags, h.tracked, markedLines_append]
    exact Finset.card_union_le _ _
  exact {
    parts_le := Nat.max_le.2 ⟨himports, htags⟩
    le_parts := Nat.le_min.2 ⟨htotal, hboth⟩
    component_le := fun _ => h.component_le
    le_components := h.le_components }

theorem isMarking_measure (content : List Char) (tracked : Tracked) :
    (measure content (.ofText content tracked) tracked).IsMarking content
      (trackedImportSpans content tracked) (FileScan.ofText content tracked).instances := by
  have himports : ∀ span ∈ trackedImportSpans content tracked, IsExtent content span :=
    fun _ => isExtent_of_mem_imports
  have htag : ∀ tag ∈ (FileScan.ofText content tracked).instances, IsExtent content tag.extent :=
    fun _ => isExtent_of_mem_tags
  have htags : ∀ span ∈ (FileScan.ofText content tracked).instances.map Instance.extent,
      IsExtent content span := List.forall_mem_map.2 htag
  constructor
  case imports => exact length_linesOfSpans himports
  case tags => exact length_linesOfSpans htags
  case tracked =>
    rw [markedLines_append, ← toFinset_linesOfSpans himports, ← toFinset_linesOfSpans htags,
      ← List.toFinset_append, ← length_eraseDups]
    rfl
  case byComponent =>
    intro component
    have hown : ∀ span ∈ (ownTags component (FileScan.ofText content tracked).instances).map
        Instance.extent, IsExtent content span :=
      List.forall_mem_map.2 fun tag hmem => htag tag (List.mem_of_mem_filter hmem)
    rw [measure, Table.get?_mapValues, get?_tagsByComponent, apply_ite (Option.map _),
      Option.map_some, Option.map_none, ← length_linesOfSpans hown]

end FileLines

/-- The lines of a file are those on which a character of an import or a tag stands, and each count
of them is within the bounds that this sets. -/
theorem lines_marked (content : List Char) (tracked : Tracked) :
    (FileLines.measure content (.ofText content tracked) tracked).IsMarking content
        (trackedImportSpans content tracked) (FileScan.ofText content tracked).instances ∧
      (FileLines.measure content (.ofText content tracked) tracked).IsOrdered := by
  have hmarking := FileLines.isMarking_measure content tracked
  exact ⟨hmarking, hmarking.isOrdered (FileLines.tracked_le_total content tracked)⟩

end UsageCensus.Census
