import Mathlib.Data.List.Sort
import UsageCensus.Proofs.Source.ImportedNames
import UsageCensus.Proofs.Source.TagSpans
import UsageCensus.Source.Style

/-!
# Inline styles of imported components

Styles are read from the tags of all tracked components, imported or not, and the instances of a
file from the tags of the names it imports. Seeking more names neither hides a tag nor cuts it at
another place (`tagSpans_eq_filter`). So in a file that renames no import, the `style` attributes
of the instances are the inline styles of the imported components (`styles_eq_inlineStyles`).
-/

namespace UsageCensus.Source

open UsageCensus.Text

/-! ## Seeking fewer names -/

section

variable {names all : List String} {content : List Char} {components : Table String String}

/-- The tags of fewer names that stand for themselves are those tags of all the names. -/
theorem isTagSpan_iff_of_subset (hsubset : names ⊆ all)
    (hself : ∀ name ∈ names, components.getD name name = name) {span : TagSpan} :
    IsTagSpan names content components span
      ↔ IsTagSpan all content .empty span ∧ span.component ∈ names := by
  constructor
  · rintro ⟨hangle, hword, hsought, hcomponent, hbody, hstop⟩
    rw [hself _ hsought] at hcomponent
    exact ⟨⟨hangle, hword, hsubset hsought, hcomponent, hbody, hstop⟩, hcomponent ▸ hsought⟩
  · rintro ⟨⟨hangle, hword, -, hcomponent, hbody, hstop⟩, hmem⟩
    have hname : span.component = span.localName := hcomponent
    rw [hname] at hmem
    exact ⟨hangle, hword, hmem, by rw [hself _ hmem, hname], hbody, hstop⟩

/-- Lists of spans in the order of the text are equal where they have the same spans. -/
theorem eq_of_mem_spans_iff {spans others : List TagSpan}
    (hspans : spans.Pairwise fun span later => span.start < later.start)
    (hothers : others.Pairwise fun span later => span.start < later.start)
    (h : ∀ span, span ∈ spans ↔ span ∈ others) : spans = others := by
  have : Std.Irrefl fun span later : TagSpan => span.start < later.start :=
    ⟨fun span => Nat.lt_irrefl span.start⟩
  have : Std.Antisymm fun span later : TagSpan => span.start < later.start :=
    ⟨fun span later hlt hgt => absurd hgt (Nat.lt_asymm hlt)⟩
  exact hspans.eq_of_mem_iff hothers h

theorem tagSpans_eq_filter (hall : ∀ name ∈ all, IsTagName name) (hsubset : names ⊆ all)
    (hself : ∀ name ∈ names, components.getD name name = name) :
    tagSpans names content components
      = (tagSpans all content .empty).filter fun span => decide (span.component ∈ names) := by
  have hnames : ∀ name ∈ names, IsTagName name := fun name hname => hall name (hsubset hname)
  refine eq_of_mem_spans_iff (pairwise_tagSpans _ _ _) ((pairwise_tagSpans _ _ _).filter _) ?_
  intro span
  rw [List.mem_filter, decide_eq_true_iff, mem_tagSpans_iff hnames, mem_tagSpans_iff hall]
  exact isTagSpan_iff_of_subset hsubset hself

end

/-! ## Styles of instances -/

/-- The `style` attributes of a tag, each with the component and the line of the tag. -/
def Instance.styles (tag : Instance) : List (String × String × Nat) :=
  (tag.attributes.filter fun a => decide (a.name = "style")).map fun a =>
    (tag.component, a.value, tag.line)

/-- Where an inline style stands and what it holds. -/
def InlineStyle.entry (style : InlineStyle) : String × String × Nat :=
  (style.component, style.content, style.line)

/-- Every style of a tag is of the component of the tag. -/
theorem component_of_ofAttribute? {component : String} {line : Nat} {a : Attribute}
    {style : InlineStyle} (h : InlineStyle.ofAttribute? component line a = some style) :
    style.component = component := by
  unfold InlineStyle.ofAttribute? at h
  split at h
  · cases h
    rfl
  · cases h

theorem Instance.map_entry_styles (tag : Instance) :
    (tag.attributes.filterMap (InlineStyle.ofAttribute? tag.component tag.line)).map
      InlineStyle.entry = tag.styles := by
  unfold Instance.styles
  induction tag.attributes with
  | nil => rfl
  | cons a attributes ih =>
    by_cases h : a.name = "style"
    · simp [InlineStyle.ofAttribute?, InlineStyle.entry, h, ih]
    · simp [InlineStyle.ofAttribute?, h, ih]

/-- Of the inline styles on a tag, all are of kept components or none. -/
theorem Instance.filter_styles (tag : Instance) (keep : String → Bool) :
    ((tag.attributes.filterMap (InlineStyle.ofAttribute? tag.component tag.line)).filter
      fun style => keep style.component).map InlineStyle.entry
      = if keep tag.component then tag.styles else [] := by
  have hcomponent : ∀ style ∈ tag.attributes.filterMap
      (InlineStyle.ofAttribute? tag.component tag.line), style.component = tag.component := by
    intro style hstyle
    obtain ⟨a, -, ha⟩ := List.mem_filterMap.1 hstyle
    exact component_of_ofAttribute? ha
  split
  · rename_i hkeep
    rw [List.filter_eq_self.2 fun style hstyle => by rw [hcomponent style hstyle, hkeep],
      tag.map_entry_styles]
  · rename_i hkeep
    rw [List.filter_eq_nil_iff.2 fun style hstyle => by rwa [hcomponent style hstyle],
      List.map_nil]

/-- The inline styles of the components that are kept stand on the tags of these. -/
theorem filter_inlineStyles (content : List Char) (tracked : Tracked) (keep : String → Bool) :
    ((inlineStyles content tracked).filter fun style => keep style.component).map InlineStyle.entry
      = (((tagSpans tracked.components content .empty).filter fun span => keep span.component).map
          (Instance.ofSpan content (.ofText content))).flatMap Instance.styles := by
  unfold inlineStyles
  dsimp only
  induction tagSpans tracked.components content .empty with
  | nil => rfl
  | cons span spans ih =>
    have hcomponent : (Instance.ofSpan content (.ofText content) span).component = span.component :=
      rfl
    rw [List.flatMap_cons, List.filter_append, List.map_append, ih, Instance.filter_styles,
      hcomponent, List.filter_cons]
    split
    · rw [List.map_cons, List.flatMap_cons]
    · rw [List.nil_append]

/-! ## Files that rename no import -/

section

variable {content : List Char} {tracked : Tracked}
  (hself : ∀ entry ∈ (FileScan.ofText content tracked).imports.entries, entry.1 = entry.2)

include hself

theorem keys_subset_components :
    (FileScan.ofText content tracked).imports.keys ⊆ tracked.components := by
  intro name hname
  obtain ⟨entry, hentry, rfl⟩ := List.mem_map.1 hname
  rw [hself entry hentry]
  exact (isImport_of_mem content tracked entry hentry).component

theorem mem_imported_iff_of_self {name : String} :
    name ∈ (FileScan.ofText content tracked).imported
      ↔ name ∈ (FileScan.ofText content tracked).imports.keys := by
  rw [FileScan.imported, List.mem_eraseDups, Table.values, Table.keys, List.map_congr_left hself]

theorem getD_of_self {name : String}
    (hname : name ∈ (FileScan.ofText content tracked).imports.keys) :
    (FileScan.ofText content tracked).imports.getD name name = name := by
  obtain ⟨entry, hentry, rfl⟩ := List.mem_map.1 hname
  rw [Table.getD_of_mem hentry, hself entry hentry]

/-- The `style` attributes of the instances of a file that renames no import are the inline styles
of the imported components, in the order of the text. -/
theorem styles_eq_inlineStyles (hnames : ∀ name ∈ tracked.components, IsTagName name) :
    (FileScan.ofText content tracked).instances.flatMap Instance.styles
      = ((inlineStyles content tracked).filter fun style =>
          decide (style.component ∈ (FileScan.ofText content tracked).imported)).map
        InlineStyle.entry := by
  have hspans : tagSpans (FileScan.ofText content tracked).imports.keys content
      (FileScan.ofText content tracked).imports
      = (tagSpans tracked.components content .empty).filter fun span =>
          decide (span.component ∈ (FileScan.ofText content tracked).imported) := by
    simp only [mem_imported_iff_of_self hself]
    exact tagSpans_eq_filter hnames (keys_subset_components hself) fun name => getD_of_self hself
  calc (FileScan.ofText content tracked).instances.flatMap Instance.styles
      = ((tagSpans (FileScan.ofText content tracked).imports.keys content
          (FileScan.ofText content tracked).imports).map
            (Instance.ofSpan content (.ofText content))).flatMap Instance.styles := rfl
    _ = _ := by
      rw [hspans]
      exact (filter_inlineStyles content tracked fun component =>
        decide (component ∈ (FileScan.ofText content tracked).imported)).symm

end

/-- A tag of an imported component, and one of a component that is tracked but not imported. -/
def partlyImported : List Char :=
  "import \x7b Card \x7d from 'ui'\n<CardRow style=\x7ba\x7d/>\n<Card style='b' style=\x7bc\x7d>".toList

def cardsAndRows : Tracked := .ofLists ["ui"] [] ["Card", "CardRow"] "UI"

theorem styles_eq_inlineStyles_partlyImported :
    (∀ entry ∈ (FileScan.ofText partlyImported cardsAndRows).imports.entries, entry.1 = entry.2) ∧
      (∀ name ∈ cardsAndRows.components, IsTagName name) ∧
      ((inlineStyles partlyImported cardsAndRows).filter fun style => decide (style.component
        ∈ (FileScan.ofText partlyImported cardsAndRows).imported)).map InlineStyle.entry
        = [("Card", "'b'", 3), ("Card", "c", 3)] := by
  have hself : ∀ entry ∈ (FileScan.ofText partlyImported cardsAndRows).imports.entries,
      entry.1 = entry.2 := by decide +kernel
  have hnames : ∀ name ∈ cardsAndRows.components, IsTagName name := by decide +kernel
  refine ⟨hself, hnames, ?_⟩
  rw [← styles_eq_inlineStyles hself hnames]
  decide +kernel

end UsageCensus.Source
