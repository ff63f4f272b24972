import UsageCensus.Proofs.Source.ImportedNames
import UsageCensus.Proofs.Source.TagSpans
import UsageCensus.Proofs.Text.Lines

/-!
# What a scan reports stands in the text

Of any text, well-formed or not: each instance of a scan is a `<` in the text, a local name of the
file right behind it that stands for the component of the instance, and a `>` further on, and its
line is the one that the `<` is on (`Instance.IsTraceable`). With what holds of the names of the
file this is all that a scan reports (`isTraceable_ofText`).
-/

namespace UsageCensus.Source

open UsageCensus.Text

/-- A span of some text starts with a `<` and one of the names. Where the names hold anything but
word characters, the name need not be the longest word there. -/
theorem span_written {names : List String} {content : List Char} {components : Table String String}
    {span : TagSpan} (h : span ∈ tagSpans names content components) :
    content[span.start]? = some '<' ∧ span.localName ∈ names ∧
      content.extract (span.start + 1) span.bodyStart = span.localName.toList ∧
      span.component = components.getD span.localName span.localName ∧
      ClosesTag content span.bodyStart span.stop := by
  obtain ⟨f, hfound, hspan⟩ := List.mem_filterMap.1 h
  obtain ⟨stop, hstop, rfl⟩ := Option.map_eq_some_iff.1 hspan
  obtain ⟨_, i, rest, hstart, hread, hbody⟩ := exists_read_of_mem hfound
  obtain rfl : f.start = i := by omega
  obtain ⟨_, hsought, hvalue, htext⟩ := mem_of_tagName? hread
  obtain ⟨name, hname, rfl⟩ := List.mem_map.1 hsought
  rw [String.ofList_toList] at hvalue
  obtain ⟨hangle, hbehind⟩ := drop_eq_cons_iff.1 htext
  refine ⟨hangle, ?_, ?_, rfl, (tagEnd?_eq_some_iff.1 hstop).1⟩
  · show f.value ∈ names
    rw [hvalue]
    exact mem_searchOrder.1 hname
  · show content.extract (f.start + 1) f.stop = f.value.toList
    have hlength : f.stop - (f.start + 1) = name.toList.length := by
      rw [hbody, htext, List.length_cons, List.length_append]
      omega
    rw [List.extract_eq_take_drop, hbehind, hlength, List.take_left, hvalue]

/-- An instance stands where it says that it does. -/
structure Instance.IsTraceable (content : List Char) (imports : Table String String)
    (tag : Instance) : Prop where
  opens : content[tag.start]? = some '<'
  /-- What stands behind the `<` is a local name of the component. -/
  named : ∃ name, imports.get? name = some tag.component ∧
    content.extract (tag.start + 1) tag.bodyStart = name.toList
  body : tag.bodyStart ≤ tag.stop
  closes : content[tag.stop]? = some '>'
  line : tag.line = lineNumber content tag.start

theorem isTraceable_of_mem {content : List Char} {imports : Table String String} {tag : Instance}
    (h : tag ∈ scanInstances content imports) : tag.IsTraceable content imports := by
  obtain ⟨span, hspan, rfl⟩ := List.mem_map.1 h
  obtain ⟨hopens, hname, hnamed, hcomponent, hcloses⟩ := span_written hspan
  have hget : imports.get? span.localName = some span.component := by
    obtain ⟨⟨name, component⟩, hentry, rfl⟩ := List.mem_map.1 hname
    rw [hcomponent, Table.getD_of_mem hentry]
    exact Table.get?_eq_some_iff.2 hentry
  exact {
    opens := hopens
    named := ⟨span.localName, hget, hnamed⟩
    body := hcloses.behind
    closes := hcloses.angle
    line := LineIndex.lineAt_ofText content span.start }

theorem pairwise_scanInstances (content : List Char) (imports : Table String String) :
    (scanInstances content imports).Pairwise fun tag later => tag.start < later.start :=
  List.pairwise_map.2 (pairwise_tagSpans imports.keys content imports)

/-- All that a scan of a file reports. -/
structure FileScan.IsTraceable (content : List Char) (tracked : Tracked) (scan : FileScan) :
    Prop where
  imports : ∀ entry ∈ scan.imports.entries, IsImport tracked entry.1 entry.2
  /-- The imported components are what local names stand for, in the order of first occurrence. -/
  imported : ∀ component, component ∈ scan.imported ↔ component ∈ scan.imports.values
  order : scan.imported.Pairwise fun component later =>
    scan.imports.values.idxOf component < scan.imports.values.idxOf later
  instances : ∀ tag ∈ scan.instances, tag.IsTraceable content scan.imports
  fromLeft : scan.instances.Pairwise fun tag later => tag.start < later.start

/-- Whatever stands in a file, all that a scan of it reports stands in the file. -/
theorem isTraceable_ofText (content : List Char) (tracked : Tracked) :
    (FileScan.ofText content tracked).IsTraceable content tracked where
  imports := isImport_of_mem content tracked
  imported _ := List.mem_eraseDups
  order := pairwise_eraseDups _
  instances _ := isTraceable_of_mem
  fromLeft := pairwise_scanInstances content _

end UsageCensus.Source
