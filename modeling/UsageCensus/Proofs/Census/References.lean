import UsageCensus.Proofs.Census.Balance
import UsageCensus.Proofs.Source.Traceable

/-!
# References to instances

The tags that are found in a file are of tracked components (`mem_components_of_mem_instances`),
whatever the file holds, and each tracked component has a report. So no instance is lost: the
report of a component is what the files that import it and its instances make of it
(`get?_ofScans`), and its references are these instances, in the order in which they were found
(`ofScans_spec`).
-/

namespace UsageCensus.Source

open UsageCensus.Text

theorem mem_values_of_mem_scanInstances {content : List Char} {imports : Table String String}
    {tag : Instance} (h : tag ∈ scanInstances content imports) :
    tag.component ∈ imports.values := by
  obtain ⟨name, hname, -⟩ := (isTraceable_of_mem h).named
  exact Table.mem_values_iff.2 ⟨name, hname⟩

theorem mem_components_of_mem_instances {tracked : Tracked} {content : List Char}
    {tag : Instance} (h : tag ∈ (FileScan.ofText content tracked).instances) :
    tag.component ∈ tracked.components := by
  obtain ⟨entry, hentry, hcomponent⟩ := List.mem_map.1 (mem_values_of_mem_scanInstances h)
  rw [← hcomponent]
  exact allTracked_resolveImports content tracked entry hentry

end UsageCensus.Source

namespace UsageCensus.Census

open UsageCensus.Number UsageCensus.Source

/-- An instance and the file that it was found in. -/
structure PlacedTag where
  codebase : String
  file : String
  tag : Instance

def PlacedTag.reference (placed : PlacedTag) : Reference :=
  ⟨placed.file, placed.tag.line, placed.codebase⟩

def placedTags (codebase file : String) (scan : FileScan) : List PlacedTag :=
  scan.instances.map (PlacedTag.mk codebase file)

def allTags (scans : List (String × String × FileScan)) : List PlacedTag :=
  scans.flatMap fun (codebase, file, scan) => placedTags codebase file scan

def referencesTo (component : String) (placed : List PlacedTag) : List Reference :=
  (placed.filter fun found => found.tag.component == component).map PlacedTag.reference

theorem referencesTo_append (component : String) (placed more : List PlacedTag) :
    referencesTo component (placed ++ more)
      = referencesTo component placed ++ referencesTo component more := by
  rw [referencesTo, List.filter_append, List.map_append]
  rfl

def tagsOf (component : String) (placed : List PlacedTag) : List PlacedTag :=
  placed.filter fun found => found.tag.component == component

/-- The codebases of the files that import a component, one for each file. -/
def importersOf (component : String) (scans : List (String × String × FileScan)) : List String :=
  (scans.filter fun scan => decide (component ∈ scan.2.2.imported)).map Prod.fst

/-! ## One report -/

/-- The usage of the props that attributes set, one after the other. -/
def usageOf (attributes : List Attribute) : Table String PropUsage :=
  attributes.foldl (fun props a => props.update a.name fun usage =>
    (usage.getD .empty).add (PropValue.aggregationKey a.value)) .empty

namespace ComponentReport

/-- The report of a component that files of the given codebases import and that has the given
tags. -/
def ofTags (component : String) (importers : List String) (tags : List PlacedTag) :
    ComponentReport where
  component := component
  imports := importers.length
  instances := tags.length
  props := usageOf (tags.flatMap fun found => found.tag.attributes)
  codebaseImports := .tally importers
  codebaseInstances := .tally (tags.map PlacedTag.codebase)
  references := tags.map PlacedTag.reference
  defaultUsages := 0

variable (component : String) (importers : List String) (tags : List PlacedTag)

theorem addImport_ofTags (codebase : String) :
    (ofTags component importers tags).addImport codebase
      = ofTags component (importers ++ [codebase]) tags := by
  unfold addImport ofTags
  simp only [List.length_append, List.length_singleton, Table.tally, List.foldl_append,
    List.foldl_cons, List.foldl_nil]

theorem foldl_addProp (attributes : List Attribute) (report : ComponentReport) :
    attributes.foldl (fun report a => report.addProp a.name a.value) report
      = { report with
          props := attributes.foldl (fun props a => props.update a.name fun usage =>
            (usage.getD .empty).add (PropValue.aggregationKey a.value)) report.props } := by
  induction attributes generalizing report with
  | nil => rfl
  | cons a attributes ih => exact ih (report.addProp a.name a.value)

theorem addInstance_ofTags (codebase file : String) (tag : Instance) :
    (ofTags component importers tags).addInstance codebase file tag
      = ofTags component importers (tags ++ [⟨codebase, file, tag⟩]) := by
  unfold addInstance ofTags
  simp only [foldl_addProp, List.length_append, List.length_singleton, List.map_append,
    List.map_cons, List.map_nil, List.flatMap_append, List.flatMap_singleton, Table.tally, usageOf,
    List.foldl_append, List.foldl_cons, List.foldl_nil]
  rfl

theorem foldl_addInstance (codebase file : String) (more : List Instance) :
    more.foldl (fun report tag => report.addInstance codebase file tag)
        (ofTags component importers tags)
      = ofTags component importers (tags ++ more.map (PlacedTag.mk codebase file)) := by
  induction more generalizing tags with
  | nil => rw [List.map_nil, List.append_nil, List.foldl_nil]
  | cons tag more ih =>
    rw [List.foldl_cons, addInstance_ofTags, ih, List.append_assoc, List.singleton_append,
      List.map_cons]

end ComponentReport

namespace ComponentReports

variable {reports : ComponentReports}

/-- The references of a component's report; none where there is no report. -/
def references (reports : ComponentReports) (component : String) : List Reference :=
  ((reports.get? component).map ComponentReport.references).getD []

theorem references_of_get? {component : String} {report : ComponentReport}
    (h : reports.get? component = some report) :
    references reports component = report.references := by
  rw [references, h]
  rfl

theorem IsBalanced.length_references {detected : List (Detection Nat)}
    (h : reports.IsBalanced detected) (component : String) :
    (reports.references component).length
      = ((reports.get? component).map ComponentReport.instances).getD 0 := by
  rw [references]
  cases hget : reports.get? component with
  | none => rfl
  | some report => exact (h.get? hget).references.symm

/-! ## Imports of a file -/

def addImports (codebase : String) (reports : ComponentReports) (imported : List String) :
    ComponentReports :=
  imported.foldl (fun reports component => reports.update component fun report =>
    (report.getD (.unused component)).addImport codebase) reports

theorem get?_addImports (codebase : String) (reports : ComponentReports) {imported : List String}
    (h : imported.Nodup) (component : String) :
    (addImports codebase reports imported).get? component
      = if component ∈ imported then
          some (((reports.get? component).getD (.unused component)).addImport codebase)
        else reports.get? component := by
  unfold addImports
  induction imported generalizing reports with
  | nil => rfl
  | cons first imported ih =>
    obtain ⟨hfirst, himported⟩ := List.nodup_cons.1 h
    rw [List.foldl_cons, ih _ himported, Table.get?_update]
    by_cases hcomponent : component = first
    · subst hcomponent
      rw [if_neg hfirst, if_pos rfl, if_pos List.mem_cons_self]
    · simp only [List.mem_cons, hcomponent, false_or, if_false]

/-! ## Instances of a file -/

/-- The instances of a file, as far as there are reports. -/
def addInstances (codebase file : String) (reports : ComponentReports) (tags : List Instance) :
    ComponentReports :=
  tags.foldl (fun reports tag => match reports.get? tag.component with
    | some report => reports.insert tag.component (report.addInstance codebase file tag)
    | none => reports) reports

theorem addFile_eq (reports : ComponentReports) (codebase file : String) (scan : FileScan) :
    reports.addFile codebase file scan
      = addInstances codebase file (addImports codebase reports scan.imported)
        scan.instances := rfl

/-- The report of a component, if there is one, takes the instances of the component. -/
theorem get?_addInstances (codebase file : String) (reports : ComponentReports)
    (tags : List Instance) (component : String) :
    (addInstances codebase file reports tags).get? component
      = (reports.get? component).map fun report =>
        (tags.filter fun tag => tag.component == component).foldl
          (fun report tag => report.addInstance codebase file tag) report := by
  unfold addInstances
  induction tags generalizing reports with
  | nil => exact Option.map_id'.symm
  | cons tag tags ih =>
    rw [List.foldl_cons, ih]
    by_cases hcomponent : tag.component = component
    · subst hcomponent
      rw [List.filter_cons_of_pos (by simp)]
      cases hget : reports.get? tag.component with
      | none => simp only [hget, Option.map_none]
      | some report =>
        simp only [Table.insert, Table.get?_update, if_true, Option.map_some, List.foldl_cons]
    · have hne : ¬component = tag.component := Ne.symm hcomponent
      rw [List.filter_cons_of_neg (by simpa using hcomponent)]
      cases hget : reports.get? tag.component with
      | none => rfl
      | some report => simp only [Table.insert, Table.get?_update, if_neg hne]

/-! ## Scans -/

def ofScans (components : List String) (scans : List (String × String × FileScan)) :
    ComponentReports :=
  scans.foldl (fun reports (codebase, file, scan) => reports.addFile codebase file scan)
    (.seed components)

/-- The scan finds and imports tracked components only. -/
def IsTracked (components : List String) (scan : FileScan) : Prop :=
  (∀ component ∈ scan.imported, component ∈ components) ∧
    ∀ tag ∈ scan.instances, tag.component ∈ components

theorem isTracked_ofText (content : List Char) (tracked : Tracked) :
    IsTracked tracked.components (.ofText content tracked) :=
  ⟨fun _ => mem_components_of_imported, fun _ => mem_components_of_mem_instances⟩

theorem mem_components_of_mem_allTags {components : List String}
    {scans : List (String × String × FileScan)}
    (h : ∀ scan ∈ scans, IsTracked components scan.2.2) {found : PlacedTag}
    (hfound : found ∈ allTags scans) : found.tag.component ∈ components := by
  obtain ⟨scan, hscan, hfound⟩ := List.mem_flatMap.1 hfound
  obtain ⟨tag, htag, rfl⟩ := List.mem_map.1 hfound
  exact (h scan hscan).2 tag htag

/-- There is a report for every component, made by its imports and its instances in the scans. -/
theorem get?_ofScans {components : List String} {scans : List (String × String × FileScan)}
    (h : ∀ scan ∈ scans, IsTracked components scan.2.2) (component : String) :
    (ofScans components scans).get? component
      = if component ∈ components then
          some (.ofTags component (importersOf component scans) (tagsOf component (allTags scans)))
        else none := by
  induction scans using List.reverseRecOn with
  | nil => exact Table.get?_ofPairs_map ComponentReport.unused components component
  | append_singleton scans scan ih =>
    obtain ⟨codebase, file, scan⟩ := scan
    have hscan := h (codebase, file, scan) (List.mem_append_right _ List.mem_cons_self)
    have ih := ih fun scan hscan => h scan (List.mem_append_left _ hscan)
    have hstep : ofScans components (scans ++ [(codebase, file, scan)])
        = (ofScans components scans).addFile codebase file scan := by
      rw [ofScans, List.foldl_append]
      rfl
    have hnodup : scan.imported.Nodup := nodup_eraseDups _
    rw [hstep, addFile_eq, get?_addInstances, get?_addImports codebase _ hnodup, ih]
    by_cases hcomponent : component ∈ components
    · have himporters : importersOf component (scans ++ [(codebase, file, scan)])
          = importersOf component scans ++ if component ∈ scan.imported then [codebase] else [] := by
        rw [importersOf, List.filter_append, List.map_append]
        by_cases himported : component ∈ scan.imported <;> simp [himported, importersOf]
      have htags : tagsOf component (allTags (scans ++ [(codebase, file, scan)]))
          = tagsOf component (allTags scans) ++ (scan.instances.filter fun tag =>
            tag.component == component).map (PlacedTag.mk codebase file) := by
        rw [tagsOf, allTags, List.flatMap_append, List.filter_append, List.flatMap_singleton]
        exact congrArg _ List.filter_map
      rw [if_pos hcomponent, if_pos hcomponent, himporters, htags]
      by_cases himported : component ∈ scan.imported
      · rw [if_pos himported, if_pos himported, Option.map_some, Option.getD_some,
          ComponentReport.addImport_ofTags, ComponentReport.foldl_addInstance]
      · rw [if_neg himported, if_neg himported, Option.map_some, List.append_nil,
          ComponentReport.foldl_addInstance]
    · have himported : component ∉ scan.imported := fun hmem => hcomponent (hscan.1 _ hmem)
      rw [if_neg hcomponent, if_neg hcomponent, if_neg himported]
      rfl

theorem ofScans_spec (components : List String) (scans : List (String × String × FileScan))
    (h : ∀ scan ∈ scans, IsTracked components scan.2.2) (component : String) :
    (component ∈ (ofScans components scans).keys ↔ component ∈ components) ∧
      references (ofScans components scans) component
        = referencesTo component (allTags scans) := by
  have hget := get?_ofScans h component
  by_cases hcomponent : component ∈ components
  · rw [if_pos hcomponent] at hget
    have hkey : component ∈ (ofScans components scans).keys := by
      by_contra hkey
      rw [Table.get?_eq_none_iff.2 hkey] at hget
      cases hget
    exact ⟨iff_of_true hkey hcomponent, references_of_get? hget⟩
  · rw [if_neg hcomponent] at hget
    have hnone : tagsOf component (allTags scans) = [] := by
      apply List.filter_eq_nil_iff.2
      intro found hfound hname
      apply hcomponent
      rw [← eq_of_beq hname]
      exact mem_components_of_mem_allTags h hfound
    refine ⟨iff_of_false (Table.get?_eq_none_iff.1 hget) hcomponent, ?_⟩
    rw [references, hget]
    exact (congrArg (List.map PlacedTag.reference) hnone).symm

theorem isBalanced_ofScans (components : List String)
    (scans : List (String × String × FileScan)) : (ofScans components scans).IsBalanced [] := by
  unfold ofScans
  apply List.foldlRecOn (motive := fun reports : ComponentReports => reports.IsBalanced [])
  · exact isBalanced_seed components
  · exact fun reports h scan _ => h.addFile scan.1 scan.2.1 scan.2.2

/-! ## Counts -/

/-- What a report counts of its references, the reports together count of all instances. -/
theorem sumOf_ofScans {components : List String} {scans : List (String × String × FileScan)}
    (h : ∀ scan ∈ scans, IsTracked components scan.2.2) {count : ComponentReport → Nat}
    {p : Reference → Bool} (hcount : ∀ entry ∈ (ofScans components scans).entries,
      count entry.2 = entry.2.references.countP p) :
    sumOf count (ofScans components scans).values
      = (allTags scans).countP fun found => p found.reference := by
  have hreferences : ∀ entry ∈ (ofScans components scans).entries, count entry.2
      = ((allTags scans).filter fun found => p found.reference).countP
        fun found => found.tag.component == entry.1 := by
    intro entry hentry
    have hentries : references (ofScans components scans) entry.1 = entry.2.references :=
      references_of_get? (Table.get?_eq_some_iff.2 hentry)
    rw [hcount entry hentry, ← hentries, (ofScans_spec components scans h entry.1).2,
      referencesTo, List.countP_map, List.countP_filter, List.countP_filter]
    exact List.countP_congr fun found _ => by rw [Bool.and_comm]; rfl
  have hkeys : ∀ found ∈ (allTags scans).filter fun found => p found.reference,
      found.tag.component ∈ (ofScans components scans).keys := by
    intro found hfound
    exact (ofScans_spec components scans h found.tag.component).1.2
      (mem_components_of_mem_allTags h (List.mem_filter.1 hfound).1)
  rw [List.countP_eq_length_filter, ← sumOf_countP (ofScans components scans).nodup_keys hkeys,
    Table.values, sumOf_map, sumOf_map]
  exact sumOf_congr hreferences

end ComponentReports

end UsageCensus.Census
