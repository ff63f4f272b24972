import UsageCensus.Proofs.Census.TagCounts
import UsageCensus.Proofs.Report.Combinations
import UsageCensus.Proofs.Report.Records

/-!
# The sheet of components

The sheet has one row for each tracked component, most instances first, with a column of imports
and one of instances for each codebase (`components_summary`). Where each codebase with a file has
its columns, they add up to the totals of the row, and the text of the sheet is read back as these
rows, whatever names components and codebases have (`component_columns_add_up`).
-/

namespace UsageCensus

open UsageCensus.Number

namespace Census

open UsageCensus.Report UsageCensus.Source

/-! ## Rows -/

/-- A row of the sheet. -/
structure ComponentRow where
  component : String
  imports : Nat
  instances : Nat
  defaultUsages : Nat
  codebaseImports : List Nat
  codebaseInstances : List Nat
  props : Nat
  average : String
  notes : String

/-- A row as it is written. -/
def ComponentRow.record (row : ComponentRow) : List String :=
  [row.component, toString row.imports, toString row.instances, toString row.defaultUsages]
    ++ row.codebaseImports.map toString ++ row.codebaseInstances.map toString
    ++ [toString row.props, row.average, row.notes]

/-- The names of the columns. -/
def componentHeader (codebases : List String) : List String :=
  ["Component", "Total Imports", "Total Instances", "Default Value Usages"]
    ++ codebases.map (fun codebase => codebase ++ " Imports")
    ++ codebases.map (fun codebase => codebase ++ " Instances")
    ++ ["Unique Props", "Avg Props/Instance", "Top 5 Props"]

/-- The props that a row names. -/
def ComponentReport.notes (report : ComponentReport) : List String :=
  ((report.propsByUsage.take listedProps).take Sheet.notedProps.toNat).map fun (name, usage) =>
    name ++ "(" ++ toString usage.total ++ ")"

/-- The row of a component, with columns for the codebases. -/
def ComponentReport.row (codebases : List String) (report : ComponentReport) : ComponentRow where
  component := report.component
  imports := report.imports
  instances := report.instances
  defaultUsages := report.defaultUsages
  codebaseImports := codebases.map fun codebase => report.codebaseImports.getD codebase 0
  codebaseInstances := codebases.map fun codebase => report.codebaseInstances.getD codebase 0
  props := report.props.size
  average := (average 2 report.propUsages report.instances).fixed 2
  notes := "; ".intercalate report.notes

theorem codebaseCounts_entry (report : ComponentReport) (codebases : List String) {key : String}
    {counts : Table String Nat}
    (hmember : report.entry.member key = .ok (Document.ofCounts counts)) :
    Sheet.codebaseCounts report.entry key (codebases.map .string)
      = .ok ((codebases.map fun codebase => counts.getD codebase 0).map toString) := by
  unfold Sheet.codebaseCounts
  rw [List.mapM_map, List.map_map]
  apply mapM_of_forall
  intro codebase _
  have hcell : Csv.cell (((counts.mapValues Document.ofNat).get? codebase).getD (.int 0))
      = toString (counts.getD codebase 0) := by
    rw [Table.get?_mapValues, Table.getD]
    cases counts.get? codebase with
    | none => exact cell_ofNat 0
    | some n => exact cell_ofNat n
  rw [Function.comp_apply, hmember]
  exact congrArg Except.ok hcell

theorem propNote_propEntry (name : String) (usage : PropUsage) :
    Sheet.propNote (ComponentReport.propEntry name usage)
      = .ok (name ++ "(" ++ toString usage.total ++ ")") := by
  have hnumber : (Document.ofNat usage.total).display = toString usage.total := cell_ofNat _
  show Except.ok (name ++ "(" ++ (Document.ofNat usage.total).display ++ ")") = _
  rw [hnumber]

theorem componentRecord_entry (codebases : List String) (report : ComponentReport) :
    Sheet.componentRecord (codebases.map .string) report.entry
      = .ok (report.row codebases).record := by
  have hnotes : (((report.propsByUsage.take ComponentReport.listedProps).map fun (name, usage) =>
      ComponentReport.propEntry name usage).take Sheet.notedProps.toNat).mapM Sheet.propNote
        = .ok report.notes := by
    rw [← List.map_take, List.mapM_map]
    exact mapM_of_forall fun entry _ => propNote_propEntry entry.1 entry.2
  have hcounts : ["component", "total_imports", "total_instances", "total_default_usages"].mapM
      (Sheet.field report.entry) = .ok [report.component, toString report.imports,
        toString report.instances, toString report.defaultUsages] := by
    rw [← cell_ofNat, ← cell_ofNat, ← cell_ofNat]
    rfl
  have himports := codebaseCounts_entry report codebases
    (rfl : report.entry.member "codebase_imports" = .ok (Document.ofCounts report.codebaseImports))
  have hinstances := codebaseCounts_entry report codebases
    (rfl : report.entry.member "codebase_instances"
      = .ok (Document.ofCounts report.codebaseInstances))
  have hprops : Sheet.field report.entry "unique_props" = .ok (toString report.props.size) := by
    rw [← cell_ofNat]
    rfl
  unfold Sheet.componentRecord
  refine bind_eq_ok.2 ⟨_, rfl, bind_eq_ok.2 ⟨_, rfl, bind_eq_ok.2 ⟨_, rfl, ?_⟩⟩⟩
  refine bind_eq_ok.2 ⟨_, hnotes, bind_eq_ok.2 ⟨_, hcounts, ?_⟩⟩
  refine bind_eq_ok.2 ⟨_, himports, bind_eq_ok.2 ⟨_, hinstances, ?_⟩⟩
  exact bind_eq_ok.2 ⟨_, hprops, bind_eq_ok.2 ⟨_, rfl, rfl⟩⟩

/-- The sheet of reports has a row for each of them. -/
theorem components_summary (reports : ComponentReports) (generatedAt : String)
    (codebases : List String) :
    Sheet.components (reports.summary generatedAt codebases)
      = .ok (Csv.render (componentHeader codebases
        :: (reports.ranked.map (ComponentReport.row codebases)).map ComponentRow.record)) := by
  have hrecords : (reports.ranked.map ComponentReport.entry).mapM
      (Sheet.componentRecord (codebases.map .string))
        = .ok ((reports.ranked.map (ComponentReport.row codebases)).map ComponentRow.record) := by
    rw [List.mapM_map, List.map_map]
    exact mapM_of_forall fun report _ => componentRecord_entry codebases report
  have hnamed : ∀ what : String, (codebases.map Document.string).map
      (fun codebase => codebase.display ++ what)
        = codebases.map fun codebase => codebase ++ what := by
    intro what
    rw [List.map_map]
    rfl
  unfold Sheet.components
  refine bind_eq_ok.2 ⟨_, rfl, bind_eq_ok.2 ⟨codebases.map .string, rfl, ?_⟩⟩
  refine bind_eq_ok.2 ⟨_, rfl, bind_eq_ok.2 ⟨reports.ranked.map ComponentReport.entry, rfl, ?_⟩⟩
  refine bind_eq_ok.2 ⟨_, hrecords, ?_⟩
  dsimp only
  rw [hnamed, hnamed]
  rfl

/-! ## The counts of the rows -/

variable {tracked : Tracked} {files : List SourceFile} {codebases : List String}

/-- A report counts the files that import its component, and the instances of it in the files. -/
structure ComponentReport.IsCountOf (tracked : Tracked) (files : List SourceFile)
    (component : String) (report : ComponentReport) : Prop where
  named : report.component = component
  imports : report.imports = (importersOf component (scansOf tracked files)).length
  instances : report.instances = (tagsOf component (tagsIn tracked files)).length
  codebaseImports : ∀ codebase, report.codebaseImports.getD codebase 0
    = (importersOf component (scansOf tracked files)).count codebase
  codebaseInstances : ∀ codebase, report.codebaseInstances.getD codebase 0
    = (tagsOf component (tagsIn tracked files)).countP fun found => found.codebase == codebase

/-- There is one report for each tracked component, and it counts what is in the files. -/
structure ComponentReports.AreCountsOf (tracked : Tracked) (files : List SourceFile)
    (reports : ComponentReports) : Prop where
  keys : reports.keys.Perm tracked.components
  counts : ∀ entry ∈ reports.entries, entry.2.IsCountOf tracked files entry.1

namespace ComponentReport.IsCountOf

variable {component : String} {report : ComponentReport}

theorem ofTags (tracked : Tracked) (files : List SourceFile) (component : String) :
    (ComponentReport.ofTags component (importersOf component (scansOf tracked files))
      (tagsOf component (tagsIn tracked files))).IsCountOf tracked files component where
  named := rfl
  imports := rfl
  instances := rfl
  codebaseImports := Table.getD_tally _
  codebaseInstances codebase := by
    rw [ComponentReport.ofTags, Table.getD_tally, List.count, List.countP_map]
    rfl

theorem applyDefault (h : report.IsCountOf tracked files component) (prop value : String) :
    (report.applyDefault prop value).IsCountOf tracked files component := by
  unfold ComponentReport.applyDefault
  cases report.props.get? prop with
  | none => exact h
  | some usage => exact ⟨h.named, h.imports, h.instances, h.codebaseImports, h.codebaseInstances⟩

end ComponentReport.IsCountOf

namespace ComponentReports

variable {P : String → ComponentReport → Prop} {reports : ComponentReports}

theorem forall_ofScans
    (hofTags : ∀ component, P component (.ofTags component
      (importersOf component (scansOf tracked files)) (tagsOf component (tagsIn tracked files)))) :
    ∀ entry ∈ (ofScans tracked.components (scansOf tracked files)).entries, P entry.1 entry.2 := by
  intro entry hentry
  have hget := Table.get?_eq_some_iff.2 hentry
  rw [get?_ofScans (isTracked_scansOf tracked files)] at hget
  split at hget
  · rw [← Option.some.inj hget]
    exact hofTags entry.1
  · cases hget

theorem perm_keys_ofScans (tracked : Tracked) (files : List SourceFile) :
    (ofScans tracked.components (scansOf tracked files)).keys.Perm tracked.components :=
  (List.perm_ext_iff_of_nodup (Table.nodup_keys _) tracked.nodup_components).2
    fun component => (ofScans_spec _ _ (isTracked_scansOf tracked files) component).1

/-- A detection is applied to one report, by setting a default of it, or not at all. -/
theorem forall_applyDetection (h : ∀ entry ∈ reports.entries, P entry.1 entry.2)
    (hdefault : ∀ component report prop value, P component report →
      P component (report.applyDefault prop value)) (detection : Detection Nat) :
    ∀ entry ∈ (reports.applyDetection detection).entries, P entry.1 entry.2 := by
  unfold applyDetection
  split
  · cases hget : reports.get? detection.component with
    | none => exact h
    | some report =>
      exact Table.forall_update h (hdefault _ _ _ _ (h _ (Table.get?_eq_some_iff.1 hget)))
  · exact h

theorem keys_applyDetection (reports : ComponentReports) (detection : Detection Nat) :
    (reports.applyDetection detection).keys = reports.keys := by
  unfold applyDetection
  split
  · cases hget : reports.get? detection.component with
    | none => rfl
    | some report =>
      have hkey : detection.component ∈ reports.keys :=
        List.mem_map.2 ⟨_, Table.get?_eq_some_iff.1 hget, rfl⟩
      show (Table.update _ _ _).keys = _
      rw [Table.keys_update, if_pos hkey]
  · rfl

end ComponentReports

namespace Inventory

theorem ofFiles_eq (tracked : Tracked) (files : List SourceFile) :
    ofFiles tracked files
      = .ok ⟨.ofScans tracked.components (scansOf tracked files), none⟩ := by
  induction files using List.reverseRecOn with
  | nil => rfl
  | append_singleton files file ih =>
    have hstep : ComponentReports.ofScans tracked.components (scansOf tracked (files ++ [file]))
        = (ComponentReports.ofScans tracked.components (scansOf tracked files)).addFile
          file.1 file.2.1 (.ofText file.2.2 tracked) := by
      rw [scansOf, List.map_append, ComponentReports.ofScans, List.foldl_append]
      rfl
    rw [hstep, ofFiles, List.foldlM_append]
    exact bind_eq_ok.2 ⟨_, ih, bind_eq_ok.2 ⟨_, rfl, rfl⟩⟩

/-- The inventory has taken the files, and may have applied the defaults. -/
def IsOf (tracked : Tracked) (files : List SourceFile) (inventory : Inventory) : Prop :=
  ofFiles tracked files = .ok inventory ∨
    ∃ detector, (do (← ofFiles tracked files).finalize detector) = .ok inventory

section

variable {inventory : Inventory}

/-- What holds of the reports on the files and is kept by each detection holds of the reports of an
inventory. -/
theorem IsOf.preserved {Q : ComponentReports → Prop} (h : inventory.IsOf tracked files)
    (hscans : Q (.ofScans tracked.components (scansOf tracked files)))
    (hdetection : ∀ reports detection, Q reports →
      Q (ComponentReports.applyDetection reports detection)) : Q inventory.reports := by
  rcases h with h | ⟨detector, h⟩
  · rw [ofFiles_eq] at h
    cases h
    exact hscans
  · rw [ofFiles_eq] at h
    change finalize detector ⟨_, none⟩ = .ok inventory at h
    obtain ⟨⟨reports, detections⟩, happly, h⟩ := bind_eq_ok.1 h
    cases h
    unfold ComponentReports.applyDefaults at happly
    obtain ⟨found, -, happly⟩ := bind_eq_ok.1 happly
    cases happly
    exact List.foldlRecOn _ _ hscans fun reports h detection _ => hdetection reports detection h

/-- What holds of each report before defaults and is kept by a default holds of the reports of an
inventory. -/
theorem IsOf.forall_reports (h : inventory.IsOf tracked files)
    {P : String → ComponentReport → Prop}
    (hofTags : ∀ component, P component (.ofTags component
      (importersOf component (scansOf tracked files)) (tagsOf component (tagsIn tracked files))))
    (hdefault : ∀ component report prop value, P component report →
      P component (report.applyDefault prop value)) :
    ∀ entry ∈ inventory.reports.entries, P entry.1 entry.2 :=
  h.preserved (Q := fun reports => ∀ entry ∈ reports.entries, P entry.1 entry.2)
    (ComponentReports.forall_ofScans hofTags)
    fun _ detection hreports => ComponentReports.forall_applyDetection hreports hdefault detection

theorem IsOf.areCountsOf (h : inventory.IsOf tracked files) :
    inventory.reports.AreCountsOf tracked files where
  keys := h.preserved (Q := fun reports => reports.keys.Perm tracked.components)
    (ComponentReports.perm_keys_ofScans tracked files)
    fun reports detection hkeys => by rwa [ComponentReports.keys_applyDetection]
  counts := h.forall_reports (P := fun component report => report.IsCountOf tracked files component)
    (.ofTags tracked files) fun _ _ prop value hreport => hreport.applyDefault prop value

end

end Inventory

/-! ## Columns that add up -/

/-- A row counts the files that import its component and the instances of it, in all and in each
column, and the columns add up. -/
structure ComponentRow.AddsUp (tracked : Tracked) (files : List SourceFile)
    (codebases : List String) (row : ComponentRow) : Prop where
  imports : row.imports = (importersOf row.component (scansOf tracked files)).length
  instances : row.instances = (tagsOf row.component (tagsIn tracked files)).length
  codebaseImports : row.codebaseImports = codebases.map fun codebase =>
    (importersOf row.component (scansOf tracked files)).count codebase
  codebaseInstances : row.codebaseInstances = codebases.map fun codebase =>
    (tagsOf row.component (tagsIn tracked files)).countP fun found => found.codebase == codebase
  importColumns : sumOf id row.codebaseImports = row.imports
  instanceColumns : sumOf id row.codebaseInstances = row.instances

/-- The rows of a sheet of components: one for each of them, most instances first, as long as the
header. -/
structure IsComponentSheet (tracked : Tracked) (files : List SourceFile) (codebases : List String)
    (rows : List ComponentRow) : Prop where
  components : (rows.map ComponentRow.component).Perm tracked.components
  sorted : rows.Pairwise fun row later => later.instances ≤ row.instances
  width : ∀ row ∈ rows, row.record.length = (componentHeader codebases).length
  addUp : ∀ row ∈ rows, row.AddsUp tracked files codebases

theorem mem_of_mem_importersOf (hfiles : ∀ file ∈ files, file.1 ∈ codebases) {component : String} :
    ∀ codebase ∈ importersOf component (scansOf tracked files), codebase ∈ codebases := by
  intro codebase hcodebase
  obtain ⟨scan, hscan, rfl⟩ := List.mem_map.1 hcodebase
  obtain ⟨file, hfile, rfl⟩ := List.mem_map.1 (List.mem_filter.1 hscan).1
  exact hfiles file hfile

theorem mem_of_mem_tagsIn (hfiles : ∀ file ∈ files, file.1 ∈ codebases) :
    ∀ found ∈ tagsIn tracked files, found.codebase ∈ codebases := by
  intro found hfound
  obtain ⟨scan, hscan, hfound⟩ := List.mem_flatMap.1 hfound
  obtain ⟨file, hfile, rfl⟩ := List.mem_map.1 hscan
  obtain ⟨tag, -, rfl⟩ := List.mem_map.1 hfound
  exact hfiles file hfile

/-- Where each codebase with a file has its columns, nothing is lost on the way to them. -/
theorem ComponentReport.IsCountOf.addsUp (hnodup : codebases.Nodup)
    (hfiles : ∀ file ∈ files, file.1 ∈ codebases) {component : String} {report : ComponentReport}
    (h : report.IsCountOf tracked files component) :
    (report.row codebases).AddsUp tracked files codebases := by
  obtain ⟨rfl, himports, hinstances, hcodebaseImports, hcodebaseInstances⟩ := h
  have hcolumns : (report.row codebases).codebaseImports = codebases.map fun codebase =>
      (importersOf report.component (scansOf tracked files)).count codebase :=
    List.map_congr_left fun codebase _ => hcodebaseImports codebase
  have hcolumns' : (report.row codebases).codebaseInstances = codebases.map fun codebase =>
      (tagsOf report.component (tagsIn tracked files)).countP fun found =>
        found.codebase == codebase :=
    List.map_congr_left fun codebase _ => hcodebaseInstances codebase
  constructor
  case imports => exact himports
  case instances => exact hinstances
  case codebaseImports => exact hcolumns
  case codebaseInstances => exact hcolumns'
  case importColumns =>
    rw [hcolumns, sumOf_map]
    exact (sumOf_countP hnodup (mem_of_mem_importersOf hfiles)).trans himports.symm
  case instanceColumns =>
    rw [hcolumns', sumOf_map]
    have hmem : ∀ found ∈ tagsOf report.component (tagsIn tracked files),
        found.codebase ∈ codebases :=
      fun found hfound => mem_of_mem_tagsIn hfiles found (List.mem_filter.1 hfound).1
    exact (sumOf_countP hnodup hmem).trans hinstances.symm

theorem ComponentReports.AreCountsOf.isComponentSheet {reports : ComponentReports}
    (h : reports.AreCountsOf tracked files) (hnodup : codebases.Nodup)
    (hfiles : ∀ file ∈ files, file.1 ∈ codebases) :
    IsComponentSheet tracked files codebases
      (reports.ranked.map (ComponentReport.row codebases)) := by
  have hperm : (Table.ranked reports fun report => Int.ofNat report.instances).Perm
      reports.entries := List.mergeSort_perm _ _
  have hnamed : reports.entries.map (fun entry => entry.2.component) = reports.keys :=
    List.map_congr_left fun entry hentry => (h.counts entry hentry).named
  unfold ComponentReports.ranked
  constructor
  case components =>
    rw [List.map_map, List.map_map]
    refine (hperm.map _).trans ?_
    exact (List.Perm.of_eq hnamed).trans h.keys
  case sorted =>
    rw [List.map_map, List.pairwise_map]
    exact (Table.pairwise_ranked reports fun report => Int.ofNat report.instances).imp
      fun hle => Int.ofNat_le.1 hle
  case width =>
    intro row hrow
    obtain ⟨report, -, rfl⟩ := List.mem_map.1 hrow
    simp [ComponentRow.record, componentHeader, ComponentReport.row]
  case addUp =>
    intro row hrow
    obtain ⟨report, hreport, rfl⟩ := List.mem_map.1 hrow
    obtain ⟨entry, hentry, rfl⟩ := List.mem_map.1 hreport
    exact (h.counts entry (hperm.mem_iff.1 hentry)).addsUp hnodup hfiles

/-- After any files the sheet of components is read back, whatever names are in it, as a header
and one record for each component, most instances first; the records are as long as the header, and
where every codebase with a file is listed once, the columns of the codebases add up to the
totals. -/
theorem component_columns_add_up (tracked : Tracked) (files : List SourceFile)
    {codebases : List String} (hnodup : codebases.Nodup)
    (hfiles : ∀ file ∈ files, file.1 ∈ codebases) :
    (∃ inventory, Inventory.ofFiles tracked files = .ok inventory) ∧
      ∀ inventory : Inventory, inventory.IsOf tracked files → ∀ generatedAt, ∃ text rows,
        Sheet.components (inventory.reports.summary generatedAt codebases) = .ok text ∧
        Csv.read? text.toList
          = some (componentHeader codebases :: rows.map ComponentRow.record) ∧
        IsComponentSheet tracked files codebases rows := by
  refine ⟨⟨_, Inventory.ofFiles_eq tracked files⟩, fun inventory h generatedAt => ?_⟩
  exact ⟨_, _, components_summary inventory.reports generatedAt codebases, Csv.read?_render _,
    h.areCountsOf.isComponentSheet hnodup hfiles⟩

def panelLibrary : Tracked := .ofLists ["ui"] [] ["Card", "Box"] "ui"

/-- Two files, one of them in a codebase whose name has commas and quotes. -/
def panelFiles : List SourceFile :=
  [("web", "Cart.tsx", "import { Card } from 'ui'\n<Card/>".toList),
    ("a,\"b\"", "Post.tsx", "import { Card } from 'ui'\n<Card><Card/></Card>".toList)]

theorem component_columns_add_up_panelFiles :
    ["web", "a,\"b\""].Nodup ∧ (∀ file ∈ panelFiles, file.1 ∈ ["web", "a,\"b\""]) ∧
      ∃ inventory text, ∃ rows : List ComponentRow,
        Inventory.ofFiles panelLibrary panelFiles = .ok inventory ∧
        Sheet.components (inventory.reports.summary "now" ["web", "a,\"b\""]) = .ok text ∧
        Csv.read? text.toList = some (componentHeader ["web", "a,\"b\""]
          :: rows.map ComponentRow.record) ∧
        ∀ row ∈ rows, row.component = "Card" →
          row.imports = 2 ∧ row.codebaseImports = [1, 1] ∧
          row.instances = 3 ∧ row.codebaseInstances = [1, 2] := by
  have hnodup : ["web", "a,\"b\""].Nodup := by decide
  have hfiles : ∀ file ∈ panelFiles, file.1 ∈ ["web", "a,\"b\""] := by decide
  obtain ⟨⟨inventory, hinventory⟩, hsheet⟩ :=
    component_columns_add_up panelLibrary panelFiles hnodup hfiles
  obtain ⟨text, rows, htext, hread, hrows⟩ := hsheet inventory (.inl hinventory) "now"
  refine ⟨hnodup, hfiles, inventory, text, rows, hinventory, htext, hread, ?_⟩
  intro row hrow hcard
  obtain ⟨himports, hinstances, hcodebaseImports, hcodebaseInstances, -, -⟩ := hrows.addUp row hrow
  rw [hcard] at himports hinstances hcodebaseImports hcodebaseInstances
  rw [himports, hinstances, hcodebaseImports, hcodebaseInstances]
  decide +kernel

end Census

end UsageCensus
