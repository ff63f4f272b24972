import UsageCensus.Census.Inventory
import UsageCensus.Proofs.Attempts
import UsageCensus.Proofs.Source.ImportedNames

/-!
# The reports of a run

What holds of the report of every component at any time of a run (`ReportOf`): it is made for a
tracked component, and a component without an instance has no props. Files keep this
(`exists_ofFiles`), and so do defaults (`isSound_finalize`), which also leave the usages as they
were (`usages_applyDetection`), so that detection would find the same again.
-/

namespace UsageCensus.Source

variable {tracked : Tracked}

/-- Every name that is imported is the local name of a tracked component. -/
def AllTracked (tracked : Tracked) (names : Table String String) : Prop :=
  ∀ entry ∈ names.entries, entry.2 ∈ tracked.components

theorem allTracked_resolveImports (content : List Char) (tracked : Tracked) :
    AllTracked tracked (resolveImports content tracked) :=
  fun entry hentry => (isImport_of_mem content tracked entry hentry).component

theorem mem_components_of_imported {content : List Char} {component : String}
    (h : component ∈ (FileScan.ofText content tracked).imported) :
    component ∈ tracked.components := by
  rw [FileScan.imported, List.mem_eraseDups] at h
  obtain ⟨entry, hentry, rfl⟩ := List.mem_map.1 h
  exact allTracked_resolveImports content tracked entry hentry

end UsageCensus.Source

namespace UsageCensus.Census

open UsageCensus.Source

variable {components : List String}

/-! ## One report -/

/-- What holds of the report of a component at any time. -/
structure ReportOf (components : List String) (component : String) (report : ComponentReport) :
    Prop where
  tracked : component ∈ components
  named : report.component = component
  /-- Props come with instances. -/
  bare : report.instances = 0 → report.props = .empty

namespace ReportOf

variable {component : String} {report : ComponentReport}

theorem unused (h : component ∈ components) : ReportOf components component (.unused component) :=
  ⟨h, rfl, fun _ => rfl⟩

theorem addImport (h : ReportOf components component report) (codebase : String) :
    ReportOf components component (report.addImport codebase) :=
  ⟨h.tracked, h.named, h.bare⟩

theorem addInstance (h : ReportOf components component report) (codebase file : String)
    (tag : Instance) : ReportOf components component (report.addInstance codebase file tag) := by
  have hadded : (report.addInstance codebase file tag).component = component ∧
      (report.addInstance codebase file tag).instances = report.instances + 1 := by
    unfold ComponentReport.addInstance
    exact List.foldlRecOn (motive := fun added : ComponentReport =>
      added.component = component ∧ added.instances = report.instances + 1) _ _
        ⟨h.named, rfl⟩ fun added hadded _ _ => hadded
  refine ⟨h.tracked, hadded.1, fun hzero => ?_⟩
  rw [hadded.2] at hzero
  omega

theorem applyDefault (h : ReportOf components component report) (prop value : String) :
    ReportOf components component (report.applyDefault prop value) := by
  unfold ComponentReport.applyDefault
  cases hprop : report.props.get? prop with
  | none => exact h
  | some usage =>
    refine ⟨h.tracked, h.named, fun hzero => ?_⟩
    rw [h.bare hzero] at hprop
    cases hprop

end ReportOf

/-! ## All reports -/

namespace ComponentReports

variable {reports : ComponentReports}

/-- What holds of the reports of components that are not used holds of all reports at first. -/
theorem forall_seed {P : String → ComponentReport → Prop}
    (h : ∀ component ∈ components, P component (.unused component)) :
    ∀ entry ∈ (seed components).entries, P entry.1 entry.2 := by
  rw [seed, Table.entries_ofPairs_map]
  intro entry hentry
  obtain ⟨component, hcomponent, rfl⟩ := List.mem_map.1 hentry
  exact h component (List.mem_eraseDups.1 hcomponent)

/-- What an import and an instance keep of one report, a file keeps of all of them. -/
theorem forall_addFile {P : String → ComponentReport → Prop} {codebase file : String}
    {scan : FileScan} (h : ∀ entry ∈ reports.entries, P entry.1 entry.2)
    (hunused : ∀ component ∈ scan.imported, P component (.unused component))
    (himport : ∀ component report, P component report → P component (report.addImport codebase))
    (hinstance : ∀ component report tag, P component report →
      P component (report.addInstance codebase file tag)) :
    ∀ entry ∈ (reports.addFile codebase file scan).entries, P entry.1 entry.2 := by
  have himported : ∀ entry ∈ (scan.imported.foldl
      (fun (reports : ComponentReports) component => reports.update component fun report =>
        (report.getD (.unused component)).addImport codebase) reports).entries,
      P entry.1 entry.2 := by
    apply List.foldlRecOn (motive := fun reports : ComponentReports =>
      ∀ entry ∈ reports.entries, P entry.1 entry.2)
    · exact h
    · intro reports h component hcomponent
      apply Table.forall_update h
      apply himport
      cases hget : reports.get? component with
      | none => exact hunused component hcomponent
      | some report => exact h (component, report) (Table.get?_eq_some_iff.1 hget)
  unfold addFile
  apply List.foldlRecOn (motive := fun reports : ComponentReports =>
    ∀ entry ∈ reports.entries, P entry.1 entry.2)
  · exact himported
  · intro reports h tag _
    cases hget : reports.get? tag.component with
    | none => exact h
    | some report =>
      have hreport : P tag.component report :=
        h (tag.component, report) (Table.get?_eq_some_iff.1 hget)
      exact Table.forall_update h (hinstance tag.component report tag hreport)

def IsSound (components : List String) (reports : ComponentReports) : Prop :=
  ∀ entry ∈ reports.entries, ReportOf components entry.1 entry.2

theorem isSound_seed (components : List String) : IsSound components (.seed components) :=
  forall_seed fun _ => .unused

theorem IsSound.get? (h : IsSound components reports) {component : String}
    {report : ComponentReport} (hget : reports.get? component = some report) :
    ReportOf components component report :=
  h (component, report) (Table.get?_eq_some_iff.1 hget)

theorem IsSound.addFile (h : IsSound components reports) {scan : FileScan}
    (hscan : ∀ component ∈ scan.imported, component ∈ components) (codebase file : String) :
    IsSound components (reports.addFile codebase file scan) :=
  forall_addFile h (fun component hcomponent => .unused (hscan component hcomponent))
    (fun _ _ hreport => hreport.addImport codebase)
    fun _ _ tag hreport => hreport.addInstance codebase file tag

theorem IsSound.applyDetection (h : IsSound components reports) (detection : Detection Nat) :
    IsSound components (reports.applyDetection detection) := by
  unfold ComponentReports.applyDetection
  by_cases hsure : detection.confidence.isSure
  · rw [if_pos hsure]
    cases hget : reports.get? detection.component with
    | none => exact h
    | some report => exact Table.forall_update h ((h.get? hget).applyDefault _ _)
  · rw [if_neg hsure]
    exact h

theorem usages_applyDetection (reports : ComponentReports) (detection : Detection Nat) :
    (reports.applyDetection detection).usages = reports.usages := by
  unfold applyDetection
  by_cases hsure : detection.confidence.isSure
  · rw [if_pos hsure]
    cases hget : reports.get? detection.component with
    | none => rfl
    | some report =>
      refine Table.mapValues_insert hget ?_
      unfold ComponentReport.applyDefault
      cases hprop : report.props.get? detection.prop with
      | none => rfl
      | some usage => exact Table.mapValues_insert hprop rfl
  · rw [if_neg hsure]

theorem usages_foldl_applyDetection (detections : List (Detection Nat))
    (reports : ComponentReports) :
    (detections.foldl applyDetection reports).usages = reports.usages := by
  induction detections generalizing reports with
  | nil => rfl
  | cons detection detections ih => rw [List.foldl_cons, ih, usages_applyDetection]

theorem isSound_applyDefaults {detector : Detection.Detector Nat (Except Fault)}
    {reports' : ComponentReports} {detections : List (Detection Nat)}
    (h : IsSound components reports)
    (happly : reports.applyDefaults detector = .ok (reports', detections)) :
    IsSound components reports' ∧
      Detection.detectAll .none detector reports'.usages = .ok detections := by
  unfold applyDefaults at happly
  obtain ⟨found, hfound, happly⟩ := bind_eq_ok.1 happly
  cases happly
  constructor
  · exact List.foldlRecOn _ _ h fun reports h detection _ => h.applyDetection detection
  · rw [usages_foldl_applyDetection, hfound]

end ComponentReports

/-! ## A run -/

namespace Inventory

/-- Files that are added one after the other: the codebase, the path and the content of each. -/
def ofFiles (tracked : Tracked) (files : List (String × String × List Char)) :
    Except Fault Inventory :=
  files.foldlM (fun inventory (codebase, path, content) =>
    inventory.add codebase path (.ofText content tracked)) (.ofTracked tracked)

theorem exists_ofFiles (tracked : Tracked) (files : List (String × String × List Char)) :
    ∃ reports : ComponentReports, ofFiles tracked files = .ok ⟨reports, none⟩ ∧
      reports.IsSound tracked.components := by
  have hadd : ∀ reports : ComponentReports, reports.IsSound tracked.components →
      ∃ reports' : ComponentReports, files.foldlM (fun inventory (codebase, path, content) =>
        inventory.add codebase path (.ofText content tracked)) (⟨reports, none⟩ : Inventory)
          = (.ok ⟨reports', none⟩ : Except Fault _) ∧ reports'.IsSound tracked.components := by
    induction files with
    | nil => exact fun reports h => ⟨reports, rfl, h⟩
    | cons file files ih =>
      obtain ⟨codebase, path, content⟩ := file
      intro reports h
      have hscan : ∀ component ∈ (FileScan.ofText content tracked).imported,
          component ∈ tracked.components := fun _ => mem_components_of_imported
      exact ih _ (h.addFile hscan codebase path)
  exact hadd _ (ComponentReports.isSound_seed tracked.components)

/-- At the end of a run, detection would find once more what it has found. -/
theorem isSound_finalize {tracked : Tracked} {files : List (String × String × List Char)}
    {detector : Detection.Detector Nat (Except Fault)} {inventory : Inventory}
    (h : (do (← ofFiles tracked files).finalize detector) = .ok inventory) :
    inventory.reports.IsSound tracked.components ∧
      Detection.detectAll .none detector inventory.reports.usages = .ok inventory.detected := by
  obtain ⟨reports, hfiles, hsound⟩ := exists_ofFiles tracked files
  rw [hfiles] at h
  change finalize detector ⟨reports, none⟩ = .ok inventory at h
  obtain ⟨⟨reports', detections⟩, happly, h⟩ := bind_eq_ok.1 h
  cases h
  exact ComponentReports.isSound_applyDefaults hsound happly

end Inventory

end UsageCensus.Census
