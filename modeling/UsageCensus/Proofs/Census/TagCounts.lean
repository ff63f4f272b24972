import UsageCensus.Census
import UsageCensus.Proofs.Census.Breakdown
import UsageCensus.Proofs.Census.Combinations
import UsageCensus.Proofs.Census.References

/-!
# How many tags there are

The aspects of a census count tags apart from each other: the inventory by component, line
ownership and prop surface by file, and prop combinations for the components that they are about.
After any files all counts agree (`tags_counted_alike`), since all of them are counts of the
instances that are found in the files (`allTags`).
-/

namespace UsageCensus.Census

open UsageCensus.Number UsageCensus.Source

/-! ## Files of a census -/

/-- A file to be added: its codebase, its path and its content. -/
abbrev SourceFile := String × String × List Char

def scansOf (tracked : Tracked) (files : List SourceFile) : List (String × String × FileScan) :=
  files.map fun (codebase, path, content) => (codebase, path, .ofText content tracked)

/-- Adds files one after the other, each to every aspect. -/
def addFiles (census : UsageCensus.Census) (files : List SourceFile) :
    Except Fault UsageCensus.Census :=
  files.foldlM (fun census (codebase, path, content) =>
    census.addFile codebase path (.ofText census.tracked content)) census

/-- The census that files make: each aspect by itself. -/
def ofFiles (tracked : Tracked) (combinations : List PropCombination) (files : List SourceFile) :
    UsageCensus.Census where
  tracked := tracked
  combinations := combinations
  aspects := Aspect.all
  inventory := ⟨.ofScans tracked.components (scansOf tracked files), none⟩
  customizations := .ofMeasures (files.map fun (codebase, _, content) =>
    (codebase, FileCustomizations.find content tracked))
  lines := .ofMeasures (files.map fun (codebase, _, content) =>
    (codebase, FileLines.measure content (.ofText content tracked) tracked))
  surface := .ofMeasures (files.map fun (codebase, _, content) =>
    (codebase, FileSurface.measure content (.ofText content tracked)))
  tallies := .ofScans combinations (scansOf tracked files)

/-- The census of which each aspect has seen some files. -/
def ofSeen (tracked : Tracked) (combinations : List PropCombination) (aspects : List Aspect)
    (seen : Aspect → List SourceFile) : UsageCensus.Census where
  tracked := tracked
  combinations := combinations
  aspects := aspects
  inventory := ⟨.ofScans tracked.components (scansOf tracked (seen .components)), none⟩
  customizations := .ofMeasures ((seen .customizations).map fun (codebase, _, content) =>
    (codebase, FileCustomizations.find content tracked))
  lines := .ofMeasures ((seen .lineOwnership).map fun (codebase, _, content) =>
    (codebase, FileLines.measure content (.ofText content tracked) tracked))
  surface := .ofMeasures ((seen .propSurface).map fun (codebase, _, content) =>
    (codebase, FileSurface.measure content (.ofText content tracked)))
  tallies := .ofScans combinations (scansOf tracked (seen .propCombinations))

section

variable (tracked : Tracked) (combinations : List PropCombination) (aspects : List Aspect)

/-- A file that is added to an aspect is seen by it, and by no other. -/
theorem addTo_ofSeen (seen : Aspect → List SourceFile) (file : SourceFile) (aspect : Aspect) :
    (ofSeen tracked combinations aspects seen).addTo file.1 file.2.1 (.ofText tracked file.2.2)
        aspect
      = .ok (ofSeen tracked combinations aspects fun other =>
        if other = aspect then seen other ++ [file] else seen other) := by
  have hreports : ComponentReports.ofScans tracked.components
      (scansOf tracked (seen .components ++ [file]))
        = (ComponentReports.ofScans tracked.components (scansOf tracked (seen .components))).addFile
          file.1 file.2.1 (.ofText file.2.2 tracked) := by
    rw [scansOf, List.map_append, ComponentReports.ofScans, List.foldl_append]
    rfl
  have htallies : CombinationTallies.ofScans combinations
      (scansOf tracked (seen .propCombinations ++ [file]))
        = (CombinationTallies.ofScans combinations (scansOf tracked (seen .propCombinations))).add
          file.1 file.2.1 (.find (.ofText file.2.2 tracked) combinations) := by
    rw [scansOf, List.map_append, CombinationTallies.ofScans, List.foldl_append]
    rfl
  cases aspect with
  | components =>
    unfold ofSeen
    simp only [reduceCtorEq, if_true, if_false, hreports]
    rfl
  | propCombinations =>
    unfold ofSeen
    simp only [reduceCtorEq, if_true, if_false, htallies]
    rfl
  | _ =>
    unfold ofSeen
    simp only [reduceCtorEq, if_true, if_false, List.map_append, List.map_cons, List.map_nil,
      ofMeasures_concat]
    rfl

theorem addFile_ofSeen (hnodup : aspects.Nodup) (seen : Aspect → List SourceFile)
    (file : SourceFile) :
    (ofSeen tracked combinations aspects seen).addFile file.1 file.2.1 (.ofText tracked file.2.2)
      = .ok (ofSeen tracked combinations aspects fun aspect =>
        if aspect ∈ aspects then seen aspect ++ [file] else seen aspect) := by
  have hfold : ∀ (chosen : List Aspect), chosen.Nodup → ∀ seen : Aspect → List SourceFile,
      chosen.foldlM (fun census aspect => census.addTo file.1 file.2.1
        (.ofText tracked file.2.2) aspect) (ofSeen tracked combinations aspects seen)
        = .ok (ofSeen tracked combinations aspects fun aspect =>
          if aspect ∈ chosen then seen aspect ++ [file] else seen aspect) := by
    intro chosen
    induction chosen with
    | nil => exact fun _ seen => rfl
    | cons aspect chosen ih =>
      intro hchosen seen
      obtain ⟨haspect, hchosen⟩ := List.nodup_cons.1 hchosen
      rw [List.foldlM_cons, addTo_ofSeen]
      apply (ih hchosen _).trans
      congr 2
      funext other
      by_cases hother : other = aspect
      · subst hother
        rw [if_neg haspect, if_pos rfl, if_pos List.mem_cons_self]
      · simp only [List.mem_cons, hother, false_or, if_false]
  exact hfold aspects hnodup seen

theorem addFiles_ofSeen (hnodup : aspects.Nodup) (files : List SourceFile) :
    addFiles (.start tracked combinations aspects) files
      = .ok (ofSeen tracked combinations aspects fun aspect =>
        if aspect ∈ aspects then files else []) := by
  induction files using List.reverseRecOn with
  | nil =>
    show Except.ok _ = _
    simp only [ite_self]
    rfl
  | append_singleton files file ih =>
    rw [addFiles, List.foldlM_append]
    apply bind_eq_ok.2
    refine ⟨_, ih, bind_eq_ok.2 ⟨_, addFile_ofSeen tracked combinations aspects hnodup _ file, ?_⟩⟩
    show Except.ok _ = _
    congr 2
    funext aspect
    by_cases haspect : aspect ∈ aspects
    · simp only [haspect, if_true]
    · simp only [haspect, if_false]

end

theorem addFiles_start (tracked : Tracked) (combinations : List PropCombination)
    (files : List SourceFile) :
    addFiles (.start tracked combinations Aspect.all) files
      = .ok (ofFiles tracked combinations files) := by
  rw [addFiles_ofSeen tracked combinations Aspect.all (by decide)]
  rfl

/-! ## Tags of the files -/

def tagsIn (tracked : Tracked) (files : List SourceFile) : List PlacedTag :=
  allTags (scansOf tracked files)

theorem tagsIn_cons (tracked : Tracked) (file : SourceFile) (files : List SourceFile) :
    tagsIn tracked (file :: files)
      = placedTags file.1 file.2.1 (.ofText file.2.2 tracked) ++ tagsIn tracked files := rfl

def tagsOfFile (tracked : Tracked) (file : SourceFile) : Nat :=
  (FileScan.ofText file.2.2 tracked).instances.length

theorem length_tagsIn (tracked : Tracked) (files : List SourceFile) :
    (tagsIn tracked files).length = sumOf (tagsOfFile tracked) files := by
  induction files with
  | nil => rfl
  | cons file files ih =>
    rw [tagsIn_cons, List.length_append, ih, placedTags, List.length_map]
    rfl

theorem countP_tagsIn (tracked : Tracked) (files : List SourceFile) (codebase : String) :
    (tagsIn tracked files).countP (fun found => found.codebase == codebase)
      = sumOf (tagsOfFile tracked) (files.filter fun file => file.1 == codebase) := by
  induction files with
  | nil => rfl
  | cons file files ih =>
    rw [tagsIn_cons, List.countP_append, ih, placedTags, List.countP_map]
    by_cases hcodebase : (file.1 == codebase) = true
    · have hall : (FileScan.ofText file.2.2 tracked).instances.countP
          ((fun found => found.codebase == codebase) ∘ PlacedTag.mk file.1 file.2.1)
            = tagsOfFile tracked file := List.countP_eq_length.2 fun _ _ => hcodebase
      rw [List.filter_cons, if_pos hcodebase, hall, sumOf]
    · have hnone : (FileScan.ofText file.2.2 tracked).instances.countP
          ((fun found => found.codebase == codebase) ∘ PlacedTag.mk file.1 file.2.1) = 0 :=
        List.countP_eq_zero.2 fun _ _ => hcodebase
      rw [List.filter_cons, if_neg hcodebase, hnone, Nat.zero_add]

theorem overall_tagCount {τ ρ : Type} [Totals τ ρ] {counter : τ → Nat} {count : ρ → Nat}
    (hcounter : IsCounter counter count) {tracked : Tracked} (measure : SourceFile → ρ)
    (hmeasure : ∀ file, count (measure file) = tagsOfFile tracked file)
    (files : List SourceFile) :
    counter (Breakdown.ofMeasures (files.map fun file => (file.1, measure file))
      : Breakdown τ).overall = (tagsIn tracked files).length := by
  rw [hcounter.overall_eq_sumOf, sumOf_map, length_tagsIn]
  exact sumOf_congr fun file _ => hmeasure file

theorem codebase_tagCount {τ ρ : Type} [Totals τ ρ] {counter : τ → Nat} {count : ρ → Nat}
    (hcounter : IsCounter counter count) {tracked : Tracked} (measure : SourceFile → ρ)
    (hmeasure : ∀ file, count (measure file) = tagsOfFile tracked file)
    (files : List SourceFile) (codebase : String) :
    (((Breakdown.ofMeasures (files.map fun file => (file.1, measure file))
      : Breakdown τ).byCodebase.get? codebase).map counter).getD 0
      = (tagsIn tracked files).countP fun found => found.codebase == codebase := by
  rw [hcounter.codebase_eq_sumOf, List.filter_map, sumOf_map, countP_tagsIn]
  exact sumOf_congr fun file _ => hmeasure file

theorem instancesIn_scansOf (combination : PropCombination) (tracked : Tracked)
    (files : List SourceFile) :
    CombinationTally.instancesIn combination (scansOf tracked files)
      = (referencesTo combination.component (tagsIn tracked files)).length := by
  induction files with
  | nil => rfl
  | cons file files ih =>
    rw [tagsIn_cons, referencesTo_append, List.length_append, ← ih, referencesTo, List.length_map,
      placedTags, List.filter_map, List.length_map]
    rfl

/-! ## The counts agree -/

/-- All aspects of a census count the same tags, which were found in its files. -/
structure TagsAgree (census : UsageCensus.Census) (combinations : List PropCombination)
    (placed : List PlacedTag) : Prop where
  instances : sumOf ComponentReport.instances census.inventory.reports.values = placed.length
  lines : sumOf ComponentReport.instances census.inventory.reports.values
    = census.lines.overall.tagCount
  surface : sumOf ComponentReport.instances census.inventory.reports.values
    = census.surface.overall.tagCount
  codebaseLines : ∀ codebase,
    sumOf (fun report => report.codebaseInstances.getD codebase 0) census.inventory.reports.values
      = ((census.lines.byCodebase.get? codebase).map LineTotals.tagCount).getD 0
  codebaseSurface : ∀ codebase,
    sumOf (fun report => report.codebaseInstances.getD codebase 0) census.inventory.reports.values
      = ((census.surface.byCodebase.get? codebase).map SurfaceTotals.tagCount).getD 0
  /-- There is a tally for each combination, with the instances of its component. -/
  tallies : census.tallies.tallies.map (fun tally => (tally.combination, tally.instances))
    = combinations.map fun combination => (combination,
      ((census.inventory.reports.get? combination.component).map
        ComponentReport.instances).getD 0)
  /-- There is a report for each tracked component and no other. -/
  reports : ∀ component,
    component ∈ census.inventory.reports.keys ↔ component ∈ census.tracked.components
  /-- Every tag is of a component with a report. -/
  components : ∀ found ∈ placed, found.tag.component ∈ census.inventory.reports.keys
  /-- A report refers to the tags of its component, in their order. -/
  references : ∀ component report, census.inventory.reports.get? component = some report →
    report.references = referencesTo component placed

theorem isTracked_scansOf (tracked : Tracked) (files : List SourceFile) :
    ∀ scan ∈ scansOf tracked files, ComponentReports.IsTracked tracked.components scan.2.2 := by
  intro scan hscan
  obtain ⟨file, -, rfl⟩ := List.mem_map.1 hscan
  exact ComponentReports.isTracked_ofText file.2.2 tracked

theorem tallies_ofScans (combinations : List PropCombination)
    (scans : List (String × String × FileScan)) :
    (CombinationTallies.ofScans combinations scans).tallies.map
        (fun tally => (tally.combination, tally.instances))
      = combinations.map fun combination =>
        (combination, CombinationTally.instancesIn combination scans) := by
  apply List.ext_getElem?
  intro i
  rw [List.getElem?_map, List.getElem?_map]
  cases hcombination : combinations[i]? with
  | none =>
    have hlength := CombinationTallies.length_ofScans combinations scans
    rw [List.getElem?_eq_none_iff] at hcombination
    rw [List.getElem?_eq_none (by omega)]
    rfl
  | some combination =>
    obtain ⟨hfield, hinstances⟩ := CombinationTally.ofScans_fields i combination scans
    rw [CombinationTallies.getElem?_ofScans hcombination, Option.map_some, hfield, hinstances]
    rfl

/-- After any files the aspects agree on how many tags there are, overall, for each codebase and
for each component, and no tag is lost. -/
theorem tags_counted_alike (tracked : Tracked) (combinations : List PropCombination)
    (files : List SourceFile) :
    ∃ census, addFiles (.start tracked combinations Aspect.all) files = .ok census ∧
      TagsAgree census combinations (tagsIn tracked files) := by
  have htracked := isTracked_scansOf tracked files
  have hreports := ComponentReports.ofScans_spec tracked.components (scansOf tracked files) htracked
  have hbalanced := ComponentReports.isBalanced_ofScans tracked.components (scansOf tracked files)
  have hinstances : sumOf ComponentReport.instances
      (ofFiles tracked combinations files).inventory.reports.values
        = (tagsIn tracked files).length := by
    rw [← List.countP_true]
    apply ComponentReports.sumOf_ofScans htracked (p := fun _ => true)
    intro entry hentry
    rw [List.countP_true]
    exact (hbalanced entry hentry).references
  have hcodebases : ∀ codebase, sumOf (fun report => report.codebaseInstances.getD codebase 0)
      (ofFiles tracked combinations files).inventory.reports.values
        = (tagsIn tracked files).countP fun found => found.codebase == codebase := by
    intro codebase
    apply ComponentReports.sumOf_ofScans htracked (p := fun found => found.codebase == codebase)
    intro entry hentry
    exact (hbalanced entry hentry).codebases codebase
  refine ⟨_, addFiles_start tracked combinations files, ?_⟩
  constructor
  case instances => exact hinstances
  case lines =>
    rw [hinstances]
    exact (overall_tagCount LineTotals.isCounter_tagCount _ (fun _ => rfl) files).symm
  case surface =>
    rw [hinstances]
    exact (overall_tagCount SurfaceTotals.isCounter_tagCount _ (fun _ => rfl) files).symm
  case codebaseLines =>
    intro codebase
    rw [hcodebases]
    exact (codebase_tagCount LineTotals.isCounter_tagCount _ (fun _ => rfl) files codebase).symm
  case codebaseSurface =>
    intro codebase
    rw [hcodebases]
    exact (codebase_tagCount SurfaceTotals.isCounter_tagCount _ (fun _ => rfl) files codebase).symm
  case tallies =>
    apply (tallies_ofScans combinations (scansOf tracked files)).trans
    apply List.map_congr_left
    intro combination _
    rw [instancesIn_scansOf, tagsIn, ← (hreports combination.component).2]
    exact congrArg (Prod.mk combination) (hbalanced.length_references combination.component)
  case reports => exact fun component => (hreports component).1
  case components =>
    intro found hfound
    exact (hreports found.tag.component).1.2
      (ComponentReports.mem_components_of_mem_allTags htracked hfound)
  case references =>
    intro component report hget
    rw [← ComponentReports.references_of_get? hget]
    exact (hreports component).2

end UsageCensus.Census
