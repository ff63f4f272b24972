import Mathlib
import UsageCensus.Command.Analyze
import UsageCensus.Proofs.Census.Customizations
import UsageCensus.Proofs.Census.TagCounts
import UsageCensus.Proofs.Sandbox

/-!
# The files of a survey

A survey visits the codebases that are there, one after the other, and adds the files that it can
read to every aspect (`exists_visits`); it returns unless something stands in its way
(`exists_run_survey`). The aspects that count files count all of them. The survey itself keeps one
number for each name of a codebase, that of the last visit; so its numbers are those of the aspects
if the codebases of one name have no files but in the last of them (`survey_counts`), as where
names are distinct.
-/

namespace UsageCensus

open UsageCensus.Census UsageCensus.Files UsageCensus.Number

namespace Census

/-! ## Files in a census -/

theorem addFiles_append (census : UsageCensus.Census) (files more : List SourceFile) :
    Census.addFiles census (files ++ more)
      = Census.addFiles census files >>= fun census => Census.addFiles census more := by
  unfold Census.addFiles
  rw [List.foldlM_append]

/-- The number of files in totals: in all, and of each codebase. -/
def filesIn {τ : Type} (files : τ → Nat) (totals : Breakdown τ) : Nat × (String → Nat) :=
  (files totals.overall, fun name => ((totals.byCodebase.get? name).map files).getD 0)

/-- The number of files that an aspect has counted, if it counts files. -/
def filesCounted? : Aspect → UsageCensus.Census → Option (Nat × (String → Nat))
  | .customizations, census => some (filesIn CustomizationTotals.files census.customizations)
  | .lineOwnership, census => some (filesIn LineTotals.files census.lines)
  | .propSurface, census => some (filesIn SurfaceTotals.files census.surface)
  | _, _ => none

theorem filesIn_ofMeasures {τ ρ : Type} [Totals τ ρ] {files : τ → Nat}
    (hfiles : IsCounter files fun _ : ρ => 1) (measure : SourceFile → ρ)
    (sources : List SourceFile) :
    filesIn files
        (Breakdown.ofMeasures (sources.map fun file => (file.1, measure file)) : Breakdown τ)
      = (sources.length, fun name => sources.countP fun file => file.1 == name) := by
  have hone : ∀ {α : Type} (items : List α), sumOf (fun _ => 1) items = items.length := by
    intro α items
    rw [← List.countP_true, ← sumOf_ite]
    rfl
  unfold filesIn
  congr 1
  · rw [hfiles.overall_eq_sumOf, hone, List.length_map]
  · funext name
    rw [hfiles.codebase_eq_sumOf, hone, List.filter_map, List.length_map,
      List.countP_eq_length_filter]
    rfl

theorem filesCounted?_ofSeen {tracked : Tracked} {combinations : List PropCombination}
    {aspects : List Aspect} {seen : Aspect → List SourceFile} {aspect : Aspect}
    {counted : Nat × (String → Nat)}
    (h : filesCounted? aspect (ofSeen tracked combinations aspects seen) = some counted) :
    counted = ((seen aspect).length,
      fun name => (seen aspect).countP fun file => file.1 == name) := by
  cases aspect with
  | components => cases h
  | propCombinations => cases h
  | customizations =>
    rw [← Option.some.inj h]
    exact filesIn_ofMeasures ⟨rfl, fun _ _ => rfl⟩ _ _
  | lineOwnership =>
    rw [← Option.some.inj h]
    exact filesIn_ofMeasures ⟨rfl, fun _ _ => rfl⟩ _ _
  | propSurface =>
    rw [← Option.some.inj h]
    exact filesIn_ofMeasures ⟨rfl, fun _ _ => rfl⟩ _ _

/-- Detecting defaults does not touch the files that are counted. -/
theorem filesCounted?_finalize {census final : UsageCensus.Census}
    (h : census.finalize = .ok final) (aspect : Aspect) :
    filesCounted? aspect final = filesCounted? aspect census := by
  unfold finalize at h
  split at h
  · obtain ⟨inventory, -, h⟩ := bind_eq_ok.1 h
    cases h
    cases aspect <;> rfl
  · cases h
    rfl

/-- A census that does not detect defaults takes all files. -/
theorem exists_finalize_start {aspects : List Aspect} (hnodup : aspects.Nodup)
    (hcomponents : Aspect.components ∉ aspects) (tracked : Tracked)
    (combinations : List PropCombination) (files : List SourceFile) :
    ∃ merged final, Census.addFiles (.start tracked combinations aspects) files = .ok merged ∧
      merged.finalize = .ok final := by
  have hmerged := addFiles_ofSeen tracked combinations aspects hnodup files
  exact ⟨_, _, hmerged, if_neg (mt List.contains_iff_mem.1 hcomponents)⟩

end Census

namespace Command

open Sandbox

variable {config : Config} {verbose : Bool} {s s' : Sandbox}

/-! ## Visits -/

/-- The files of a codebase that a survey adds. -/
structure Visit where
  codebase : String
  files : List SourceFile

/-- The codebase is a directory. -/
def isThere (sandbox : Sandbox) (codebase : Codebase) : Bool :=
  match sandbox.kindAt (.ofPlace codebase.place) with
  | .ok (some .directory) => true
  | _ => false

theorem isThere_iff {codebase : Codebase} :
    isThere s codebase = true ↔ s.kindAt (.ofPlace codebase.place) = .ok (some .directory) := by
  unfold isThere
  split
  · rename_i h
    exact iff_of_true rfl h
  · rename_i h
    exact iff_of_false Bool.false_ne_true h

/-- A file of a codebase, if it can be read. -/
def sourceAt? (sandbox : Sandbox) (codebase : Codebase) (file : Place) : Option SourceFile :=
  (sandbox.textAt? (.ofPlace (codebase.place ++ file))).map fun text =>
    (codebase.name, relativeText file, text.toList)

theorem filterMap_sourceAt?_cons (codebase : Codebase) (file : Place) (files : List Place) :
    (file :: files).filterMap (sourceAt? s codebase)
      = (sourceAt? s codebase file).toList ++ files.filterMap (sourceAt? s codebase) := by
  rw [List.filterMap_cons]
  cases sourceAt? s codebase file <;> rfl

section

variable [Room]

/-- The wanted files of a codebase. -/
def wantedIn (sandbox : Sandbox) (config : Config) (codebase : Codebase) :
    Except Fault (List Place) := do
  select config.filePattern config.ignored
    (← sandbox.filesBelow codebase.place (isSkipped config.ignored))

/-- A visit to a codebase takes its wanted files that can be read. -/
def IsVisit (sandbox : Sandbox) (config : Config) (codebase : Codebase) (visit : Visit) : Prop :=
  visit.codebase = codebase.name ∧ ∃ files, wantedIn sandbox config codebase = .ok files ∧
    visit.files = files.filterMap (sourceAt? sandbox codebase)

theorem IsVisit.files_eq {codebase : Codebase} {visit : Visit} {files : List Place}
    (h : IsVisit s config codebase visit) (hwanted : wantedIn s config codebase = .ok files) :
    visit.files = files.filterMap (sourceAt? s codebase) := by
  obtain ⟨-, wanted, hfiles, hvisit⟩ := h
  cases hwanted.symm.trans hfiles
  exact hvisit

/-- A visit to each codebase that is there. -/
def AreVisits (sandbox : Sandbox) (config : Config) (codebases : List Codebase)
    (visits : List Visit) : Prop :=
  List.Forall₂ (IsVisit sandbox config) (codebases.filter (isThere sandbox)) visits

/-! ## What a survey does -/

theorem run_addScanned (census : Census) (codebase path : String) (file : ScannedFile) :
    Sandbox.run (do
      let census ← Host.lift (census.addFile codebase path file)
      return (census, true) : SandboxM _) s
      = ((census.addFile codebase path file).map (·, true), s) := by
  rw [run_bind, run_lift]
  cases census.addFile codebase path file <;> rfl

/-- A file that is readable is added, if it is a text. -/
theorem exists_run_addFile (verbose : Bool) {codebase : Codebase} {file : Place} (census : Census)
    (hread : s.isReadable (.ofPlace (codebase.place ++ file)) = true) :
    ∃ notes, Sandbox.run (addFile codebase verbose census file) s
      = ((Census.addFiles census (sourceAt? s codebase file).toList).map
        (·, (sourceAt? s codebase file).isSome), s.withNotes notes) := by
  unfold addFile
  rw [run_bind, run_readText?_eq_ok.2 ⟨rfl, hread, rfl⟩]
  unfold sourceAt?
  cases s.textAt? (.ofPlace (codebase.place ++ file)) with
  | none => exact ⟨_, rfl⟩
  | some text =>
    have hone : Census.addFiles census [(codebase.name, relativeText file, text.toList)]
        = census.addFile codebase.name (relativeText file)
          (.ofText census.tracked text.toList) := by
      rw [Census.addFiles, List.foldlM_cons]
      exact bind_pure _
    rw [Option.map_some, Option.toList_some, hone]
    cases verbose with
    | false => exact ⟨s.notes, run_addScanned census _ _ _⟩
    | true =>
      obtain ⟨notes, hlog⟩ : ∃ notes, Sandbox.run (Host.log ("    " ++ relativeText file)) s
          = (.ok (), s.withNotes notes) := exists_run_note _ _
      refine ⟨notes, (run_bind _ _ s).trans ?_⟩
      rw [hlog]
      exact run_addScanned census _ _ _

theorem run_addFile {codebase : Codebase} {census census' : Census} {file : Place} {isRead : Bool}
    (h : Sandbox.run (addFile codebase verbose census file) s = (.ok (census', isRead), s')) :
    ∃ notes, s' = s.withNotes notes ∧ isRead = (sourceAt? s codebase file).isSome ∧
      Census.addFiles census (sourceAt? s codebase file).toList = .ok census' := by
  obtain ⟨text, _, htext, -⟩ := run_bind_eq_ok.1 h
  obtain ⟨-, hread, -⟩ := run_readText?_eq_ok.1 htext
  obtain ⟨notes, hrun⟩ := exists_run_addFile verbose census hread
  obtain ⟨hadd, hstate⟩ := Prod.mk.inj (hrun.symm.trans h)
  cases hadded : Census.addFiles census (sourceAt? s codebase file).toList with
  | error fault =>
    rw [hadded] at hadd
    cases hadd
  | ok census =>
    rw [hadded] at hadd
    cases hadd
    exact ⟨notes, hstate.symm, rfl, rfl⟩

theorem run_addFiles {codebase : Codebase} {census census' : Census} {files : List Place}
    {count count' : Nat}
    (h : Sandbox.run (addFiles codebase verbose census count files) s
      = (.ok (census', count'), s')) :
    ∃ notes, s' = s.withNotes notes ∧
      count' = count + (files.filterMap (sourceAt? s codebase)).length ∧
      Census.addFiles census (files.filterMap (sourceAt? s codebase)) = .ok census' := by
  induction files generalizing census count s with
  | nil =>
    obtain ⟨hdone, rfl⟩ := run_pure_eq_ok.1 h
    cases hdone
    exact ⟨_, rfl, rfl, rfl⟩
  | cons file files ih =>
    unfold addFiles at h
    obtain ⟨⟨first, isRead⟩, _, hfile, h⟩ := run_bind_eq_ok.1 h
    obtain ⟨notes, rfl, rfl, hfirst⟩ := run_addFile hfile
    obtain ⟨notes', rfl, rfl, hrest⟩ := ih h
    refine ⟨notes', rfl, ?_, ?_⟩
    · rw [filterMap_sourceAt?_cons, List.length_append]
      show (if (sourceAt? s codebase file).isSome then count + 1 else count) +
        (files.filterMap (sourceAt? s codebase)).length = _
      cases sourceAt? s codebase file with
      | none => simp
      | some source => simp; omega
    · rw [filterMap_sourceAt?_cons, Census.addFiles_append]
      exact bind_eq_ok.2 ⟨first, hfirst, hrest⟩

theorem run_wantedFiles (codebase : Codebase) :
    Sandbox.run (wantedFiles config codebase.place) s = (wantedIn s config codebase, s) := by
  unfold wantedFiles
  rw [run_bind, run_filesBelow]
  unfold wantedIn
  cases s.filesBelow codebase.place (isSkipped config.ignored) with
  | error fault => rfl
  | ok files => exact run_lift _

theorem run_addCodebase {survey survey' : Survey} {codebase : Codebase}
    (h : Sandbox.run (addCodebase config verbose survey codebase) s = (.ok survey', s')) :
    ∃ notes, s' = s.withNotes notes ∧
      if isThere s codebase then
        ∃ visit, IsVisit s config codebase visit ∧
          Census.addFiles survey.census visit.files = .ok survey'.census ∧
          survey'.counts = survey.counts.insert visit.codebase visit.files.length
      else survey' = survey := by
  unfold addCodebase at h
  obtain ⟨kind, _, hlook, hrest⟩ := run_bind_eq_ok.1 h
  obtain ⟨hkind, rfl⟩ := Prod.mk.inj ((run_kindAt _).symm.trans hlook)
  split at hrest
  · obtain ⟨files, _, hfiles, hvisit⟩ := run_bind_eq_ok.1 hrest
    obtain ⟨hwanted, rfl⟩ := Prod.mk.inj ((run_wantedFiles codebase).symm.trans hfiles)
    obtain ⟨name, _, hname, hvisit⟩ := run_bind_eq_ok.1 hvisit
    obtain rfl := run_encodable_eq_ok hname
    obtain ⟨_, _, hlog, hvisit⟩ := run_bind_eq_ok.1 hvisit
    obtain ⟨notes, rfl⟩ := run_note_eq_ok hlog
    obtain ⟨⟨census, count⟩, _, hadd, hvisit⟩ := run_bind_eq_ok.1 hvisit
    obtain ⟨notes', rfl, hcount, hcensus⟩ := run_addFiles hadd
    obtain ⟨hsurvey, rfl⟩ := run_pure_eq_ok.1 hvisit
    cases hsurvey
    refine ⟨notes', rfl, ?_⟩
    rw [if_pos (isThere_iff.2 hkind)]
    refine ⟨⟨codebase.name, files.filterMap (sourceAt? s codebase)⟩, ⟨rfl, files, hwanted, rfl⟩,
      hcensus, ?_⟩
    rw [hcount, Nat.zero_add]
    rfl
  · rename_i hnone
    obtain ⟨name, _, hname, hskip⟩ := run_bind_eq_ok.1 hrest
    obtain rfl := run_encodable_eq_ok hname
    obtain ⟨_, _, hwarn, hskip⟩ := run_bind_eq_ok.1 hskip
    obtain ⟨notes, rfl⟩ := run_note_eq_ok hwarn
    obtain ⟨hsurvey, rfl⟩ := run_pure_eq_ok.1 hskip
    refine ⟨notes, rfl, ?_⟩
    rw [if_neg]
    · exact hsurvey.symm
    · intro hthere
      rw [isThere_iff, hkind] at hthere
      exact hnone (Except.ok.inj hthere)

/-- Codebases are visited one after the other, as far as they are there. -/
theorem run_addCodebases {codebases : List Codebase} {survey survey' : Survey}
    (h : Sandbox.run (codebases.foldlM (addCodebase config verbose) survey) s = (.ok survey', s')) :
    ∃ notes visits, s' = s.withNotes notes ∧ AreVisits s config codebases visits ∧
      Census.addFiles survey.census (visits.flatMap Visit.files) = .ok survey'.census ∧
      survey'.counts = visits.foldl (fun counts visit =>
        counts.insert visit.codebase visit.files.length) survey.counts := by
  induction codebases generalizing survey s with
  | nil =>
    obtain ⟨hsurvey, rfl⟩ := run_pure_eq_ok.1 h
    cases hsurvey
    exact ⟨_, [], rfl, .nil, rfl, rfl⟩
  | cons codebase codebases ih =>
    obtain ⟨next, _, hrun, hrest⟩ := run_bind_eq_ok.1 h
    obtain ⟨notes, rfl, hfirst⟩ := run_addCodebase hrun
    -- Notes are never looked at, so the other visits could as well be made from the start.
    obtain ⟨notes', visits, rfl, hvisits, hcensus, hcounts⟩ := ih hrest
    unfold AreVisits
    rw [List.filter_cons]
    by_cases hthere : isThere s codebase
    · rw [if_pos hthere] at hfirst ⊢
      obtain ⟨visit, hvisit, hadded, hinsert⟩ := hfirst
      refine ⟨notes', visit :: visits, rfl, .cons hvisit hvisits, ?_, ?_⟩
      · rw [List.flatMap_cons, Census.addFiles_append]
        exact bind_eq_ok.2 ⟨_, hadded, hcensus⟩
      · rw [List.foldl_cons, ← hinsert, hcounts]
    · rw [if_neg hthere] at hfirst ⊢
      subst hfirst
      exact ⟨notes', visits, rfl, hvisits, hcensus, hcounts⟩

/-- A survey adds the files of all visits, and then detects the defaults. -/
theorem exists_visits {census : Census} {found : Survey}
    (h : Sandbox.run (survey config census verbose) s = (.ok found, s')) :
    ∃ visits, AreVisits s config config.codebases visits ∧
      (∃ merged, Census.addFiles census (visits.flatMap Visit.files) = .ok merged ∧
        merged.finalize = .ok found.census) ∧
      found.counts = .ofPairs (visits.map fun visit => (visit.codebase, visit.files.length)) := by
  unfold survey at h
  obtain ⟨merged, _, hfold, hrest⟩ := run_bind_eq_ok.1 h
  obtain ⟨notes, visits, rfl, hvisits, hmerged, hcounts⟩ := run_addCodebases hfold
  obtain ⟨final, _, hlift, hreturn⟩ := run_bind_eq_ok.1 hrest
  obtain ⟨hfinal, rfl⟩ := run_lift_eq_ok.1 hlift
  obtain ⟨hfound, -⟩ := run_pure_eq_ok.1 hreturn
  refine ⟨visits, hvisits, ⟨merged.census, hmerged, ?_⟩, ?_⟩
  · rw [hfinal, ← hfound]
  · rw [← hfound, Table.ofPairs, List.foldl_map]
    exact hcounts

/-! ## Surveys that return -/

/-- Nothing stands in the way of a survey: paths are not too long, globs and directories not too
deep, and names can be shown. -/
structure IsOpen (sandbox : Sandbox) (config : Config) (codebase : Codebase) : Prop where
  kind : ∃ kind, sandbox.kindAt (.ofPlace codebase.place) = .ok kind
  name : config.surrogates.occurIn codebase.name.toList = false
  place : config.surrogates.occurIn
    (codebase.name ++ ": " ++ Place.text codebase.place).toList = false
  files : ∃ files, wantedIn sandbox config codebase = .ok files ∧
    ∀ file ∈ files, sandbox.isReadable (.ofPlace (codebase.place ++ file)) = true

theorem IsOpen.withNotes {codebase : Codebase} (h : IsOpen s config codebase)
    (notes : List String) : IsOpen (s.withNotes notes) config codebase :=
  ⟨h.kind, h.name, h.place, h.files⟩

theorem exists_run_addFiles (verbose : Bool) {codebase : Codebase} {census census' : Census}
    {files : List Place}
    (hread : ∀ file ∈ files, s.isReadable (.ofPlace (codebase.place ++ file)) = true)
    (h : Census.addFiles census (files.filterMap (sourceAt? s codebase)) = .ok census')
    (count : Nat) :
    ∃ count' notes, Sandbox.run (addFiles codebase verbose census count files) s
      = (.ok (census', count'), s.withNotes notes) := by
  induction files generalizing census count s with
  | nil =>
    cases h
    exact ⟨count, s.notes, rfl⟩
  | cons file files ih =>
    rw [filterMap_sourceAt?_cons, Census.addFiles_append] at h
    obtain ⟨first, hfirst, hrest⟩ := bind_eq_ok.1 h
    obtain ⟨hfile, hfiles⟩ := List.forall_mem_cons.1 hread
    obtain ⟨notes, hrun⟩ := exists_run_addFile verbose census hfile
    rw [hfirst] at hrun
    obtain ⟨count', notes', hruns⟩ := ih (s := s.withNotes notes) hfiles hrest _
    exact ⟨count', notes', run_bind_eq_ok.2 ⟨_, _, hrun, hruns⟩⟩

theorem exists_run_addCodebase (verbose : Bool) {survey : Survey} {codebase : Codebase}
    (hopen : IsOpen s config codebase)
    (hadd : ∀ files, ∃ census, Census.addFiles survey.census files = .ok census) :
    ∃ survey' notes, Sandbox.run (addCodebase config verbose survey codebase) s
      = (.ok survey', s.withNotes notes) := by
  obtain ⟨kind, hkind⟩ := hopen.kind
  obtain ⟨files, hwanted, hread⟩ := hopen.files
  unfold addCodebase
  rw [run_bind, run_kindAt, hkind]
  dsimp only
  split
  · obtain ⟨census, hcensus⟩ := hadd (files.filterMap (sourceAt? s codebase))
    rw [run_bind, run_wantedFiles, hwanted]
    dsimp only
    rw [run_bind, run_encodable hopen.name]
    dsimp only
    obtain ⟨notes, hlog⟩ := exists_run_note (s := s) .dim
      ("  " ++ codebase.name ++ ": " ++ toString files.length ++ " files")
    obtain ⟨count, notes', hfiles⟩ := exists_run_addFiles verbose
      (s := s.withNotes notes) hread hcensus 0
    exact ⟨_, notes', run_bind_eq_ok.2 ⟨_, _, hlog, run_bind_eq_ok.2 ⟨_, _, hfiles, rfl⟩⟩⟩
  · rw [run_bind, run_encodable hopen.place]
    exact ⟨_, _, rfl⟩

theorem exists_run_addCodebases (verbose : Bool) {survey : Survey} {codebases : List Codebase}
    (hopen : ∀ codebase ∈ codebases, IsOpen s config codebase)
    (hadd : ∀ files, ∃ census, Census.addFiles survey.census files = .ok census) :
    ∃ survey' notes, Sandbox.run (codebases.foldlM (addCodebase config verbose) survey) s
      = (.ok survey', s.withNotes notes) := by
  induction codebases generalizing survey s with
  | nil => exact ⟨survey, s.notes, rfl⟩
  | cons codebase codebases ih =>
    obtain ⟨hfirst, hrest⟩ := List.forall_mem_cons.1 hopen
    obtain ⟨next, notes, hrun⟩ := exists_run_addCodebase verbose hfirst hadd
    -- Files that come later are added to a census with the files of this visit.
    have hnext : ∀ files, ∃ census, Census.addFiles next.census files = .ok census := by
      intro files
      obtain ⟨_, -, hvisit⟩ := run_addCodebase hrun
      split at hvisit
      · obtain ⟨visit, -, hadded, -⟩ := hvisit
        obtain ⟨census, hcensus⟩ := hadd (visit.files ++ files)
        rw [Census.addFiles_append, hadded] at hcensus
        exact ⟨census, hcensus⟩
      · rw [hvisit]
        exact hadd files
    obtain ⟨survey', notes', hruns⟩ := ih (s := s.withNotes notes)
      (fun codebase hcodebase => (hrest codebase hcodebase).withNotes notes) hnext
    exact ⟨survey', notes', run_bind_eq_ok.2 ⟨_, _, hrun, hruns⟩⟩

/-- A survey returns if all codebases are open to it and defaults can be detected. -/
theorem exists_run_survey (verbose : Bool) {census : Census}
    (hopen : ∀ codebase ∈ config.codebases, IsOpen s config codebase)
    (hcensus : ∀ files, ∃ merged final, Census.addFiles census files = .ok merged ∧
      merged.finalize = .ok final) :
    ∃ found notes,
      Sandbox.run (survey config census verbose) s = (.ok found, s.withNotes notes) := by
  have hadd : ∀ files, ∃ merged, Census.addFiles (Survey.mk census .empty).census files
      = .ok merged := by
    intro files
    obtain ⟨merged, _, hmerged, -⟩ := hcensus files
    exact ⟨merged, hmerged⟩
  obtain ⟨merged, notes, hfold⟩ := exists_run_addCodebases verbose hopen hadd
  obtain ⟨_, visits, -, -, hmerged, -⟩ := run_addCodebases hfold
  obtain ⟨_, final, hadded, hfinal⟩ := hcensus (visits.flatMap Visit.files)
  cases hadded.symm.trans hmerged
  refine ⟨{ merged with census := final }, notes, ?_⟩
  exact run_bind_eq_ok.2 ⟨_, _, hfold, run_bind_eq_ok.2 ⟨_, _, run_lift_eq_ok.2 ⟨hfinal, rfl⟩, rfl⟩⟩

end

/-! ## Counts -/

/-- How many files are visited. -/
def filesVisited (visits : List Visit) : Nat := sumOf (fun visit => visit.files.length) visits

/-- How many files are visited in codebases of a name. -/
def filesNamed (name : String) (visits : List Visit) : Nat :=
  filesVisited (visits.filter fun visit => visit.codebase == name)

theorem length_flatMap_files (visits : List Visit) :
    (visits.flatMap Visit.files).length = filesVisited visits := by
  unfold filesVisited
  induction visits with
  | nil => rfl
  | cons visit visits ih => rw [List.flatMap_cons, List.length_append, ih, sumOf]

theorem countP_flatMap_files {visits : List Visit}
    (h : ∀ visit ∈ visits, ∀ file ∈ visit.files, file.1 = visit.codebase) (name : String) :
    (visits.flatMap Visit.files).countP (fun file => file.1 == name) = filesNamed name visits := by
  induction visits with
  | nil => rfl
  | cons visit visits ih =>
    obtain ⟨hvisit, hvisits⟩ := List.forall_mem_cons.1 h
    rw [List.flatMap_cons, List.countP_append, ih hvisits, filesNamed, filesNamed,
      List.filter_cons]
    by_cases hname : (visit.codebase == name) = true
    · have hall : visit.files.countP (fun file => file.1 == name) = visit.files.length :=
        List.countP_eq_length.2 fun file hfile => by rwa [hvisit file hfile]
      rw [if_pos hname, hall]
      rfl
    · have hnone : visit.files.countP (fun file => file.1 == name) = 0 :=
        List.countP_eq_zero.2 fun file hfile => by rwa [hvisit file hfile]
      rw [if_neg hname, hnone, Nat.zero_add]

/-- The numbers of the last visits are those of all visits if all others have no files. -/
theorem ofPairs_counts_iff (visits : List Visit) :
    ((Table.ofPairs (visits.map fun visit => (visit.codebase, visit.files.length))).total
        = filesVisited visits ∧
      ∀ name, (Table.ofPairs (visits.map fun visit =>
        (visit.codebase, visit.files.length))).getD name 0 = filesNamed name visits)
      ↔ visits.Pairwise fun visit later => visit.codebase = later.codebase → visit.files = [] := by
  have hkeeps := @Table.ofPairs_keeps_iff _ _
    (visits.map fun visit : Visit => (visit.codebase, visit.files.length))
  have hentered : ∀ name, enteredAt name
      (visits.map fun visit : Visit => (visit.codebase, visit.files.length))
        = filesNamed name visits := by
    intro name
    rw [enteredAt, List.filter_map, sumOf_map]
    rfl
  rw [sumOf_map, List.pairwise_map] at hkeeps
  simp only [hentered, List.length_eq_zero_iff] at hkeeps
  exact hkeeps

section

variable [Room]

theorem codebase_of_mem_files {codebases : List Codebase} {visits : List Visit}
    (h : AreVisits s config codebases visits) :
    ∀ visit ∈ visits, ∀ file ∈ visit.files, file.1 = visit.codebase := by
  unfold AreVisits at h
  generalize codebases.filter (isThere s) = there at h
  induction h with
  | nil => exact fun visit hvisit => by cases hvisit
  | @cons codebase visit _ _ hvisit _ ih =>
    refine List.forall_mem_cons.2 ⟨fun file hfile => ?_, ih⟩
    obtain ⟨hname, files, -, hfiles⟩ := hvisit
    rw [hfiles] at hfile
    obtain ⟨place, -, hsource⟩ := List.mem_filterMap.1 hfile
    obtain ⟨text, -, rfl⟩ := Option.map_eq_some_iff.1 hsource
    exact hname.symm

/-- An aspect that counts files counts those of all visits. -/
theorem filesCounted?_of_visits {tracked : Tracked} {combinations : List PropCombination}
    {aspects : List Aspect} {merged final : Census} {codebases : List Codebase}
    {visits : List Visit} (hnodup : aspects.Nodup) (hvisits : AreVisits s config codebases visits)
    (hmerged : Census.addFiles (.start tracked combinations aspects)
      (visits.flatMap Visit.files) = .ok merged) (hfinal : merged.finalize = .ok final)
    {aspect : Aspect} (haspect : aspect ∈ aspects) {counted : Nat × (String → Nat)}
    (h : filesCounted? aspect final = some counted) :
    counted = (filesVisited visits, fun name => filesNamed name visits) := by
  rw [addFiles_ofSeen tracked combinations aspects hnodup] at hmerged
  cases hmerged
  rw [filesCounted?_finalize hfinal] at h
  have hseen := filesCounted?_ofSeen h
  simp only [if_pos haspect] at hseen
  rw [hseen, length_flatMap_files]
  congr 1
  funext name
  exact countP_flatMap_files (codebase_of_mem_files hvisits) name

end

/-- What a survey says of the files that it has visited. -/
structure IsAccount (found : Survey) (start : Census) (visits : List Visit) : Prop where
  /-- The files of all visits are added, each to every aspect, before defaults are detected. -/
  merged : ∃ merged, Census.addFiles start (visits.flatMap Visit.files) = .ok merged ∧
    merged.finalize = .ok found.census
  /-- An aspect that counts files counts them all, each for the name of its codebase. -/
  counted : ∀ aspect ∈ start.aspects, ∀ counted,
    filesCounted? aspect found.census = some counted →
      counted = (filesVisited visits, fun name => filesNamed name visits)
  /-- The survey keeps a number for each name, that of the last visit. -/
  counts : found.counts
    = .ofPairs (visits.map fun visit => (visit.codebase, visit.files.length))
  /-- No file is left out of these numbers if only last visits have files. -/
  agree : (found.counts.total = filesVisited visits ∧
      ∀ name, found.counts.getD name 0 = filesNamed name visits)
    ↔ visits.Pairwise fun visit later => visit.codebase = later.codebase → visit.files = []

theorem survey_counts [Room] {tracked : Tracked} {combinations : List PropCombination}
    {aspects : List Aspect} {found : Survey} (hnodup : aspects.Nodup)
    (h : Sandbox.run (survey config (.start tracked combinations aspects) verbose) s
      = (.ok found, s')) :
    ∃ visits, AreVisits s config config.codebases visits ∧
      IsAccount found (.start tracked combinations aspects) visits := by
  obtain ⟨visits, hvisits, ⟨merged, hmerged, hfinal⟩, hcounts⟩ := exists_visits h
  refine ⟨visits, hvisits, ⟨merged, hmerged, hfinal⟩, ?_, hcounts, ?_⟩
  · exact fun _ haspect _ => filesCounted?_of_visits hnodup hvisits hmerged hfinal haspect
  · rw [hcounts]
    exact ofPairs_counts_iff visits

/-! ## Two directories of one name -/

section

variable [Room]

theorem wantedIn_oneFile {codebase : Codebase} {name : String} {content : ByteArray}
    (hdisk : s.disk.get? codebase.place = some (.directory [(name, .file content)]))
    (hlist : canList codebase.place [] = true)
    (hwanted : isWanted config.filePattern config.ignored [name] = .ok true) :
    wantedIn s config codebase = .ok [[name]] := by
  have hbelow : s.filesBelow codebase.place (isSkipped config.ignored) = .ok [[name]] := by
    unfold Sandbox.filesBelow
    rw [hdisk]
    dsimp only
    unfold filesListed
    rw [hlist, Tree.filesFrom, Tree.entryFiles, Tree.entryFiles]
    rfl
  have hselect : select config.filePattern config.ignored [[name]] = .ok [[name]] := by
    rw [select, List.filterM, List.filterAuxM, hwanted]
    show Except.ok (inOrder [[name]]) = _
    rw [inOrder, List.mergeSort_singleton]
  exact bind_eq_ok.2 ⟨_, hbelow, hselect⟩

/-- A short file in a directory. -/
def appTree (name : String) : Tree :=
  .directory [("app", .directory [(name, .file ⟨#[60, 98, 47, 62, 10]⟩)])]

def twoApps : Sandbox where
  disk := .directory [("a", appTree "A.tsx"), ("b", appTree "B.tsx")]
  here := []
  console := ⟨false, true, false⟩
  moment := ""
  shown := []
  notes := []

def appsConfig : Config where
  codebases := [⟨"app", ["a", "app"]⟩, ⟨"app", ["b", "app"]⟩]
  libraries := []
  filePattern := "*.tsx"
  ignored := []
  combinations := []
  output := []
  source := none
  surrogates := .none

def linesOnly : Census := .start (.ofLists [] [] [] "") [] [.lineOwnership]

theorem wantedIn_twoApps :
    wantedIn twoApps appsConfig ⟨"app", ["a", "app"]⟩ = .ok [["A.tsx"]] ∧
      wantedIn twoApps appsConfig ⟨"app", ["b", "app"]⟩ = .ok [["B.tsx"]] :=
  ⟨wantedIn_oneFile rfl (by decide +kernel) (by cbv),
    wantedIn_oneFile rfl (by decide +kernel) (by cbv)⟩

theorem isOpen_twoApps : ∀ codebase ∈ appsConfig.codebases, IsOpen twoApps appsConfig codebase := by
  intro codebase hcodebase
  rcases List.mem_pair.1 hcodebase with rfl | rfl
  · exact ⟨⟨some .directory, by decide +kernel⟩, rfl, rfl,
      ⟨_, wantedIn_twoApps.1, by decide +kernel⟩⟩
  · exact ⟨⟨some .directory, by decide +kernel⟩, rfl, rfl,
      ⟨_, wantedIn_twoApps.2, by decide +kernel⟩⟩

theorem exists_run_twoApps :
    ∃ found notes, Sandbox.run (survey appsConfig linesOnly false) twoApps
      = (.ok found, twoApps.withNotes notes) :=
  exists_run_survey false isOpen_twoApps (exists_finalize_start (by decide) (by decide) _ _)

/-- Each of the two directories is visited, and has one file. -/
theorem visits_twoApps {visits : List Visit}
    (h : AreVisits twoApps appsConfig appsConfig.codebases visits) :
    visits.map (fun visit => (visit.codebase, visit.files.length)) = [("app", 1), ("app", 1)] := by
  have hthere : appsConfig.codebases.filter (isThere twoApps) = appsConfig.codebases :=
    List.filter_eq_self.2 (by decide +kernel)
  rw [AreVisits, hthere] at h
  obtain _ | ⟨hfirst, _ | ⟨hsecond, _ | _⟩⟩ := h
  rw [List.map_cons, List.map_cons, hfirst.1, hsecond.1, hfirst.files_eq wantedIn_twoApps.1,
    hsecond.files_eq wantedIn_twoApps.2]
  decide +kernel

end

theorem survey_counts_twoApps :
    let _ : Room := .ofSize 1000 (by decide)
    ∃ found s' visits,
      Sandbox.run (survey appsConfig linesOnly false) twoApps = (.ok found, s') ∧
      AreVisits twoApps appsConfig appsConfig.codebases visits ∧
      IsAccount found linesOnly visits := by
  intro room
  obtain ⟨found, notes, h⟩ := exists_run_twoApps
  obtain ⟨visits, hvisits, haccount⟩ := survey_counts (by decide) h
  exact ⟨found, _, visits, h, hvisits, haccount⟩

/-- Two files are counted, but only the one of the last visit is in the numbers of the survey. -/
theorem survey_forgets_first_app :
    let _ : Room := .ofSize 1000 (by decide)
    ∃ found s',
      Sandbox.run (survey appsConfig linesOnly false) twoApps = (.ok found, s') ∧
      found.census.lines.overall.files = 2 ∧ found.counts.total = 1 := by
  intro room
  obtain ⟨found, notes, h⟩ := exists_run_twoApps
  obtain ⟨visits, hvisits, ⟨merged, hmerged, hfinal⟩, hcounts⟩ := exists_visits h
  have hpairs := visits_twoApps hvisits
  refine ⟨found, _, h, ?_, ?_⟩
  · have haspect : Aspect.lineOwnership ∈ [Aspect.lineOwnership] := List.mem_singleton_self _
    have hcounted := filesCounted?_of_visits (by decide) hvisits hmerged hfinal haspect rfl
    have htotal : filesVisited visits = 2 := by
      have hsum := congrArg (sumOf Prod.snd) hpairs
      rwa [sumOf_map] at hsum
    exact (congrArg Prod.fst hcounted).trans htotal
  · rw [hcounts, hpairs]
    decide +kernel

end Command

end UsageCensus
