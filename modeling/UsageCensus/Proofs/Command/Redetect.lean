import Mathlib.Data.List.Forall2
import Mathlib.Data.List.Nodup
import UsageCensus.Proofs.Defaults.Redetection
import UsageCensus.Proofs.Text.Reading
import UsageCensus.Sandbox

/-!
# Reading back the reports of a survey

The outputs of a survey hold one document for each used component. Read back in the order of
their names, as the command does, they are one stored report each, and the defaults that are
detected in them are those that the survey has detected (`detectIn_detailFiles`).
-/

namespace UsageCensus

open UsageCensus.Defaults UsageCensus.Files UsageCensus.Text

namespace Census

/-! ## Paths of documents about components -/

def detailName (component : String) : String := component ++ ".json"

theorem detailName_inj {component component' : String}
    (h : detailName component = detailName component') : component = component' :=
  (String.append_left_inj _).1 h

theorem detailPath_eq (component : String) :
    detailPath component = "components/detail/" ++ detailName component := by
  unfold detailPath detailName
  exact String.append_assoc

theorem detailPath_inj : Function.Injective detailPath := by
  intro component component' h
  rw [detailPath_eq, detailPath_eq] at h
  exact detailName_inj ((String.append_right_inj _).1 h)

/-- A component without a slash in its name has a file in the directory of details. -/
theorem names_detailPath {component : String} (h : '/' ∉ component.toList) :
    (Path.ofText (detailPath component)).names
      = ["components", "detail", detailName component] := by
  have hname : '/' ∉ (detailName component).toList := by
    rw [detailName, String.toList_append, List.mem_append]
    rintro (hmem | hmem)
    · exact h hmem
    · exact absurd hmem (by decide)
  have hpath : (detailPath component).toList
      = "components".toList
        ++ '/' :: ("detail".toList ++ '/' :: (detailName component).toList) := by
    rw [detailPath_eq, String.toList_append]
    rfl
  have hcut : cutAt '/' (detailPath component).toList
      = ["components".toList, "detail".toList, (detailName component).toList] := by
    rw [hpath, cutAt_append (by decide), cutAt_append (by decide), cutAt_of_not_mem hname]
  have hlength : (detailName component).length = component.length + 5 :=
    String.length_append component ".json"
  have hkept : (detailName component != "" && detailName component != ".") = true := by
    rw [Bool.and_eq_true, bne_iff_ne, bne_iff_ne]
    constructor
    · intro h
      rw [h] at hlength
      cases hlength
    · intro h
      rw [h] at hlength
      cases hlength
  unfold Path.ofText
  dsimp only
  rw [hcut]
  simp only [List.map_cons, List.map_nil, String.ofList_toList]
  show "components" :: "detail" :: List.filter _ [detailName component] = _
  rw [List.filter_cons_of_pos (by exact hkept), List.filter_nil]

def nameInDetails? (output : String × String) : Option String :=
  match (Path.ofText output.1).names with
  | ["components", "detail", name] => some name
  | _ => none

theorem nameInDetails?_detailPath {component : String} (h : '/' ∉ component.toList)
    (text : String) :
    nameInDetails? (detailPath component, text) = some (detailName component) := by
  unfold nameInDetails?
  rw [names_detailPath h]
  rfl

theorem nameInDetails?_eq_none {path : String}
    (h : (Path.ofText path).names.take 2 ≠ ["components", "detail"]) (text : String) :
    nameInDetails? (path, text) = none := by
  unfold nameInDetails?
  split
  · rename_i hnames
    rw [hnames] at h
    exact absurd rfl h
  · rfl

/-- The files of reports in the directory of details: the names in order, and the texts. -/
def detailFiles (outputs : Outputs) : List (String × Option String) :=
  (Command.reportsAmong (outputs.filterMap nameInDetails?)).map fun name =>
    (name, outputs.lookup ("components/detail/" ++ name))

/-! ## Outputs on components -/

def usedReports (inventory : Inventory) : List (String × ComponentReport) :=
  inventory.reports.entries.filter fun entry => entry.2.isUsed

theorem threeWays_eq_ok [Room] {base : String} {summary : Document}
    {sheet page : Document → Except Fault String} {outputs : Outputs}
    (h : threeWays base summary sheet page = .ok outputs) :
    ∃ texts : String × String × String, outputs =
      [(base ++ ".json", texts.1), (base ++ ".csv", texts.2.1), (base ++ ".md", texts.2.2)] := by
  unfold threeWays at h
  obtain ⟨text, -, h⟩ := bind_eq_ok.1 h
  obtain ⟨record, -, h⟩ := bind_eq_ok.1 h
  obtain ⟨lines, -, h⟩ := bind_eq_ok.1 h
  cases h
  exact ⟨(text, record, lines), rfl⟩

/-- The outputs hold the documents about used components, and nothing else among the details. -/
theorem componentOutputs_eq_ok [Room] {generatedAt library : String} {codebases : List String}
    {inventory : Inventory} {outputs : Outputs}
    (h : componentOutputs generatedAt library codebases inventory = .ok outputs) :
    ∃ (text : String × ComponentReport → String) (others : Outputs),
      (∀ entry ∈ usedReports inventory, entry.2.detail.savedText = .ok (text entry)) ∧
      outputs = (usedReports inventory).map (fun entry => (detailPath entry.1, text entry))
        ++ others ∧
      others.filterMap nameInDetails? = [] := by
  unfold componentOutputs at h
  obtain ⟨details, hdetails, h⟩ := bind_eq_ok.1 h
  obtain ⟨summary, hsummary, h⟩ := bind_eq_ok.1 h
  obtain ⟨defaults, -, h⟩ := bind_eq_ok.1 h
  cases h
  obtain ⟨output, houtput, rfl⟩ := mapM_eq_ok.1 hdetails
  obtain ⟨texts, rfl⟩ := threeWays_eq_ok hsummary
  have hdetail : ∀ entry ∈ usedReports inventory,
      entry.2.detail.savedText = .ok (output entry).2 ∧ (output entry).1 = detailPath entry.1 := by
    intro entry hentry
    obtain ⟨text, htext, h⟩ := bind_eq_ok.1 (houtput entry hentry)
    have h := Except.ok.inj h
    rw [← h]
    exact ⟨htext, rfl⟩
  have hdetails : (usedReports inventory).map output
      = (usedReports inventory).map fun entry => (detailPath entry.1, (output entry).2) :=
    List.map_congr_left fun entry hentry => by rw [← (hdetail entry hentry).2]
  refine ⟨fun entry => (output entry).2,
    [("components/summary.json", texts.1), ("components/summary.csv", texts.2.1),
      ("components/summary.md", texts.2.2), ("components/detected-prop-defaults.json", defaults),
      ("components/detected-prop-defaults.txt",
        Detection.listing .none toString inventory.detected)],
    fun entry hentry => (hdetail entry hentry).1, ?_, ?_⟩
  · rw [← hdetails, List.append_assoc]
    rfl
  · refine List.filterMap_eq_nil_iff.2 (List.forall_mem_cons.2 ⟨?_, List.forall_mem_cons.2 ⟨?_,
      List.forall_mem_cons.2 ⟨?_, List.forall_mem_cons.2 ⟨?_, List.forall_mem_cons.2 ⟨?_, ?_⟩⟩⟩⟩⟩)
    · exact nameInDetails?_eq_none (by decide) _
    · exact nameInDetails?_eq_none (by decide) _
    · exact nameInDetails?_eq_none (by decide) _
    · exact nameInDetails?_eq_none (by decide) _
    · exact nameInDetails?_eq_none (by decide) _
    · simp

theorem lookup_detailPath {used : List (String × ComponentReport)}
    (hkeys : (used.map Prod.fst).Nodup) (text : String × ComponentReport → String)
    (others : Outputs) {entry : String × ComponentReport} (hentry : entry ∈ used) :
    (used.map (fun entry => (detailPath entry.1, text entry)) ++ others).lookup
      (detailPath entry.1) = some (text entry) := by
  have hpaths : ((used.map fun entry => (detailPath entry.1, text entry)).map Prod.fst).Nodup := by
    have hfst : (used.map fun entry => (detailPath entry.1, text entry)).map Prod.fst
        = (used.map Prod.fst).map detailPath := by
      rw [List.map_map, List.map_map]
      rfl
    rw [hfst]
    exact List.Nodup.map detailPath_inj hkeys
  have hmem : (detailPath entry.1, text entry)
      ∈ used.map fun entry => (detailPath entry.1, text entry) := List.mem_map_of_mem hentry
  rw [List.lookup_append, (lookup_eq_some_iff hpaths).2 hmem]
  rfl

/-- The files of details are those of the used components, in the order of their names. -/
theorem detailFiles_eq {used : List (String × ComponentReport)}
    (hkeys : (used.map Prod.fst).Nodup) (hnames : ∀ entry ∈ used, '/' ∉ entry.1.toList)
    {text : String × ComponentReport → String} {others : Outputs}
    (hothers : others.filterMap nameInDetails? = []) :
    ∃ sorted : List (String × ComponentReport), sorted.Perm used ∧
      detailFiles (used.map (fun entry => (detailPath entry.1, text entry)) ++ others)
        = sorted.map fun entry => (detailName entry.1, some (text entry)) := by
  have houtputs : (used.map (fun entry => (detailPath entry.1, text entry)) ++ others).filterMap
      nameInDetails? = used.map fun entry => detailName entry.1 := by
    rw [List.filterMap_append, hothers, List.append_nil, List.filterMap_map,
      ← List.filterMap_eq_map]
    apply List.filterMap_congr
    intro entry hentry
    exact nameInDetails?_detailPath (hnames entry hentry) (text entry)
  have hending : ∀ name ∈ used.map fun entry => detailName entry.1,
      ".json".toList.isSuffixOf name.toList = true := by
    intro name hname
    obtain ⟨entry, -, rfl⟩ := List.mem_map.1 hname
    rw [List.isSuffixOf_iff_suffix, detailName, String.toList_append]
    exact List.suffix_append _ _
  let le (a b : String × ComponentReport) : Bool := decide (detailName a.1 ≤ detailName b.1)
  refine ⟨used.mergeSort le, List.mergeSort_perm used le, ?_⟩
  unfold detailFiles Command.reportsAmong
  have hsort : (used.map fun entry => detailName entry.1).mergeSort (fun a b => decide (a ≤ b))
      = (used.mergeSort le).map fun entry => detailName entry.1 := by
    refine (List.map_mergeSort fun a _ b _ => ?_).symm
    rfl
  rw [houtputs, List.filter_eq_self.2 hending, hsort, List.map_map]
  apply List.map_congr_left
  intro entry hentry
  show (detailName entry.1, _) = _
  have hentry := (List.mergeSort_perm used le).mem_iff.1 hentry
  rw [← detailPath_eq, lookup_detailPath hkeys text others hentry]

end Census

namespace Command

open UsageCensus.Census UsageCensus.Source

/-! ## Stored reports -/

theorem insert_of_not_same {new : StoredReport} {reports : List StoredReport}
    (h : ∀ report ∈ reports, report.label.same new.label = false) :
    StoredReport.insert new reports = reports ++ [new] := by
  induction reports with
  | nil => rfl
  | cons report reports ih =>
    rw [StoredReport.insert, h report (by simp), ih fun report hmem => h report (by simp [hmem])]
    rfl

section

variable {m : Type → Type} [Host m] [LawfulMonad m] [Room] {surrogates : Surrogates}

theorem addReport_of_reportIn? {file : String × Option String} {report : StoredReport}
    (h : reportIn? surrogates file.1 file.2 = .ok (some report)) (reports : List StoredReport) :
    (addReport surrogates reports file : m _) = pure (StoredReport.insert report reports) := by
  unfold addReport
  rw [h]
  show (pure (some report) >>= _ : m _) = _
  rw [pure_bind]

/-- Files of reports about distinct components are added as they come. -/
theorem foldlM_addReport {files : List (String × Option String)} {new : List StoredReport}
    (hnew : List.Forall₂ (fun file report =>
      reportIn? surrogates file.1 file.2 = .ok (some report)) files new)
    {reports : List StoredReport}
    (hlabels : (reports ++ new).Pairwise fun a b => a.label.same b.label = false) :
    (files.foldlM (addReport surrogates) reports : m _) = pure (reports ++ new) := by
  induction hnew generalizing reports with
  | nil => rw [List.foldlM_nil, List.append_nil]
  | @cons file report files new hreport _ ih =>
    have hadd : StoredReport.insert report reports = reports ++ [report] := by
      rw [List.pairwise_append] at hlabels
      exact insert_of_not_same fun old hold => hlabels.2.2 old hold report (by simp)
    rw [List.foldlM_cons, addReport_of_reportIn? hreport, pure_bind, hadd, ih]
    · rw [List.append_assoc, List.singleton_append]
    · rw [List.append_assoc, List.singleton_append]
      exact hlabels

/-- The defaults that are detected in the reports of a survey are those that the survey has
detected itself, in the same order. -/
theorem detectIn_detailFiles {tracked : Tracked} {files : List (String × String × List Char)}
    {inventory : Inventory} {generatedAt library : String} {codebases : List String}
    {outputs : Outputs} (hnames : ∀ component ∈ tracked.components, '/' ∉ component.toList)
    (hrun : (do (← Inventory.ofFiles tracked files).finalize Detection.detect) = .ok inventory)
    (houtputs : componentOutputs generatedAt library codebases inventory = .ok outputs)
    (surrogates : Surrogates) :
    (detectIn surrogates (detailFiles outputs) : m _)
      = pure (inventory.detected.map StoredReport.labelled) := by
  obtain ⟨hsound, hdetected⟩ := Inventory.isSound_finalize hrun
  obtain ⟨text, others, htext, rfl, hothers⟩ := componentOutputs_eq_ok houtputs
  have hkeys : ((usedReports inventory).map Prod.fst).Nodup :=
    inventory.reports.nodup_keys.sublist (List.filter_sublist.map Prod.fst)
  have hmem : ∀ entry ∈ usedReports inventory, entry ∈ inventory.reports.entries :=
    fun entry hentry => (List.mem_filter.1 hentry).1
  obtain ⟨sorted, hperm, hfiles⟩ := detailFiles_eq hkeys
    (fun entry hentry => hnames entry.1 (hsound entry (hmem entry hentry)).tracked) hothers
  have hreports : List.Forall₂ (fun file report =>
      reportIn? surrogates file.1 file.2 = .ok (some report))
        (sorted.map fun entry => (detailName entry.1, some (text entry)))
        (sorted.map ComponentReports.stored) := by
    rw [List.forall₂_map_left_iff, List.forall₂_map_right_iff, List.forall₂_same]
    intro entry hentry
    have hentry := hperm.mem_iff.1 hentry
    have hnamed := (hsound entry (hmem entry hentry)).named
    show reportIn? surrogates _ (some (text entry)) = .ok (some ⟨.name entry.1, _⟩)
    rw [ComponentReport.reportIn?_detail (htext entry hentry), hnamed]
  have hlabels : (sorted.map ComponentReports.stored).Pairwise
      fun a b => a.label.same b.label = false := by
    have hdistinct : (sorted.map Prod.fst).Nodup := (hperm.map Prod.fst).nodup_iff.2 hkeys
    refine List.pairwise_map.2 ((List.pairwise_map.1 hdistinct).imp fun {a b} hab => ?_)
    show (a.1 == b.1) = false
    exact beq_eq_false_iff_ne.2 hab
  have hfold : ((sorted.map fun entry => (detailName entry.1, some (text entry))).foldlM
      (addReport surrogates) [] : m _) = pure (sorted.map ComponentReports.stored) :=
    foldlM_addReport hreports hlabels
  unfold detectIn
  rw [hfiles, hfold, pure_bind,
    ComponentReports.detectAll_stored hsound hdetected hperm surrogates]
  rfl

end

/-- A file with one card in it, whose mode is the default. -/
def cardFile : String × String × List Char :=
  ("app", "card.tsx", "import \x7b Card \x7d from 'ui';\n<Card mode=\"default\" />".toList)

def cardTracked : Tracked := ⟨["ui"], [], ["Card"], "UI", by decide⟩

theorem detectIn_cardFile :
    let _ : Room := .ofSize 1000 (by decide)
    ∃ (inventory : Inventory) (outputs : Outputs),
      (∀ component ∈ cardTracked.components, '/' ∉ component.toList) ∧
      (do (← Inventory.ofFiles cardTracked [cardFile]).finalize Detection.detect) = .ok inventory ∧
      componentOutputs "today" "UI" ["app"] inventory = .ok outputs ∧
      inventory.detected.map Detection.prop = ["mode"] ∧
      (detectIn .none (detailFiles outputs) : SandboxM _)
        = pure (inventory.detected.map StoredReport.labelled) := by
  intro room
  have hrun : (do
      let inventory ← (← Inventory.ofFiles cardTracked [cardFile]).finalize Detection.detect
      let _ ← componentOutputs "today" "UI" ["app"] inventory
      return inventory.detected.map Detection.prop) = (.ok ["mode"] : Except Fault _) := by
    decide +kernel
  have hslash : ∀ component ∈ cardTracked.components, '/' ∉ component.toList := by decide
  obtain ⟨scanned, hscanned, hrun⟩ := bind_eq_ok.1 hrun
  obtain ⟨inventory, hinventory, hrun⟩ := bind_eq_ok.1 hrun
  obtain ⟨outputs, houtputs, hrun⟩ := bind_eq_ok.1 hrun
  have hinventory := bind_eq_ok.2 ⟨scanned, hscanned, hinventory⟩
  exact ⟨inventory, outputs, hslash, hinventory, houtputs, Except.ok.inj hrun,
    detectIn_detailFiles hslash hinventory houtputs .none⟩

end Command

end UsageCensus
