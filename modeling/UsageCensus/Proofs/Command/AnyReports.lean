import UsageCensus.Proofs.Command.Redetect
import UsageCensus.Proofs.Defaults.AnyReports
import UsageCensus.Proofs.Document.Characters
import UsageCensus.Proofs.HostFaults

/-!
# Detecting again from any files

The files that a survey's reports are looked for in may hold anything. Where each of them has a
report or is passed over (`Reads`), the defaults are detected in just these reports, and there is
one warning for every other file; no fault comes from the files if the props of the reports have
counts. A file of another kind ends the command, and so does a report that is broken
(`redetect_outcome`).
-/

namespace UsageCensus

open UsageCensus.Defaults UsageCensus.Files UsageCensus.Text

namespace Sandbox

variable {s : Sandbox}

theorem run_storedText?_of_isOk [Room] {path : Path} (h : (s.kindAt path).isOk = true) :
    run (storedText? path : SandboxM (Option String)) s = (.ok (s.textAt? path), s) := by
  unfold storedText? textAt?
  rw [run_bind, run_kindAt]
  unfold kindAt read at *
  cases hfind : s.disk.find s.here path with
  | ok found =>
    dsimp only
    rw [run_readText?, read, hfind]
    cases found <;> rfl
  | error obstacle =>
    rw [hfind] at h
    cases obstacle <;> first | rfl | cases h

theorem textAt?_of_find {path : Path} {text : String} (hreturn : '\r' ∉ text.toList)
    (h : s.disk.find s.here path = .ok (.file text.toUTF8)) : s.textAt? path = some text := by
  rw [textAt?, read, h]
  exact Document.decode?_toUTF8 hreturn

end Sandbox

namespace Command

open Sandbox

section

variable [Room] {surrogates : Surrogates} {s : Sandbox}

/-! ## Files of all kinds -/

/-- A file by its name, and its text if it has one. -/
abbrev DetailFile : Type := String × Option String

/-- The file has no text that is a document, or one that is taken for no report. -/
def IsPassedOver (surrogates : Surrogates) (file : DetailFile) : Prop :=
  ∀ text, file.2 = some text → Document.parseWith surrogates text.toList = .error .malformed ∨
    ∃ document, Document.parseWith surrogates text.toList = .ok document ∧ document.IsNoReport

/-- The text of the file is a document that has the report. -/
def HasReport (surrogates : Surrogates) (file : DetailFile) (report : StoredReport) : Prop :=
  ∃ text document, file.2 = some text ∧
    Document.parseWith surrogates text.toList = .ok document ∧
    document.IsReport (stem file.1) report

theorem reportIn?_of_parse {name text : String} {document : Document}
    (h : Document.parseWith surrogates text.toList = .ok document) :
    reportIn? surrogates name (some text) = StoredReport.ofDocument? (stem name) document := by
  rw [reportIn?, documentIn?, h]
  rfl

theorem reportIn?_of_error {name text : String} {fault : Fault}
    (h : Document.parseWith surrogates text.toList = .error fault) :
    reportIn? surrogates name (some text)
      = if fault = .malformed then .ok none else .error fault := by
  rw [reportIn?, documentIn?, h]
  by_cases hfault : fault = .malformed
  · rw [if_pos hfault, hfault]
    rfl
  · rw [if_neg hfault]
    cases fault <;> first | rfl | exact absurd rfl hfault

theorem reportIn?_eq_none_iff {file : DetailFile} :
    reportIn? surrogates file.1 file.2 = .ok none ↔ IsPassedOver surrogates file := by
  obtain ⟨name, _ | text⟩ := file
  · exact iff_of_true rfl nofun
  · unfold IsPassedOver
    simp only [Option.some.injEq, forall_eq']
    cases hparse : Document.parseWith surrogates text.toList with
    | ok document =>
      rw [reportIn?_of_parse hparse, StoredReport.ofDocument?_eq_none_iff]
      simp
    | error fault =>
      rw [reportIn?_of_error hparse]
      by_cases hfault : fault = .malformed <;> simp [hfault]

theorem reportIn?_eq_some_iff {file : DetailFile} {report : StoredReport} :
    reportIn? surrogates file.1 file.2 = .ok (some report) ↔ HasReport surrogates file report := by
  obtain ⟨name, _ | text⟩ := file
  · have hnone : reportIn? surrogates name none = .ok none := rfl
    exact iff_of_false (fun h => nomatch hnone.symm.trans h) fun ⟨_, _, h, _⟩ => nomatch h
  · unfold HasReport
    simp only [Option.some.injEq, exists_and_left, exists_eq_left']
    cases hparse : Document.parseWith surrogates text.toList with
    | ok document =>
      rw [reportIn?_of_parse hparse, StoredReport.ofDocument?_eq_some_iff]
      simp
    | error fault =>
      rw [reportIn?_of_error hparse]
      by_cases hfault : fault = .malformed <;> simp [hfault]

/-- Each of the files, in order, has one of the reports or is passed over. -/
inductive Reads (surrogates : Surrogates) :
    (files : List DetailFile) → (reports : List StoredReport) → (skipped : List DetailFile) → Prop
  | nil : Reads surrogates [] [] []
  | report {file files report reports skipped} (h : HasReport surrogates file report)
      (hrest : Reads surrogates files reports skipped) :
      Reads surrogates (file :: files) (report :: reports) skipped
  | skip {file files reports skipped} (h : IsPassedOver surrogates file)
      (hrest : Reads surrogates files reports skipped) :
      Reads surrogates (file :: files) reports (file :: skipped)

def skipNote (console : Console) (file : DetailFile) : String :=
  console.paint (some .yellow) ("  Skipping unreadable report: " ++ file.1)

def notesAfter (s : Sandbox) (skipped : List DetailFile) : List String :=
  (skipped.map (skipNote s.console)).reverse ++ s.notes

/-! ## Reading the files -/

theorem run_addReport_of_hasReport {file : DetailFile} {report : StoredReport}
    (h : HasReport surrogates file report) (reports : List StoredReport) :
    Sandbox.run (addReport surrogates reports file : SandboxM _) s
      = (.ok (StoredReport.insert report reports), s) := by
  rw [addReport_of_reportIn? (reportIn?_eq_some_iff.2 h)]
  rfl

theorem run_addReport_of_isPassedOver {file : DetailFile} (h : IsPassedOver surrogates file)
    (reports : List StoredReport) :
    Sandbox.run (addReport surrogates reports file : SandboxM _) s
      = (.ok reports, s.withNotes (notesAfter s [file])) := by
  unfold addReport
  rw [reportIn?_eq_none_iff.2 h]
  rfl

theorem run_addReports {files skipped : List DetailFile} {reports : List StoredReport}
    (h : Reads surrogates files reports skipped) (kept : List StoredReport) (s : Sandbox) :
    Sandbox.run (files.foldlM (addReport surrogates) kept : SandboxM _) s
      = (.ok (reports.foldl (fun kept new => StoredReport.insert new kept) kept),
        s.withNotes (notesAfter s skipped)) := by
  induction h generalizing kept s with
  | nil => rfl
  | report hreport _ ih =>
    rw [List.foldlM_cons, run_bind, run_addReport_of_hasReport hreport]
    exact ih _ s
  | @skip file files reports skipped hpassed _ ih =>
    have hnotes : notesAfter (s.withNotes (notesAfter s [file])) skipped
        = notesAfter s (file :: skipped) := by
      simp [notesAfter, withNotes]
    rw [List.foldlM_cons, run_bind, run_addReport_of_isPassedOver hpassed]
    dsimp only
    rw [ih, hnotes]
    rfl

/-- Where a file can neither be passed over nor has a report, reading ends there. -/
theorem run_addReports_error {files : List DetailFile}
    (h : ¬ ∃ reports skipped, Reads surrogates files reports skipped) (kept : List StoredReport)
    (s : Sandbox) : ∃ fault notes,
      Sandbox.run (files.foldlM (addReport surrogates) kept : SandboxM _) s
        = (.error fault, s.withNotes notes) := by
  induction files generalizing kept s with
  | nil => exact absurd ⟨[], [], .nil⟩ h
  | cons file files ih =>
    rw [List.foldlM_cons, run_bind]
    cases hreport : reportIn? surrogates file.1 file.2 with
    | error fault =>
      have hadd : Sandbox.run (addReport surrogates kept file : SandboxM _) s
          = (.error fault, s) := by
        unfold addReport
        rw [hreport]
        rfl
      rw [hadd]
      exact ⟨fault, s.notes, rfl⟩
    | ok found =>
      cases found with
      | some report =>
        have hhas := reportIn?_eq_some_iff.1 hreport
        rw [run_addReport_of_hasReport hhas]
        refine ih (fun ⟨reports, skipped, hrest⟩ => h ?_) _ s
        exact ⟨report :: reports, skipped, .report hhas hrest⟩
      | none =>
        have hpassed := reportIn?_eq_none_iff.1 hreport
        rw [run_addReport_of_isPassedOver hpassed]
        have hrest : ¬ ∃ reports skipped, Reads surrogates files reports skipped :=
          fun ⟨reports, skipped, hrest⟩ => h ⟨reports, file :: skipped, .skip hpassed hrest⟩
        obtain ⟨fault, notes, hrun⟩ := ih hrest kept (s.withNotes (notesAfter s [file]))
        exact ⟨fault, notes, hrun⟩

/-! ## Detecting in the reports -/

def detailPlace (output : Place) : Place := output ++ ["components"] ++ ["detail"]

def detailFilesIn (s : Sandbox) (output : Place) : List DetailFile :=
  (reportsAmong (s.namesIn (detailPlace output))).map fun name =>
    (name, s.textAt? (.ofPlace (detailPlace output ++ [name])))

def surrogatesOf (files : List DetailFile) : Surrogates :=
  Document.surrogatesIn (files.flatMap fun file => (file.2.getD "").toList)

/-- The command finds a directory of reports below the output directory: it has at least one file
that is named like a report, and the paths of these are not too long. -/
structure FindsReports (s : Sandbox) (choice : Config.Choice) (output : Option String)
    (place : Place) : Prop where
  output : ∃ config, (Sandbox.run (Config.load choice : SandboxM _) s).1 = .ok config ∧
    (Sandbox.run (outputPlace output config : SandboxM _) s).1 = .ok place
  directory : s.kindAt (.ofPlace (detailPlace place)) = .ok (some .directory)
  nonempty : reportsAmong (s.namesIn (detailPlace place)) ≠ []
  reachable : ∀ name ∈ reportsAmong (s.namesIn (detailPlace place)),
    (s.kindAt (.ofPlace (detailPlace place ++ [name]))).isOk = true

/-- What is done with detections: they are written below the output directory and shown. -/
def publish {m : Type → Type} [Host m] (surrogates : Surrogates) (output : Place)
    (labelled : List StoredReport.Labelled) : m Unit := do
  let directory := output ++ ["components"]
  let found := labelled.map Prod.snd
  let now ← Host.now
  let summary ← Host.lift (StoredReport.summary (some now) labelled)
  writeText surrogates (.ofPlace (directory ++ ["detected-prop-defaults.json"]))
    (summary.renderFileWith surrogates)
  if !labelled.all fun detection => detection.1.isName then throw .noOperation
  writeText surrogates (.ofPlace (directory ++ ["detected-prop-defaults.txt"]))
    (Detection.listing surrogates (Document.displayWith surrogates) found)
  showDetections surrogates found directory

theorem onlyLooks_outputPlace (output : Option String) (config : Config) :
    OnlyLooks (outputPlace output config) := by
  unfold outputPlace
  split
  · exact onlyLooks_pure _
  · exact onlyLooks_pure _
  · exact onlyLooks_here.bind fun here => Config.onlyLooks_readPlace (onlyLooks_follow here) _ _

theorem run_reportNames {place : Place}
    (h : s.kindAt (.ofPlace place) = .ok (some .directory)) :
    Sandbox.run (reportNames place : SandboxM _) s = (.ok (reportsAmong (s.namesIn place)), s) := by
  unfold reportNames
  rw [run_bind, run_kindAt, h]
  rfl

/-- Where there are reports, the command detects in its files and publishes what is detected. -/
theorem FindsReports.run_redetect {choice : Config.Choice} {output : Option String} {place : Place}
    (h : FindsReports s choice output place) :
    Sandbox.run (redetect choice output : SandboxM Unit) s = Sandbox.run (do
      let files := detailFilesIn s place
      let labelled ← detectIn (surrogatesOf files) files
      publish (surrogatesOf files) place labelled) s := by
  obtain ⟨config, hload, hplace⟩ := h.output
  have htexts : Sandbox.run ((reportsAmong (s.namesIn (detailPlace place))).mapM fun name =>
      storedText? (.ofPlace (detailPlace place ++ [name])) : SandboxM _) s
        = (.ok ((detailFilesIn s place).map Prod.snd), s) := by
    rw [detailFilesIn, List.map_map]
    apply run_mapM_of_forall
    intro name hname
    exact run_storedText?_of_isOk (h.reachable name hname)
  have hzip : (reportsAmong (s.namesIn (detailPlace place))).zip
      ((detailFilesIn s place).map Prod.snd) = detailFilesIn s place := by
    rw [detailFilesIn, List.map_map, List.map_prod_left_eq_zip]
    rfl
  have hnames : ¬ (reportsAmong (s.namesIn (detailPlace place))).isEmpty = true := by
    rw [List.isEmpty_iff]
    exact h.nonempty
  unfold redetect
  rw [run_bind, (onlyLooks_load choice).run_eq hload]
  dsimp only
  rw [run_bind, (onlyLooks_outputPlace output config).run_eq hplace]
  dsimp only
  rw [show place ++ ["components"] ++ ["detail"] = detailPlace place from rfl, run_bind,
    run_reportNames h.directory]
  dsimp only
  rw [if_neg hnames, run_bind, htexts]
  dsimp only
  rw [hzip, List.flatMap_map]
  rfl

/-! ## What the command comes to -/

theorem raisesOnly_showDetections {console : Console} (found : List (Detection Document))
    (directory : Place) : RaisesOnly console (IsHostFault surrogates console)
      (showDetections surrogates found directory) := by
  unfold showDetections
  split
  · exact raisesOnly_put _
  · refine (raisesOnly_putTable fun row hrow => ?_).bind fun _ => raisesOnly_put _
    obtain ⟨detection, -, rfl⟩ := List.mem_map.1 hrow
    rfl

/-- Detections that can be saved, about components with a name, are published unless the host has a
fault. -/
theorem raisesOnly_publish {console : Console} (output : Place)
    {labelled : List StoredReport.Labelled}
    (h : ∀ detection ∈ labelled, detection.1.isName = true ∧ detection.2.isShallow = true) :
    RaisesOnly console (IsHostFault surrogates console) (publish surrogates output labelled) := by
  have hshallow : ¬ (!labelled.all fun detection => detection.2.isShallow) = true := by
    rw [Bool.not_eq_true', Bool.not_eq_false, List.all_eq_true]
    exact fun detection hdetection => (h detection hdetection).2
  have hnames : ¬ (!labelled.all fun detection => detection.1.isName) = true := by
    rw [Bool.not_eq_true', Bool.not_eq_false, List.all_eq_true]
    exact fun detection hdetection => (h detection hdetection).1
  unfold publish
  refine RaisesOnly.bind (fun s hs => ⟨hs, nofun⟩) fun now => ?_
  refine RaisesOnly.bind (raisesOnly_lift ?_) fun summary => ?_
  · rw [StoredReport.summary, if_neg hshallow]
    exact faultsIn_ok _ _
  · refine (raisesOnly_writeText _ _).bind fun _ => ?_
    rw [if_neg hnames]
    exact (raisesOnly_writeText _ _).bind fun _ => raisesOnly_showDetections _ _

theorem run_detectIn {files skipped : List DetailFile} {reports : List StoredReport}
    (h : Reads surrogates files reports skipped) (s : Sandbox) :
    Sandbox.run (detectIn surrogates files : SandboxM _) s
      = (StoredReport.detectAll surrogates (StoredReport.ofEach reports),
        s.withNotes (notesAfter s skipped)) := by
  unfold detectIn
  rw [run_bind, run_addReports h]
  dsimp only
  rw [run_lift]
  rfl

/-- Where each file in the directory has a report or is passed over, the command detects the
defaults in these reports and publishes them, after a warning for each of the other files. If the
props of the reports have counts, and their components have names, only the host can have a fault.
If one of the reports is broken, the command ends with a fault and nothing has changed but for the
warnings; so it does where a file neither has a report nor is passed over. -/
theorem redetect_outcome {choice : Config.Choice} {output : Option String} {place : Place}
    (h : FindsReports s choice output place) :
    let files := detailFilesIn s place
    let surrogates := surrogatesOf files
    let outcome := Sandbox.run (redetect choice output : SandboxM Unit) s
    (∀ reports skipped, Reads surrogates files reports skipped →
      outcome = Sandbox.run (do
        let labelled ← Host.lift
          (StoredReport.detectAll surrogates (StoredReport.ofEach reports))
        publish surrogates place labelled) (s.withNotes (notesAfter s skipped)) ∧
      ((∀ report ∈ reports, StoredReport.AreCounted report.props ∧ report.label.isName = true) →
        ∀ fault, outcome.1 = .error fault → IsHostFault surrogates s.console fault) ∧
      ((∃ report ∈ StoredReport.ofEach reports, report.IsBroken) →
        ∃ fault, outcome = (.error fault, s.withNotes (notesAfter s skipped)))) ∧
    ((¬ ∃ reports skipped, Reads surrogates files reports skipped) →
      ∃ fault notes, outcome = (.error fault, s.withNotes notes)) := by
  dsimp only
  rw [h.run_redetect]
  dsimp only
  constructor
  · intro reports skipped hreads
    rw [run_bind, run_detectIn hreads, run_bind, run_lift]
    refine ⟨rfl, fun hcounted => ?_, fun hbroken => ?_⟩
    · have hkept := StoredReport.forall_ofEach StoredReport.AreCounted
        (fun label => label.isName = true) hcounted
      obtain ⟨labelled, hlabelled, hall⟩ :=
        StoredReport.exists_detectAll (surrogatesOf (detailFilesIn s place)) hkept
      rw [hlabelled]
      exact (raisesOnly_publish place hall (s.withNotes _) rfl).2
    · obtain ⟨fault, hfault⟩ :=
        StoredReport.detectAll_of_isBroken (surrogatesOf (detailFilesIn s place)) hbroken
      rw [hfault]
      exact ⟨fault, rfl⟩
  · intro hnone
    obtain ⟨fault, notes, hrun⟩ := run_addReports_error hnone [] s
    unfold detectIn
    rw [run_bind, run_bind, hrun]
    exact ⟨fault, notes, rfl⟩

def machineWith (details : List (String × Tree)) : Sandbox :=
  { emptyMachine with disk := .directory [("reports", .directory [("components",
      .directory [("detail", .directory details)])])] }

theorem findsReports_of_names {names : List String} {place : Place}
    (houtput : (Sandbox.run (Config.load .usual : SandboxM _) s).1.toOption.map Config.output
      = some place)
    (hdirectory : s.kindAt (.ofPlace (detailPlace place)) = .ok (some .directory))
    (hnames : reportsAmong (s.namesIn (detailPlace place)) = names) (hnonempty : names ≠ [])
    (hreachable : ∀ name ∈ names,
      (s.kindAt (.ofPlace (detailPlace place ++ [name]))).isOk = true) :
    FindsReports s .usual none place := by
  subst hnames
  obtain ⟨config, hload, rfl⟩ := Option.map_eq_some_iff.1 houtput
  refine ⟨⟨config, ?_, rfl⟩, hdirectory, hnonempty, hreachable⟩
  cases hrun : (Sandbox.run (Config.load .usual : SandboxM _) s).1 with
  | error fault =>
    rw [hrun] at hload
    cases hload
  | ok loaded =>
    rw [hrun] at hload
    cases hload
    rfl

end

def toneUsage : Document :=
  .object [("values", .object [("a", .int 1)]), ("total_usages", .int 1)]

def cardProps : Document := .object [("tone", toneUsage)]

def cardReport : Document := .object [("component", .string "Card"), ("props", cardProps)]

def cardText : String :=
  "\x7b\n  \"component\": \"Card\",\n  \"props\": \x7b\n    \"tone\": \x7b\n"
    ++ "      \"values\": \x7b\n        \"a\": 1\n      \x7d,\n      \"total_usages\": 1\n"
    ++ "    \x7d\n  \x7d\n\x7d\n"

theorem parseWith_cardText :
    let _ : Room := .ofSize 1000 (by decide)
    Document.parseWith .none cardText.toList = .ok cardReport := by
  intro room
  have hvalues : Document.IsData (.object [("a", .int 1)]) :=
    .object (by decide) (List.forall_mem_singleton.2 (.int 1))
  have htone : Document.IsData toneUsage :=
    .object (by decide) (List.forall_mem_cons.2 ⟨hvalues, List.forall_mem_singleton.2 (.int 1)⟩)
  have hprops : Document.IsData cardProps :=
    .object (by decide) (List.forall_mem_singleton.2 htone)
  have hreport : Document.IsData cardReport :=
    .object (by decide)
      (List.forall_mem_cons.2 ⟨.string "Card", List.forall_mem_singleton.2 hprops⟩)
  have hsaved : cardReport.savedText = .ok cardText := by decide +kernel
  exact Document.parseWith_savedText .none hreport (by decide) hsaved

/-- A report and a file without any, in the order of their names. -/
def cardMachine : Sandbox :=
  machineWith [("Bad.json", .file "null".toUTF8), ("Card.json", .file cardText.toUTF8)]

theorem redetect_cardMachine :
    let _ : Room := .ofSize 1000 (by decide)
    FindsReports cardMachine .usual none ["reports"] ∧
      Sandbox.run (redetect .usual none : SandboxM Unit) cardMachine
        = Sandbox.run (do
          let labelled ← Host.lift (StoredReport.detectAll .none [⟨.name "Card", cardProps⟩])
          publish .none ["reports"] labelled)
          (cardMachine.withNotes ["  Skipping unreadable report: Bad.json"]) ∧
      ∀ fault, (Sandbox.run (redetect .usual none : SandboxM Unit) cardMachine).1 = .error fault →
        IsHostFault .none cardMachine.console fault := by
  intro room
  have hnames : reportsAmong (cardMachine.namesIn (detailPlace ["reports"]))
      = ["Bad.json", "Card.json"] := by
    have hending : ∀ name ∈ ["Bad.json", "Card.json"],
        ".json".toList.isSuffixOf name.toList = true := by decide +kernel
    have hsorted : ["Bad.json", "Card.json"].Pairwise fun a b => decide (a ≤ b) = true := by
      decide +kernel
    show reportsAmong ["Bad.json", "Card.json"] = _
    rw [reportsAmong, List.filter_eq_self.2 hending, List.mergeSort_of_pairwise hsorted]
  have hfinds : FindsReports cardMachine .usual none ["reports"] :=
    findsReports_of_names (by decide +kernel) (by decide +kernel) hnames (by decide)
      (by decide +kernel)
  have hfiles : detailFilesIn cardMachine ["reports"]
      = [("Bad.json", some "null"), ("Card.json", some cardText)] := by
    have hbad : cardMachine.textAt? (.ofPlace (detailPlace ["reports"] ++ ["Bad.json"]))
        = some "null" := textAt?_of_find (by decide) rfl
    have hcard : cardMachine.textAt? (.ofPlace (detailPlace ["reports"] ++ ["Card.json"]))
        = some cardText := textAt?_of_find (by decide +kernel) rfl
    rw [detailFilesIn, hnames, List.map_cons, List.map_cons, hbad, hcard]
    rfl
  have hsurrogates : surrogatesOf (detailFilesIn cardMachine ["reports"]) = .none := by
    rw [hfiles]
    decide +kernel
  have hcard : HasReport .none ("Card.json", some cardText) ⟨.name "Card", cardProps⟩ :=
    ⟨cardText, cardReport, rfl, parseWith_cardText, _, rfl, rfl, rfl⟩
  have hbad : IsPassedOver .none ("Bad.json", some "null") := by
    rintro text ⟨⟩
    exact .inr ⟨.null, rfl, .inl rfl⟩
  have hreads : Reads .none [("Bad.json", some "null"), ("Card.json", some cardText)]
      [⟨.name "Card", cardProps⟩] [("Bad.json", some "null")] :=
    .skip hbad (.report hcard .nil)
  have hcounted : StoredReport.AreCounted cardProps :=
    StoredReport.areCounted_of_integers <| List.forall_mem_singleton.2 ⟨_, [("a", .int 1)], 1, rfl,
      rfl, List.forall_mem_singleton.2 ⟨1, rfl, by decide +kernel⟩, rfl, by decide +kernel⟩
  obtain ⟨houtcome, -⟩ := redetect_outcome hfinds
  rw [hsurrogates, hfiles] at houtcome
  obtain ⟨hrun, hfaults, -⟩ := houtcome _ _ hreads
  exact ⟨hfinds, hrun, hfaults (List.forall_mem_singleton.2 ⟨hcounted, rfl⟩)⟩

def numberMachine : Sandbox := machineWith [("Bad.json", .file "5".toUTF8)]

/-- The number is not passed over. -/
theorem redetect_numberMachine :
    let _ : Room := .ofSize 1000 (by decide)
    FindsReports numberMachine .usual none ["reports"] ∧
      (Sandbox.run (redetect .usual none : SandboxM Unit) numberMachine).1 = .error .wrongKind ∧
      (Sandbox.run (redetect .usual none : SandboxM Unit) numberMachine).2.notes = [] := by
  intro room
  have hnames : reportsAmong (numberMachine.namesIn (detailPlace ["reports"])) = ["Bad.json"] := by
    decide +kernel
  refine ⟨findsReports_of_names (by decide +kernel) (by decide +kernel) hnames (by decide)
    (by decide +kernel), ?_, ?_⟩
  · decide +kernel
  · decide +kernel

end Command

end UsageCensus
