import Mathlib.Data.List.Nodup
import Mathlib.Tactic.Choose
import UsageCensus.Proofs.Report.CombinationTexts
import UsageCensus.Proofs.Text.Reading

/-!
# The files about prop combinations

The path of a combination's files has hyphens between the component and the props, and so may
the names of props. The three files of a combination are told apart by their extensions
(`extension_inj`), and those of two combinations by their paths: where the paths are all different,
each combination has its three files, and where two are the same, the later combination replaces
the files of the earlier one (`outputs_of_combinations`). Paths are different where no name has a
hyphen in it (`pathOf_inj`), but not everywhere (`outputs_same_path`).
-/

namespace UsageCensus.Census

open UsageCensus.Report UsageCensus.Source UsageCensus.Text

/-! ## Paths -/

/-- The path of the files about a combination, without their extensions. -/
def pathOf (combination : PropCombination) : String :=
  (CombinationTally.empty combination).reportPath

theorem reportPath_eq (tally : CombinationTally) :
    tally.reportPath = pathOf tally.combination := rfl

/-- Names that can be told apart in a path: props without hyphens, a component without slashes. -/
structure IsSeparable (combination : PropCombination) : Prop where
  props_ne_nil : combination.props ≠ []
  component : '/' ∉ combination.component.toList
  props : ∀ prop ∈ combination.props, '-' ∉ prop.toList

theorem toList_pathOf (combination : PropCombination) :
    (pathOf combination).toList = "prop-combos/".toList ++ (combination.component.toList ++
      '/' :: (combination.component.toList ++ ('-' ::
        (['-'].intercalate (combination.props.map String.toList) ++ "-combo".toList)))) := by
  unfold pathOf CombinationTally.reportPath CombinationTally.empty
  simp only [String.toList_append, String.toList_intercalate, List.append_assoc]
  rfl

theorem pathOf_inj {combination combination' : PropCombination} (h : IsSeparable combination)
    (h' : IsSeparable combination') (heq : pathOf combination = pathOf combination') :
    combination = combination' := by
  have hlists := congrArg String.toList heq
  rw [toList_pathOf, toList_pathOf, List.append_right_inj] at hlists
  have hcomponent : combination.component.toList = combination'.component.toList := by
    have hcut := congrArg (cutAt '/') hlists
    rw [cutAt_append h.component, cutAt_append h'.component] at hcut
    exact (List.cons.inj hcut).1
  rw [hcomponent, List.append_right_inj, List.cons_inj_right, List.append_right_inj,
    List.cons_inj_right, List.append_left_inj] at hlists
  have hprops : combination.props.map String.toList = combination'.props.map String.toList := by
    have hpieces : ∀ {combination : PropCombination}, IsSeparable combination →
        cutAt '-' (['-'].intercalate (combination.props.map String.toList))
          = combination.props.map String.toList := by
      intro combination h
      have hplain : ∀ piece ∈ combination.props.map String.toList, '-' ∉ piece := by
        intro piece hpiece
        obtain ⟨prop, hprop, rfl⟩ := List.mem_map.1 hpiece
        exact h.props prop hprop
      rw [cutAt_intercalate (mt List.map_eq_nil_iff.1 h.props_ne_nil), flatMap_cutAt hplain]
    rw [← hpieces h, ← hpieces h', hlists]
  obtain ⟨component, props⟩ := combination
  obtain ⟨component', props'⟩ := combination'
  obtain rfl : component = component' := String.toList_inj.1 hcomponent
  obtain rfl : props = props' := List.map_injective_iff.2 (fun _ _ => String.toList_inj.1) hprops
  rfl

/-- Distinct combinations have distinct paths if their names can be told apart. -/
theorem nodup_paths {combinations : List PropCombination} (hnodup : combinations.Nodup)
    (h : ∀ combination ∈ combinations, IsSeparable combination) :
    (combinations.map pathOf).Nodup :=
  List.Nodup.map_on (fun combination hmem combination' hmem' =>
    pathOf_inj (h combination hmem) (h combination' hmem')) hnodup

/-! ## Files -/

def extensions : List String := [".json", ".csv", ".md"]

def filesAt (path : String) : List String := extensions.map (path ++ ·)

theorem extension_inj {path path' extension extension' : String} (h : extension ∈ extensions)
    (h' : extension' ∈ extensions) (heq : path ++ extension = path' ++ extension') :
    path = path' ∧ extension = extension' := by
  have hlast : extension.toList.getLast? = extension'.toList.getLast? := by
    have hne : ∀ extension ∈ extensions, extension.toList ≠ [] := by decide
    have hlists := congrArg (fun text => text.toList.getLast?) heq
    simpa only [String.toList_append, List.getLast?_append_of_ne_nil _ (hne _ h),
      List.getLast?_append_of_ne_nil _ (hne _ h')] using hlists
  have hsame : ∀ extension ∈ extensions, ∀ extension' ∈ extensions,
      extension.toList.getLast? = extension'.toList.getLast? → extension = extension' := by decide
  obtain rfl := hsame extension h extension' h' hlast
  exact ⟨(String.append_left_inj _).1 heq, rfl⟩

theorem nodup_filesAt (path : String) : (filesAt path).Nodup :=
  List.Nodup.map (fun _ _ => (String.append_right_inj path).1) (by decide)

theorem eq_of_mem_filesAt {path path' file : String} (h : file ∈ filesAt path)
    (h' : file ∈ filesAt path') : path = path' := by
  obtain ⟨extension, hextension, rfl⟩ := List.mem_map.1 h
  obtain ⟨extension', hextension', heq⟩ := List.mem_map.1 h'
  exact (extension_inj hextension' hextension heq).1.symm

/-! ## A census of combinations -/

def addScannedFiles (census : UsageCensus.Census) (files : List (String × String × ScannedFile)) :
    Except Fault UsageCensus.Census :=
  files.foldlM (fun census (codebase, path, file) => census.addFile codebase path file) census

def scansIn (files : List (String × String × ScannedFile)) : List (String × String × FileScan) :=
  files.map fun (codebase, path, file) => (codebase, path, file.scan)

/-- The census of nothing but combinations that scans make. -/
def tallyingScans (tracked : Tracked) (combinations : List PropCombination)
    (scans : List (String × String × FileScan)) : UsageCensus.Census :=
  { UsageCensus.Census.start tracked combinations [.propCombinations] with
    tallies := .ofScans combinations scans }

theorem addScannedFiles_start (tracked : Tracked) (combinations : List PropCombination)
    (files : List (String × String × ScannedFile)) :
    addScannedFiles (.start tracked combinations [.propCombinations]) files
      = .ok (tallyingScans tracked combinations (scansIn files)) := by
  induction files using List.reverseRecOn with
  | nil => rfl
  | append_singleton files file ih =>
    obtain ⟨codebase, path, file⟩ := file
    have hscans : tallyingScans tracked combinations (scansIn (files ++ [(codebase, path, file)]))
        = { tallyingScans tracked combinations (scansIn files) with
          tallies := (CombinationTallies.ofScans combinations (scansIn files)).add codebase path
            (.find file.scan combinations) } := by
      rw [scansIn, List.map_append, tallyingScans, CombinationTallies.ofScans, List.foldl_append]
      rfl
    rw [addScannedFiles, List.foldlM_append, hscans]
    exact bind_eq_ok.2 ⟨_, ih, rfl⟩

/-! ## Outputs -/

/-- The three files of the tally are there, and their texts are those about the tally. -/
def CombinationTally.IsFiled [Room] (generatedAt library : String) (codebases : List String)
    (tally : CombinationTally) (table : Table String String) : Prop :=
  ∃ texts : CombinationTally.Texts, texts.AreAbout generatedAt library codebases tally ∧
    ∀ file ∈ texts.files tally.reportPath, table.get? file.1 = some file.2

section

variable {tallies : List CombinationTally} {texts : CombinationTally → CombinationTally.Texts}

theorem map_fst_files (tallies : List CombinationTally)
    (texts : CombinationTally → CombinationTally.Texts) :
    (tallies.flatMap fun tally => (texts tally).files tally.reportPath).map Prod.fst
      = (tallies.map CombinationTally.reportPath).flatMap filesAt := by
  rw [List.map_flatMap, List.flatMap_map]
  rfl

theorem keys_files (tallies : List CombinationTally)
    (texts : CombinationTally → CombinationTally.Texts) :
    (Table.ofPairs (tallies.flatMap fun tally => (texts tally).files tally.reportPath)).keys
      = (tallies.map CombinationTally.reportPath).eraseDups.flatMap filesAt := by
  rw [Table.keys_ofPairs, map_fst_files, eraseDups_flatMap nodup_filesAt]
  exact fun path path' file => eq_of_mem_filesAt

/-- Of two tallies with the same path the later one has its files there. -/
theorem get?_files {before after : List CombinationTally} {tally : CombinationTally}
    (hlast : ∀ later ∈ after, later.reportPath ≠ tally.reportPath) {file : String × String}
    (hfile : file ∈ (texts tally).files tally.reportPath) :
    (Table.ofPairs ((before ++ tally :: after).flatMap fun tally =>
      (texts tally).files tally.reportPath)).get? file.1 = some file.2 := by
  obtain ⟨front, back, hsplit⟩ := List.append_of_mem hfile
  have hback : file.1 ∉ back.map Prod.fst := by
    have hnodup : ((front ++ file :: back).map Prod.fst).Nodup :=
      hsplit ▸ nodup_filesAt tally.reportPath
    rw [List.map_append, List.map_cons, List.nodup_append, List.nodup_cons] at hnodup
    exact hnodup.2.1.1
  have hlater : file.1 ∉ (after.flatMap fun tally =>
      (texts tally).files tally.reportPath).map Prod.fst := by
    rw [map_fst_files, List.mem_flatMap]
    rintro ⟨path, hpath, hmem⟩
    obtain ⟨later, hlater, rfl⟩ := List.mem_map.1 hpath
    have hown : file.1 ∈ filesAt tally.reportPath := List.mem_map_of_mem (f := Prod.fst) hfile
    exact hlast later hlater (eq_of_mem_filesAt hmem hown)
  rw [List.flatMap_append, List.flatMap_cons, hsplit, List.append_assoc, List.cons_append,
    ← List.append_assoc]
  apply Table.get?_ofPairs_append_cons
  rw [List.map_append, List.mem_append]
  exact not_or_intro hback hlater

end

/-- The files are those of the tallies: three for each different path, with the texts about the
last tally that has this path. -/
structure AreFiles [Room] (generatedAt library : String) (codebases : List String)
    (tallies : List CombinationTally) (table : Table String String) : Prop where
  keys : table.keys = (tallies.map CombinationTally.reportPath).eraseDups.flatMap filesAt
  last : ∀ before tally after, tallies = before ++ tally :: after →
    (∀ later ∈ after, later.reportPath ≠ tally.reportPath) →
    tally.IsFiled generatedAt library codebases table

namespace AreFiles

variable [Room] {generatedAt library : String} {codebases : List String}
  {tallies : List CombinationTally} {table : Table String String}

theorem ofTexts {texts : CombinationTally → CombinationTally.Texts}
    (h : ∀ tally ∈ tallies, (texts tally).AreAbout generatedAt library codebases tally) :
    AreFiles generatedAt library codebases tallies
      (.ofPairs (tallies.flatMap fun tally => (texts tally).files tally.reportPath)) where
  keys := keys_files tallies texts
  last := by
    rintro before tally after rfl hlast
    exact ⟨texts tally, h tally (by simp), fun file hfile => get?_files hlast hfile⟩

theorem size_eq (h : AreFiles generatedAt library codebases tallies table) :
    table.size = 3 * (tallies.map CombinationTally.reportPath).eraseDups.length := by
  have hlength := congrArg List.length h.keys
  rw [Table.keys, List.length_map, List.length_flatMap] at hlength
  have hthree : ∀ path ∈ (tallies.map CombinationTally.reportPath).eraseDups,
      (filesAt path).length = 3 := fun path _ => rfl
  rw [List.map_congr_left hthree, List.map_const', List.sum_replicate_nat, Nat.mul_comm] at hlength
  exact hlength

/-- Each tally has its own three files exactly if the paths are all different. -/
theorem size_eq_iff (h : AreFiles generatedAt library codebases tallies table) :
    (table.size = 3 * tallies.length ∧
      ∀ tally ∈ tallies, tally.IsFiled generatedAt library codebases table)
        ↔ (tallies.map CombinationTally.reportPath).Nodup := by
  rw [h.size_eq]
  constructor
  · rintro ⟨hlength, -⟩
    have hsame : (tallies.map CombinationTally.reportPath).eraseDups
        = tallies.map CombinationTally.reportPath :=
      (eraseDups_sublist _).eq_of_length (by rw [List.length_map]; omega)
    exact hsame ▸ nodup_eraseDups _
  · intro hnodup
    refine ⟨by rw [eraseDups_of_nodup hnodup, List.length_map], fun tally htally => ?_⟩
    obtain ⟨before, after, rfl⟩ := List.append_of_mem htally
    refine h.last before tally after rfl fun later hlater hsame => ?_
    rw [List.map_append, List.map_cons, List.nodup_append, List.nodup_cons] at hnodup
    exact hnodup.2.1.1 (List.mem_map.2 ⟨later, hlater, hsame⟩)

end AreFiles

theorem outputs_eq_ok_iff_groups [Room] {census : UsageCensus.Census}
    (h : census.aspects = [.propCombinations]) {generatedAt : String} {codebases : List String}
    {table : Table String String} :
    census.outputs generatedAt codebases = .ok table ↔
      ∃ groups, census.tallies.tallies.mapM
          (combinationOutputs generatedAt census.tracked.name codebases) = .ok groups ∧
        table = .ofPairs groups.flatten := by
  unfold UsageCensus.Census.outputs
  rw [h, List.mapM_cons, List.mapM_nil]
  constructor
  · intro houtputs
    obtain ⟨all, hall, houtputs⟩ := bind_eq_ok.1 houtputs
    obtain ⟨one, hone, hall⟩ := bind_eq_ok.1 hall
    obtain ⟨groups, hgroups, hone⟩ := bind_eq_ok.1 hone
    cases hone
    cases hall
    cases houtputs
    refine ⟨groups, hgroups, ?_⟩
    rw [List.flatten_singleton]
  · rintro ⟨groups, hgroups, rfl⟩
    refine bind_eq_ok.2 ⟨_, bind_eq_ok.2 ⟨_, bind_eq_ok.2 ⟨_, hgroups, rfl⟩, rfl⟩, ?_⟩
    rw [List.flatten_singleton]
    rfl

theorem outputs_eq_ok_iff [Room] {census : UsageCensus.Census}
    (h : census.aspects = [.propCombinations]) {generatedAt : String} {codebases : List String}
    {table : Table String String} :
    census.outputs generatedAt codebases = .ok table ↔
      ∃ texts : CombinationTally → CombinationTally.Texts,
        (∀ tally ∈ census.tallies.tallies,
          (texts tally).AreAbout generatedAt census.tracked.name codebases tally) ∧
        table = .ofPairs (census.tallies.tallies.flatMap fun tally =>
          (texts tally).files tally.reportPath) := by
  rw [outputs_eq_ok_iff_groups h]
  constructor
  · rintro ⟨groups, hgroups, rfl⟩
    obtain ⟨group, hgroup, rfl⟩ := mapM_eq_ok.1 hgroups
    have htexts : ∀ tally ∈ census.tallies.tallies, ∃ texts : CombinationTally.Texts,
        texts.AreAbout generatedAt census.tracked.name codebases tally ∧
          group tally = texts.files tally.reportPath := fun tally htally =>
      CombinationTally.combinationOutputs_eq_ok_iff.1 (hgroup tally htally)
    choose! texts htexts using htexts
    refine ⟨texts, fun tally htally => (htexts tally htally).1, ?_⟩
    rw [List.flatMap_def, List.map_congr_left fun tally htally => (htexts tally htally).2]
  · rintro ⟨texts, htexts, rfl⟩
    refine ⟨census.tallies.tallies.map fun tally => (texts tally).files tally.reportPath,
      mapM_of_forall fun tally htally => ?_, ?_⟩
    · exact CombinationTally.combinationOutputs_eq_ok_iff.2 ⟨_, htexts tally htally, rfl⟩
    · rw [List.flatMap_def]

theorem exists_of_mem_ofScans {combinations : List PropCombination}
    {scans : List (String × String × FileScan)} {tally : CombinationTally}
    (h : tally ∈ (CombinationTallies.ofScans combinations scans).tallies) :
    ∃ i combination, combinations[i]? = some combination ∧
      tally = CombinationTally.ofScans i combination scans := by
  obtain ⟨i, hi⟩ := List.mem_iff_getElem?.1 h
  have hlt : i < combinations.length := by
    rw [← CombinationTallies.length_ofScans combinations scans]
    exact (List.getElem?_eq_some_iff.1 hi).1
  have hcombination : combinations[i]? = some combinations[i] := List.getElem?_eq_getElem hlt
  rw [CombinationTallies.getElem?_ofScans hcombination] at hi
  exact ⟨i, combinations[i], hcombination, (Option.some.inj hi).symm⟩

theorem map_reportPath_ofScans (combinations : List PropCombination)
    (scans : List (String × String × FileScan)) :
    (CombinationTallies.ofScans combinations scans).tallies.map CombinationTally.reportPath
      = combinations.map pathOf := by
  apply List.ext_getElem?
  intro i
  rw [List.getElem?_map, List.getElem?_map]
  cases hcombination : combinations[i]? with
  | none =>
    have hlength := CombinationTallies.length_ofScans combinations scans
    rw [List.getElem?_eq_none (hlength ▸ List.getElem?_eq_none_iff.1 hcombination)]
    rfl
  | some combination =>
    rw [CombinationTallies.getElem?_ofScans hcombination, Option.map_some, Option.map_some,
      reportPath_eq, (CombinationTally.ofScans_fields i combination scans).1]

section

variable [Room] {tracked : Tracked} {combinations : List PropCombination}
  {scans : List (String × String × FileScan)} {generatedAt : String} {codebases : List String}

theorem exists_outputs_iff :
    (∃ table, (tallyingScans tracked combinations scans).outputs generatedAt codebases = .ok table) ↔
      ∀ tally ∈ (CombinationTallies.ofScans combinations scans).tallies, tally.IsWritable := by
  constructor
  · rintro ⟨table, htable⟩ tally htally
    obtain ⟨texts, htexts, -⟩ := (outputs_eq_ok_iff rfl).1 htable
    obtain ⟨i, combination, -, rfl⟩ := exists_of_mem_ofScans htally
    exact (CombinationTally.exists_areAbout_ofScans_iff ..).1 ⟨_, htexts _ htally⟩
  · intro hwritable
    have htexts : ∀ tally ∈ (CombinationTallies.ofScans combinations scans).tallies,
        ∃ texts : CombinationTally.Texts,
          texts.AreAbout generatedAt tracked.name codebases tally := by
      intro tally htally
      obtain ⟨i, combination, -, rfl⟩ := exists_of_mem_ofScans htally
      exact (CombinationTally.exists_areAbout_ofScans_iff ..).2 (hwritable _ htally)
    choose! texts htexts using htexts
    exact ⟨_, (outputs_eq_ok_iff rfl).2 ⟨texts, htexts, rfl⟩⟩

theorem areFiles_of_outputs {table : Table String String}
    (h : (tallyingScans tracked combinations scans).outputs generatedAt codebases = .ok table) :
    AreFiles generatedAt tracked.name codebases
      (CombinationTallies.ofScans combinations scans).tallies table := by
  obtain ⟨texts, htexts, rfl⟩ := (outputs_eq_ok_iff rfl).1 h
  exact .ofTexts htexts

end

/-- After any files, each combination has a tally of its own. Reports are written if the numbers
of the tallies can be, and then there are three files for each different path, about the last
combination that has it: every combination has its own three files exactly if the paths are all
different, as they are where the names in them can be told apart. -/
theorem outputs_of_combinations [Room] (tracked : Tracked) (combinations : List PropCombination)
    (files : List (String × String × ScannedFile)) (generatedAt : String)
    (codebases : List String) :
    ∃ census, addScannedFiles (.start tracked combinations [.propCombinations]) files = .ok census ∧
      census.tallies.tallies.length = combinations.length ∧
      (∀ (i : Nat) combination, combinations[i]? = some combination →
        census.tallies.tallies[i]? = some (.ofScans i combination (scansIn files))) ∧
      ((∃ table, census.outputs generatedAt codebases = .ok table) ↔
        ∀ tally ∈ census.tallies.tallies, tally.IsWritable) ∧
      (∀ table, census.outputs generatedAt codebases = .ok table →
        AreFiles generatedAt tracked.name codebases census.tallies.tallies table ∧
        ((table.size = 3 * combinations.length ∧ ∀ tally ∈ census.tallies.tallies,
            tally.IsFiled generatedAt tracked.name codebases table) ↔
          (combinations.map pathOf).Nodup)) ∧
      (combinations.Nodup → (∀ combination ∈ combinations, IsSeparable combination) →
        (combinations.map pathOf).Nodup) := by
  have hlength := CombinationTallies.length_ofScans combinations (scansIn files)
  refine ⟨_, addScannedFiles_start tracked combinations files, hlength,
    fun i combination hcombination => CombinationTallies.getElem?_ofScans hcombination _,
    exists_outputs_iff, fun table htable => ?_, nodup_paths⟩
  have hfiles := areFiles_of_outputs htable
  refine ⟨hfiles, ?_⟩
  rw [← map_reportPath_ofScans combinations (scansIn files), ← hlength]
  exact hfiles.size_eq_iff

def buttonLibrary : Tracked :=
  ⟨["ui"], [], ["Button"], "ui", List.nodup_singleton "Button"⟩

def buttonFiles : List (String × String × ScannedFile) :=
  [("shop", "Cart.tsx", ⟨[], .empty,
    [⟨"Button", [⟨"a-b", "\"x\""⟩, ⟨"c", "\"y\""⟩], 1, 0, 7, 25⟩]⟩)]

def buttonProps : PropCombination := ⟨"Button", ["a-b", "c"]⟩

/-- Other props, of which the path is the same. -/
def otherProps : PropCombination := ⟨"Button", ["a", "b-c"]⟩

def halfProps : PropCombination := ⟨"Button", ["c", "d"]⟩

theorem outputs_of_buttons :
    let _ : Room := .ofSize 1000 (by decide)
    ∃ census table, addScannedFiles (.start buttonLibrary [buttonProps, halfProps]
        [.propCombinations]) buttonFiles = .ok census ∧
      census.outputs "now" ["shop"] = .ok table ∧ table.size = 6 ∧
      ∀ tally ∈ census.tallies.tallies, tally.IsFiled "now" "ui" ["shop"] table := by
  intro room
  obtain ⟨census, hcensus, -, -, houtputs, hfiles, -⟩ := outputs_of_combinations
    buttonLibrary [buttonProps, halfProps] buttonFiles "now" ["shop"]
  obtain rfl : tallyingScans buttonLibrary [buttonProps, halfProps] (scansIn buttonFiles) = census :=
    Except.ok.inj ((addScannedFiles_start ..).symm.trans hcensus)
  obtain ⟨table, htable⟩ := houtputs.2 (by decide +kernel)
  obtain ⟨-, hown⟩ := hfiles table htable
  exact ⟨_, table, hcensus, htable, hown.2 (by decide)⟩

/-- Of two different combinations with the same path only one has its files. -/
theorem outputs_same_path :
    let _ : Room := .ofSize 1000 (by decide)
    [buttonProps, otherProps].Nodup ∧
    ∃ census table, addScannedFiles (.start buttonLibrary [buttonProps, otherProps]
        [.propCombinations]) buttonFiles = .ok census ∧
      census.outputs "now" ["shop"] = .ok table ∧ table.size = 3 := by
  intro room
  have hwritable : ∀ tally ∈
      (CombinationTallies.ofScans [buttonProps, otherProps] (scansIn buttonFiles)).tallies,
      tally.IsWritable := by decide +kernel
  obtain ⟨table, htable⟩ := exists_outputs_iff.2 hwritable
  refine ⟨by decide, _, table, addScannedFiles_start .., htable, ?_⟩
  rw [(areFiles_of_outputs htable).size_eq, map_reportPath_ofScans]
  decide

end UsageCensus.Census
