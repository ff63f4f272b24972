import UsageCensus.Command.Redetect
import UsageCensus.Proofs.Defaults.Ordering
import UsageCensus.Proofs.Document.RoundTrip

/-!
# The documents about components

The document about a component holds all that defaults are detected from. Saved and read back it
is the stored report of the component (`reportIn?_detail`), and detection finds in it what it
finds in the usages themselves (`detect_savedProps`).
-/

namespace UsageCensus.Document

/-! ## Tables as objects -/

theorem isData_ofTable {ν : Type} {f : ν → Document} {table : Table String ν}
    (h : ∀ value, IsData (f value)) : IsData (ofTable f table) := by
  refine .object (table.mapValues f).nodup_keys fun member hmem => ?_
  obtain ⟨entry, -, rfl⟩ := List.mem_map.1 hmem
  exact h entry.2

end UsageCensus.Document

namespace UsageCensus.Census

open UsageCensus.Defaults UsageCensus.Document

/-! ## Usages as documents -/

namespace PropUsage

def savedValues (usage : PropUsage) : List (String × Document) :=
  Detection.mapEntries .ofNat (usage.values.ranked Int.ofNat)

theorem nodup_savedValues (usage : PropUsage) : (usage.savedValues.map Prod.fst).Nodup := by
  have hperm : (usage.values.ranked Int.ofNat).Perm usage.values.entries := List.mergeSort_perm _ _
  rw [savedValues, Detection.mapEntries, List.map_map]
  exact (hperm.map Prod.fst).nodup_iff.2 usage.values.nodup_keys

theorem isExact_savedValues (usage : PropUsage) : IsExact (.object usage.savedValues) := by
  refine .object usage.nodup_savedValues fun member hmem => ?_
  obtain ⟨entry, -, rfl⟩ := List.mem_map.1 hmem
  exact .int entry.2

theorem isExact_toDocument (usage : PropUsage) : IsExact usage.toDocument := by
  have hvalues := usage.isExact_savedValues
  have hkeys : ["total_usages", "values"].Nodup := by decide
  have hkeys' : ["total_usages", "values", "default_value", "default_usages"].Nodup := by decide
  obtain ⟨values, total, applied⟩ := usage
  cases applied with
  | none =>
    refine .object hkeys (List.forall_mem_cons.2 ⟨.int total, List.forall_mem_cons.2
      ⟨hvalues, by simp⟩⟩)
  | some default =>
    refine .object hkeys' (List.forall_mem_cons.2 ⟨.int total, List.forall_mem_cons.2
      ⟨hvalues, List.forall_mem_cons.2 ⟨.string default.value, List.forall_mem_cons.2
        ⟨.int default.usages, by simp⟩⟩⟩⟩)

theorem depth_toDocument (usage : PropUsage) : usage.toDocument.depth ≤ 2 := by
  have hvalues : (object usage.savedValues).depth ≤ 0 + 1 := by
    rw [depth_object_le, savedValues, Detection.mapEntries, List.forall_mem_map]
    exact fun _ _ => Nat.le_refl 0
  obtain ⟨values, total, applied⟩ := usage
  refine depth_object_le.2 (List.forall_mem_cons.2 ⟨Nat.zero_le _, List.forall_mem_cons.2
    ⟨hvalues, ?_⟩⟩)
  cases applied <;> simp

theorem usage?_toDocument (usage : PropUsage) :
    StoredReport.usage? usage.toDocument =
      if usage.values.isEmpty || usage.total == 0 then .ok none
      else .ok (some ⟨.ofPairs usage.savedValues, .ofNat usage.total⟩) := by
  have hvalues : usage.toDocument.memberOr "values" (.object [])
      = .ok (.object usage.savedValues) := by
    obtain ⟨values, total, applied⟩ := usage
    cases applied <;> rfl
  have htotal : usage.toDocument.memberOr "total_usages" (.int 0) = .ok (.ofNat usage.total) := by
    obtain ⟨values, total, applied⟩ := usage
    cases applied <;> rfl
  have hperm : (usage.values.ranked Int.ofNat).Perm usage.values.entries := List.mergeSort_perm _ _
  have hempty : usage.savedValues.isEmpty = usage.values.isEmpty := by
    rw [savedValues, Detection.mapEntries, List.isEmpty_map, hperm.isEmpty_eq]
    rfl
  have hzero : ((usage.total : Int) == 0) = (usage.total == 0) := by
    rw [Bool.eq_iff_iff, beq_iff_eq, beq_iff_eq]
    omega
  unfold StoredReport.usage?
  rw [hvalues, htotal]
  show (if (!(!usage.savedValues.isEmpty) || (usage.total : Int) == 0) = true then _ else _) = _
  rw [hempty, hzero, Bool.not_not]
  rfl

end PropUsage

namespace ComponentReport

def savedProps (report : ComponentReport) : Document :=
  .object (report.propsByUsage.map fun entry => (entry.1, entry.2.toDocument))

theorem isExact_savedProps (report : ComponentReport) : IsExact report.savedProps := by
  have hperm : report.propsByUsage.Perm report.props.entries := List.mergeSort_perm _ _
  refine .object ?_ fun member hmem => ?_
  · rw [List.map_map]
    exact (hperm.map Prod.fst).nodup_iff.2 report.props.nodup_keys
  · obtain ⟨entry, -, rfl⟩ := List.mem_map.1 hmem
    exact entry.2.isExact_toDocument

theorem isData_counts (report : ComponentReport) : ∀ member ∈ report.counts, IsData member.2 := by
  unfold counts
  simp only [List.forall_mem_cons]
  exact ⟨.string _, .int _, .int _, isData_ofTable fun n => .int n, isData_ofTable fun n => .int n,
    .int _, .float _, .int _, by simp⟩

theorem isData_reference (reference : Reference) : IsData reference.toDocument := by
  have hkeys : ["file", "line", "codebase"].Nodup := by decide
  refine .object hkeys ?_
  simp only [List.forall_mem_cons]
  exact ⟨.string _, .int _, .string _, by simp⟩

theorem isData_detail (report : ComponentReport) : IsData report.detail := by
  have hkeys : ["component", "total_imports", "total_instances", "codebase_imports",
      "codebase_instances", "unique_props", "avg_props_per_instance", "total_default_usages",
      "props", "references"].Nodup := by decide
  refine .object hkeys (List.forall_mem_append.2 ⟨report.isData_counts, ?_⟩)
  simp only [List.forall_mem_cons]
  refine ⟨report.isExact_savedProps.isData, .list fun item hmem => ?_, by simp⟩
  obtain ⟨reference, -, rfl⟩ := List.mem_map.1 hmem
  exact isData_reference reference

theorem depth_detail (report : ComponentReport) : report.detail.depth ≤ fewLevels := by
  have hprops : (object (report.propsByUsage.map fun entry =>
      (entry.1, entry.2.toDocument))).depth ≤ 6 + 1 := by
    rw [depth_object_le, List.forall_mem_map]
    exact fun entry _ => Nat.le_trans entry.2.depth_toDocument (by decide)
  have hreferences : (list (report.references.map Reference.toDocument)).depth ≤ 6 + 1 := by
    rw [depth_list_le, List.forall_mem_map]
    intro reference _
    simp [Reference.toDocument]
  unfold detail counts fewLevels
  simp [Document.ofCounts, hprops, hreferences]

/-- The document about a component, saved and read, is its stored report. -/
theorem reportIn?_detail [Room] {report : ComponentReport} {text : String}
    (h : report.detail.savedText = .ok text) (surrogates : Text.Surrogates) (file : String) :
    Command.reportIn? surrogates file (some text)
      = .ok (some ⟨.name report.component, report.savedProps⟩) := by
  let members := report.counts ++ [("props", report.savedProps),
    ("references", .list (report.references.map Reference.toDocument))]
  have hprops : (rereadMembers members).lookup "props" = some report.savedProps := by
    rw [lookup_rereadMembers]
    exact congrArg some report.isExact_savedProps.reread_eq
  have hcomponent : (rereadMembers members).lookup "component"
      = some (.string report.component) := by
    rw [lookup_rereadMembers]
    show some (reread (.string report.component)) = _
    simp only [reread]
  have hread : Files.documentIn? surrogates (some text)
      = .ok (some (.object (rereadMembers members))) := by
    have hdetail : report.detail.reread = .object (rereadMembers members) := by
      show reread (.object members) = _
      rw [reread]
    unfold Files.documentIn?
    dsimp only
    rw [parseWith_savedText surrogates report.isData_detail report.depth_detail h, hdetail]
  unfold Command.reportIn?
  rw [hread]
  show StoredReport.ofDocument? (Files.stem file) (.object (rereadMembers members)) = _
  unfold StoredReport.ofDocument?
  dsimp only
  rw [hprops, hcomponent]
  rfl

/-! ## Detection in stored reports -/

/-- A saved usage is judged like the usage itself. -/
theorem detectProp_toDocument (surrogates : Text.Surrogates) (component prop : String)
    (props : Document) (usage : PropUsage) (hprop : isSkipped prop = false) :
    StoredReport.detectProp surrogates ⟨.name component, props⟩ prop usage.toDocument
      = (Detection.detect component prop usage.values usage.total).map
        (Option.map StoredReport.labelled) := by
  unfold StoredReport.detectProp
  rw [hprop, PropUsage.usage?_toDocument]
  by_cases hzero : usage.values.isEmpty || usage.total == 0
  · have hnone : Detection.detect component prop usage.values usage.total
        = (.ok none : Except Fault _) := by
      unfold Detection.detect
      exact if_pos hzero
    rw [if_pos hzero, hnone]
    rfl
  · have hentries : (Table.ofPairs usage.savedValues).entries
        = Detection.mapEntries .ofNat (usage.values.ranked Int.ofNat) :=
      Table.entries_ofPairs usage.nodup_savedValues
    rw [if_neg hzero]
    show (@Detection.detect Document (Except Fault) _ (.ofDocuments surrogates) component prop
      (.ofPairs usage.savedValues) (.ofNat usage.total) >>= _) = _
    rw [Detection.detect_ofDocuments surrogates hentries]
    cases hfound : Detection.detect component prop usage.values usage.total with
    | error fault => rfl
    | ok found =>
      cases found with
      | none => rfl
      | some detection =>
        obtain ⟨hcomponent, -⟩ := Detection.isAbout_of_detect hfound
        show Except.ok (some (Label.name component, _)) = _
        rw [← hcomponent]
        rfl

/-- What is found for a prop, where `judge` gives the outcome of detection. -/
def found (judge : String → PropUsage → Option (Detection Nat)) (prop : String × PropUsage) :
    Option (Detection Nat) :=
  if isSkipped prop.1 then none else judge prop.1 prop.2

/-- In a stored report the same is found as in the usages that it was made of. -/
theorem detect_savedProps (surrogates : Text.Surrogates) {report : ComponentReport}
    {component : String} {judge : String → PropUsage → Option (Detection Nat)}
    (h : ∀ entry ∈ report.props.entries, isSkipped entry.1 = false →
      Detection.detect component entry.1 entry.2.values entry.2.total
        = .ok (judge entry.1 entry.2)) :
    StoredReport.detect surrogates ⟨.name component, report.savedProps⟩
      = .ok ((report.propsByUsage.filterMap (found judge)).map StoredReport.labelled) := by
  have hperm : report.propsByUsage.Perm report.props.entries := List.mergeSort_perm _ _
  have hprop : ∀ entry ∈ report.propsByUsage,
      StoredReport.detectProp surrogates ⟨.name component, report.savedProps⟩ entry.1
        entry.2.toDocument = .ok ((found judge entry).map StoredReport.labelled) := by
    rintro ⟨prop, usage⟩ hmem
    have hmem := hperm.mem_iff.1 hmem
    unfold found
    cases hskipped : isSkipped prop with
    | true =>
      unfold StoredReport.detectProp
      rw [hskipped]
      rfl
    | false =>
      rw [detectProp_toDocument surrogates component prop report.savedProps usage hskipped,
        h (prop, usage) hmem hskipped]
      rfl
  have hprops : (report.propsByUsage.map fun entry => (entry.1, entry.2.toDocument)).mapM
      (fun entry => StoredReport.detectProp surrogates
        ⟨.name component, report.savedProps⟩ entry.1 entry.2)
      = .ok (report.propsByUsage.map fun entry =>
        (found judge entry).map StoredReport.labelled) := by
    rw [List.mapM_map]
    exact mapM_of_forall hprop
  change (List.mapM _ _ >>= _ : Except Fault (List StoredReport.Labelled)) = _
  rw [hprops]
  show Except.ok (List.filterMap id (List.map _ _)) = _
  rw [List.filterMap_map, List.map_filterMap]
  rfl

end ComponentReport

end UsageCensus.Census
