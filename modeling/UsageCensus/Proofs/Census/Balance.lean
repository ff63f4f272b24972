import UsageCensus.Proofs.Census.Reports
import UsageCensus.Proofs.Defaults.Counting
import UsageCensus.Proofs.Sums

/-!
# Balanced reports

The counters of a report say one thing each in several places: imports and instances also by
codebase, instances also as references, usages also by value, and usages of defaults also over all
props. A report is balanced if they agree, and if each default that is applied was detected with
enough confidence (`ComponentReport.IsBalanced`). Files keep reports balanced as long as no default
is applied (`IsBalanced.addFile`), and so do detections about distinct props, each of which applies
one default (`isBalanced_applyDefaults`).
-/

namespace UsageCensus

open UsageCensus.Number

/-! ## Detectors -/

theorem Defaults.Confidence.isSure_iff {confidence : Defaults.Confidence} :
    confidence.isSure ↔ confidence = .high ∨ confidence = .medium := by
  cases confidence <;> simp [isSure]

namespace Detection

/-- Where the detector answers with a detection, it is about the prop that was asked for. -/
def IsFaithful (detector : Detector Nat (Except Fault)) : Prop :=
  ∀ component prop values total detection,
    detector component prop values total = .ok (some detection) → IsAbout component prop detection

/-- Two detections are about distinct props. -/
def AreApart (a b : Detection Nat) : Prop := ¬ IsAbout a.component a.prop b

theorem AreApart.symm {a b : Detection Nat} (h : AreApart a b) : AreApart b a :=
  fun hab => h ⟨hab.1.symm, hab.2.symm⟩

theorem pairwise_usages {α : Type} (components : Table String (Table String (Usage α))) :
    (components.entries.flatMap fun (component, props) =>
      props.entries.map fun (prop, usage) => (component, prop, usage)).Pairwise
        fun u v => u.1 = v.1 → u.2.1 ≠ v.2.1 := by
  apply List.pairwise_flatMap.2
  constructor
  · rintro ⟨component, props⟩ -
    apply List.pairwise_map.2
    apply (List.pairwise_map.1 props.nodup_keys).imp
    rintro ⟨prop, usage⟩ ⟨prop', usage'⟩ hne -
    exact hne
  · apply (List.pairwise_map.1 components.nodup_keys).imp
    rintro ⟨component, props⟩ ⟨component', props'⟩ hne u hu v hv heq
    obtain ⟨entry, -, rfl⟩ := List.mem_map.1 hu
    obtain ⟨entry', -, rfl⟩ := List.mem_map.1 hv
    exact absurd heq hne

/-- Every prop is asked for once, so no two detections are about one prop. -/
theorem pairwise_areApart {surrogates : Text.Surrogates}
    {detector : Detector Nat (Except Fault)} (h : IsFaithful detector)
    {components : Table String (Table String (Usage Nat))} {detections : List (Detection Nat)}
    (hdetections : detectAll surrogates detector components = .ok detections) :
    detections.Pairwise AreApart := by
  unfold detectAll at hdetections
  obtain ⟨found, hfound, hsort⟩ := bind_eq_ok.1 hdetections
  obtain ⟨outcome, houtcome, rfl⟩ := mapM_eq_ok.1 hfound
  cases hsort
  apply (List.mergeSort_perm _ (le surrogates)).symm.pairwise ?_ AreApart.symm
  rw [List.filterMap_map, List.pairwise_filterMap]
  have husages := (pairwise_usages components).sublist
    (List.filter_sublist (p := fun u => !Defaults.isSkipped u.2.1))
  apply husages.imp_of_mem
  rintro ⟨component, prop, usage⟩ ⟨component', prop', usage'⟩ hu hv hne a ha b hb hab
  have ha : IsAbout component prop a :=
    h _ _ _ _ _ ((houtcome _ hu).trans (congrArg Except.ok ha))
  have hb : IsAbout component' prop' b :=
    h _ _ _ _ _ ((houtcome _ hv).trans (congrArg Except.ok hb))
  have hcomponent : component = component' := ha.1.symm.trans (hab.1.symm.trans hb.1)
  have hprop : prop = prop' := ha.2.symm.trans (hab.2.symm.trans hb.2)
  exact hne hcomponent hprop

/-- Where the detector raises no fault on any prop, there is a list of detections. -/
theorem exists_detectAll {surrogates : Text.Surrogates} {detector : Detector Nat (Except Fault)}
    {components : Table String (Table String (Usage Nat))}
    (h : ∀ entry ∈ components.entries, ∀ prop ∈ entry.2.entries,
      Defaults.isSkipped prop.1 = false →
        ∃ answer, detector entry.1 prop.1 prop.2.values prop.2.total = .ok answer) :
    ∃ detections, detectAll surrogates detector components = .ok detections := by
  unfold detectAll
  obtain ⟨found, hfound⟩ : ∃ found, ((components.entries.flatMap fun (component, props) =>
      props.entries.map fun (prop, usage) => (component, prop, usage)).filter
        fun u => !Defaults.isSkipped u.2.1).mapM (fun (component, prop, usage) =>
          detector component prop usage.values usage.total) = .ok found := by
    apply exists_mapM
    intro u hu
    obtain ⟨hu, hskipped⟩ := List.mem_filter.1 hu
    obtain ⟨entry, hentry, hu⟩ := List.mem_flatMap.1 hu
    obtain ⟨prop, hprop, rfl⟩ := List.mem_map.1 hu
    exact h entry hentry prop hprop (by simpa using hskipped)
  exact ⟨_, bind_eq_ok.2 ⟨found, hfound, rfl⟩⟩

end Detection

namespace Census

open UsageCensus.Source

/-! ## Props -/

/-- The usage of a prop agrees with itself and with the detections: its values are all counted, and
a default that is applied to it was detected for it with high or medium confidence. -/
structure PropUsage.IsBalanced (detected : List (Detection Nat)) (component prop : String)
    (usage : PropUsage) : Prop where
  total : usage.total = usage.values.total
  used : 1 ≤ usage.total
  usages : ∀ default, usage.applied = some default →
    default.usages = usage.values.getD default.value 0
  detected : ∀ default, usage.applied = some default →
    ∃ detection ∈ detected, detection.IsAbout component prop ∧
      detection.value = default.value ∧
      (detection.confidence = .high ∨ detection.confidence = .medium)

namespace PropUsage

variable {detected detected' : List (Detection Nat)} {component prop : String} {usage : PropUsage}

theorem IsBalanced.applied_eq_none (h : IsBalanced [] component prop usage) :
    usage.applied = none := by
  cases happlied : usage.applied with
  | none => rfl
  | some default =>
    obtain ⟨detection, hmem, -⟩ := h.detected default happlied
    cases hmem

theorem IsBalanced.mono (h : IsBalanced detected component prop usage)
    (hsub : ∀ detection ∈ detected, detection ∈ detected') :
    IsBalanced detected' component prop usage := by
  refine ⟨h.total, h.used, h.usages, fun default happlied => ?_⟩
  obtain ⟨detection, hmem, hdetection⟩ := h.detected default happlied
  exact ⟨detection, hsub detection hmem, hdetection⟩

theorem isBalanced_add (usage : PropUsage) (htotal : usage.total = usage.values.total)
    (happlied : usage.applied = none) (key : String) :
    IsBalanced detected component prop (usage.add key) where
  total := by
    show usage.total + 1 = (usage.values.add key 1).total
    rw [Table.total_add, htotal]
  used := Nat.le_add_left 1 usage.total
  usages default h := by
    have h : usage.applied = some default := h
    rw [happlied] at h
    cases h
  detected default h := by
    have h : usage.applied = some default := h
    rw [happlied] at h
    cases h

theorem IsBalanced.apply {detection : Detection Nat} (h : IsBalanced detected component prop usage)
    (hmem : detection ∈ detected) (habout : detection.IsAbout component prop)
    (hsure : detection.confidence.isSure) :
    IsBalanced detected component prop (usage.apply detection.value) where
  total := h.total
  used := h.used
  usages default happlied := by
    cases happlied
    rfl
  detected default happlied := by
    cases happlied
    exact ⟨detection, hmem, habout, rfl, Defaults.Confidence.isSure_iff.1 hsure⟩

end PropUsage

/-! ## One report -/

/-- Every counter of a report agrees with what it is counted by. -/
structure ComponentReport.IsBalanced (detected : List (Detection Nat)) (component : String)
    (report : ComponentReport) : Prop where
  imports : report.imports = report.codebaseImports.total
  instances : report.instances = report.codebaseInstances.total
  references : report.instances = report.references.length
  codebases : ∀ codebase, report.codebaseInstances.getD codebase 0
    = report.references.countP fun reference => reference.codebase == codebase
  props : ∀ entry ∈ report.props.entries, entry.2.IsBalanced detected component entry.1
  defaultUsages : report.defaultUsages = sumOf PropUsage.defaultUsages report.props.values

namespace ComponentReport.IsBalanced

variable {detected detected' : List (Detection Nat)} {component : String}
  {report : ComponentReport}

theorem unused (detected : List (Detection Nat)) (component : String) :
    (ComponentReport.unused component).IsBalanced detected component where
  imports := rfl
  instances := rfl
  references := rfl
  codebases _ := rfl
  props entry h := by cases h
  defaultUsages := rfl

theorem mono (h : report.IsBalanced detected component)
    (hsub : ∀ detection ∈ detected, detection ∈ detected') :
    report.IsBalanced detected' component :=
  ⟨h.imports, h.instances, h.references, h.codebases,
    fun entry hentry => (h.props entry hentry).mono hsub, h.defaultUsages⟩

theorem addImport (h : report.IsBalanced detected component) (codebase : String) :
    (report.addImport codebase).IsBalanced detected component where
  imports := by
    show report.imports + 1 = (report.codebaseImports.add codebase 1).total
    rw [Table.total_add, h.imports]
  instances := h.instances
  references := h.references
  codebases := h.codebases
  props := h.props
  defaultUsages := h.defaultUsages

theorem addProp (h : report.IsBalanced [] component) (name value : String) :
    (report.addProp name value).IsBalanced [] component where
  imports := h.imports
  instances := h.instances
  references := h.references
  codebases := h.codebases
  props := by
    apply Table.forall_update (P := fun prop usage => PropUsage.IsBalanced [] component prop usage)
      h.props
    cases hget : report.props.get? name with
    | none => exact PropUsage.isBalanced_add _ rfl rfl _
    | some usage =>
      have husage := h.props (name, usage) (Table.get?_eq_some_iff.1 hget)
      exact PropUsage.isBalanced_add _ husage.total husage.applied_eq_none _
  defaultUsages := by
    have hsum : sumOf PropUsage.defaultUsages (report.addProp name value).props.values
        = sumOf PropUsage.defaultUsages report.props.values + 0 := by
      apply Table.sumOf_update_of_add
      cases report.props.get? name <;> rfl
    rw [hsum]
    exact h.defaultUsages

theorem addInstance (h : report.IsBalanced [] component) (codebase file : String)
    (tag : Instance) : (report.addInstance codebase file tag).IsBalanced [] component := by
  unfold ComponentReport.addInstance
  apply List.foldlRecOn (motive := fun report : ComponentReport => report.IsBalanced [] component)
  · constructor
    case imports => exact h.imports
    case instances =>
      show report.instances + 1 = (report.codebaseInstances.add codebase 1).total
      rw [Table.total_add, h.instances]
    case references =>
      show report.instances + 1 = (report.references ++ [_]).length
      rw [List.length_append, h.references, List.length_singleton]
    case codebases =>
      intro codebase'
      show (report.codebaseInstances.add codebase 1).getD codebase' 0
        = (report.references ++ [Reference.mk file tag.line codebase]).countP _
      rw [Table.getD_add, List.countP_append, List.countP_singleton, h.codebases]
      simp only [beq_iff_eq, eq_comm (a := codebase)]
    case props => exact h.props
    case defaultUsages => exact h.defaultUsages
  · exact fun report h a _ => h.addProp a.name a.value

theorem applyDefault {detection : Detection Nat} (h : report.IsBalanced detected component)
    (hnone : ∀ usage, report.props.get? detection.prop = some usage → usage.applied = none)
    (hmem : detection ∈ detected) (hcomponent : detection.component = component)
    (hsure : detection.confidence.isSure) :
    (report.applyDefault detection.prop detection.value).IsBalanced detected component := by
  unfold ComponentReport.applyDefault
  cases hget : report.props.get? detection.prop with
  | none => exact h
  | some usage =>
    have husage := h.props (detection.prop, usage) (Table.get?_eq_some_iff.1 hget)
    constructor
    case imports => exact h.imports
    case instances => exact h.instances
    case references => exact h.references
    case codebases => exact h.codebases
    case props =>
      exact Table.forall_update (P := fun prop usage =>
        PropUsage.IsBalanced detected component prop usage) h.props
          (husage.apply hmem ⟨hcomponent, rfl⟩ hsure)
    case defaultUsages =>
      have hsum : sumOf PropUsage.defaultUsages
          (report.props.insert detection.prop (usage.apply detection.value)).values
            + usage.defaultUsages
          = sumOf PropUsage.defaultUsages report.props.values
            + (usage.apply detection.value).defaultUsages := Table.sumOf_insert hget
      have hzero : usage.defaultUsages = 0 := by
        rw [PropUsage.defaultUsages, hnone usage hget]
        rfl
      show report.defaultUsages + _ = sumOf PropUsage.defaultUsages (Table.insert _ _ _).values
      rw [h.defaultUsages]
      omega

end ComponentReport.IsBalanced

/-! ## All reports -/

namespace ComponentReports

def IsBalanced (detected : List (Detection Nat)) (reports : ComponentReports) : Prop :=
  ∀ entry ∈ reports.entries, entry.2.IsBalanced detected entry.1

variable {detected detected' done : List (Detection Nat)} {reports : ComponentReports}

theorem IsBalanced.get? (h : reports.IsBalanced detected) {component : String}
    {report : ComponentReport} (hget : reports.get? component = some report) :
    report.IsBalanced detected component :=
  h (component, report) (Table.get?_eq_some_iff.1 hget)

theorem isBalanced_seed (components : List String) : IsBalanced [] (.seed components) :=
  forall_seed fun component _ => .unused [] component

theorem IsBalanced.addFile (h : reports.IsBalanced []) (codebase file : String)
    (scan : FileScan) : (reports.addFile codebase file scan).IsBalanced [] :=
  forall_addFile h (fun component _ => .unused [] component)
    (fun _ _ hreport => hreport.addImport codebase)
    fun _ _ tag hreport => hreport.addInstance codebase file tag

/-- One detection more, about a prop that none of those before is about. -/
theorem IsBalanced.applyDetection (h : reports.IsBalanced done) {detection : Detection Nat}
    (hnew : ∀ earlier ∈ done, Detection.AreApart earlier detection) :
    (reports.applyDetection detection).IsBalanced (done ++ [detection]) := by
  have hmono : reports.IsBalanced (done ++ [detection]) := fun entry hentry =>
    (h entry hentry).mono fun earlier hearlier => List.mem_append_left _ hearlier
  unfold ComponentReports.applyDetection
  by_cases hsure : detection.confidence.isSure
  · rw [if_pos hsure]
    cases hget : reports.get? detection.component with
    | none => exact hmono
    | some report =>
      apply Table.forall_update hmono
      apply (hmono.get? hget).applyDefault ?_ (List.mem_append_right _ List.mem_cons_self) rfl hsure
      -- A default of the prop would come from a detection that is about it.
      intro usage husage
      cases happlied : usage.applied with
      | none => rfl
      | some default =>
        have husage := (h.get? hget).props (detection.prop, usage)
          (Table.get?_eq_some_iff.1 husage)
        obtain ⟨earlier, hearlier, habout, -⟩ := husage.detected default happlied
        exact absurd ⟨habout.1.symm, habout.2.symm⟩ (hnew earlier hearlier)
  · rw [if_neg hsure]
    exact hmono

theorem IsBalanced.foldl_applyDetection (h : reports.IsBalanced done)
    (detections : List (Detection Nat))
    (hapart : (done ++ detections).Pairwise Detection.AreApart) :
    (detections.foldl ComponentReports.applyDetection reports).IsBalanced (done ++ detections) := by
  induction detections generalizing done reports with
  | nil => rwa [List.append_nil]
  | cons detection detections ih =>
    rw [List.append_cons] at hapart ⊢
    have hnew : ∀ earlier ∈ done, Detection.AreApart earlier detection := by
      intro earlier hearlier
      exact (List.pairwise_append.1 (List.pairwise_append.1 hapart).1).2.2 earlier hearlier
        detection List.mem_cons_self
    exact ih (h.applyDetection hnew) hapart

theorem isBalanced_applyDefaults {detector : Detection.Detector Nat (Except Fault)}
    (hfaithful : Detection.IsFaithful detector) (h : reports.IsBalanced [])
    {reports' : ComponentReports} {detections : List (Detection Nat)}
    (happly : reports.applyDefaults detector = .ok (reports', detections)) :
    reports'.IsBalanced detections := by
  unfold applyDefaults at happly
  obtain ⟨found, hfound, happly⟩ := bind_eq_ok.1 happly
  cases happly
  exact h.foldl_applyDetection detections (Detection.pairwise_areApart hfaithful hfound)

end ComponentReports

end Census

end UsageCensus
