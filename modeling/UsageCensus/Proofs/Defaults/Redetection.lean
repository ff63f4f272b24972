import Mathlib.Data.List.Perm.Basic
import UsageCensus.Proofs.Census.Details
import UsageCensus.Proofs.Census.Reports

/-!
# Detecting the defaults again

At the end of a run, detection in the stored reports of the used components finds what it has
found in the usages of all components, in the same order (`detectAll_stored`). Components that
are not used have no props, and no two detections are about one prop, so the list depends neither
on the reports that are left out nor on the order of those that are read.
-/

namespace UsageCensus

/-! ## Permutations -/

theorem flatMap_filter_of_nil {α β : Type} {p : α → Bool} {f : α → List β} {items : List α}
    (h : ∀ a ∈ items, p a = false → f a = []) : (items.filter p).flatMap f = items.flatMap f := by
  induction items with
  | nil => rfl
  | cons a items ih =>
    have ih := ih fun b hb => h b (by simp [hb])
    cases hp : p a with
    | true => rw [List.filter_cons_of_pos hp, List.flatMap_cons, List.flatMap_cons, ih]
    | false =>
      rw [List.filter_cons_of_neg (by simp [hp]), List.flatMap_cons, h a (by simp) hp, ih,
        List.nil_append]

namespace Census.ComponentReports

open UsageCensus.Defaults

/-- The outcome of detection for a prop of a component. -/
abbrev Judge : Type := String → String → PropUsage → Option (Detection Nat)

def foundIn (judge : Judge) (entry : String × ComponentReport) : List (Detection Nat) :=
  entry.2.props.entries.filterMap (ComponentReport.found (judge entry.1))

/-- Detection of all reports has the given outcomes. -/
def JudgedBy (judge : Judge) (reports : ComponentReports) : Prop :=
  ∀ entry ∈ reports.entries, ∀ prop ∈ entry.2.props.entries, isSkipped prop.1 = false →
    Detection.detect entry.1 prop.1 prop.2.values prop.2.total
      = (.ok (judge entry.1 prop.1 prop.2) : Except Fault _)

variable {reports : ComponentReports} {judge : Judge}

theorem detectAll_usages {detected : List (Detection Nat)}
    (h : Detection.detectAll .none Detection.detect reports.usages = .ok detected) :
    ∃ judge, JudgedBy judge reports ∧
      detected = Detection.sort .none (reports.entries.flatMap (foundIn judge)) := by
  unfold Detection.detectAll at h
  obtain ⟨found, hfound, h⟩ := bind_eq_ok.1 h
  obtain ⟨outcome, houtcome, rfl⟩ := mapM_eq_ok.1 hfound
  cases h
  refine ⟨fun component prop usage => outcome (component, prop, ⟨usage.values, usage.total⟩),
    fun entry hentry prop hprop hskipped => ?_, ?_⟩
  · refine houtcome (entry.1, prop.1, ⟨prop.2.values, prop.2.total⟩) (List.mem_filter.2 ⟨?_, ?_⟩)
    · refine List.mem_flatMap.2 ⟨_, List.mem_map.2 ⟨entry, hentry, rfl⟩, ?_⟩
      exact List.mem_map.2 ⟨_, List.mem_map.2 ⟨prop, hprop, rfl⟩, rfl⟩
    · show (!isSkipped prop.1) = true
      rw [hskipped]
      rfl
  · congr 1
    rw [List.filterMap_map, List.filterMap_filter, List.filterMap_flatMap]
    unfold usages Table.mapValues
    simp only [List.flatMap_map]
    congr 1
    funext entry
    rw [foundIn]
    simp only [List.map_map, List.filterMap_map]
    congr 1
    funext prop
    show (if (!isSkipped prop.1) = true then _ else none) = ComponentReport.found _ prop
    unfold ComponentReport.found
    cases isSkipped prop.1 <;> rfl

theorem isAbout_of_found (h : JudgedBy judge reports) {entry : String × ComponentReport}
    (hentry : entry ∈ reports.entries) {prop : String × PropUsage}
    (hprop : prop ∈ entry.2.props.entries) {detection : Detection Nat}
    (hfound : ComponentReport.found (judge entry.1) prop = some detection) :
    judge entry.1 prop.1 prop.2 = some detection ∧
      Detection.IsAbout entry.1 prop.1 detection := by
  unfold ComponentReport.found at hfound
  cases hskipped : isSkipped prop.1 with
  | true =>
    rw [hskipped] at hfound
    cases hfound
  | false =>
    rw [hskipped] at hfound
    have hdetect := h entry hentry prop hprop hskipped
    have hjudge : judge entry.1 prop.1 prop.2 = some detection := hfound
    rw [hjudge] at hdetect
    exact ⟨hjudge, Detection.isAbout_of_detect hdetect⟩

theorem eq_of_isAbout (h : JudgedBy judge reports) {a b : Detection Nat}
    (ha : a ∈ reports.entries.flatMap (foundIn judge))
    (hb : b ∈ reports.entries.flatMap (foundIn judge))
    (hab : Detection.IsAbout a.component a.prop b) : a = b := by
  obtain ⟨⟨component, report⟩, hreport, ha⟩ := List.mem_flatMap.1 ha
  obtain ⟨⟨component', report'⟩, hreport', hb⟩ := List.mem_flatMap.1 hb
  obtain ⟨⟨prop, usage⟩, husage, ha⟩ := List.mem_filterMap.1 ha
  obtain ⟨⟨prop', usage'⟩, husage', hb⟩ := List.mem_filterMap.1 hb
  obtain ⟨ha, hcomponent, hprop⟩ := isAbout_of_found h hreport husage ha
  obtain ⟨hb, hcomponent', hprop'⟩ := isAbout_of_found h hreport' husage' hb
  obtain rfl : component' = component := hcomponent'.symm.trans (hab.1.trans hcomponent)
  obtain rfl : prop' = prop := hprop'.symm.trans (hab.2.trans hprop)
  rw [← Table.get?_eq_some_iff] at hreport hreport'
  obtain rfl : report' = report := Option.some.inj (hreport'.symm.trans hreport)
  rw [← Table.get?_eq_some_iff] at husage husage'
  obtain rfl : usage' = usage := Option.some.inj (husage'.symm.trans husage)
  exact Option.some.inj (ha.symm.trans hb)

def stored (entry : String × ComponentReport) : StoredReport :=
  ⟨.name entry.1, entry.2.savedProps⟩

/-- In the stored reports of the used components the same is found as in all usages. -/
theorem detectAll_stored {components : List String} (hsound : reports.IsSound components)
    {detected : List (Detection Nat)}
    (hdetected : Detection.detectAll .none Detection.detect reports.usages = .ok detected)
    {used : List (String × ComponentReport)}
    (hused : used.Perm (reports.entries.filter fun entry => entry.2.isUsed))
    (surrogates : Text.Surrogates) :
    StoredReport.detectAll surrogates (used.map stored)
      = .ok (detected.map StoredReport.labelled) := by
  obtain ⟨judge, hjudge, rfl⟩ := detectAll_usages hdetected
  let savedIn (entry : String × ComponentReport) : List (Detection Nat) :=
    entry.2.propsByUsage.filterMap (ComponentReport.found (judge entry.1))
  have hfound : (used.map stored).mapM (StoredReport.detect surrogates)
      = .ok (used.map fun entry => (savedIn entry).map StoredReport.labelled) := by
    rw [List.mapM_map]
    apply mapM_of_forall
    intro entry hentry
    have hentry := (List.mem_filter.1 (hused.mem_iff.1 hentry)).1
    exact ComponentReport.detect_savedProps surrogates (hjudge entry hentry)
  have hflatten : (used.map fun entry => (savedIn entry).map StoredReport.labelled).flatten
      = (used.flatMap savedIn).map StoredReport.labelled := by
    rw [List.map_flatMap]
    rfl
  have hbare : ∀ entry ∈ reports.entries, entry.2.isUsed = false → foundIn judge entry = [] := by
    intro entry hentry hunused
    have hinstances : entry.2.instances = 0 := by
      unfold ComponentReport.isUsed at hunused
      rw [Bool.or_eq_false_iff] at hunused
      simpa using hunused.1
    unfold foundIn
    rw [(hsound entry hentry).bare hinstances]
    rfl
  have hperm : (used.flatMap savedIn).Perm (reports.entries.flatMap (foundIn judge)) := by
    rw [← flatMap_filter_of_nil hbare]
    refine (hused.flatMap_right savedIn).trans (List.Perm.flatMap_left _ fun entry _ => ?_)
    exact (List.mergeSort_perm _ _).filterMap _
  unfold StoredReport.detectAll
  rw [hfound]
  show (if StoredReport.isSortable (List.flatten _) then _ else _) = _
  rw [hflatten, if_pos (StoredReport.isSortable_labelled _), StoredReport.sort_labelled,
    ← Detection.sort_eq_of_perm hperm.symm fun a ha b hb => eq_of_isAbout hjudge ha hb]
  rfl

end Census.ComponentReports

end UsageCensus
