import UsageCensus.Proofs.Census.Balance
import UsageCensus.Proofs.Defaults.Grouping
import UsageCensus.Proofs.Defaults.Ordering

/-!
# What is listed

A detector that answers for every prop that may have a default, and about this prop, has its
detections listed: all of them, each prop once, in the order of confidence, component and prop
(`exists_isFound`). The list does not say which usages were passed over.
-/

namespace UsageCensus.Detection

open UsageCensus.Defaults UsageCensus.Text

variable {α : Type} {surrogates : Surrogates} {detector : Detector α (Except Fault)}
  {components : Table String (Table String (Usage α))}

def IsAsked (components : Table String (Table String (Usage α))) (component prop : String)
    (usage : Usage α) : Prop :=
  components.leaf? component prop = some usage ∧ isSkipped prop = false

/-- The detector answers for each prop that may have a default, and what it detects is about this
prop, at one of the three levels. -/
def AnswersOn (detector : Detector α (Except Fault))
    (components : Table String (Table String (Usage α))) : Prop :=
  ∀ component prop usage, IsAsked components component prop usage →
    ∃ answer, detector component prop usage.values usage.total = .ok answer ∧
      ∀ detection, answer = some detection →
        IsAbout component prop detection ∧ detection.confidence ∈ Confidence.levels

def IsBefore (surrogates : Surrogates) (a b : Detection α) : Prop :=
  a.confidence.rank < b.confidence.rank ∨ a.confidence.rank = b.confidence.rank ∧
    (surrogates.Before a.component b.component ∨
      a.component = b.component ∧ surrogates.Before a.prop b.prop)

/-- The place of a detection in the configuration. -/
def place (detection : Detection α) : String × String := (detection.component, detection.prop)

/-- The list has what the detector has found, each prop once, in the order of a list. -/
structure IsFound (surrogates : Surrogates) (detector : Detector α (Except Fault))
    (components : Table String (Table String (Usage α))) (detections : List (Detection α)) :
    Prop where
  mem_iff : ∀ detection, detection ∈ detections ↔ ∃ component prop usage,
    IsAsked components component prop usage ∧
      detector component prop usage.values usage.total = .ok (some detection)
  nodup : (detections.map place).Nodup
  increasing : detections.Pairwise (IsBefore surrogates)

def askedUsages (components : Table String (Table String (Usage α))) :
    List (String × String × Usage α) :=
  (components.entries.flatMap fun (component, props) =>
    props.entries.map fun (prop, usage) => (component, prop, usage)).filter
      fun u => !isSkipped u.2.1

theorem mem_askedUsages {component prop : String} {usage : Usage α} :
    (component, prop, usage) ∈ askedUsages components ↔
      IsAsked components component prop usage := by
  rw [askedUsages, List.mem_filter, List.mem_flatMap, IsAsked, Table.leaf?]
  refine and_congr ?_ (by rw [Bool.not_eq_true'])
  rw [Option.bind_eq_some_iff]
  constructor
  · rintro ⟨⟨name, props⟩, hprops, hmem⟩
    obtain ⟨⟨name', usage'⟩, husage, heq⟩ := List.mem_map.1 hmem
    cases heq
    exact ⟨props, Table.get?_eq_some_iff.2 hprops, Table.get?_eq_some_iff.2 husage⟩
  · rintro ⟨props, hprops, husage⟩
    exact ⟨_, Table.get?_eq_some_iff.1 hprops,
      List.mem_map.2 ⟨_, Table.get?_eq_some_iff.1 husage, rfl⟩⟩

theorem isBefore_of_le {a b : Detection α} (h : le surrogates a b = true)
    (hplace : a.place ≠ b.place) : IsBefore surrogates a b := by
  rw [le_iff] at h
  refine h.imp_right fun ⟨hrank, h⟩ => ⟨hrank, h.imp_right fun ⟨hcomponent, hle⟩ => ?_⟩
  refine ⟨hcomponent, ?_⟩
  rcases before_trichotomy surrogates a.prop b.prop with hbefore | heq | hbefore
  · exact hbefore
  · exact absurd (Prod.ext hcomponent heq) hplace
  · exact absurd hbefore hle

theorem detectAll_of_forall {answer : String × String × Usage α → Option (Detection α)}
    (h : ∀ u ∈ askedUsages components,
      detector u.1 u.2.1 u.2.2.values u.2.2.total = .ok (answer u)) :
    detectAll surrogates detector components
      = .ok (sort surrogates ((askedUsages components).filterMap answer)) := by
  refine bind_eq_ok.2 ⟨(askedUsages components).map answer, mapM_of_forall h, ?_⟩
  rw [List.filterMap_map]
  rfl

/-- Each prop is asked about once, so the answers about it have distinct places. -/
theorem nodup_places {answer : String × String × Usage α → Option (Detection α)}
    (h : ∀ u ∈ askedUsages components, ∀ detection, answer u = some detection →
      IsAbout u.1 u.2.1 detection) :
    (((askedUsages components).filterMap answer).map place).Nodup := by
  rw [List.Nodup, List.pairwise_map, List.pairwise_filterMap]
  have husages := (pairwise_usages components).sublist
    (List.filter_sublist (p := fun u => !isSkipped u.2.1))
  apply husages.imp_of_mem
  intro u v hu hv hne a ha b hb hplace
  obtain ⟨hcomponent, hprop⟩ := Prod.mk.inj hplace
  have ha := h u hu a ha
  have hb := h v hv b hb
  exact hne (ha.1.symm.trans (hcomponent.trans hb.1)) (ha.2.symm.trans (hprop.trans hb.2))

/-- What is detected is listed, nothing else, and each prop once. -/
theorem exists_isFound (h : AnswersOn detector components) :
    ∃ detections, detectAll surrogates detector components = .ok detections ∧
      IsFound surrogates detector components detections := by
  have hanswers : ∀ u ∈ askedUsages components, ∃ answer,
      detector u.1 u.2.1 u.2.2.values u.2.2.total = .ok answer ∧
        ∀ detection, answer = some detection → IsAbout u.1 u.2.1 detection := by
    rintro ⟨component, prop, usage⟩ hu
    obtain ⟨answer, hanswer, habout⟩ := h component prop usage (mem_askedUsages.1 hu)
    exact ⟨answer, hanswer, fun detection hdetection => (habout detection hdetection).1⟩
  choose! answer hanswer habout using hanswers
  have hperm : (sort surrogates ((askedUsages components).filterMap answer)).Perm
      ((askedUsages components).filterMap answer) := List.mergeSort_perm _ _
  have hnodup : ((sort surrogates ((askedUsages components).filterMap answer)).map place).Nodup :=
    (hperm.map place).nodup_iff.2 (nodup_places habout)
  refine ⟨_, detectAll_of_forall hanswer, ?mem_iff, hnodup, ?increasing⟩
  case mem_iff =>
    intro detection
    rw [hperm.mem_iff, List.mem_filterMap]
    constructor
    · rintro ⟨⟨component, prop, usage⟩, hu, hdetection⟩
      exact ⟨component, prop, usage, mem_askedUsages.1 hu, hdetection ▸ hanswer _ hu⟩
    · rintro ⟨component, prop, usage, hasked, hdetection⟩
      have hu := mem_askedUsages.2 hasked
      exact ⟨_, hu, Except.ok.inj ((hanswer _ hu).symm.trans hdetection)⟩
  case increasing =>
    exact (pairwise_sort _).imp₂ (fun a b hle hplace => isBefore_of_le hle hplace)
      (List.pairwise_map.1 hnodup)

end UsageCensus.Detection
