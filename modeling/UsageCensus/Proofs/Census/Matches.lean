import UsageCensus.Proofs.Census.Combinations
import UsageCensus.Proofs.PropValue.Keys

/-!
# Props that are not set

Whether an instance sets a prop is read off the value that is listed for it, by comparing this
with the mark for props that are not set. The comparison is right because no raw value at all has
the mark for its key (`valueAt_eq_unset_iff`). So the matches of a combination are exactly the
instances of its component that set one of its props (`found_matches`).
-/

namespace UsageCensus.Census

open UsageCensus.Source UsageCensus.PropValue

variable {tag : Instance} {prop raw : String}

def Sets (tag : Instance) (prop : String) : Prop := ∃ a ∈ tag.attributes, a.name = prop

instance : Decidable (Sets tag prop) := inferInstanceAs (Decidable (∃ a ∈ tag.attributes, _))

def SetsAny (tag : Instance) (props : List String) : Prop := ∃ prop ∈ props, Sets tag prop

instance {props : List String} : Decidable (SetsAny tag props) :=
  inferInstanceAs (Decidable (∃ prop ∈ props, _))

/-- The raw value of the last prop of that name. -/
def IsLastValue (tag : Instance) (prop raw : String) : Prop :=
  ∃ before after, tag.attributes = before ++ ⟨prop, raw⟩ :: after ∧ ∀ a ∈ after, a.name ≠ prop

theorem IsLastValue.sets (h : IsLastValue tag prop raw) : Sets tag prop := by
  obtain ⟨before, after, hattributes, -⟩ := h
  exact ⟨⟨prop, raw⟩, by simp [hattributes], rfl⟩

/-! ## The value of one prop -/

def valueAt (tag : Instance) (prop : String) : String :=
  (Table.ofPairs (tag.attributes.map fun a => (a.name, aggregationKey a.value))).getD prop unset

theorem combinedValues_eq (tag : Instance) (props : List String) :
    combinedValues tag props = props.map (valueAt tag) := rfl

/-- A prop is listed with the key of its last value, or as not set. -/
theorem valueAt_cases (tag : Instance) (prop : String) :
    (¬ Sets tag prop ∧ valueAt tag prop = unset) ∨
      ∃ raw, IsLastValue tag prop raw ∧ valueAt tag prop = aggregationKey raw := by
  unfold valueAt Table.getD
  rw [Table.get?_ofPairs, ← List.map_reverse]
  cases hlookup : (tag.attributes.reverse.map fun a => (a.name, aggregationKey a.value)).lookup prop
    with
  | none =>
    refine .inl ⟨fun ⟨a, ha, hname⟩ => ?_, rfl⟩
    refine lookup_eq_none_iff.1 hlookup (List.mem_map.2 ⟨(a.name, aggregationKey a.value), ?_, hname⟩)
    exact List.mem_map.2 ⟨a, List.mem_reverse.2 ha, rfl⟩
  | some key =>
    obtain ⟨later, earlier, hsplit, hlater⟩ := List.lookup_eq_some_iff.1 hlookup
    obtain ⟨after, before, hattributes, hafter, hbefore⟩ := List.map_eq_append_iff.1 hsplit
    obtain ⟨⟨name, raw⟩, before, rfl, hpair, -⟩ := List.map_eq_cons_iff.1 hbefore
    obtain ⟨rfl, rfl⟩ := Prod.mk.inj hpair
    refine .inr ⟨raw, ⟨before.reverse, after.reverse, ?_, fun a ha hname => ?_⟩, rfl⟩
    · rw [List.reverse_eq_iff.1 hattributes]
      simp
    · have hmem : (a.name, aggregationKey a.value) ∈ later :=
        hafter ▸ List.mem_map.2 ⟨a, List.mem_reverse.1 ha, rfl⟩
      simpa [hname] using hlater _ hmem

theorem valueAt_eq_unset_iff : valueAt tag prop = unset ↔ ¬ Sets tag prop := by
  rcases valueAt_cases tag prop with ⟨hunset, hvalue⟩ | ⟨raw, hlast, hvalue⟩
  · exact iff_of_true hvalue hunset
  · exact iff_of_false (hvalue ▸ aggregationKey_ne_unset raw) (not_not_intro hlast.sets)

/-! ## Matches -/

namespace FileCombinations

theorem match?_eq (index : Nat) (props : List String) (tag : Instance) :
    match? index props tag =
      if SetsAny tag props then some ⟨index, tag.line, combinedValues tag props⟩ else none := by
  have hall : (combinedValues tag props).all (· == unset) = true ↔ ¬ SetsAny tag props := by
    simp only [combinedValues_eq, List.all_map, List.all_eq_true, Function.comp_apply, beq_iff_eq,
      valueAt_eq_unset_iff, SetsAny, not_exists, not_and]
  unfold match?
  by_cases h : SetsAny tag props
  · rw [if_pos h]
    exact if_neg (mt hall.1 (not_not_intro h))
  · rw [if_neg h]
    exact if_pos (hall.2 h)

theorem filterMap_match? (index : Nat) (props : List String) (tags : List Instance) :
    tags.filterMap (match? index props)
      = (tags.filter fun tag => SetsAny tag props).map fun tag =>
        ⟨index, tag.line, combinedValues tag props⟩ := by
  induction tags with
  | nil => rfl
  | cons tag tags ih =>
    rw [List.filterMap_cons, match?_eq, List.filter_cons, ih]
    by_cases h : SetsAny tag props <;> simp [h]

theorem index_lt_of_mem_found {scan : FileScan} {combinations : List PropCombination}
    {m : CombinationMatch} (h : m ∈ (find scan combinations).found) :
    m.index < combinations.length := by
  obtain ⟨⟨combination, index⟩, hentry, hm⟩ := List.mem_flatMap.1 h
  obtain ⟨tag, -, hmatch⟩ := List.mem_filterMap.1 hm
  rw [eq_of_match? hmatch]
  exact List.snd_lt_of_mem_zipIdx hentry

/-- A prop is listed as not set exactly where the instance has no prop of that name, and else with
the key of its last value; each instance of a combination's component is counted once, and those
that set one of the combination's props are its matches, in the order of the scan. -/
theorem found_matches (scan : FileScan) (combinations : List PropCombination) :
    (∀ tag (props : List String), (combinedValues tag props).length = props.length ∧
      ∀ (j : Nat) prop, props[j]? = some prop → ∃ value, (combinedValues tag props)[j]? = some value ∧
        (value = unset ↔ ¬ Sets tag prop) ∧
        (Sets tag prop → ∃ raw, IsLastValue tag prop raw ∧ value = aggregationKey raw)) ∧
    (find scan combinations).instanceCounts = (combinations.map fun combination =>
      scan.instances.countP fun tag => tag.component = combination.component) ∧
    (∀ m ∈ (find scan combinations).found, m.index < combinations.length) ∧
    ∀ i combination, combinations[i]? = some combination →
      (find scan combinations).found.filter (fun m => m.index = i)
        = (scan.instances.filter fun tag => tag.component = combination.component ∧
            SetsAny tag combination.props).map fun tag =>
          ⟨i, tag.line, combinedValues tag combination.props⟩ := by
  refine ⟨fun tag props => ⟨List.length_map _, fun j prop hprop => ?_⟩, ?_,
    fun m hm => index_lt_of_mem_found hm, fun i combination hcombination => ?_⟩
  · refine ⟨valueAt tag prop, ?_, valueAt_eq_unset_iff, fun hsets => ?_⟩
    · rw [combinedValues_eq, List.getElem?_map, hprop, Option.map_some]
    · rcases valueAt_cases tag prop with ⟨hunset, -⟩ | hlast
      · exact absurd hsets hunset
      · exact hlast
  · show (combinations.map fun combination => (instancesOf scan combination).length) = _
    simp only [instancesOf, List.countP_eq_length_filter, beq_eq_decide]
  · have hfound := CombinationTallies.filter_find scan hcombination
    rw [filterMap_match?, instancesOf, List.filter_filter] at hfound
    simpa only [beq_eq_decide, Bool.decide_and, Bool.and_comm] using hfound

/-- A button that sets its tone twice, and one that sets something else. -/
def toneScan : FileScan := ⟨.empty,
  [⟨"Button", [⟨"mode", "'a'"⟩], 1, 0, 7, 20⟩,
    ⟨"Button", [⟨"tone", "'red'"⟩, ⟨"tone", "\"(unset)\""⟩], 2, 21, 28, 60⟩]⟩

/-- A text that reads like the mark is told apart from a prop that is not set. -/
theorem found_toneScan :
    [(⟨"Button", ["tone", "size"]⟩ : PropCombination)][0]? = some ⟨"Button", ["tone", "size"]⟩ ∧
      (find toneScan [⟨"Button", ["tone", "size"]⟩]).found.filter (fun m => m.index = 0)
        = [⟨0, 2, ["\"(unset)\"", unset]⟩] := by
  have hfound := (found_matches toneScan [⟨"Button", ["tone", "size"]⟩]).2.2.2 0 _ rfl
  exact ⟨rfl, hfound.trans (by decide +kernel)⟩

end FileCombinations

end UsageCensus.Census
