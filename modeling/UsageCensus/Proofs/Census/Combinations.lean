import Mathlib.Data.List.Induction
import UsageCensus.Census.Combination
import UsageCensus.Proofs.Sums

/-!
# Tallies of prop combinations

A match is counted in four places: in the number of matches, at its values, at its values once
more in its codebase, and among the samples while there is room. The four agree after any matches
(`IsRecord`). Each tally takes the matches of its own combination and no others, in the order in
which the scans came (`getElem?_ofScans`).
-/

namespace UsageCensus.Census

open UsageCensus.Number UsageCensus.Source

theorem eq_of_match? {index : Nat} {props : List String} {tag : Instance} {m : CombinationMatch}
    (h : FileCombinations.match? index props tag = some m) :
    m = ⟨index, tag.line, combinedValues tag props⟩ := by
  have h : (if (combinedValues tag props).all (· == unset) then none
      else some (CombinationMatch.mk index tag.line (combinedValues tag props))) = some m := h
  split at h
  · cases h
  · exact (Option.some.inj h).symm

/-- A match and the file that it was found in. -/
structure PlacedMatch where
  codebase : String
  file : String
  found : CombinationMatch

namespace CombinationTally

variable {tally : CombinationTally} {placed : List PlacedMatch}

def sampleOf (combination : PropCombination) (found : PlacedMatch) : Sample :=
  ⟨found.codebase, found.file, found.found.line, valuesOf combination found.found.values⟩

def addPlaced (tally : CombinationTally) (found : PlacedMatch) : CombinationTally :=
  tally.add found.codebase found.file found.found

/-! ## Matches -/

/-- The tally counts the given matches, alike in each of its places, and lists no other values. -/
structure IsRecord (tally : CombinationTally) (placed : List PlacedMatch) : Prop where
  matched : tally.matched = placed.length
  total : tally.matched = tally.counts.total
  totals : tally.matched = sumOf Table.total tally.byCodebase.values
  count : ∀ values,
    tally.counts.getD values 0 = placed.countP fun found => found.found.values == values
  counts : ∀ values, tally.counts.getD values 0
    = sumOf (fun counts => counts.getD values 0) tally.byCodebase.values
  codebaseCount : ∀ codebase values, (tally.byCodebase.getD codebase .empty).getD values 0
    = placed.countP fun found => found.codebase == codebase && found.found.values == values
  samples : tally.samples
    = (placed.take (min maxSamples tally.matched)).map (sampleOf tally.combination)
  mem_counts : ∀ values,
    values ∈ tally.counts.keys ↔ ∃ found ∈ placed, found.found.values = values
  mem_byCodebase : ∀ codebase,
    codebase ∈ tally.byCodebase.keys ↔ ∃ found ∈ placed, found.codebase = codebase
  mem_codebase : ∀ codebase counts, tally.byCodebase.get? codebase = some counts →
    ∀ values ∈ counts.keys, values ∈ tally.counts.keys

theorem exists_concat {p : PlacedMatch → Prop} {found : PlacedMatch} :
    (∃ earlier ∈ placed ++ [found], p earlier) ↔ (∃ earlier ∈ placed, p earlier) ∨ p found := by
  simp only [List.mem_append, List.mem_singleton, or_and_right, exists_or, exists_eq_left]

theorem isRecord_empty (combination : PropCombination) : IsRecord (.empty combination) [] where
  matched := rfl
  total := rfl
  totals := rfl
  count _ := rfl
  counts _ := rfl
  codebaseCount _ _ := rfl
  samples := rfl
  mem_counts values := by simp [empty, Table.empty, Table.keys]
  mem_byCodebase codebase := by simp [empty, Table.empty, Table.keys]
  mem_codebase codebase counts h := by cases h

namespace IsRecord

theorem withInstances (h : tally.IsRecord placed) (instances : Nat) :
    IsRecord { tally with instances := instances } placed :=
  ⟨h.matched, h.total, h.totals, h.count, h.counts, h.codebaseCount, h.samples, h.mem_counts,
    h.mem_byCodebase, h.mem_codebase⟩

theorem samples_add (h : tally.IsRecord placed) (found : PlacedMatch) :
    (tally.addPlaced found).samples = ((placed ++ [found]).take
      (min maxSamples (tally.matched + 1))).map (sampleOf tally.combination) := by
  have hlength : tally.samples.length = min maxSamples placed.length := by
    rw [h.samples, List.length_map, List.length_take, h.matched]
    omega
  show (if tally.samples.length < maxSamples then _ else _) = _
  rw [hlength, h.samples, h.matched]
  by_cases hroom : placed.length < maxSamples
  · have hall : min maxSamples (placed.length + 1) = (placed ++ [found]).length := by
      rw [List.length_append, List.length_singleton]
      omega
    have hplaced : min maxSamples placed.length = placed.length := by omega
    rw [if_pos (by omega), hall, hplaced, List.take_length, List.take_length, List.map_append]
    rfl
  · have hfull : min maxSamples (placed.length + 1) = min maxSamples placed.length := by omega
    rw [if_neg (by omega), hfull, List.take_append_of_le_length (by omega)]

theorem add (h : tally.IsRecord placed) (found : PlacedMatch) :
    (tally.addPlaced found).IsRecord (placed ++ [found]) where
  matched := by
    rw [List.length_append, ← h.matched]
    rfl
  total := by
    have htotal := tally.counts.total_add found.found.values 1
    rw [← h.total] at htotal
    exact htotal.symm
  totals := by
    have htotals : sumOf Table.total (tally.addPlaced found).byCodebase.values
        = sumOf Table.total tally.byCodebase.values + 1 := by
      apply Table.sumOf_update_of_add
      rw [Table.total_add]
      cases tally.byCodebase.get? found.codebase <;> rfl
    rw [htotals, ← h.totals]
    rfl
  count values := by
    have hcount := tally.counts.getD_add found.found.values values 1
    rw [List.countP_append, ← h.count values, List.countP_singleton]
    simp only [beq_iff_eq, eq_comm (a := found.found.values)]
    exact hcount
  counts values := by
    have hcounts : sumOf (fun counts => counts.getD values 0)
        (tally.addPlaced found).byCodebase.values
          = sumOf (fun counts => counts.getD values 0) tally.byCodebase.values
            + if values = found.found.values then 1 else 0 := by
      apply Table.sumOf_update_of_add
      rw [Table.getD_add]
      cases tally.byCodebase.get? found.codebase <;> rfl
    rw [hcounts, ← h.counts values]
    exact tally.counts.getD_add found.found.values values 1
  codebaseCount codebase values := by
    have hget : (tally.addPlaced found).byCodebase.get? codebase =
        if codebase = found.codebase then
          some ((tally.byCodebase.getD found.codebase .empty).add found.found.values 1)
        else tally.byCodebase.get? codebase := Table.get?_update _ _ _ _
    rw [List.countP_append, ← h.codebaseCount codebase values, List.countP_singleton]
    unfold Table.getD at hget ⊢
    rw [hget]
    by_cases hcodebase : codebase = found.codebase
    · subst hcodebase
      rw [if_pos rfl]
      simp only [beq_self_eq_true, Bool.true_and, beq_iff_eq, eq_comm (a := found.found.values)]
      exact Table.getD_add _ _ _ _
    · rw [if_neg hcodebase, beq_eq_false_iff_ne.2 (Ne.symm hcodebase)]
      rfl
  samples := h.samples_add found
  mem_counts values := by
    have hkeys : values ∈ (tally.addPlaced found).counts.keys
        ↔ values ∈ tally.counts.keys ∨ values = found.found.values := Table.mem_keys_update
    rw [hkeys, h.mem_counts, exists_concat, eq_comm]
  mem_byCodebase codebase := by
    have hkeys : codebase ∈ (tally.addPlaced found).byCodebase.keys
        ↔ codebase ∈ tally.byCodebase.keys ∨ codebase = found.codebase := Table.mem_keys_update
    rw [hkeys, h.mem_byCodebase, exists_concat, eq_comm]
  mem_codebase codebase counts hget values hvalues := by
    have hkeys : values ∈ tally.counts.keys ∨ values = found.found.values →
        values ∈ (tally.addPlaced found).counts.keys := Table.mem_keys_update.2
    have hget : (tally.byCodebase.update found.codebase fun counts =>
        (counts.getD .empty).add found.found.values 1).get? codebase = some counts := hget
    rw [Table.get?_update] at hget
    by_cases hcodebase : codebase = found.codebase
    · rw [if_pos hcodebase] at hget
      cases hget
      rcases Table.mem_keys_update.1 hvalues with hvalues | hvalues
      · cases hold : tally.byCodebase.get? found.codebase with
        | none =>
          rw [hold] at hvalues
          cases hvalues
        | some old =>
          rw [hold] at hvalues
          exact hkeys (.inl (h.mem_codebase _ old hold values hvalues))
      · exact hkeys (.inr hvalues)
    · rw [if_neg hcodebase] at hget
      exact hkeys (.inl (h.mem_codebase _ counts hget values hvalues))

theorem foldl (h : tally.IsRecord placed) (more : List PlacedMatch) :
    (more.foldl addPlaced tally).IsRecord (placed ++ more) := by
  induction more generalizing tally placed with
  | nil => rwa [List.append_nil]
  | cons found more ih =>
    rw [List.foldl_cons, List.append_cons]
    exact ih (h.add found)

end IsRecord

/-! ## Scans -/

/-- The matches of the combination at an index in a scan. -/
def placedIn (index : Nat) (combination : PropCombination) (codebase file : String)
    (scan : FileScan) : List PlacedMatch :=
  ((FileCombinations.instancesOf scan combination).filterMap
    (FileCombinations.match? index combination.props)).map (PlacedMatch.mk codebase file)

def addScan (index : Nat) (tally : CombinationTally) (codebase file : String) (scan : FileScan) :
    CombinationTally :=
  (placedIn index tally.combination codebase file scan).foldl addPlaced
    { tally with
      instances := tally.instances
        + (FileCombinations.instancesOf scan tally.combination).length }

theorem addScan_fields (index : Nat) (tally : CombinationTally) (codebase file : String)
    (scan : FileScan) :
    (tally.addScan index codebase file scan).combination = tally.combination ∧
      (tally.addScan index codebase file scan).instances = tally.instances
        + (FileCombinations.instancesOf scan tally.combination).length := by
  unfold addScan
  apply List.foldlRecOn (motive := fun added : CombinationTally =>
    added.combination = tally.combination ∧ added.instances = tally.instances
      + (FileCombinations.instancesOf scan tally.combination).length)
  · exact ⟨rfl, rfl⟩
  · exact fun added h found _ => h

theorem IsRecord.addScan (h : tally.IsRecord placed) (index : Nat) (codebase file : String)
    (scan : FileScan) : (tally.addScan index codebase file scan).IsRecord
      (placed ++ placedIn index tally.combination codebase file scan) :=
  (h.withInstances _).foldl _

def placedAt (index : Nat) (combination : PropCombination)
    (scans : List (String × String × FileScan)) : List PlacedMatch :=
  scans.flatMap fun (codebase, file, scan) => placedIn index combination codebase file scan

def instancesIn (combination : PropCombination) (scans : List (String × String × FileScan)) :
    Nat :=
  sumOf (fun scan => (FileCombinations.instancesOf scan.2.2 combination).length) scans

theorem length_placedAt_le (index : Nat) (combination : PropCombination)
    (scans : List (String × String × FileScan)) :
    (placedAt index combination scans).length ≤ instancesIn combination scans := by
  induction scans with
  | nil => exact Nat.le_refl 0
  | cons scan scans ih =>
    have hscan : (placedIn index combination scan.1 scan.2.1 scan.2.2).length
        ≤ (FileCombinations.instancesOf scan.2.2 combination).length := by
      rw [placedIn, List.length_map]
      exact List.length_filterMap_le _ _
    show (placedIn index combination scan.1 scan.2.1 scan.2.2
      ++ placedAt index combination scans).length
        ≤ (FileCombinations.instancesOf scan.2.2 combination).length
          + instancesIn combination scans
    rw [List.length_append]
    omega

/-- The tally of the combination at an index after some scans. -/
def ofScans (index : Nat) (combination : PropCombination)
    (scans : List (String × String × FileScan)) : CombinationTally :=
  scans.foldl (fun tally (codebase, file, scan) => tally.addScan index codebase file scan)
    (.empty combination)

theorem ofScans_append (index : Nat) (combination : PropCombination)
    (scans : List (String × String × FileScan)) (codebase file : String) (scan : FileScan) :
    ofScans index combination (scans ++ [(codebase, file, scan)])
      = (ofScans index combination scans).addScan index codebase file scan := by
  rw [ofScans, List.foldl_append]
  rfl

theorem ofScans_fields (index : Nat) (combination : PropCombination)
    (scans : List (String × String × FileScan)) :
    (ofScans index combination scans).combination = combination ∧
      (ofScans index combination scans).instances = instancesIn combination scans := by
  induction scans using List.reverseRecOn with
  | nil => exact ⟨rfl, rfl⟩
  | append_singleton scans scan ih =>
    obtain ⟨codebase, file, scan⟩ := scan
    obtain ⟨hcombination, hinstances⟩ := ih
    have hfields := (ofScans index combination scans).addScan_fields index codebase file scan
    rw [hcombination, hinstances] at hfields
    rw [ofScans_append, hfields.1, hfields.2, instancesIn, instancesIn, sumOf_append]
    exact ⟨rfl, rfl⟩

theorem isRecord_ofScans (index : Nat) (combination : PropCombination)
    (scans : List (String × String × FileScan)) :
    (ofScans index combination scans).IsRecord (placedAt index combination scans) := by
  induction scans using List.reverseRecOn with
  | nil => exact isRecord_empty combination
  | append_singleton scans scan ih =>
    obtain ⟨codebase, file, scan⟩ := scan
    have hrecord := ih.addScan index codebase file scan
    rw [(ofScans_fields index combination scans).1] at hrecord
    rw [ofScans_append, placedAt, List.flatMap_append, List.flatMap_singleton]
    exact hrecord

end CombinationTally

/-! ## All tallies -/

namespace CombinationTallies

open CombinationTally

/-- Scans that are added one after the other, each to the tally of every combination. -/
def ofScans (combinations : List PropCombination) (scans : List (String × String × FileScan)) :
    CombinationTallies :=
  scans.foldl (fun all (codebase, file, scan) =>
    all.add codebase file (.find scan combinations)) (.ofCombinations combinations)

theorem getElem?_addInstances (tallies : List CombinationTally) (counts : List Nat) (i : Nat) :
    (addInstances tallies counts)[i]? = tallies[i]?.map fun tally =>
      { tally with instances := tally.instances + counts[i]?.getD 0 } := by
  induction tallies generalizing counts i with
  | nil => cases counts <;> rfl
  | cons tally tallies ih =>
    cases counts with
    | nil => exact Option.map_id'.symm
    | cons count counts =>
      cases i with
      | zero => rfl
      | succ i => exact ih counts i

theorem getElem?_foldl_modify (codebase file : String) (found : List CombinationMatch)
    (tallies : List CombinationTally) (i : Nat) :
    (found.foldl (fun tallies m =>
      tallies.modify m.index fun tally => tally.add codebase file m) tallies)[i]?
      = tallies[i]?.map fun tally => ((found.filter fun m => m.index == i).map
        (PlacedMatch.mk codebase file)).foldl addPlaced tally := by
  induction found generalizing tallies with
  | nil => exact Option.map_id'.symm
  | cons m found ih =>
    rw [List.foldl_cons, ih, List.getElem?_modify]
    by_cases hindex : m.index = i
    · rw [List.filter_cons_of_pos (by simpa using hindex)]
      cases tallies[i]? with
      | none => rfl
      | some tally =>
        simp only [Option.map_some, if_pos hindex]
        rfl
    · rw [List.filter_cons_of_neg (by simpa using hindex)]
      cases tallies[i]? with
      | none => rfl
      | some tally =>
        simp only [if_neg hindex]
        rfl

/-! ## Matches by index -/

theorem filter_filterMap_match? (index i : Nat) (props : List String) (tags : List Instance) :
    (tags.filterMap (FileCombinations.match? index props)).filter (fun m => m.index == i)
      = if index = i then tags.filterMap (FileCombinations.match? i props) else [] := by
  have hindex : ∀ m ∈ tags.filterMap (FileCombinations.match? index props), m.index = index := by
    intro m hm
    obtain ⟨tag, -, hmatch⟩ := List.mem_filterMap.1 hm
    rw [eq_of_match? hmatch]
  by_cases heq : index = i
  · subst heq
    rw [if_pos rfl, List.filter_eq_self]
    exact fun m hm => by simpa using hindex m hm
  · rw [if_neg heq, List.filter_eq_nil_iff]
    exact fun m hm => by simpa [hindex m hm] using heq

theorem flatMap_zipIdx {α β : Type} (f : α → List β) (items : List α) (start i : Nat) :
    ((items.zipIdx start).flatMap fun item => if item.2 = start + i then f item.1 else [])
      = (items[i]?.map f).getD [] := by
  induction items generalizing start i with
  | nil => rfl
  | cons first rest ih =>
    rw [List.zipIdx_cons, List.flatMap_cons]
    cases i with
    | zero =>
      have hrest : ((rest.zipIdx (start + 1)).flatMap fun item =>
          if item.2 = start + 0 then f item.1 else []) = [] := by
        apply List.flatMap_eq_nil_iff.2
        intro item hitem
        have hle := List.le_snd_of_mem_zipIdx hitem
        rw [if_neg (by omega)]
      rw [hrest, List.append_nil]
      exact if_pos rfl
    | succ i =>
      have hshift : start + (i + 1) = start + 1 + i := by omega
      rw [hshift, if_neg (by omega), List.nil_append]
      exact ih (start + 1) i

/-- What is found in a scan at an index is what the combination there finds. -/
theorem filter_find (scan : FileScan) {combinations : List PropCombination} {i : Nat}
    {combination : PropCombination} (h : combinations[i]? = some combination) :
    (FileCombinations.find scan combinations).found.filter (fun m => m.index == i)
      = (FileCombinations.instancesOf scan combination).filterMap
        (FileCombinations.match? i combination.props) := by
  have hblocks := flatMap_zipIdx (fun combination : PropCombination =>
    (FileCombinations.instancesOf scan combination).filterMap
      (FileCombinations.match? i combination.props)) combinations 0 i
  rw [h, Nat.zero_add] at hblocks
  rw [FileCombinations.find, List.filter_flatMap]
  simp only [filter_filterMap_match?]
  exact hblocks

/-! ## Scans -/

theorem length_addInstances (tallies : List CombinationTally) (counts : List Nat) :
    (addInstances tallies counts).length = tallies.length := by
  induction tallies generalizing counts with
  | nil => cases counts <;> rfl
  | cons tally tallies ih =>
    cases counts with
    | nil => rfl
    | cons count counts => rw [addInstances, List.length_cons, List.length_cons, ih]

theorem length_add (all : CombinationTallies) (codebase path : String) (file : FileCombinations) :
    (all.add codebase path file).tallies.length = all.tallies.length := by
  unfold add
  apply List.foldlRecOn (motive := fun tallies : List CombinationTally =>
    tallies.length = all.tallies.length)
  · exact length_addInstances all.tallies file.instanceCounts
  · intro tallies htallies found _
    rw [List.length_modify, htallies]

/-- Each tally takes the scan for its own combination. -/
theorem getElem?_add {combinations : List PropCombination} {all : CombinationTallies}
    {i : Nat} {tally : CombinationTally} {codebase file : String} {scan : FileScan}
    (htally : all.tallies[i]? = some tally)
    (hcombination : combinations[i]? = some tally.combination) :
    (all.add codebase file (.find scan combinations)).tallies[i]?
      = some (tally.addScan i codebase file scan) := by
  rw [add, getElem?_foldl_modify, getElem?_addInstances, htally]
  simp only [Option.map_some]
  rw [filter_find scan hcombination]
  have hinstances : (FileCombinations.find scan combinations).instanceCounts[i]?
      = some (FileCombinations.instancesOf scan tally.combination).length := by
    rw [FileCombinations.find, List.getElem?_map, hcombination]
    rfl
  rw [hinstances]
  rfl

theorem length_ofScans (combinations : List PropCombination)
    (scans : List (String × String × FileScan)) :
    (ofScans combinations scans).tallies.length = combinations.length := by
  induction scans using List.reverseRecOn with
  | nil => exact List.length_map _
  | append_singleton scans scan ih =>
    rw [ofScans, List.foldl_append]
    exact (length_add _ _ _ _).trans ih

theorem getElem?_ofScans {combinations : List PropCombination} {i : Nat}
    {combination : PropCombination} (h : combinations[i]? = some combination)
    (scans : List (String × String × FileScan)) :
    (ofScans combinations scans).tallies[i]?
      = some (CombinationTally.ofScans i combination scans) := by
  induction scans using List.reverseRecOn with
  | nil =>
    show (combinations.map CombinationTally.empty)[i]? = _
    rw [List.getElem?_map, h]
    rfl
  | append_singleton scans scan ih =>
    obtain ⟨codebase, file, scan⟩ := scan
    have hfields := CombinationTally.ofScans_fields i combination scans
    rw [CombinationTally.ofScans_append, ofScans, List.foldl_append]
    apply getElem?_add ih
    rw [hfields.1, h]

end CombinationTallies

end UsageCensus.Census
