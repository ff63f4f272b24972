import Mathlib.Data.List.Nodup
import UsageCensus.Census.Customization
import UsageCensus.Proofs.Census.Breakdown

/-!
# Customizations of codebases and of all files

The customizations of a kind are counted three times over: all of them, those of each component,
and those with each property. All files have what the codebases have together (`KindTotals.IsSum`).
The rows of the report come from the codebases again, component by component; they leave out no
customization of a codebase and count none twice (`CustomizationRow.IsAccount`).
-/

namespace UsageCensus.Census

open UsageCensus.Number Breakdown

/-! ## Customizations of one kind -/

namespace KindTotals

variable {sums : KindTotals}

/-- What is known about a component, if it is customized or not. -/
def ofComponent (sums : KindTotals) (component : String) : CustomizedComponent :=
  sums.byComponent.getD component .empty

def counts (sums : KindTotals) : Table String Nat :=
  sums.byComponent.mapValues CustomizedComponent.count

/-- Customizations of one kind are the sum of others. -/
structure IsSum (total : KindTotals) (parts : List KindTotals) : Prop where
  count : total.count = sumOf KindTotals.count parts
  properties : total.properties.IsSum (parts.map KindTotals.properties)
  counts : total.counts.IsSum (parts.map KindTotals.counts)
  ofComponent : ∀ component, (total.ofComponent component).properties.IsSum
    (parts.map fun part => (part.ofComponent component).properties)

theorem ofComponent_add (sums : KindTotals) (component c : String) (properties : List String) :
    (sums.add component properties).ofComponent c
      = if c = component then (sums.ofComponent c).add properties else sums.ofComponent c := by
  unfold ofComponent Table.getD add
  rw [Table.get?_update]
  by_cases h : c = component
  · rw [if_pos h, if_pos h, h]
    rfl
  · rw [if_neg h, if_neg h]

theorem getD_counts (sums : KindTotals) (component : String) :
    sums.counts.getD component 0 = (sums.ofComponent component).count := by
  unfold counts ofComponent Table.getD
  rw [Table.get?_mapValues]
  cases sums.byComponent.get? component <;> rfl

theorem keys_counts (sums : KindTotals) : sums.counts.keys = sums.byComponent.keys :=
  Table.keys_mapValues _ _

/-- Each customization is one of a component. -/
def IsComplete (sums : KindTotals) : Prop := sums.count = sums.counts.total

theorem isComplete_iff :
    sums.IsComplete ↔ sums.count = sumOf CustomizedComponent.count sums.byComponent.values := by
  unfold IsComplete counts
  rw [Table.total_eq_sumOf, Table.values_mapValues, sumOf_map]
  rfl

theorem IsComplete.add (h : sums.IsComplete) (component : String) (properties : List String) :
    (sums.add component properties).IsComplete := by
  rw [isComplete_iff] at h ⊢
  have hcount : sumOf CustomizedComponent.count (sums.add component properties).byComponent.values
      = sumOf CustomizedComponent.count sums.byComponent.values + 1 := by
    apply Table.sumOf_update_of_add
    cases sums.byComponent.get? component <;> rfl
  rw [hcount, ← h]
  rfl

end KindTotals

/-! ## Files -/

namespace CustomizationKind

/-- The customizations of a kind in a file: components and properties. -/
def found : CustomizationKind → FileCustomizations → List (String × List String)
  | inline, file => file.inline.map fun style => (style.component, style.properties)
  | styled, file => file.styled.map fun usage => (usage.target.component, usage.properties)

theorem totals_add (kind : CustomizationKind) (sums : CustomizationTotals)
    (file : FileCustomizations) :
    kind.totals (Totals.add sums file)
      = (kind.found file).foldl (fun totals found => totals.add found.1 found.2)
        (kind.totals sums) := by
  cases kind with
  | inline =>
    rw [found, List.foldl_map]
    rfl
  | styled =>
    rw [found, List.foldl_map]
    rfl

theorem totals_zero (kind : CustomizationKind) :
    kind.totals (Totals.zero : CustomizationTotals) = .empty := by
  cases kind <;> rfl

/-- What each customization of a kind adds to, each file adds to. -/
theorem isCounter (kind : CustomizationKind) (counter : KindTotals → Nat)
    {count : String × List String → Nat} (hzero : counter .empty = 0)
    (hadd : ∀ sums found, counter (sums.add found.1 found.2) = counter sums + count found) :
    IsCounter (fun sums : CustomizationTotals => counter (kind.totals sums))
      fun file => sumOf count (kind.found file) where
  zero := by rw [kind.totals_zero, hzero]
  add sums file := by
    rw [kind.totals_add]
    generalize kind.totals sums = totals
    induction kind.found file generalizing totals with
    | nil => rfl
    | cons found rest ih =>
      rw [List.foldl_cons, ih, hadd, sumOf]
      omega

theorem isCounter_count (kind : CustomizationKind) :
    IsCounter (fun sums : CustomizationTotals => (kind.totals sums).count)
      fun file => sumOf (fun _ => 1) (kind.found file) :=
  kind.isCounter KindTotals.count rfl fun _ _ => rfl

theorem isMark (kind : CustomizationKind) (mark : KindTotals → Prop)
    {marked : String × List String → Prop} (hzero : ¬mark .empty)
    (hadd : ∀ sums found, mark (sums.add found.1 found.2) ↔ mark sums ∨ marked found) :
    IsMark (fun sums : CustomizationTotals => mark (kind.totals sums))
      fun file => ∃ found ∈ kind.found file, marked found where
  zero := by rwa [kind.totals_zero]
  add sums file := by
    rw [kind.totals_add]
    generalize kind.totals sums = totals
    induction kind.found file generalizing totals with
    | nil => simp
    | cons found rest ih => rw [List.foldl_cons, ih, hadd, List.exists_mem_cons_iff, or_assoc]

theorem isComplete_add (kind : CustomizationKind) {sums : CustomizationTotals}
    (h : (kind.totals sums).IsComplete) (file : FileCustomizations) :
    (kind.totals (Totals.add sums file)).IsComplete := by
  rw [kind.totals_add]
  exact List.foldlRecOn _ _ h fun totals h found _ => h.add found.1 found.2

theorem isSum_of_counters (kind : CustomizationKind) (table : KindTotals → Table String Nat)
    {count : String → String × List String → Nat} {has : String → String × List String → Prop}
    (hempty : table .empty = .empty)
    (hcounts : ∀ sums found key, (table (sums.add found.1 found.2)).getD key 0
      = (table sums).getD key 0 + count key found)
    (hkeys : ∀ sums found key, key ∈ (table (sums.add found.1 found.2)).keys
      ↔ key ∈ (table sums).keys ∨ has key found)
    (files : List (String × FileCustomizations)) :
    (table (kind.totals (ofMeasures files : Breakdown CustomizationTotals).overall)).IsSum
      (((ofMeasures files : Breakdown CustomizationTotals).byCodebase.values.map
        kind.totals).map table) := by
  have hcounter : ∀ key, IsCounter
      (fun sums : CustomizationTotals => (table (kind.totals sums)).getD key 0)
      fun file => sumOf (count key) (kind.found file) := by
    intro key
    apply kind.isCounter fun totals => (table totals).getD key 0
    · rw [hempty]
      rfl
    · exact fun sums found => hcounts sums found key
  have hmark : ∀ key, IsMark
      (fun sums : CustomizationTotals => key ∈ (table (kind.totals sums)).keys)
      fun file => ∃ found ∈ kind.found file, has key found := by
    intro key
    apply kind.isMark fun totals => key ∈ (table totals).keys
    · rw [hempty]
      exact List.not_mem_nil
    · exact fun sums found => hkeys sums found key
  rw [List.map_map]
  exact Census.isSum_of_counters hcounter hmark files

theorem isSum (kind : CustomizationKind) (files : List (String × FileCustomizations)) :
    (kind.totals (ofMeasures files : Breakdown CustomizationTotals).overall).IsSum
      ((ofMeasures files : Breakdown CustomizationTotals).byCodebase.values.map kind.totals) where
  count := by
    rw [sumOf_map]
    exact kind.isCounter_count.overall_eq files
  properties := by
    apply kind.isSum_of_counters KindTotals.properties rfl
    · exact fun sums found key => Table.getD_addAll sums.properties (.tally found.2) key
    · exact fun sums found key => Table.mem_keys_addAll
  counts := by
    have hcounts : ∀ (sums : KindTotals) (found : String × List String) (key : String),
        (sums.add found.1 found.2).counts.getD key 0
          = sums.counts.getD key 0 + if key = found.1 then 1 else 0 := by
      intro sums found key
      rw [KindTotals.getD_counts, KindTotals.getD_counts, KindTotals.ofComponent_add]
      split <;> rfl
    have hkeys : ∀ (sums : KindTotals) (found : String × List String) (key : String),
        key ∈ (sums.add found.1 found.2).counts.keys ↔ key ∈ sums.counts.keys ∨ key = found.1 := by
      intro sums found key
      rw [KindTotals.keys_counts, KindTotals.keys_counts]
      exact Table.mem_keys_update
    exact kind.isSum_of_counters KindTotals.counts rfl hcounts hkeys files
  ofComponent component := by
    have hcounts : ∀ (sums : KindTotals) (found : String × List String) (key : String),
        ((sums.add found.1 found.2).ofComponent component).properties.getD key 0
          = (sums.ofComponent component).properties.getD key 0
            + if component = found.1 then (Table.tally found.2).getD key 0 else 0 := by
      intro sums found key
      rw [KindTotals.ofComponent_add]
      split
      · exact Table.getD_addAll (sums.ofComponent component).properties (.tally found.2) key
      · rfl
    have hkeys : ∀ (sums : KindTotals) (found : String × List String) (key : String),
        key ∈ ((sums.add found.1 found.2).ofComponent component).properties.keys
          ↔ key ∈ (sums.ofComponent component).properties.keys
            ∨ component = found.1 ∧ key ∈ (Table.tally found.2).keys := by
      intro sums found key
      rw [KindTotals.ofComponent_add]
      split
      · rename_i h
        simp only [h, true_and]
        exact Table.mem_keys_addAll
      · rename_i h
        simp only [h, false_and, or_false]
    exact kind.isSum_of_counters (fun totals => (totals.ofComponent component).properties) rfl
      hcounts hkeys files

end CustomizationKind

/-! ## All files -/

namespace CustomizationTotals

def counters : List (CustomizationTotals → Nat) :=
  [files, customizedFiles, fun sums => sums.inline.count, fun sums => sums.styled.count,
    fun sums => sums.inline.count + sums.styled.count]

/-- What all files have is the sum of what the codebases have. -/
structure IsSum (totals : Breakdown CustomizationTotals) : Prop where
  counters : ∀ counter ∈ counters,
    counter totals.overall = sumOf counter totals.byCodebase.values
  kinds : ∀ kind : CustomizationKind,
    (kind.totals totals.overall).IsSum (totals.byCodebase.values.map kind.totals)

theorem exists_isCounter : ∀ counter ∈ counters, ∃ count : FileCustomizations → Nat,
    IsCounter counter count := by
  simp only [counters, List.forall_mem_cons]
  have hfiles : IsCounter files fun _ : FileCustomizations => 1 := ⟨rfl, fun _ _ => rfl⟩
  have hcustomized : IsCounter customizedFiles fun file : FileCustomizations =>
      if 0 < file.total then 1 else 0 := ⟨rfl, fun _ _ => rfl⟩
  have hinline := CustomizationKind.inline.isCounter_count
  have hstyled := CustomizationKind.styled.isCounter_count
  exact ⟨⟨_, hfiles⟩, ⟨_, hcustomized⟩, ⟨_, hinline⟩, ⟨_, hstyled⟩, ⟨_, hinline.plus hstyled⟩,
    by simp⟩

theorem isSum (measures : List (String × FileCustomizations)) : IsSum (ofMeasures measures) where
  counters counter h := by
    obtain ⟨count, hcount⟩ := exists_isCounter counter h
    exact hcount.overall_eq measures
  kinds kind := kind.isSum measures

theorem isComplete_byCodebase (measures : List (String × FileCustomizations))
    (kind : CustomizationKind) :
    ∀ sums ∈ (ofMeasures measures : Breakdown CustomizationTotals).byCodebase.values,
      (kind.totals sums).IsComplete := by
  apply forall_byCodebase
  · rw [kind.totals_zero]
    rfl
  · exact fun sums h file => kind.isComplete_add h file

theorem nodup_components (byCodebase : Table String CustomizationTotals) :
    (components byCodebase).Nodup := by
  unfold components
  exact (List.mergeSort_perm _ _).nodup_iff.2 (nodup_eraseDups _)

theorem mem_components {byCodebase : Table String CustomizationTotals} {component : String}
    (kind : CustomizationKind) {sums : CustomizationTotals} (hsums : sums ∈ byCodebase.values)
    (h : component ∈ (kind.totals sums).byComponent.keys) : component ∈ components byCodebase := by
  unfold components
  rw [(List.mergeSort_perm _ _).mem_iff, List.mem_eraseDups]
  apply List.mem_flatMap.2 ⟨sums, hsums, _⟩
  rw [List.mem_append]
  cases kind with
  | inline => exact .inl h
  | styled => exact .inr h

end CustomizationTotals

/-! ## Rows -/

namespace CustomizationRow

variable {byCodebase : Table String CustomizationTotals}

/-- How often a component is customized in a kind. -/
def countOf (component : String) (kind : CustomizationKind) (sums : CustomizationTotals) : Nat :=
  (kind.totals sums).counts.getD component 0

/-- The rows account for the customizations of every codebase. -/
structure IsAccount (byCodebase : Table String CustomizationTotals)
    (rows : List CustomizationRow) : Prop where
  /-- No component has two rows of a kind. -/
  distinct : (rows.map fun row => (row.component, row.kind)).Nodup
  /-- A component has a row of a kind if it is customized in some codebase. -/
  exists_row : ∀ component kind, (∃ row ∈ rows, row.component = component ∧ row.kind = kind)
    ↔ sumOf (countOf component kind) byCodebase.values ≠ 0
  counts : ∀ row ∈ rows, row.counts = byCodebase.mapValues (countOf row.component row.kind)
  total : ∀ row ∈ rows, row.total = sumOf (countOf row.component row.kind) byCodebase.values
  /-- In each codebase the rows of a kind add up to its customizations of that kind. -/
  codebase : ∀ codebase sums, byCodebase.get? codebase = some sums → ∀ kind,
    sumOf (fun row => row.counts.getD codebase 0) (rows.filter fun row => row.kind == kind)
      = (kind.totals sums).count

theorem counts_ofComponent (component : String) (kind : CustomizationKind) :
    (ofComponent byCodebase component kind).counts
      = byCodebase.mapValues (countOf component kind) := by
  unfold ofComponent countOf KindTotals.counts Table.getD
  simp only [Table.get?_mapValues]

theorem total_ofComponent (component : String) (kind : CustomizationKind) :
    (ofComponent byCodebase component kind).total
      = sumOf (countOf component kind) byCodebase.values := by
  rw [total, counts_ofComponent, Table.total_eq_sumOf, Table.values_mapValues, sumOf_map]
  rfl

theorem getD_counts_ofComponent {codebase : String} {sums : CustomizationTotals}
    (h : byCodebase.get? codebase = some sums) (component : String) (kind : CustomizationKind) :
    (ofComponent byCodebase component kind).counts.getD codebase 0 = countOf component kind sums := by
  rw [counts_ofComponent, Table.getD, Table.get?_mapValues, h]
  rfl

/-- The rows of all components, with those that count nothing. -/
def candidates (byCodebase : Table String CustomizationTotals) : List CustomizationRow :=
  (CustomizationTotals.components byCodebase).flatMap fun component =>
    [CustomizationKind.inline, .styled].map (ofComponent byCodebase component)

theorem all_perm (byCodebase : Table String CustomizationTotals) :
    (all byCodebase).Perm ((candidates byCodebase).filter fun row => row.total != 0) :=
  List.mergeSort_perm _ _

theorem mem_candidates {row : CustomizationRow} :
    row ∈ candidates byCodebase ↔ ∃ component ∈ CustomizationTotals.components byCodebase,
      ∃ kind, row = ofComponent byCodebase component kind := by
  unfold candidates
  rw [List.mem_flatMap]
  apply exists_congr
  intro component
  apply and_congr_right
  intro _
  simp only [List.map_cons, List.map_nil, List.mem_cons, List.not_mem_nil, or_false]
  constructor
  · rintro (h | h)
    · exact ⟨.inline, h⟩
    · exact ⟨.styled, h⟩
  · rintro ⟨kind, h⟩
    cases kind with
    | inline => exact .inl h
    | styled => exact .inr h

theorem nodup_candidates (byCodebase : Table String CustomizationTotals) :
    ((candidates byCodebase).map fun row => (row.component, row.kind)).Nodup := by
  have hproduct : (candidates byCodebase).map (fun row => (row.component, row.kind))
      = (CustomizationTotals.components byCodebase).product [.inline, .styled] := by
    rw [candidates, List.map_flatMap]
    rfl
  rw [hproduct]
  exact (CustomizationTotals.nodup_components byCodebase).product (by decide)

theorem filter_candidates (byCodebase : Table String CustomizationTotals)
    (kind : CustomizationKind) :
    (candidates byCodebase).filter (fun row => row.kind == kind)
      = (CustomizationTotals.components byCodebase).map fun component =>
        ofComponent byCodebase component kind := by
  unfold candidates
  induction CustomizationTotals.components byCodebase with
  | nil => rfl
  | cons component components ih =>
    rw [List.flatMap_cons, List.filter_append, ih, List.map_cons]
    cases kind <;> rfl

/-- A row of the report is the row of its component and kind, and counts something. -/
theorem mem_all {row : CustomizationRow} (h : row ∈ all byCodebase) :
    row = ofComponent byCodebase row.component row.kind ∧ row.total ≠ 0 := by
  rw [(all_perm byCodebase).mem_iff, List.mem_filter] at h
  obtain ⟨hrow, htotal⟩ := h
  obtain ⟨component, -, kind, rfl⟩ := mem_candidates.1 hrow
  exact ⟨rfl, bne_iff_ne.1 htotal⟩

theorem exists_mem_all {component : String} {kind : CustomizationKind} :
    (∃ row ∈ all byCodebase, row.component = component ∧ row.kind = kind)
      ↔ sumOf (countOf component kind) byCodebase.values ≠ 0 := by
  constructor
  · rintro ⟨row, hrow, rfl, rfl⟩
    obtain ⟨heq, htotal⟩ := mem_all hrow
    rwa [heq, total_ofComponent] at htotal
  · intro htotal
    obtain ⟨sums, hsums, hcount⟩ := exists_of_sumOf_ne_zero htotal
    have hkey : component ∈ (kind.totals sums).byComponent.keys := by
      by_contra hkey
      rw [← KindTotals.keys_counts] at hkey
      apply hcount
      rw [countOf, Table.getD, Table.get?_eq_none_iff.2 hkey]
      rfl
    refine ⟨ofComponent byCodebase component kind, ?_, rfl, rfl⟩
    rw [(all_perm byCodebase).mem_iff, List.mem_filter, mem_candidates, total_ofComponent]
    exact ⟨⟨component, CustomizationTotals.mem_components kind hsums hkey, kind, rfl⟩,
      bne_iff_ne.2 htotal⟩

/-- Where each customization of a codebase is one of a component, the rows hold all of them. -/
theorem sumOf_all {codebase : String} {sums : CustomizationTotals}
    (hsums : byCodebase.get? codebase = some sums) {kind : CustomizationKind}
    (hcomplete : (kind.totals sums).IsComplete) :
    sumOf (fun row => row.counts.getD codebase 0)
      ((all byCodebase).filter fun row => row.kind == kind) = (kind.totals sums).count := by
  have hmem : sums ∈ byCodebase.values := Table.mem_values_iff.2 ⟨codebase, hsums⟩
  have hempty : ∀ row ∈ candidates byCodebase, (row.total != 0) = false →
      row.counts.getD codebase 0 = 0 := by
    intro row _ htotal
    have hle : row.counts.getD codebase 0 ≤ row.total := row.counts.getD_le_total codebase
    rw [bne_eq_false_iff_eq] at htotal
    omega
  have hkeys : ∀ component ∈ (kind.totals sums).counts.keys,
      component ∈ CustomizationTotals.components byCodebase := by
    intro component hcomponent
    rw [KindTotals.keys_counts] at hcomponent
    exact CustomizationTotals.mem_components kind hmem hcomponent
  calc sumOf (fun row => row.counts.getD codebase 0)
        ((all byCodebase).filter fun row => row.kind == kind)
      = sumOf (fun row => row.counts.getD codebase 0)
          (((candidates byCodebase).filter fun row => row.kind == kind).filter
            fun row => row.total != 0) := by
        rw [sumOf_perm ((all_perm byCodebase).filter _), List.filter_filter, List.filter_filter]
        simp only [Bool.and_comm]
    _ = sumOf (fun row => row.counts.getD codebase 0)
          ((candidates byCodebase).filter fun row => row.kind == kind) :=
        sumOf_filter fun row hrow => hempty row (List.mem_filter.1 hrow).1
    _ = sumOf (fun component => countOf component kind sums)
          (CustomizationTotals.components byCodebase) := by
        rw [filter_candidates, sumOf_map]
        exact sumOf_congr fun component _ => getD_counts_ofComponent hsums component kind
    _ = (kind.totals sums).counts.total := by
        rw [Table.total_eq_sumOf,
          ← Table.sumOf_get? id _ (CustomizationTotals.nodup_components byCodebase) hkeys]
        simp only [countOf, Table.getD, Option.map_id_apply]
    _ = (kind.totals sums).count := hcomplete.symm

theorem isAccount_all (measures : List (String × FileCustomizations)) :
    IsAccount (ofMeasures measures : Breakdown CustomizationTotals).byCodebase
      (all (ofMeasures measures : Breakdown CustomizationTotals).byCodebase) where
  distinct := by
    have hperm := (all_perm (ofMeasures measures : Breakdown CustomizationTotals).byCodebase).map
      fun row => (row.component, row.kind)
    rw [hperm.nodup_iff]
    exact (nodup_candidates _).sublist (List.filter_sublist.map _)
  exists_row component kind := exists_mem_all
  counts row hrow := by
    rw [(mem_all hrow).1, counts_ofComponent]
    rfl
  total row hrow := by
    rw [(mem_all hrow).1, total_ofComponent]
    rfl
  codebase codebase sums hsums kind :=
    sumOf_all hsums (CustomizationTotals.isComplete_byCodebase measures kind sums
      (Table.mem_values_iff.2 ⟨codebase, hsums⟩))

end CustomizationRow

/-- In whatever order the files of several codebases are measured, the totals of all files are the
sums of those of the codebases, and the rows account for every customization. -/
theorem totals_add_up (customizations : List (String × FileCustomizations))
    (lines : List (String × FileLines)) (surfaces : List (String × FileSurface)) :
    CustomizationTotals.IsSum (ofMeasures customizations) ∧
      IsSum LineTotals.counters LineTotals.tables (ofMeasures lines) ∧
      IsSum SurfaceTotals.counters SurfaceTotals.tables (ofMeasures surfaces) ∧
      CustomizationRow.IsAccount
        (ofMeasures customizations : Breakdown CustomizationTotals).byCodebase
        (CustomizationRow.all
          (ofMeasures customizations : Breakdown CustomizationTotals).byCodebase) :=
  ⟨CustomizationTotals.isSum customizations, LineTotals.isSum lines,
    SurfaceTotals.isSum surfaces, CustomizationRow.isAccount_all customizations⟩

end UsageCensus.Census
