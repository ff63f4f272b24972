import UsageCensus.Proofs.Census.Customizations
import UsageCensus.Proofs.Census.TagCounts
import UsageCensus.Proofs.Orderless

/-!
# Files in any order

Two censuses are alike if they count the same, in whatever order keys, references and samples
came (`Census.Alike`). The same files make censuses that are alike in any order
(`counted_alike_of_perm`). The sums and the tallies take files in steps that come to the same in
either order; a report is what its imports and its instances make of it.
-/

namespace UsageCensus.Census

open UsageCensus.Number UsageCensus.Source

/-! ## Reports -/

structure PropUsage.Alike (usage usage' : PropUsage) : Prop where
  values : usage.values.Alike Eq usage'.values
  total : usage.total = usage'.total
  applied : usage.applied = usage'.applied

theorem PropUsage.isOrderless_add : IsOrderless PropUsage.Alike PropUsage.add where
  refl usage := ⟨IsOrderless.add.refl usage.values, rfl, rfl⟩
  trans h h' := ⟨IsOrderless.add.trans h.values h'.values, h.total.trans h'.total,
    h.applied.trans h'.applied⟩
  step key h := ⟨IsOrderless.add.step (key, 1) h.values, congrArg (· + 1) h.total, h.applied⟩
  swap usage key key' := ⟨IsOrderless.add.swap usage.values (key, 1) (key', 1), rfl, rfl⟩

theorem usageOf_perm {attributes attributes' : List Attribute} (h : attributes.Perm attributes') :
    (usageOf attributes).Alike PropUsage.Alike (usageOf attributes') := by
  have hadd := PropUsage.isOrderless_add.on fun a : Attribute => PropValue.aggregationKey a.value
  exact (hadd.update Attribute.name .empty).foldl_perm h .empty

/-- The same counts and props, and the same references in some order. -/
structure ComponentReport.Alike (report report' : ComponentReport) : Prop where
  component : report.component = report'.component
  imports : report.imports = report'.imports
  instances : report.instances = report'.instances
  props : report.props.Alike PropUsage.Alike report'.props
  codebaseImports : report.codebaseImports.Alike Eq report'.codebaseImports
  codebaseInstances : report.codebaseInstances.Alike Eq report'.codebaseInstances
  references : report.references.Perm report'.references
  defaultUsages : report.defaultUsages = report'.defaultUsages

theorem ComponentReport.ofTags_perm (component : String) {importers importers' : List String}
    (himporters : importers.Perm importers') {tags tags' : List PlacedTag}
    (htags : tags.Perm tags') :
    (ofTags component importers tags).Alike (ofTags component importers' tags') where
  component := rfl
  imports := himporters.length_eq
  instances := htags.length_eq
  props := usageOf_perm (htags.flatMap_right _)
  codebaseImports := Table.tally_perm himporters
  codebaseInstances := Table.tally_perm (htags.map _)
  references := htags.map _
  defaultUsages := rfl

theorem ComponentReports.ofScans_perm {components : List String}
    {scans scans' : List (String × String × FileScan)} (hperm : scans.Perm scans')
    (h : ∀ scan ∈ scans, IsTracked components scan.2.2) :
    Table.Alike ComponentReport.Alike (ofScans components scans) (ofScans components scans') := by
  have h' : ∀ scan ∈ scans', IsTracked components scan.2.2 := fun scan hscan =>
    h scan (hperm.mem_iff.2 hscan)
  intro component
  rw [get?_ofScans h, get?_ofScans h']
  by_cases hcomponent : component ∈ components
  · rw [if_pos hcomponent, if_pos hcomponent]
    have himporters : (importersOf component scans).Perm (importersOf component scans') :=
      (hperm.filter _).map _
    have htags : (tagsOf component (allTags scans)).Perm (tagsOf component (allTags scans')) :=
      (hperm.flatMap_right _).filter _
    exact .some (ComponentReport.ofTags_perm component himporters htags)
  · rw [if_neg hcomponent, if_neg hcomponent]
    exact .none

/-! ## Totals -/

section

variable {τ ρ : Type} [Totals τ ρ] {alike : τ → τ → Prop}

/-- The sums of each codebase and those of all files are alike. -/
structure Breakdown.Alike (alike : τ → τ → Prop) (totals totals' : Breakdown τ) : Prop where
  byCodebase : totals.byCodebase.Alike alike totals'.byCodebase
  overall : alike totals.overall totals'.overall

theorem Breakdown.isOrderless_add (h : IsOrderless alike (Totals.add : τ → ρ → τ)) :
    IsOrderless (Breakdown.Alike alike) fun (totals : Breakdown τ) (found : String × ρ) =>
      totals.add found.1 found.2 :=
  have hcodebase := (h.on Prod.snd).update Prod.fst Totals.zero
  { refl := fun totals => ⟨hcodebase.refl totals.byCodebase, h.refl totals.overall⟩
    trans := fun h₁ h₂ => ⟨hcodebase.trans h₁.byCodebase h₂.byCodebase,
      h.trans h₁.overall h₂.overall⟩
    step := fun found h₁ => ⟨hcodebase.step found h₁.byCodebase, h.step found.2 h₁.overall⟩
    swap := fun totals found found' => ⟨hcodebase.swap totals.byCodebase found found',
      h.swap totals.overall found.2 found'.2⟩ }

theorem ofMeasures_perm (h : IsOrderless alike (Totals.add : τ → ρ → τ))
    {measures measures' : List (String × ρ)} (hperm : measures.Perm measures') :
    (Breakdown.ofMeasures measures : Breakdown τ).Alike alike (Breakdown.ofMeasures measures') :=
  (Breakdown.isOrderless_add h).foldl_perm hperm .empty

/-- Counters are the same, and so are tables. -/
structure AlikeIn (counters : List (τ → Nat)) (tables : List (τ → Table String Nat))
    (sums sums' : τ) : Prop where
  counters : ∀ counter ∈ counters, counter sums = counter sums'
  tables : ∀ table ∈ tables, (table sums).Alike Eq (table sums')

theorem isOrderless_alikeIn {counters : List (τ → Nat)} {tables : List (τ → Table String Nat)}
    (hcounters : ∀ counter ∈ counters, ∃ count : ρ → Nat, IsCounter counter count)
    (htables : ∀ table ∈ tables, table Totals.zero = .empty ∧
      ∃ counted : ρ → Table String Nat, ∀ sums measure,
        table (Totals.add sums measure) = (table sums).addAll (counted measure)) :
    IsOrderless (AlikeIn counters tables) (Totals.add : τ → ρ → τ) where
  refl sums := ⟨fun _ _ => rfl, fun table _ => IsOrderless.addAll.refl (table sums)⟩
  trans h h' := ⟨fun counter hmem => (h.counters counter hmem).trans (h'.counters counter hmem),
    fun table hmem => IsOrderless.addAll.trans (h.tables table hmem) (h'.tables table hmem)⟩
  step measure h := by
    constructor
    · intro counter hmem
      obtain ⟨count, hcount⟩ := hcounters counter hmem
      rw [hcount.add, hcount.add, h.counters counter hmem]
    · intro table hmem
      obtain ⟨-, counted, hcounted⟩ := htables table hmem
      rw [hcounted, hcounted]
      exact IsOrderless.addAll.step (counted measure) (h.tables table hmem)
  swap sums measure measure' := by
    constructor
    · intro counter hmem
      obtain ⟨count, hcount⟩ := hcounters counter hmem
      rw [hcount.add, hcount.add, hcount.add, hcount.add, Nat.add_right_comm]
    · intro table hmem
      obtain ⟨-, counted, hcounted⟩ := htables table hmem
      rw [hcounted, hcounted, hcounted, hcounted]
      exact IsOrderless.addAll.swap (table sums) (counted measure) (counted measure')

end

/-! ## Customizations -/

structure CustomizedComponent.Alike (component component' : CustomizedComponent) : Prop where
  count : component.count = component'.count
  properties : component.properties.Alike Eq component'.properties

theorem CustomizedComponent.isOrderless_add :
    IsOrderless CustomizedComponent.Alike CustomizedComponent.add where
  refl component := ⟨rfl, IsOrderless.addAll.refl component.properties⟩
  trans h h' := ⟨h.count.trans h'.count, IsOrderless.addAll.trans h.properties h'.properties⟩
  step properties h := ⟨congrArg (· + 1) h.count,
    IsOrderless.addAll.step (.tally properties) h.properties⟩
  swap component properties properties' := ⟨rfl,
    IsOrderless.addAll.swap component.properties (.tally properties) (.tally properties')⟩

structure KindTotals.Alike (sums sums' : KindTotals) : Prop where
  count : sums.count = sums'.count
  byComponent : sums.byComponent.Alike CustomizedComponent.Alike sums'.byComponent
  properties : sums.properties.Alike Eq sums'.properties

theorem KindTotals.isOrderless_add :
    IsOrderless KindTotals.Alike fun (sums : KindTotals) (found : String × List String) =>
      sums.add found.1 found.2 :=
  have hcomponent := (CustomizedComponent.isOrderless_add.on Prod.snd).update
    (Prod.fst : String × List String → String) .empty
  { refl := fun sums => ⟨rfl, hcomponent.refl sums.byComponent,
      IsOrderless.addAll.refl sums.properties⟩
    trans := fun h h' => ⟨h.count.trans h'.count, hcomponent.trans h.byComponent h'.byComponent,
      IsOrderless.addAll.trans h.properties h'.properties⟩
    step := fun found h => ⟨congrArg (· + 1) h.count, hcomponent.step found h.byComponent,
      IsOrderless.addAll.step (.tally found.2) h.properties⟩
    swap := fun sums found found' => ⟨rfl, hcomponent.swap sums.byComponent found found',
      IsOrderless.addAll.swap sums.properties (.tally found.2) (.tally found'.2)⟩ }

/-- The same counters, and customizations of each kind that are alike. -/
structure CustomizationTotals.Alike (sums sums' : CustomizationTotals) : Prop where
  counters : ∀ counter ∈ counters, counter sums = counter sums'
  kinds : ∀ kind : CustomizationKind, (kind.totals sums).Alike (kind.totals sums')

theorem CustomizationTotals.isOrderless_add : IsOrderless CustomizationTotals.Alike
    (Totals.add : CustomizationTotals → FileCustomizations → CustomizationTotals) :=
  have hkinds := fun kind : CustomizationKind => KindTotals.isOrderless_add.foldl_of kind.found
  { refl := fun sums => ⟨fun _ _ => rfl, fun kind => (hkinds kind).refl (kind.totals sums)⟩
    trans := fun h h' => ⟨fun counter hmem => (h.counters counter hmem).trans
      (h'.counters counter hmem), fun kind => (hkinds kind).trans (h.kinds kind) (h'.kinds kind)⟩
    step := by
      intro sums sums' file h
      constructor
      · intro counter hmem
        obtain ⟨count, hcount⟩ := exists_isCounter counter hmem
        rw [hcount.add, hcount.add, h.counters counter hmem]
      · intro kind
        rw [kind.totals_add, kind.totals_add]
        exact (hkinds kind).step file (h.kinds kind)
    swap := by
      intro sums file file'
      constructor
      · intro counter hmem
        obtain ⟨count, hcount⟩ := exists_isCounter counter hmem
        rw [hcount.add, hcount.add, hcount.add, hcount.add, Nat.add_right_comm]
      · intro kind
        rw [kind.totals_add, kind.totals_add, kind.totals_add, kind.totals_add]
        exact (hkinds kind).swap (kind.totals sums) file file' }

/-! ## Combinations -/

namespace CombinationTally

/-- The same counts; which samples are kept is left open. -/
structure Alike (tally tally' : CombinationTally) : Prop where
  combination : tally.combination = tally'.combination
  instances : tally.instances = tally'.instances
  matched : tally.matched = tally'.matched
  counts : tally.counts.Alike Eq tally'.counts
  byCodebase : tally.byCodebase.Alike (Table.Alike Eq) tally'.byCodebase

theorem isOrderless_addPlaced : IsOrderless Alike addPlaced :=
  have hcounts := IsOrderless.add.on fun found : PlacedMatch => (found.found.values, 1)
  have hcodebase := hcounts.update PlacedMatch.codebase .empty
  { refl := fun tally => ⟨rfl, rfl, rfl, hcounts.refl tally.counts,
      hcodebase.refl tally.byCodebase⟩
    trans := fun h h' => ⟨h.combination.trans h'.combination, h.instances.trans h'.instances,
      h.matched.trans h'.matched, hcounts.trans h.counts h'.counts,
      hcodebase.trans h.byCodebase h'.byCodebase⟩
    step := fun found h => ⟨h.combination, h.instances, congrArg (· + 1) h.matched,
      hcounts.step found h.counts, hcodebase.step found h.byCodebase⟩
    swap := fun tally found found' => ⟨rfl, rfl, rfl, hcounts.swap tally.counts found found',
      hcodebase.swap tally.byCodebase found found'⟩ }

def withInstances (tally : CombinationTally) (instances : Nat) : CombinationTally :=
  { tally with instances }

theorem foldl_addPlaced_withInstances (placed : List PlacedMatch) (tally : CombinationTally)
    (instances : Nat) :
    placed.foldl addPlaced (tally.withInstances instances)
      = (placed.foldl addPlaced tally).withInstances instances := by
  induction placed generalizing tally with
  | nil => rfl
  | cons found placed ih => exact ih (tally.addPlaced found)

theorem addScan_eq (index : Nat) (tally : CombinationTally) (codebase file : String)
    (scan : FileScan) :
    tally.addScan index codebase file scan
      = ((placedIn index tally.combination codebase file scan).foldl addPlaced tally).withInstances
        (tally.instances + (FileCombinations.instancesOf scan tally.combination).length) :=
  foldl_addPlaced_withInstances _ tally _

/-- A tally is what the instances and the matches of its combination make of it. -/
theorem ofScans_eq (index : Nat) (combination : PropCombination)
    (scans : List (String × String × FileScan)) :
    ofScans index combination scans
      = ((placedAt index combination scans).foldl addPlaced (.empty combination)).withInstances
        (instancesIn combination scans) := by
  induction scans using List.reverseRecOn with
  | nil => rfl
  | append_singleton scans scan ih =>
    obtain ⟨codebase, file, scan⟩ := scan
    obtain ⟨hcombination, hinstances⟩ := ofScans_fields index combination scans
    have hplaced : placedAt index combination (scans ++ [(codebase, file, scan)])
        = placedAt index combination scans ++ placedIn index combination codebase file scan := by
      rw [placedAt, List.flatMap_append, List.flatMap_singleton]
      rfl
    have hcount : instancesIn combination (scans ++ [(codebase, file, scan)])
        = instancesIn combination scans
          + (FileCombinations.instancesOf scan combination).length := by
      rw [instancesIn, sumOf_append]
      rfl
    rw [ofScans_append, addScan_eq, hcombination, hinstances, ih, foldl_addPlaced_withInstances,
      hplaced, hcount, List.foldl_append]
    rfl

theorem ofScans_perm (index : Nat) (combination : PropCombination)
    {scans scans' : List (String × String × FileScan)} (hperm : scans.Perm scans') :
    (ofScans index combination scans).Alike (ofScans index combination scans') := by
  have hinstances : instancesIn combination scans = instancesIn combination scans' :=
    sumOf_perm hperm _
  have hplaced : (placedAt index combination scans).Perm (placedAt index combination scans') :=
    hperm.flatMap_right _
  have halike := isOrderless_addPlaced.foldl_perm hplaced (.empty combination)
  rw [ofScans_eq, ofScans_eq]
  exact ⟨halike.combination, hinstances, halike.matched, halike.counts, halike.byCodebase⟩

end CombinationTally

theorem CombinationTallies.ofScans_perm (combinations : List PropCombination)
    {scans scans' : List (String × String × FileScan)} (hperm : scans.Perm scans') :
    List.Forall₂ CombinationTally.Alike (ofScans combinations scans).tallies
      (ofScans combinations scans').tallies := by
  have hlength := length_ofScans combinations scans
  have hlength' := length_ofScans combinations scans'
  rw [List.forall₂_iff_get]
  refine ⟨hlength.trans hlength'.symm, fun i hi hi' => ?_⟩
  have hcombination : combinations[i]? = some combinations[i] := List.getElem?_eq_getElem _
  have hget := getElem?_ofScans hcombination scans
  have hget' := getElem?_ofScans hcombination scans'
  rw [List.getElem?_eq_getElem hi, Option.some.injEq] at hget
  rw [List.getElem?_eq_getElem hi', Option.some.injEq] at hget'
  rw [List.get_eq_getElem, List.get_eq_getElem, hget, hget']
  exact CombinationTally.ofScans_perm i _ hperm

/-! ## Censuses -/

structure Alike (census census' : UsageCensus.Census) : Prop where
  tracked : census.tracked = census'.tracked
  combinations : census.combinations = census'.combinations
  aspects : census.aspects = census'.aspects
  reports : census.inventory.reports.Alike ComponentReport.Alike census'.inventory.reports
  detections : census.inventory.detections = census'.inventory.detections
  customizations : census.customizations.Alike CustomizationTotals.Alike census'.customizations
  lines : census.lines.Alike (AlikeIn LineTotals.counters LineTotals.tables) census'.lines
  surface : census.surface.Alike (AlikeIn SurfaceTotals.counters SurfaceTotals.tables)
    census'.surface
  tallies : List.Forall₂ CombinationTally.Alike census.tallies.tallies census'.tallies.tallies

/-- Files in any order are counted alike. -/
theorem counted_alike_of_perm (tracked : Tracked) (combinations : List PropCombination)
    {files files' : List SourceFile} (h : files.Perm files') :
    ∃ census census',
      addFiles (.start tracked combinations Aspect.all) files = .ok census ∧
      addFiles (.start tracked combinations Aspect.all) files' = .ok census' ∧
      Alike census census' := by
  refine ⟨_, _, addFiles_start tracked combinations files,
    addFiles_start tracked combinations files', ?_⟩
  have hscans : (scansOf tracked files).Perm (scansOf tracked files') := h.map _
  constructor
  case tracked => rfl
  case combinations => rfl
  case aspects => rfl
  case reports => exact ComponentReports.ofScans_perm hscans (isTracked_scansOf tracked files)
  case detections => rfl
  case customizations => exact ofMeasures_perm CustomizationTotals.isOrderless_add (h.map _)
  case lines =>
    exact ofMeasures_perm
      (isOrderless_alikeIn LineTotals.exists_isCounter LineTotals.exists_addAll) (h.map _)
  case surface =>
    exact ofMeasures_perm
      (isOrderless_alikeIn SurfaceTotals.exists_isCounter SurfaceTotals.exists_addAll) (h.map _)
  case tallies => exact CombinationTallies.ofScans_perm combinations hscans

def cardLibrary : Tracked where
  name := "ui"
  importSources := ["ui"]
  excludeSources := []
  components := ["Card", "Box"]
  nodup_components := by decide

def cartFile : SourceFile :=
  ("shop", "Cart.tsx", "import { Card } from 'ui'\n<Card size=\"s\" tone={1} />".toList)

def postFile : SourceFile :=
  ("blog", "Post.tsx", "import { Card } from 'ui'\n<Card tone={2} size=\"m\" />".toList)

/-- The props are met in one order or the other, and counted alike. -/
theorem counted_alike_cartFile_postFile : ∃ census census',
    addFiles (.start cardLibrary [⟨"Card", ["size"]⟩] Aspect.all) [cartFile, postFile]
      = .ok census ∧
    addFiles (.start cardLibrary [⟨"Card", ["size"]⟩] Aspect.all) [postFile, cartFile]
      = .ok census' ∧
    Alike census census' ∧
    census.inventory.reports.values.map (fun report => report.props.keys)
      = [["size", "tone"], []] ∧
    census'.inventory.reports.values.map (fun report => report.props.keys)
      = [["tone", "size"], []] := by
  obtain ⟨census, census', hcensus, hcensus', halike⟩ := counted_alike_of_perm cardLibrary
    [⟨"Card", ["size"]⟩] (List.Perm.swap postFile cartFile [])
  refine ⟨census, census', hcensus, hcensus', halike, ?_⟩
  rw [addFiles_start] at hcensus hcensus'
  cases hcensus
  cases hcensus'
  exact ⟨by decide +kernel, by decide +kernel⟩

end UsageCensus.Census
