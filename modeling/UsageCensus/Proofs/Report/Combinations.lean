import UsageCensus.Proofs.Attempts
import UsageCensus.Proofs.Census.Combinations
import UsageCensus.Report.Sheet

/-!
# The sheet of a prop combination

The document about a combination shows a list of values as an object, by prop, and its sheet reads
the lists back from the objects. A prop that is listed twice has one member there, and still the
lists come back (`keyOf_entry`), since every list of values is read off the props. So the sheet
has one row for each list of values (`rows_addUp`), and its rows are the tally's own
(`combinations_summary`).
-/

namespace UsageCensus

theorem Document.member_of_lookup {members : List (String × Document)} {key : String}
    {value : Document} (h : members.lookup key = some value) :
    (Document.object members).member key = .ok value := by
  rw [member, h]

namespace Report

/-! ## Texts as keys -/

theorem sameKeys_texts (values values' : List String) :
    sameKeys (values.map .string) (values'.map .string) = (values == values') := by
  induction values generalizing values' with
  | nil => cases values' <;> rfl
  | cons value values ih =>
    cases values' with
    | nil => rfl
    | cons value' values' =>
      rw [List.map_cons, List.map_cons, sameKeys, ih, List.cons_beq_cons]
      rfl

theorem checkKey_texts (values : List String) : checkKey (values.map .string) = .ok () := by
  rw [checkKey, List.all_map]
  exact if_pos (List.all_eq_true.2 fun _ _ => rfl)

theorem map_cell_string (texts : List String) : (texts.map .string).map Csv.cell = texts := by
  rw [List.map_map]
  exact List.map_id texts

theorem cell_ofNat (n : Nat) : Csv.cell (.ofNat n) = toString n := by
  show String.ofList (toString (n : Int)).toList = toString n
  rw [String.ofList_toList]
  rfl

theorem map_cell_ofNat (counts : List Nat) :
    (counts.map .ofNat).map Csv.cell = counts.map toString := by
  rw [List.map_map]
  exact List.map_congr_left fun n _ => cell_ofNat n

end Report

namespace Census.CombinationTally

open UsageCensus.Number UsageCensus.Report

/-! ## Lists of values -/

/-- The values are those of the props, by name. -/
def IsReading (props values : List String) : Prop :=
  ∃ value : String → String, values = props.map value

theorem isReading_combinedValues (tag : Source.Instance) (props : List String) :
    IsReading props (combinedValues tag props) := ⟨_, rfl⟩

/-- An entry of the document: a list of values, by prop, and what is said about it. -/
def entryDocument (combination : PropCombination) (values : List String)
    (more : List (String × Document)) : Document :=
  .object (("values", Document.ofTable .string (valuesOf combination values)) :: more)

/-- The values of an entry come back, also those of props that are listed twice. -/
theorem keyOf_entry {combination : PropCombination} {values : List String}
    (h : IsReading combination.props values) (more : List (String × Document)) :
    keyOf (Document.ofTexts combination.props) (entryDocument combination values more)
      = .ok (values.map .string) := by
  obtain ⟨value, rfl⟩ := h
  have hzip : combination.props.zip (combination.props.map value)
      = combination.props.map fun prop => (prop, value prop) := List.map_prod_left_eq_zip.symm
  have hpart : ∀ prop ∈ combination.props.map Document.string,
      (Document.ofTable Document.string
        (valuesOf combination (combination.props.map value))).part prop
          = .ok (.string (value prop.display)) := by
    intro prop hprop
    obtain ⟨prop, hmem, rfl⟩ := List.mem_map.1 hprop
    have hlookup : ((valuesOf combination (combination.props.map value)).mapValues
        Document.string).get? prop = some (.string (value prop)) := by
      rw [Table.get?_mapValues, valuesOf, hzip, Table.get?_ofPairs_map, if_pos hmem]
      rfl
    exact Document.member_of_lookup hlookup
  show (combination.props.map Document.string).mapM
    (Document.ofTable Document.string
      (valuesOf combination (combination.props.map value))).part = _
  rw [mapM_of_forall hpart, List.map_map, List.map_map]
  rfl

/-! ## Counts -/

/-- Counts of lists of values, as they are read from a document. -/
def savedCounts (counts : Table (List String) Nat) : Counts :=
  (counts.ranked Int.ofNat).map fun entry => (entry.1.map .string, .ofNat entry.2)

theorem ranked_perm (counts : Table (List String) Nat) :
    (counts.ranked Int.ofNat).Perm counts.entries := List.mergeSort_perm _ _

theorem countsOf_rankedDocument {tally : CombinationTally} {counts : Table (List String) Nat}
    (h : ∀ values ∈ counts.keys, IsReading tally.combination.props values) :
    countsOf (Document.ofTexts tally.combination.props) (tally.rankedDocument counts fun _ => [])
      = .ok (savedCounts counts) := by
  show ((counts.ranked Int.ofNat).map fun entry =>
    entryDocument tally.combination entry.1 [("count", .ofNat entry.2)]).mapM _ = _
  rw [List.mapM_map]
  apply mapM_of_forall
  intro entry hmem
  have hkey : entry.1 ∈ counts.keys :=
    List.mem_map.2 ⟨entry, (ranked_perm counts).mem_iff.1 hmem, rfl⟩
  rw [Function.comp_apply, keyOf_entry (h _ hkey)]
  show (checkKey (entry.1.map .string) >>= fun _ => _) = _
  rw [checkKey_texts]
  rfl

/-- A list of values is looked up with its count, or with zero. -/
theorem find_savedCounts (counts : Table (List String) Nat) (values : List String) :
    (savedCounts counts).find (values.map .string) = .ok (.ofNat (counts.getD values 0)) := by
  have hmem : ∀ entry, entry ∈ (counts.ranked Int.ofNat).reverse ↔ entry ∈ counts.entries :=
    fun entry => List.mem_reverse.trans (ranked_perm counts).mem_iff
  have hfind : (savedCounts counts).reverse.find? (fun entry =>
      sameKeys entry.1 (values.map .string))
        = ((counts.ranked Int.ofNat).reverse.find? fun entry => entry.1 == values).map
          fun entry => (entry.1.map .string, .ofNat entry.2) := by
    rw [savedCounts, ← List.map_reverse, List.find?_map]
    simp only [Function.comp_def, sameKeys_texts]
  unfold Counts.find
  rw [checkKey_texts, hfind]
  cases hentry : (counts.ranked Int.ofNat).reverse.find? fun entry => entry.1 == values with
  | none =>
    have hget : counts.get? values = none := by
      rw [Table.get?_eq_none_iff, Table.keys, List.mem_map]
      rintro ⟨entry, hentries, hvalues⟩
      exact List.find?_eq_none.1 hentry entry ((hmem entry).2 hentries) (by simpa using hvalues)
    rw [Table.getD, hget]
    rfl
  | some entry =>
    have hvalues : entry.1 = values := by simpa using List.find?_some hentry
    have hget : counts.get? values = some entry.2 := by
      rw [Table.get?_eq_some_iff, ← hvalues]
      exact (hmem entry).1 (List.mem_of_find?_eq_some hentry)
    rw [Table.getD, hget]
    rfl

/-! ## The sheet -/

/-- All values that a tally counts can be read back, those of each codebase as well. -/
structure IsReadable (tally : CombinationTally) : Prop where
  counts : ∀ values ∈ tally.counts.keys, IsReading tally.combination.props values
  codebase : ∀ codebase, ∀ values ∈ (tally.byCodebase.getD codebase .empty).keys,
    IsReading tally.combination.props values

theorem countsByCodebase_summary {tally : CombinationTally} (h : tally.IsReadable)
    (generatedAt library : String) (codebases : List String) :
    countsByCodebase (tally.summary generatedAt library codebases)
      (Document.ofTexts tally.combination.props) (codebases.eraseDups.map .string)
      = .ok (codebases.eraseDups.map fun codebase =>
        savedCounts (tally.byCodebase.getD codebase .empty)) := by
  unfold countsByCodebase
  rw [List.mapM_map]
  apply mapM_of_forall
  intro codebase hcodebase
  have hlookup : (Table.ofPairs (codebases.map fun codebase =>
      (codebase, tally.codebaseDocument codebase))).get? codebase
        = some (tally.codebaseDocument codebase) := by
    rw [Table.get?_ofPairs_map, if_pos (List.mem_eraseDups.1 hcodebase)]
  have hpart : (Document.ofMembers (codebases.map fun codebase =>
      (codebase, tally.codebaseDocument codebase))).part (.string codebase)
        = .ok (tally.codebaseDocument codebase) := Document.member_of_lookup hlookup
  show (Document.part _ (.string codebase) >>= fun found => _) = _
  rw [hpart]
  show (countsOf _ (tally.rankedDocument (tally.byCodebase.getD codebase .empty) fun _ => [])
    >>= fun counts => _) = _
  rw [countsOf_rankedDocument (h.codebase codebase)]
  rfl

/-- A row of the sheet: how often a list of values occurs, in each column and in total. -/
structure Row where
  values : List String
  counts : List Nat
  total : Nat

/-- A row as it is written. -/
def Row.record (component : String) (row : Row) : List String :=
  component :: row.values ++ row.counts.map toString ++ [toString row.total]

/-- The row of a list of values and its count. -/
def row (tally : CombinationTally) (columns : List String) (entry : List String × Nat) : Row where
  values := entry.1
  counts := columns.map fun codebase => (tally.byCodebase.getD codebase .empty).getD entry.1 0
  total := entry.2

/-- The rows of the sheet, by descending total, with a column for each of the codebases. -/
def rows (tally : CombinationTally) (columns : List String) : List Row :=
  (tally.counts.ranked Int.ofNat).map (tally.row columns)

/-- The names of the columns. -/
def header (tally : CombinationTally) (columns : List String) : List String :=
  "Component" :: tally.combination.props ++ columns ++ ["Total"]

/-- The counts of a list of values in the columns are looked up. -/
theorem mapM_find_savedCounts (tally : CombinationTally) (columns : List String)
    (entry : List String × Nat) :
    (columns.map fun codebase => savedCounts (tally.byCodebase.getD codebase .empty)).mapM
      (fun counts => counts.find (entry.1.map .string))
      = .ok ((tally.row columns entry).counts.map .ofNat) := by
  rw [List.mapM_map, row, List.map_map]
  exact mapM_of_forall fun codebase _ => find_savedCounts _ entry.1

theorem combinationRecord_entry {tally : CombinationTally} (h : tally.IsReadable)
    (generatedAt library : String) (codebases columns : List String)
    {entry : List String × Nat} (hentry : entry ∈ tally.counts.ranked Int.ofNat)
    (more : List (String × Document)) :
    Sheet.combinationRecord (tally.summary generatedAt library codebases)
      (Document.ofTexts tally.combination.props)
      (columns.map fun codebase => savedCounts (tally.byCodebase.getD codebase .empty))
      (entryDocument tally.combination entry.1 (("count", .ofNat entry.2) :: more))
      = .ok (Row.record tally.combination.component (tally.row columns entry)) := by
  have hkey : entry.1 ∈ tally.counts.keys :=
    List.mem_map.2 ⟨entry, (ranked_perm _).mem_iff.1 hentry, rfl⟩
  have hcounts := mapM_find_savedCounts tally columns entry
  unfold Sheet.combinationRecord
  rw [keyOf_entry (h.counts _ hkey)]
  show (List.mapM (fun counts : Counts => counts.find (entry.1.map .string)) _ >>= fun counts =>
    Except.ok (tally.combination.component :: (entry.1.map Document.string).map Csv.cell
      ++ counts.map Csv.cell ++ [Csv.cell (.ofNat entry.2)])) = _
  rw [hcounts, map_cell_string, cell_ofNat]
  show Except.ok (_ ++ ((tally.row columns entry).counts.map Document.ofNat).map Csv.cell ++ _) = _
  rw [map_cell_ofNat]
  rfl

/-- The document lists each codebase once. -/
theorem elements_byCodebase (tally : CombinationTally) (codebases : List String) :
    (Document.ofMembers (codebases.map fun codebase =>
      (codebase, tally.codebaseDocument codebase))).elements
      = .ok (codebases.eraseDups.map .string) := by
  rw [Document.ofMembers, Table.entries_ofPairs_map, Document.elements, List.map_map]
  rfl

/-- The sheet of a combination has its rows, and a column for each codebase once. -/
theorem combinations_summary {tally : CombinationTally} (h : tally.IsReadable)
    (generatedAt library : String) (codebases : List String) :
    Sheet.combinations (tally.summary generatedAt library codebases)
      = .ok (Csv.render (tally.header codebases.eraseDups
        :: (tally.rows codebases.eraseDups).map (Row.record tally.combination.component))) := by
  have helements := elements_byCodebase tally codebases
  have hrecords : ((tally.counts.ranked Int.ofNat).map fun entry =>
      entryDocument tally.combination entry.1 [("count", .ofNat entry.2),
        ("percent_of_matched", .float (percent entry.2 tally.matched))]).mapM
          (Sheet.combinationRecord (tally.summary generatedAt library codebases)
            (Document.ofTexts tally.combination.props)
            (codebases.eraseDups.map fun codebase =>
              savedCounts (tally.byCodebase.getD codebase .empty)))
      = .ok ((tally.rows codebases.eraseDups).map (Row.record tally.combination.component)) := by
    rw [List.mapM_map, rows, List.map_map]
    exact mapM_of_forall fun entry hentry =>
      combinationRecord_entry h generatedAt library codebases _ hentry _
  have hcounts := countsByCodebase_summary h generatedAt library codebases
  have hheader : "Component" :: (tally.combination.props.map Document.string).map Csv.cell
      ++ (codebases.eraseDups.map Document.string).map Csv.cell ++ ["Total"]
        = tally.header codebases.eraseDups := by
    rw [map_cell_string, map_cell_string]
    rfl
  unfold Sheet.combinations
  apply bind_eq_ok.2
  refine ⟨Document.ofTexts tally.combination.props, rfl, ?_⟩
  apply bind_eq_ok.2
  refine ⟨_, rfl, ?_⟩
  apply bind_eq_ok.2
  refine ⟨_, helements, ?_⟩
  apply bind_eq_ok.2
  refine ⟨_, hcounts, ?_⟩
  rw [← hheader]
  exact bind_eq_ok.2 ⟨_, rfl, bind_eq_ok.2 ⟨_, rfl, bind_eq_ok.2 ⟨_, rfl, bind_eq_ok.2
    ⟨_, hrecords, rfl⟩⟩⟩⟩

/-! ## Rows that add up -/

/-- The rows show the matches: one row for each list of values that occurs, with a count for each
column; the columns of a row add up to its total, and the totals to the number of matches. -/
structure AddUp (rows : List Row) (columns : List String) (placed : List PlacedMatch) : Prop where
  nodup : (rows.map Row.values).Nodup
  mem_iff : ∀ values,
    values ∈ rows.map Row.values ↔ ∃ found ∈ placed, found.found.values = values
  counts : ∀ row ∈ rows, row.counts = columns.map fun codebase =>
    placed.countP fun found => found.codebase == codebase && found.found.values == row.values
  total : ∀ row ∈ rows, row.total = placed.countP fun found => found.found.values == row.values
  columns : ∀ row ∈ rows, sumOf id row.counts = row.total
  totals : sumOf Row.total rows = placed.length

variable {tally : CombinationTally} {placed : List PlacedMatch}

/-- The counts of the codebases are all in some column. -/
theorem sum_row (h : tally.IsRecord placed) {columns : List String} (hnodup : columns.Nodup)
    (hcolumns : ∀ found ∈ placed, found.codebase ∈ columns) {entry : List String × Nat}
    (hentry : entry ∈ tally.counts.entries) :
    sumOf id (tally.row columns entry).counts = entry.2 := by
  have hsub : ∀ codebase ∈ tally.byCodebase.keys, codebase ∈ columns := by
    intro codebase hcodebase
    obtain ⟨found, hfound, rfl⟩ := (h.mem_byCodebase codebase).1 hcodebase
    exact hcolumns found hfound
  have hcell : ∀ codebase ∈ columns, (tally.byCodebase.getD codebase .empty).getD entry.1 0
      = ((tally.byCodebase.get? codebase).map fun counts => counts.getD entry.1 0).getD 0 := by
    intro codebase _
    unfold Table.getD
    cases tally.byCodebase.get? codebase <;> rfl
  rw [← Table.getD_of_mem hentry 0, h.counts, ← Table.sumOf_get? _ _ hnodup hsub, row,
    sumOf_map]
  exact sumOf_congr hcell

theorem rows_addUp (h : tally.IsRecord placed) {columns : List String} (hnodup : columns.Nodup)
    (hcolumns : ∀ found ∈ placed, found.codebase ∈ columns) :
    AddUp (tally.rows columns) columns placed := by
  have hperm := ranked_perm tally.counts
  have hvalues : ((tally.rows columns).map Row.values).Perm tally.counts.keys := by
    rw [rows, List.map_map]
    exact hperm.map Prod.fst
  have hrow : ∀ row ∈ tally.rows columns,
      ∃ entry ∈ tally.counts.entries, tally.row columns entry = row := by
    intro row hrow
    obtain ⟨entry, hentry, rfl⟩ := List.mem_map.1 hrow
    exact ⟨entry, hperm.mem_iff.1 hentry, rfl⟩
  constructor
  case nodup => exact hvalues.nodup_iff.2 tally.counts.nodup_keys
  case mem_iff => exact fun values => hvalues.mem_iff.trans (h.mem_counts values)
  case counts =>
    intro row hmem
    obtain ⟨entry, -, rfl⟩ := hrow row hmem
    exact List.map_congr_left fun codebase _ => h.codebaseCount codebase entry.1
  case total =>
    intro row hmem
    obtain ⟨entry, hentry, rfl⟩ := hrow row hmem
    rw [← h.count]
    exact (Table.getD_of_mem hentry 0).symm
  case columns =>
    intro row hmem
    obtain ⟨entry, hentry, rfl⟩ := hrow row hmem
    exact sum_row h hnodup hcolumns hentry
  case totals =>
    rw [← h.matched, h.total, Table.total_eq_sumOf, rows, Table.values,
      sumOf_map, sumOf_map]
    exact sumOf_perm hperm fun entry => entry.2

theorem IsRecord.isReadable (h : tally.IsRecord placed)
    (hplaced : ∀ found ∈ placed, IsReading tally.combination.props found.found.values) :
    tally.IsReadable := by
  have hcounts : ∀ values ∈ tally.counts.keys, IsReading tally.combination.props values := by
    intro values hvalues
    obtain ⟨found, hfound, rfl⟩ := (h.mem_counts values).1 hvalues
    exact hplaced found hfound
  refine ⟨hcounts, fun codebase values hvalues => ?_⟩
  rw [Table.getD] at hvalues
  cases hget : tally.byCodebase.get? codebase with
  | none =>
    rw [hget] at hvalues
    cases hvalues
  | some counts =>
    rw [hget] at hvalues
    exact hcounts values (h.mem_codebase codebase counts hget values hvalues)

theorem mem_placedAt {index : Nat} {combination : PropCombination}
    {scans : List (String × String × Source.FileScan)} {found : PlacedMatch}
    (h : found ∈ placedAt index combination scans) :
    (∃ scan ∈ scans, found.codebase = scan.1) ∧
      IsReading combination.props found.found.values := by
  obtain ⟨⟨codebase, file, scan⟩, hscan, hfound⟩ := List.mem_flatMap.1 h
  obtain ⟨m, hm, rfl⟩ := List.mem_map.1 hfound
  obtain ⟨tag, -, hmatch⟩ := List.mem_filterMap.1 hm
  rw [eq_of_match? hmatch]
  exact ⟨⟨_, hscan, rfl⟩, isReading_combinedValues tag combination.props⟩

end Census.CombinationTally

namespace Census.CombinationTallies

open Report CombinationTally

/-- After any scans, each tally counts every match of its own combination once in each place, and
no more matches than there are instances. Its sheet has a row for each list of values, and where
every codebase has a column, nothing is lost on the way to the rows. -/
theorem counted_once (combinations : List PropCombination)
    (scans : List (String × String × Source.FileScan)) (codebases : List String)
    (hcodebases : ∀ scan ∈ scans, scan.1 ∈ codebases) :
    (ofScans combinations scans).tallies.length = combinations.length ∧
      ∀ i combination, combinations[i]? = some combination →
        ∃ tally, (ofScans combinations scans).tallies[i]? = some tally ∧
          tally.combination = combination ∧
          tally.IsRecord (placedAt i combination scans) ∧
          tally.instances = instancesIn combination scans ∧
          tally.matched ≤ tally.instances ∧
          (∀ generatedAt library,
            Sheet.combinations (tally.summary generatedAt library codebases)
              = .ok (Csv.render (tally.header codebases.eraseDups
                :: (tally.rows codebases.eraseDups).map (Row.record combination.component)))) ∧
          AddUp (tally.rows codebases.eraseDups) codebases.eraseDups
            (placedAt i combination scans) := by
  refine ⟨length_ofScans combinations scans, fun i combination hcombination => ?_⟩
  obtain ⟨hfield, hinstances⟩ := ofScans_fields i combination scans
  have hrecord := isRecord_ofScans i combination scans
  have hreadable : (CombinationTally.ofScans i combination scans).IsReadable := by
    apply hrecord.isReadable
    intro found hfound
    rw [hfield]
    exact (mem_placedAt hfound).2
  have hcolumns : ∀ found ∈ placedAt i combination scans, found.codebase ∈ codebases.eraseDups := by
    intro found hfound
    obtain ⟨scan, hscan, hcodebase⟩ := (mem_placedAt hfound).1
    rw [List.mem_eraseDups, hcodebase]
    exact hcodebases scan hscan
  have hnodup : codebases.eraseDups.Nodup := by
    rw [← Table.keys_ofPairs_map fun codebase : String => codebase]
    exact Table.nodup_keys _
  refine ⟨_, getElem?_ofScans hcombination scans, hfield, hrecord, hinstances, ?_, ?_,
    rows_addUp hrecord hnodup hcolumns⟩
  · rw [hrecord.matched, hinstances]
    exact length_placedAt_le i combination scans
  · intro generatedAt library
    rw [combinations_summary hreadable, hfield]

/-- A combination that lists one prop twice. -/
def toneTwice : PropCombination := ⟨"Button", ["tone", "tone"]⟩

/-- Scans of two codebases with three buttons, two of which have a tone. -/
def toneScans : List (String × String × Source.FileScan) :=
  [("shop", "Cart.tsx", ⟨.empty, [⟨"Button", [⟨"tone", "\"red\""⟩], 1, 0, 7, 20⟩]⟩),
    ("desk", "Home.tsx", ⟨.empty, [⟨"Button", [], 1, 0, 7, 8⟩,
      ⟨"Button", [⟨"tone", "\"red\""⟩], 2, 9, 16, 29⟩]⟩)]

theorem counted_once_toneScans : (∀ scan ∈ toneScans, scan.1 ∈ ["shop", "desk"]) ∧
    ∃ tally, (ofScans [toneTwice] toneScans).tallies[0]? = some tally ∧
      tally.matched = 2 ∧ tally.instances = 3 ∧
      AddUp (tally.rows ["shop", "desk"]) ["shop", "desk"] (placedAt 0 toneTwice toneScans) := by
  have hcodebases : ∀ scan ∈ toneScans, scan.1 ∈ ["shop", "desk"] := by decide
  obtain ⟨-, htallies⟩ := counted_once [toneTwice] toneScans ["shop", "desk"] hcodebases
  obtain ⟨tally, htally, -, hrecord, hinstances, -, -, hrows⟩ := htallies 0 toneTwice rfl
  have hplaced : (placedAt 0 toneTwice toneScans).length = 2 := by decide +kernel
  refine ⟨hcodebases, tally, htally, hrecord.matched.trans hplaced, hinstances, ?_⟩
  exact hrows

end Census.CombinationTallies

end UsageCensus
