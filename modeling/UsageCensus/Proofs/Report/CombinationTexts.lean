import Mathlib.Data.List.Perm.Subperm
import UsageCensus.Proofs.Document.Saving
import UsageCensus.Proofs.Report.Combinations
import UsageCensus.Report.Outputs

/-!
# The three texts about a prop combination

A combination is reported as a document, as a sheet and as a page. The sheet and the page are
always made; the document is, if the number of instances and the lines of the samples can be
written (`exists_areAbout_iff`), since no other number in it is larger than the first.
-/

namespace UsageCensus.Census.CombinationTally

open UsageCensus.Document UsageCensus.Number UsageCensus.Report

variable {tally : CombinationTally} {placed : List PlacedMatch}

/-! ## Numbers of a tally -/

/-- The number of instances and the lines of the samples can be written. -/
structure IsWritable (tally : CombinationTally) : Prop where
  instances : Text.isWritable tally.instances = true
  lines : ∀ sample ∈ tally.samples, Text.isWritable sample.line = true

instance : Decidable tally.IsWritable :=
  decidable_of_iff (Text.isWritable tally.instances = true ∧
      ∀ sample ∈ tally.samples, Text.isWritable sample.line = true)
    ⟨fun h => ⟨h.1, h.2⟩, fun h => ⟨h.instances, h.lines⟩⟩

theorem le_total {κ : Type} [DecidableEq κ] {counts : Table κ Nat} {entry : κ × Nat}
    (h : entry ∈ counts.entries) : entry.2 ≤ counts.total := by
  rw [← Table.getD_of_mem h 0]
  exact counts.getD_le_total entry.1

namespace IsRecord

theorem size_le (h : tally.IsRecord placed) : tally.counts.size ≤ tally.matched := by
  have hsub : tally.counts.keys ⊆ placed.map fun found => found.found.values := fun values hvalues =>
    List.mem_map.2 ((h.mem_counts values).1 hvalues)
  have hle := (List.Nodup.subperm tally.counts.nodup_keys hsub).length_le
  rwa [List.length_map, List.length_map, ← h.matched] at hle

theorem count_le (h : tally.IsRecord placed) {entry : List String × Nat}
    (hentry : entry ∈ tally.counts.entries) : entry.2 ≤ tally.matched :=
  h.total ▸ le_total hentry

theorem codebase_le (h : tally.IsRecord placed) (codebase : String) :
    (tally.byCodebase.getD codebase .empty).total ≤ tally.matched := by
  unfold Table.getD
  cases hget : tally.byCodebase.get? codebase with
  | none => exact Nat.zero_le _
  | some counts =>
    rw [h.totals]
    exact le_sumOf (Table.mem_values_iff.2 ⟨codebase, hget⟩)

end IsRecord

/-! ## The document -/

section

variable {counts : Table (List String) Nat} {more : Nat → List (String × Document)}

theorem isSavable_rankedDocument
    (hcount : ∀ entry ∈ counts.entries, Text.isWritable entry.2 = true)
    (hmore : ∀ count, ∀ member ∈ more count, member.2.isSavable = true) :
    (tally.rankedDocument counts more).isSavable = true := by
  unfold rankedDocument
  rw [isSavable_list, List.forall_mem_map]
  intro entry hentry
  have hwritable := hcount entry ((ranked_perm counts).mem_iff.1 hentry)
  rw [isSavable_object]
  simpa [hwritable] using hmore entry.2

theorem depth_rankedDocument (hmore : ∀ count, ∀ member ∈ more count, member.2.depth ≤ 1) :
    (tally.rankedDocument counts more).depth ≤ 3 := by
  unfold rankedDocument
  rw [depth_list_le, List.forall_mem_map]
  intro entry _
  rw [depth_object_le]
  simpa using hmore entry.2

end

theorem isSavable_codebaseDocument (h : tally.IsRecord placed)
    (hmatched : Text.isWritable tally.matched = true) (codebase : String) :
    (tally.codebaseDocument codebase).isSavable = true := by
  have htotal : Text.isWritable (tally.byCodebase.getD codebase .empty).total = true :=
    Text.isWritable_of_le hmatched (h.codebase_le codebase)
  have hranked : (tally.rankedDocument (tally.byCodebase.getD codebase .empty)
      fun _ => []).isSavable = true := by
    refine isSavable_rankedDocument (fun entry hentry => ?_) fun count member hmember => ?_
    · exact Text.isWritable_of_le htotal (le_total hentry)
    · cases hmember
  unfold codebaseDocument
  simp [htotal, hranked]

/-- No number of the document is larger than that of the instances, but the lines of samples. -/
theorem isSavable_summary_iff (h : tally.IsRecord placed) (hle : tally.matched ≤ tally.instances)
    (generatedAt library : String) (codebases : List String) :
    (tally.summary generatedAt library codebases).isSavable = true ↔ tally.IsWritable := by
  constructor
  · intro hsaved
    simp only [summary, isSavable_object, List.forall_mem_cons, isSavable_ofNat, isSavable_list,
      List.forall_mem_map, sampleDocument] at hsaved
    exact ⟨hsaved.2.2.2.2.1,
      fun sample hsample => (hsaved.2.2.2.2.2.2.2.2.2.1 sample hsample).2.2.1⟩
  · intro hwritable
    have hmatched := Text.isWritable_of_le hwritable.instances hle
    have hsize := Text.isWritable_of_le hmatched h.size_le
    have hcombinations : (tally.rankedDocument tally.counts fun count =>
        [("percent_of_matched", .float (percent count tally.matched))]).isSavable = true := by
      refine isSavable_rankedDocument (fun entry hentry => ?_) fun count => by simp
      exact Text.isWritable_of_le hmatched (h.count_le hentry)
    have hcodebases : (Document.ofMembers (codebases.map fun codebase =>
        (codebase, tally.codebaseDocument codebase))).isSavable = true := by
      rw [Document.ofMembers, Table.entries_ofPairs_map, isSavable_object, List.forall_mem_map]
      exact fun codebase _ => isSavable_codebaseDocument h hmatched codebase
    have hsamples : (Document.list (tally.samples.map sampleDocument)).isSavable = true := by
      rw [isSavable_list, List.forall_mem_map]
      intro sample hsample
      simp [sampleDocument, hwritable.lines sample hsample]
    unfold summary
    simp [hwritable.instances, hmatched, hsize, hcombinations, hcodebases, hsamples]

theorem depth_summary (tally : CombinationTally) (generatedAt library : String)
    (codebases : List String) :
    (tally.summary generatedAt library codebases).depth ≤ fewLevels := by
  have hcombinations : (tally.rankedDocument tally.counts fun count =>
      [("percent_of_matched", .float (percent count tally.matched))]).depth ≤ 6 + 1 :=
    Nat.le_trans (depth_rankedDocument fun count => by simp) (by decide)
  have hcodebases : (Document.ofMembers (codebases.map fun codebase =>
      (codebase, tally.codebaseDocument codebase))).depth ≤ 6 + 1 := by
    rw [Document.ofMembers, Table.entries_ofPairs_map, depth_object_le, List.forall_mem_map]
    intro codebase _
    have hranked : (tally.rankedDocument (tally.byCodebase.getD codebase .empty)
        fun _ => []).depth ≤ 4 + 1 :=
      Nat.le_trans (depth_rankedDocument fun _ => by simp) (by decide)
    unfold codebaseDocument
    simp [hranked]
  have hsamples : (Document.list (tally.samples.map sampleDocument)).depth ≤ 6 + 1 := by
    rw [depth_list_le, List.forall_mem_map]
    intro sample _
    simp [sampleDocument]
  unfold summary fewLevels
  simp [hcombinations, hcodebases, hsamples]

/-! ## The page -/

theorem mapM_asText (texts : List String) :
    (texts.map Document.string).mapM Document.asText = .ok texts := by
  have hself : ∀ value ∈ texts.map Document.string, value.asText = .ok value.display := by
    intro value hvalue
    obtain ⟨text, -, rfl⟩ := List.mem_map.1 hvalue
    rfl
  rw [mapM_of_forall hself, List.map_map]
  exact congrArg Except.ok (List.map_id texts)

theorem combinationRow_entry (h : tally.IsReadable) {entry : List String × Nat}
    (hentry : entry ∈ tally.counts.ranked Int.ofNat) (x : Binary64) (rank : Nat) :
    ∃ row, Markdown.combinationRow (Document.ofTexts tally.combination.props)
      (entryDocument tally.combination entry.1
        [("count", .ofNat entry.2), ("percent_of_matched", .float x)]) rank = .ok row := by
  have hkey : entry.1 ∈ tally.counts.keys :=
    List.mem_map.2 ⟨entry, (ranked_perm _).mem_iff.1 hentry, rfl⟩
  unfold Markdown.combinationRow
  rw [keyOf_entry (h.counts _ hkey)]
  exact ⟨_, rfl⟩

theorem codebaseRow_entry (h : tally.IsReadable) {entry : List String × Nat}
    (hentry : entry ∈ tally.counts.ranked Int.ofNat) (columns : List String)
    (more : List (String × Document)) :
    ∃ row, Markdown.codebaseRow (Document.ofTexts tally.combination.props)
      (columns.map fun codebase => savedCounts (tally.byCodebase.getD codebase .empty))
      (entryDocument tally.combination entry.1 (("count", .ofNat entry.2) :: more)) = .ok row := by
  have hkey : entry.1 ∈ tally.counts.keys :=
    List.mem_map.2 ⟨entry, (ranked_perm _).mem_iff.1 hentry, rfl⟩
  refine exists_bind_eq_ok.2 ⟨_, keyOf_entry (h.counts _ hkey) _, ?_⟩
  refine exists_bind_eq_ok.2 ⟨_, mapM_find_savedCounts tally columns entry, ?_⟩
  refine exists_bind_eq_ok.2 ⟨_, mapM_asText _, ?_⟩
  exact ⟨_, rfl⟩

/-- The entries of the document by rank. -/
def entries (tally : CombinationTally) : List Document :=
  (tally.counts.ranked Int.ofNat).map fun entry => entryDocument tally.combination entry.1
    [("count", .ofNat entry.2), ("percent_of_matched", .float (percent entry.2 tally.matched))]

theorem exists_moreLines (h : tally.IsRecord placed)
    (hmatched : Text.isWritable tally.matched = true) :
    ∃ lines, Markdown.moreLines
      (Int.ofNat tally.entries.length - Markdown.listedCombinations) = .ok lines := by
  have hlength : tally.entries.length ≤ tally.matched := by
    rw [entries, List.length_map, (ranked_perm tally.counts).length_eq]
    exact h.size_le
  unfold Markdown.moreLines
  by_cases hmore : Int.ofNat tally.entries.length - Markdown.listedCombinations ≤ 0
  · rw [if_pos hmore]
    exact ⟨_, rfl⟩
  · obtain ⟨more, hmore'⟩ := Int.eq_ofNat_of_zero_le (Int.le_of_lt (Int.not_le.1 hmore))
    have hle : more ≤ tally.matched := by
      have hlisted : Markdown.listedCombinations = 30 := rfl
      simp only [Int.ofNat_eq_natCast] at hmore'
      omega
    rw [if_neg hmore, hmore', if_pos (Text.isWritable_of_le hmatched hle)]
    exact ⟨_, rfl⟩

theorem exists_codebaseLines (h : tally.IsRecord placed) (hreadable : tally.IsReadable)
    (hmatched : Text.isWritable tally.matched = true)
    (generatedAt library : String) (codebases : List String) :
    ∃ lines, Markdown.codebaseLines (tally.summary generatedAt library codebases)
      (Document.ofTexts tally.combination.props) (.list tally.entries)
      Markdown.listedCombinations = .ok lines := by
  have hrows : ∃ rows, (tally.entries.take
      (Document.cutLength Markdown.listedCombinations tally.entries.length)).mapM
        (Markdown.codebaseRow (Document.ofTexts tally.combination.props)
          (codebases.eraseDups.map fun codebase =>
            savedCounts (tally.byCodebase.getD codebase .empty))) = .ok rows := by
    apply exists_mapM
    intro document hdocument
    obtain ⟨entry, hentry, rfl⟩ := List.mem_map.1 (List.mem_of_mem_take hdocument)
    exact codebaseRow_entry hreadable hentry _ _
  obtain ⟨rows, hrows⟩ := hrows
  obtain ⟨more, hmore⟩ := exists_moreLines h hmatched
  unfold Markdown.codebaseLines
  refine exists_bind_eq_ok.2 ⟨_, rfl, ?_⟩
  refine exists_bind_eq_ok.2 ⟨_, elements_byCodebase tally codebases, ?_⟩
  split
  · exact ⟨_, rfl⟩
  · refine exists_bind_eq_ok.2 ⟨_, countsByCodebase_summary hreadable generatedAt library _, ?_⟩
    refine exists_bind_eq_ok.2 ⟨_, mapM_asText _, ?_⟩
    refine exists_bind_eq_ok.2 ⟨_, rfl, ?_⟩
    refine exists_bind_eq_ok.2 ⟨_, rfl, ?_⟩
    refine exists_bind_eq_ok.2 ⟨_, hrows, ?_⟩
    refine exists_bind_eq_ok.2 ⟨_, rfl, ?_⟩
    refine exists_bind_eq_ok.2 ⟨_, hmore, ?_⟩
    exact ⟨_, rfl⟩

/-- The page of a combination is made. -/
theorem exists_page (h : tally.IsRecord placed) (hreadable : tally.IsReadable)
    (hmatched : Text.isWritable tally.matched = true)
    (generatedAt library : String) (codebases : List String) :
    ∃ page, Markdown.combinations (tally.summary generatedAt library codebases)
      Markdown.listedCombinations = .ok page := by
  have hlabel : (Document.ofTexts tally.combination.props).joined Markdown.times
      = .ok (Markdown.times.intercalate tally.combination.props) :=
    bind_eq_ok.2 ⟨_, rfl, bind_eq_ok.2 ⟨_, mapM_asText _, rfl⟩⟩
  have hrows : ∃ rows, tally.entries.zipIdx.mapM (fun placed =>
      Markdown.combinationRow (Document.ofTexts tally.combination.props) placed.1 (placed.2 + 1))
        = .ok rows := by
    apply exists_mapM
    rintro ⟨document, index⟩ hdocument
    obtain ⟨entry, hentry, rfl⟩ := List.mem_map.1 (List.fst_mem_of_mem_zipIdx hdocument)
    exact combinationRow_entry hreadable hentry _ _
  obtain ⟨rows, hrows⟩ := hrows
  obtain ⟨lines, hlines⟩ := exists_codebaseLines h hreadable hmatched generatedAt library codebases
  unfold Markdown.combinations
  refine exists_bind_eq_ok.2 ⟨_, rfl, ?_⟩
  refine exists_bind_eq_ok.2 ⟨Document.ofTexts tally.combination.props, rfl, ?_⟩
  refine exists_bind_eq_ok.2 ⟨_, hlabel, ?_⟩
  refine exists_bind_eq_ok.2 ⟨.list tally.entries, rfl, ?_⟩
  refine exists_bind_eq_ok.2 ⟨_, rfl, ?_⟩
  refine exists_bind_eq_ok.2 ⟨_, rfl, ?_⟩
  refine exists_bind_eq_ok.2 ⟨_, rfl, ?_⟩
  refine exists_bind_eq_ok.2 ⟨_, rfl, ?_⟩
  dsimp only
  split
  · refine exists_bind_eq_ok.2 ⟨_, rfl, ?_⟩
    refine exists_bind_eq_ok.2 ⟨_, rfl, ?_⟩
    refine exists_bind_eq_ok.2 ⟨_, hrows, ?_⟩
    refine exists_bind_eq_ok.2 ⟨_, hlines, ?_⟩
    exact ⟨_, rfl⟩
  · exact ⟨_, rfl⟩

/-! ## The three texts -/

variable [Room]

/-- What is written about a combination: a document, a sheet and a page. -/
structure Texts where
  document : String
  sheet : String
  page : String
  deriving Inhabited

/-- The texts are those about a tally. -/
structure Texts.AreAbout (texts : Texts) (generatedAt library : String) (codebases : List String)
    (tally : CombinationTally) : Prop where
  document : (tally.summary generatedAt library codebases).savedText = .ok texts.document
  sheet : Sheet.combinations (tally.summary generatedAt library codebases) = .ok texts.sheet
  page : Markdown.combinations (tally.summary generatedAt library codebases)
    Markdown.listedCombinations = .ok texts.page

/-- The files of the texts at a path. -/
def Texts.files (texts : Texts) (path : String) : Outputs :=
  [(path ++ ".json", texts.document), (path ++ ".csv", texts.sheet), (path ++ ".md", texts.page)]

theorem combinationOutputs_eq_ok_iff {generatedAt library : String} {codebases : List String}
    {outputs : Outputs} :
    combinationOutputs generatedAt library codebases tally = .ok outputs ↔
      ∃ texts : Texts, texts.AreAbout generatedAt library codebases tally ∧
        outputs = texts.files tally.reportPath := by
  unfold combinationOutputs threeWays
  constructor
  · intro h
    obtain ⟨document, hdocument, h⟩ := bind_eq_ok.1 h
    obtain ⟨sheet, hsheet, h⟩ := bind_eq_ok.1 h
    obtain ⟨page, hpage, h⟩ := bind_eq_ok.1 h
    exact ⟨⟨document, sheet, page⟩, ⟨hdocument, hsheet, hpage⟩, (Except.ok.inj h).symm⟩
  · rintro ⟨texts, h, rfl⟩
    exact bind_eq_ok.2 ⟨_, h.document, bind_eq_ok.2 ⟨_, h.sheet, bind_eq_ok.2 ⟨_, h.page, rfl⟩⟩⟩

/-- A combination is reported if its numbers can be written. -/
theorem exists_areAbout_iff (h : tally.IsRecord placed) (hreadable : tally.IsReadable)
    (hle : tally.matched ≤ tally.instances)
    (generatedAt library : String) (codebases : List String) :
    (∃ texts : Texts, texts.AreAbout generatedAt library codebases tally) ↔ tally.IsWritable := by
  have hsaved := (exists_savedText_iff (tally.depth_summary generatedAt library codebases)).trans
    (isSavable_summary_iff h hle generatedAt library codebases)
  constructor
  · rintro ⟨texts, htexts⟩
    exact hsaved.1 ⟨texts.document, htexts.document⟩
  · intro hwritable
    obtain ⟨document, hdocument⟩ := hsaved.2 hwritable
    obtain ⟨page, hpage⟩ := exists_page h hreadable
      (Text.isWritable_of_le hwritable.instances hle) generatedAt library codebases
    exact ⟨⟨document, _, page⟩, hdocument,
      combinations_summary hreadable generatedAt library codebases, hpage⟩

/-- After any scans a combination is reported if its numbers can be written. -/
theorem exists_areAbout_ofScans_iff (index : Nat) (combination : PropCombination)
    (scans : List (String × String × Source.FileScan))
    (generatedAt library : String) (codebases : List String) :
    (∃ texts : Texts, texts.AreAbout generatedAt library codebases
      (ofScans index combination scans)) ↔ (ofScans index combination scans).IsWritable := by
  obtain ⟨hfield, hinstances⟩ := ofScans_fields index combination scans
  have hrecord := isRecord_ofScans index combination scans
  have hreadable : (ofScans index combination scans).IsReadable := by
    apply hrecord.isReadable
    intro found hfound
    rw [hfield]
    exact (mem_placedAt hfound).2
  apply exists_areAbout_iff hrecord hreadable
  rw [hrecord.matched, hinstances]
  exact length_placedAt_le index combination scans

end UsageCensus.Census.CombinationTally
