import UsageCensus.Proofs.Census.TagCounts
import UsageCensus.Proofs.Source.Traceable

/-!
# How many characters are attributes

The attributes of a tag may hold other tags. A character of a file is counted once for each tag that
it stands among the attributes of (`FileSurface.isSpent_measure`). So the attribute characters are
at most as many as the characters times the depth to which tags are nested (`surface_bounded`), and
where tags are nested there may be more of them than characters (`surface_nested`).
-/

namespace UsageCensus.Census

open UsageCensus.Number UsageCensus.Source

/-! ## The characters of one file -/

/-- How many tags a character stands among the attributes of. -/
def tagsAround (tags : List Instance) (offset : Nat) : Nat :=
  tags.countP fun tag => decide (tag.bodyStart ≤ offset ∧ offset < tag.stop)

theorem countP_between {first stop n : Nat} (h : stop ≤ n) :
    (List.range n).countP (fun offset => decide (first ≤ offset ∧ offset < stop))
      = stop - first := by
  have hperm : ((List.range n).filter fun offset => decide (first ≤ offset ∧ offset < stop)).Perm
      (List.range' first (stop - first)) := by
    apply (List.perm_ext_iff_of_nodup (List.nodup_range.filter _) List.nodup_range').2
    intro offset
    rw [List.mem_filter, List.mem_range, decide_eq_true_iff, List.mem_range'_1]
    omega
  rw [List.countP_eq_length_filter, hperm.length_eq, List.length_range']

theorem sumOf_surfaceOf {tags : List Instance} {n : Nat} (h : ∀ tag ∈ tags, tag.stop ≤ n) :
    sumOf surfaceOf tags = sumOf (tagsAround tags) (List.range n) := by
  have hsurface : ∀ tag ∈ tags, surfaceOf tag = sumOf (fun offset =>
      if decide (tag.bodyStart ≤ offset ∧ offset < tag.stop) then 1 else 0) (List.range n) := by
    intro tag htag
    rw [sumOf_ite, countP_between (h tag htag)]
    rfl
  -- offset by offset instead of tag by tag
  rw [sumOf_congr hsurface, sumOf_comm]
  exact sumOf_congr fun offset _ => sumOf_ite _ tags

/-- No character stands among the attributes of more than `depth` tags. -/
def NestedWithin (depth : Nat) (tags : List Instance) : Prop :=
  ∀ offset, tagsAround tags offset ≤ depth

/-- Each tag ends before the attributes of the next one begin. -/
def Unnested (tags : List Instance) : Prop :=
  tags.Pairwise fun tag later => tag.stop ≤ later.bodyStart

theorem Unnested.nestedWithin {tags : List Instance} (h : Unnested tags) : NestedWithin 1 tags := by
  intro offset
  induction h with
  | nil => exact Nat.zero_le 1
  | @cons tag tags hbehind _ ih =>
    unfold tagsAround at ih ⊢
    rw [List.countP_cons]
    split
    · -- the offset is before the end of this tag, and the later ones begin behind it
      rename_i haround
      obtain ⟨-, hstop⟩ := of_decide_eq_true haround
      have hnone : tags.countP (fun tag => decide (tag.bodyStart ≤ offset ∧ offset < tag.stop))
          = 0 := by
        apply List.countP_eq_zero.2
        intro later hlater hafter
        have hbegin := (of_decide_eq_true hafter).1
        have hend := hbehind later hlater
        omega
      omega
    · exact ih

structure FileSurface.IsSpent (tags : List Instance) (surface : FileSurface) : Prop where
  props : surface.props = sumOf (tagsAround tags) (List.range surface.total)
  bounded : ∀ depth, NestedWithin depth tags → surface.props ≤ depth * surface.total
  unnested : Unnested tags → surface.props ≤ surface.total

theorem FileSurface.isSpent_measure (content : List Char) (tracked : Tracked) :
    (measure content (.ofText content tracked)).IsSpent
      (FileScan.ofText content tracked).instances := by
  have hprops : (measure content (.ofText content tracked)).props
      = sumOf (tagsAround (FileScan.ofText content tracked).instances)
        (List.range content.length) := by
    apply sumOf_surfaceOf
    intro tag htag
    have hcloses := (isTraceable_of_mem htag).closes
    exact Nat.le_of_lt (List.getElem?_eq_some_iff.1 hcloses).1
  have hbounded : ∀ depth, NestedWithin depth (FileScan.ofText content tracked).instances →
      (measure content (.ofText content tracked)).props ≤ depth * content.length := by
    intro depth hnested
    calc (measure content (.ofText content tracked)).props
        = sumOf (tagsAround (FileScan.ofText content tracked).instances)
          (List.range content.length) := hprops
      _ ≤ sumOf (fun _ => depth) (List.range content.length) :=
          sumOf_le_sumOf fun offset _ => hnested offset
      _ = depth * content.length := by rw [sumOf_const, List.length_range]
  refine ⟨hprops, hbounded, fun hunnested => ?_⟩
  have hone := hbounded 1 hunnested.nestedWithin
  rwa [Nat.one_mul] at hone

/-! ## The characters of files -/

def openingTags (tracked : Tracked) (file : SourceFile) : List Instance :=
  (FileScan.ofText file.2.2 tracked).instances

def surfaceOfFile (tracked : Tracked) (file : SourceFile) : FileSurface :=
  .measure file.2.2 (.ofText file.2.2 tracked)

/-- How the attribute characters of files compare with their characters. -/
structure SurfaceTotals.IsSpent (tracked : Tracked) (files : List SourceFile)
    (sums : SurfaceTotals) : Prop where
  props : sums.props = sumOf (fun file =>
    sumOf (tagsAround (openingTags tracked file)) (List.range file.2.2.length)) files
  bounded : ∀ depth, (∀ file ∈ files, NestedWithin depth (openingTags tracked file)) →
    sums.props ≤ depth * sums.chars
  unnested : (∀ file ∈ files, Unnested (openingTags tracked file)) → sums.props ≤ sums.chars

theorem SurfaceTotals.isSpent_zero (tracked : Tracked) :
    (Totals.zero : SurfaceTotals).IsSpent tracked [] :=
  ⟨rfl, fun _ _ => Nat.zero_le _, fun _ => Nat.le_refl 0⟩

theorem SurfaceTotals.IsSpent.add {tracked : Tracked} {files : List SourceFile}
    {sums : SurfaceTotals} (h : sums.IsSpent tracked files) (file : SourceFile) :
    (Totals.add sums (surfaceOfFile tracked file) : SurfaceTotals).IsSpent tracked
      (files ++ [file]) := by
  have hfile : (surfaceOfFile tracked file).IsSpent (openingTags tracked file) :=
    FileSurface.isSpent_measure file.2.2 tracked
  constructor
  case props =>
    show sums.props + (surfaceOfFile tracked file).props = _
    rw [h.props, hfile.props, sumOf_append]
    rfl
  case bounded =>
    intro depth hnested
    show sums.props + (surfaceOfFile tracked file).props
      ≤ depth * (sums.chars + (surfaceOfFile tracked file).total)
    rw [Nat.mul_add]
    apply Nat.add_le_add
    · exact h.bounded depth fun other hother => hnested other (List.mem_append_left _ hother)
    · exact hfile.bounded depth (hnested file (by simp))
  case unnested =>
    intro hunnested
    apply Nat.add_le_add
    · exact h.unnested fun other hother => hunnested other (List.mem_append_left _ hother)
    · exact hfile.unnested (hunnested file (by simp))

/-- The attribute characters of a file, and after any files those of all of them and of each
codebase, are counted once for each tag around them: at most as often as tags are nested, and where
none are, no more than there are characters. -/
theorem surface_bounded (tracked : Tracked) (combinations : List PropCombination)
    (files : List SourceFile) :
    (∀ file ∈ files, (surfaceOfFile tracked file).IsSpent (openingTags tracked file)) ∧
    ∃ census, addFiles (.start tracked combinations Aspect.all) files = .ok census ∧
      census.surface.EachOf Prod.fst (fun files sums => sums.IsSpent tracked files) files := by
  refine ⟨fun file _ => FileSurface.isSpent_measure file.2.2 tracked, _,
    addFiles_start tracked combinations files, ?_⟩
  exact eachOf_ofMeasures (SurfaceTotals.isSpent_zero tracked) (fun _ _ file h => h.add file) files

def letterLibrary : Tracked where
  name := "letters"
  importSources := ["s"]
  excludeSources := []
  components := ["C"]
  nodup_components := by decide

def nestedFile : SourceFile :=
  ("app", "a.tsx",
    "import \x7bC\x7d from 's'\n<C a=\x7b<C a=\x7b<C a=\x7b<C/>\x7d/>\x7d/>\x7d/>".toList)

/-- Four tags in each other's attributes take more characters than there are. -/
theorem surface_nested :
    (surfaceOfFile letterLibrary nestedFile).total = 51 ∧
    (surfaceOfFile letterLibrary nestedFile).props = 58 ∧
    ∃ census, addFiles (.start letterLibrary [] Aspect.all) [nestedFile] = .ok census ∧
      census.surface.overall.chars = 51 ∧ census.surface.overall.props = 58 := by
  have htotal : (surfaceOfFile letterLibrary nestedFile).total = 51 := by decide +kernel
  have hprops : (surfaceOfFile letterLibrary nestedFile).props = 58 := by decide +kernel
  refine ⟨htotal, hprops, _, addFiles_start letterLibrary [] [nestedFile], ?_, ?_⟩
  · show 0 + (surfaceOfFile letterLibrary nestedFile).total = 51
    rw [htotal]
  · show 0 + (surfaceOfFile letterLibrary nestedFile).props = 58
    rw [hprops]

end UsageCensus.Census
