import Mathlib.Data.List.Perm.Subperm
import UsageCensus.Proofs.Census.TagCounts
import UsageCensus.Proofs.Number.Percent
import UsageCensus.Proofs.Text.Lines

/-!
# What share of the lines is tracked

The tracked lines of a file are lines of the file (`FileLines.tracked_le_total`). The share is taken
of the lines of the files that render markup, while the tracked lines of other files are counted as
well. So it is at most a hundred percent where no other file has any (`lines_owned`), and may be
above elsewhere (`lines_owned_above_hundred`).
-/

namespace UsageCensus.Census

open UsageCensus.Number UsageCensus.Source UsageCensus.Text

/-! ## The lines of one file -/

theorem mem_linesOfSpans {content : List Char} (hcontent : content ≠ []) {spans : List (Nat × Nat)}
    {line : Nat} (h : line ∈ linesOfSpans (.ofText content) spans) :
    line ∈ List.range' 1 (lineCount content) := by
  obtain ⟨span, -, hline⟩ := List.mem_flatMap.1 (List.mem_eraseDups.1 h)
  obtain ⟨hfirst, hlast⟩ := LineIndex.mem_linesBetween.1 hline
  have hpos := lineNumber_pos content span.1
  have hle := lineNumber_le_lineCount hcontent span.2
  rw [List.mem_range'_1]
  omega

theorem FileLines.tracked_le_total (content : List Char) (tracked : Tracked) :
    (measure content (.ofText content tracked) tracked).tracked
      ≤ (measure content (.ofText content tracked) tracked).total := by
  by_cases hcontent : content = []
  · subst hcontent
    exact Nat.le_refl 0
  · have hsub : ∀ line ∈ (linesOfSpans (.ofText content) (trackedImportSpans content tracked)
        ++ linesOfSpans (.ofText content) ((FileScan.ofText content tracked).instances.map
          fun tag => (tag.start, tag.stop))).eraseDups,
        line ∈ List.range' 1 (lineCount content) := by
      intro line hline
      rcases List.mem_append.1 (List.mem_eraseDups.1 hline) with hline | hline
      · exact mem_linesOfSpans hcontent hline
      · exact mem_linesOfSpans hcontent hline
    have hlength := ((nodup_eraseDups _).subperm hsub).length_le
    rw [List.length_range'] at hlength
    exact hlength

/-! ## The lines of files -/

def linesOf (tracked : Tracked) (file : SourceFile) : FileLines :=
  .measure file.2.2 (.ofText file.2.2 tracked) tracked

/-- Tracked lines of the files that render markup, or of those that do not. -/
def trackedLines (tracked : Tracked) (renders : Bool) (files : List SourceFile) : Nat :=
  sumOf (fun file => (linesOf tracked file).tracked)
    (files.filter fun file => rendersMarkup file.2.2 == renders)

theorem trackedLines_concat (tracked : Tracked) (renders : Bool) (files : List SourceFile)
    (file : SourceFile) :
    trackedLines tracked renders (files ++ [file]) = trackedLines tracked renders files
      + if rendersMarkup file.2.2 = renders then (linesOf tracked file).tracked else 0 := by
  unfold trackedLines
  rw [List.filter_append, sumOf_append, List.filter_singleton]
  by_cases h : rendersMarkup file.2.2 = renders
  · rw [if_pos h, beq_iff_eq.2 h]
    rfl
  · rw [if_neg h, beq_eq_false_iff_ne.2 h]
    rfl

/-- How the tracked lines of files compare with the lines that they are a share of. -/
structure LineTotals.IsOwned (tracked : Tracked) (files : List SourceFile) (sums : LineTotals) :
    Prop where
  total : sums.tracked ≤ sums.lines
  split : sums.tracked = trackedLines tracked true files + trackedLines tracked false files
  rendering : trackedLines tracked true files ≤ sums.markupLines

namespace LineTotals

variable {tracked : Tracked} {files : List SourceFile} {sums : LineTotals}

theorem isOwned_zero (tracked : Tracked) : (Totals.zero : LineTotals).IsOwned tracked [] :=
  ⟨Nat.le_refl 0, rfl, Nat.le_refl 0⟩

theorem IsOwned.add (h : sums.IsOwned tracked files) (file : SourceFile) :
    (Totals.add sums (linesOf tracked file) : LineTotals).IsOwned tracked (files ++ [file]) := by
  obtain ⟨htotal, hsplit, hrendering⟩ := h
  have hfile : (linesOf tracked file).tracked ≤ (linesOf tracked file).total :=
    FileLines.tracked_le_total file.2.2 tracked
  constructor
  case total =>
    show sums.tracked + (linesOf tracked file).tracked ≤ sums.lines + (linesOf tracked file).total
    omega
  case split =>
    show sums.tracked + (linesOf tracked file).tracked = _
    rw [trackedLines_concat, trackedLines_concat]
    cases rendersMarkup file.2.2 with
    | true =>
      rw [if_pos rfl, if_neg (by decide)]
      omega
    | false =>
      rw [if_neg (by decide), if_pos rfl]
      omega
  case rendering =>
    show _ ≤ sums.markupLines + if rendersMarkup file.2.2 then (linesOf tracked file).total else 0
    rw [trackedLines_concat]
    split <;> omega

/-- The share is at most a hundred percent unless there are tracked lines of files that do not
render anything. -/
theorem IsOwned.percent_le (h : sums.IsOwned tracked files)
    (hnone : trackedLines tracked false files = 0) :
    Binary64.hundred.lt (percent sums.tracked sums.markupLines) = false := by
  apply percent_le_hundred
  have hsplit := h.split
  have hrendering := h.rendering
  omega

end LineTotals

/-- After any files the tracked lines, over all files and in each codebase, are lines of the files;
those of the files that render markup are a part of the lines that the share is taken of, and the
share is at most a hundred percent where there are no others. -/
theorem lines_owned (tracked : Tracked) (combinations : List PropCombination)
    (files : List SourceFile) :
    ∃ census, addFiles (.start tracked combinations Aspect.all) files = .ok census ∧
      census.lines.EachOf Prod.fst (fun files sums =>
        sums.IsOwned tracked files ∧
        (trackedLines tracked false files = 0 →
          Binary64.hundred.lt (percent sums.tracked sums.markupLines) = false)) files := by
  refine ⟨_, addFiles_start tracked combinations files, ?_⟩
  have howned : (ofFiles tracked combinations files).lines.EachOf Prod.fst
      (fun files sums => sums.IsOwned tracked files) files :=
    eachOf_ofMeasures (LineTotals.isOwned_zero tracked) (fun _ _ file h => h.add file) files
  exact howned.imp fun files sums h => ⟨h, h.percent_le⟩

def toastLibrary : Tracked where
  name := "ui"
  importSources := ["@sanity/ui"]
  excludeSources := []
  components := ["Toast"]
  nodup_components := by decide

def hooksFile : SourceFile :=
  ("app", "hooks.ts",
    "import { useToast } from '@sanity/ui'\nimport { rem } from '@sanity/ui'".toList)

def boldFile : SourceFile := ("app", "App.tsx", "<b/>".toList)

/-- Two lines of a file that renders nothing are counted as a share of the one line of another. -/
theorem lines_owned_above_hundred : ∃ census,
    addFiles (.start toastLibrary [] Aspect.all) [hooksFile, boldFile] = .ok census ∧
    census.lines.overall.tracked = 2 ∧ census.lines.overall.markupLines = 1 ∧
    Binary64.hundred.lt
      (percent census.lines.overall.tracked census.lines.overall.markupLines) = true := by
  refine ⟨_, addFiles_start toastLibrary [] [hooksFile, boldFile], ?_⟩
  have htracked : (ofFiles toastLibrary [] [hooksFile, boldFile]).lines.overall.tracked = 2 := by
    decide +kernel
  have hmarkup : (ofFiles toastLibrary [] [hooksFile, boldFile]).lines.overall.markupLines = 1 := by
    decide +kernel
  rw [htracked, hmarkup]
  exact ⟨rfl, rfl, by decide +kernel⟩

end UsageCensus.Census
