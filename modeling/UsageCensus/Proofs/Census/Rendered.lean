import UsageCensus.Proofs.Census.Ownership
import UsageCensus.Proofs.Census.Surface
import UsageCensus.Proofs.Source.Elements

/-!
# Tags of files that render nothing

The lines of tags and the characters of attributes are shares of the files that render markup. They
are found in these files only, as long as each file with tags has the tag of an element
(`tags_rendered`). Where all tags of a file have other names, or are followed by anything but a
blank, a slash or a `>`, they are counted and their file is left out (`tags_not_rendered`).
-/

namespace UsageCensus.Census

open UsageCensus.Number UsageCensus.Source

variable {tracked : Tracked} {file : SourceFile}

/-- A file that has tags has one of an element. -/
def IsShown (tracked : Tracked) (file : SourceFile) : Prop :=
  openingTags tracked file ≠ [] → ∃ tag ∈ openingTags tracked file, tag.IsElement file.2.2

instance (tracked : Tracked) (file : SourceFile) : Decidable (IsShown tracked file) :=
  inferInstanceAs (Decidable (_ → _))

theorem rendersMarkup_of_isElement {tag : Instance} (htag : tag ∈ openingTags tracked file)
    (h : tag.IsElement file.2.2) : rendersMarkup file.2.2 = true :=
  rendersMarkup_iff.2 ⟨tag.start, h.opensElement (isTraceable_of_mem htag)⟩

theorem openingTags_eq_nil (h : IsShown tracked file) (hnone : rendersMarkup file.2.2 = false) :
    openingTags tracked file = [] := by
  by_contra hne
  obtain ⟨tag, htag, helement⟩ := h hne
  rw [rendersMarkup_of_isElement htag helement] at hnone
  cases hnone

def renderingFiles (files : List SourceFile) : List SourceFile :=
  files.filter fun file => rendersMarkup file.2.2

/-- What tags alone add to is added to by files that render markup. -/
theorem sumOf_renderingFiles {count : SourceFile → Nat} {files : List SourceFile}
    (hcount : ∀ file, openingTags tracked file = [] → count file = 0)
    (h : ∀ file ∈ files, IsShown tracked file) :
    sumOf count (renderingFiles files) = sumOf count files :=
  sumOf_filter fun file hfile hnone => hcount file (openingTags_eq_nil (h file hfile) hnone)

theorem tags_linesOf (h : openingTags tracked file = []) : (linesOf tracked file).tags = 0 := by
  have htags : (linesOf tracked file).tags = (linesOfSpans (.ofText file.2.2)
      ((openingTags tracked file).map fun tag => (tag.start, tag.stop))).length := rfl
  rw [htags, h]
  rfl

theorem props_surfaceOfFile (h : openingTags tracked file = []) :
    (surfaceOfFile tracked file).props = 0 := by
  have hprops : (surfaceOfFile tracked file).props
      = sumOf surfaceOf (openingTags tracked file) := rfl
  rw [hprops, h]
  rfl

/-- A file renders markup where an element opens in it, as each tag of an element does, and of the
tags with names of word characters no other one. If each file with tags has one of an element, the
lines of tags and the characters of attributes are those of the files that render markup, over all
files and in each codebase. -/
theorem tags_rendered (tracked : Tracked) (combinations : List PropCombination)
    (files : List SourceFile) :
    (∀ file ∈ files, (rendersMarkup file.2.2 = true ↔ ∃ i, OpensElement (file.2.2.drop i)) ∧
      ∀ tag ∈ openingTags tracked file, (tag.IsElement file.2.2 → rendersMarkup file.2.2 = true) ∧
        ((∀ c ∈ tag.writtenName file.2.2, Text.isWord c = true) →
          (OpensElement (file.2.2.drop tag.start) ↔ tag.IsElement file.2.2))) ∧
    ∃ census, addFiles (.start tracked combinations Aspect.all) files = .ok census ∧
      census.lines.EachOf Prod.fst (fun files sums => (∀ file ∈ files, IsShown tracked file) →
        sums.tags = sumOf (fun file => (linesOf tracked file).tags) (renderingFiles files)) files ∧
      census.surface.EachOf Prod.fst (fun files sums => (∀ file ∈ files, IsShown tracked file) →
        sums.props = sumOf (fun file => (surfaceOfFile tracked file).props)
          (renderingFiles files)) files := by
  refine ⟨fun file _ => ⟨rendersMarkup_iff, fun tag htag => ⟨rendersMarkup_of_isElement htag,
    Instance.opensElement_iff htag⟩⟩, _, addFiles_start tracked combinations files, ?_, ?_⟩
  · have hsum : (ofFiles tracked combinations files).lines.EachOf Prod.fst (fun files sums =>
        sums.tags = sumOf (fun file => (linesOf tracked file).tags) files) files := by
      apply eachOf_ofMeasures rfl
      intro files sums file hsums
      show sums.tags + (linesOf tracked file).tags = _
      rw [hsums, sumOf_append]
      rfl
    exact hsum.imp fun files sums hsums hshown =>
      hsums.trans (sumOf_renderingFiles (fun _ => tags_linesOf) hshown).symm
  · have hsum : (ofFiles tracked combinations files).surface.EachOf Prod.fst (fun files sums =>
        sums.props = sumOf (fun file => (surfaceOfFile tracked file).props) files) files := by
      apply eachOf_ofMeasures rfl
      intro files sums file hsums
      show sums.props + (surfaceOfFile tracked file).props = _
      rw [hsums, sumOf_append]
      rfl
    exact hsum.imp fun files sums hsums hshown =>
      hsums.trans (sumOf_renderingFiles (fun _ => props_surfaceOfFile) hshown).symm

def rowLibrary : Tracked where
  name := "ui"
  importSources := ["ui"]
  excludeSources := []
  components := ["Row"]
  nodup_components := by decide

/-- A file with the tag of an element, and one without tags. -/
def rowFiles : List SourceFile :=
  [("shop", "Row.tsx", "import { Row } from 'ui'\n<Row a />".toList),
    ("shop", "id.ts", "const id = 1\n".toList)]

theorem tags_rendered_rowFiles :
    (∀ file ∈ rowFiles, IsShown rowLibrary file) ∧
    renderingFiles rowFiles = rowFiles.take 1 ∧
    ∃ census, addFiles (.start rowLibrary [] Aspect.all) rowFiles = .ok census ∧
      census.lines.overall.tags = 1 ∧ census.surface.overall.props = 4 := by
  obtain ⟨-, census, hcensus, hlines, hsurface⟩ := tags_rendered rowLibrary [] rowFiles
  have hshown : ∀ file ∈ rowFiles, IsShown rowLibrary file := by decide +kernel
  have hrendering : renderingFiles rowFiles = rowFiles.take 1 := by decide +kernel
  have htags := hlines.overall hshown
  have hprops := hsurface.overall hshown
  rw [hrendering] at htags hprops
  exact ⟨hshown, hrendering, census, hcensus, htags.trans (by decide +kernel),
    hprops.trans (by decide +kernel)⟩

def spreadFile : SourceFile :=
  ("shop", "Row.tsx", "import \x7b Row \x7d from 'ui'\n<Row\x7b...props\x7d/>".toList)

/-- The tag is found and counted, and its file renders nothing. -/
theorem tags_not_rendered :
    (openingTags rowLibrary spreadFile).length = 1 ∧ rendersMarkup spreadFile.2.2 = false ∧
    ∃ census, addFiles (.start rowLibrary [] Aspect.all) [spreadFile] = .ok census ∧
      census.lines.overall.tags = 1 ∧ census.lines.overall.markupLines = 0 ∧
      census.surface.overall.props = 11 ∧ census.surface.overall.markupChars = 0 := by
  have hlines : (ofFiles rowLibrary [] [spreadFile]).lines.overall.tags = 1 ∧
      (ofFiles rowLibrary [] [spreadFile]).lines.overall.markupLines = 0 := by decide +kernel
  have hsurface : (ofFiles rowLibrary [] [spreadFile]).surface.overall.props = 11 ∧
      (ofFiles rowLibrary [] [spreadFile]).surface.overall.markupChars = 0 := by decide +kernel
  exact ⟨by decide +kernel, by decide +kernel, _, addFiles_start rowLibrary [] [spreadFile],
    hlines.1, hlines.2, hsurface.1, hsurface.2⟩

end UsageCensus.Census
