import UsageCensus.Proofs.Document.Characters
import UsageCensus.Proofs.Document.Restored
import UsageCensus.Proofs.Files.Fresh

/-!
# Saved reports load back

A value that has been saved at a fresh path is loaded as what it loads as (`loaded_of_saved`): the
file that has been written has the text of this data, and the text is read as the data. A value that
there is no room for is not saved. An integer with more digits than can be written is neither saved
nor loaded, and two halves of a pair are loaded as the character that they are together
(`large_not_loaded`).
-/

namespace UsageCensus

open UsageCensus.Files UsageCensus.Text

namespace Sandbox

variable [Room] {s : Sandbox} {path : Path} {content : ByteArray}

theorem run_storedText? (h : s.disk.find s.here path = .ok (.file content)) :
    run (storedText? path : SandboxM (Option String)) s = (.ok (decode? content), s) := by
  have hkind : s.kindAt path = .ok (some .file) := by
    rw [kindAt, h]
    rfl
  have hread : s.read path = .ok content := by rw [read, h]
  unfold storedText?
  rw [run_bind, run_kindAt, hkind]
  dsimp only
  rw [run_readText?, hread]

/-- What is read from a file that has a text. -/
theorem run_readDocument? {text : String} (h : s.disk.find s.here path = .ok (.file content))
    (htext : decode? content = some text) :
    run (readDocument? path : SandboxM (Surrogates × Option Document)) s
      = ((documentIn? (Document.surrogatesIn text.toList) (some text)).map fun document =>
          (Document.surrogatesIn text.toList, document), s) := by
  unfold readDocument?
  rw [run_bind, run_storedText? h, htext]
  dsimp only
  rw [Option.getD_some, run_bind, run_lift]
  cases documentIn? (Document.surrogatesIn text.toList) (some text) <;> rfl

end Sandbox

namespace Files

open Sandbox Document

variable {s : Sandbox} {path : Path} {surrogates : Surrogates} {value loaded : Document}

section

variable [Room]

/-- One write takes the text of loaded data, there is room to read it, halves of pairs are apart in
it, and if it has surrogates it is read with the characters in their place that it is written
with. -/
structure IsLoadable (surrogates : Surrogates) (loaded : Document) : Prop where
  size : (loaded.renderFileWith surrogates).toUTF8.size ≤ Room.written
  depth : loaded.depth ≤ Room.opened
  apart : ∀ text ∈ loaded.texts, surrogates.IsApart text.toList
  block : surrogates ≠ .none →
    surrogatesIn (loaded.renderFileWith surrogates).toList = surrogates

theorem IsLoadable.surrogatesIn_eq (h : IsLoadable surrogates loaded) (hexact : IsExact loaded) :
    surrogatesIn (loaded.renderFileWith surrogates).toList = surrogates := by
  by_cases hnone : surrogates = .none
  · subst hnone
    exact surrogatesIn_renderFile hexact
  · exact h.block hnone

/-- A text that is saved at a fresh path is all that changes, and is what is read there. -/
theorem exists_run_writeDocument (hpath : s.IsFresh path) (hexact : IsExact loaded)
    (hsaved : value.savedTextWith surrogates = .ok (loaded.renderFileWith surrogates))
    (hsize : (loaded.renderFileWith surrogates).toUTF8.size ≤ Room.written) :
    ∃ disk,
      run (writeDocument surrogates path value : SandboxM Unit) s = (.ok (), s.withDisk disk) ∧
      disk.fileAt? = Function.update s.disk.fileAt? (path.placeFrom s.here)
        (some (loaded.renderFileWith surrogates).toUTF8) ∧
      let text := loaded.renderFileWith surrogates
      run (readDocument? path : SandboxM (Surrogates × Option Document)) (s.withDisk disk)
        = ((documentIn? (surrogatesIn text.toList) (some text)).map fun document =>
          (surrogatesIn text.toList, document), s.withDisk disk) := by
  obtain ⟨disk, hwrite, hfiles, hfind⟩ := hpath.run_writeText (occurIn_none _) hsize
  refine ⟨disk, ?_, hfiles, run_readDocument? hfind (decode?_renderFileWith surrogates hexact)⟩
  unfold writeDocument
  rw [run_bind, run_lift, hsaved]
  exact hwrite

/-- A value that there is room for is saved at any fresh path, where its text is all that changes,
and is then loaded as what it loads as. One that there is no room for is not saved. -/
theorem loaded_of_saved (hpath : s.IsFresh path) (hvalue : LoadsAs surrogates value loaded)
    (hloadable : IsLoadable surrogates loaded) :
    (Room.saving.fits value = true → ∃ disk,
      run (writeDocument surrogates path value : SandboxM Unit) s = (.ok (), s.withDisk disk) ∧
      disk.fileAt? = Function.update s.disk.fileAt? (path.placeFrom s.here)
        (some (loaded.renderFileWith surrogates).toUTF8) ∧
      run (readDocument? path : SandboxM (Surrogates × Option Document)) (s.withDisk disk)
        = (.ok (surrogates, some loaded), s.withDisk disk)) ∧
    (Room.saving.fits value = false →
      run (writeDocument surrogates path value : SandboxM Unit) s = (.error .tooDeep, s)) := by
  constructor
  · intro hroom
    obtain ⟨disk, hwrite, hfiles, hread⟩ := exists_run_writeDocument hpath hvalue.isExact
      (hvalue.savedTextWith_eq hroom surrogates) hloadable.size
    refine ⟨disk, hwrite, hfiles, ?_⟩
    rw [hread, hloadable.surrogatesIn_eq hvalue.isExact, documentIn?,
      hvalue.parseWith_renderFileWith hloadable.depth hloadable.apart]
    rfl
  · intro hroom
    unfold writeDocument
    rw [run_bind, run_lift, hvalue.savedTextWith_tooDeep hroom]

end

theorem namesFrom_tags : (Path.ofText "reports/tags.json").namesFrom emptyMachine.here
    = ["reports", "tags.json"] := by
  decide +kernel

theorem isFresh_tags [Room] (hmade : 2 ≤ Room.made) :
    emptyMachine.IsFresh (.ofText "reports/tags.json") where
  named := by decide +kernel
  direct := by
    rw [namesFrom_tags]
    exact List.forall_mem_cons.2
      ⟨by decide +kernel, List.forall_mem_singleton.2 (by decide +kernel)⟩
  fits := by decide +kernel
  few := by
    rw [namesFrom_tags]
    exact hmade
  isOpen := Tree.isOpen_of_empty
  empty := by
    rw [namesFrom_tags]
    rfl
  draft name hname := by
    rw [namesFrom_tags] at hname ⊢
    obtain rfl : Tree.draftName 0 = name := Option.some.inj hname
    decide +kernel

/-- Characters for private use that stand for surrogates. -/
def privateUse : Surrogates := ⟨57344⟩

/-- A report on tags, of which one has half of a pair in it, and on a detection among others. -/
theorem loaded_of_saved_tags :
    let _ : Room := .ofSize 1000 (by decide)
    let detection : Detection Int := ⟨"Card", "tone", "'a'", .high, "usual", 2, 3⟩
    ∃ tags disk, ofElements privateUse [.string "b", .string "a\ue000"] = .ok tags ∧
      run (writeDocument privateUse (.ofText "reports/tags.json") (.object [("tags", tags),
          ("where", .path (.ofText "src")),
          ("found", .list [.date ⟨2026, 1, 31⟩, detection.record .int])]) : SandboxM Unit)
        emptyMachine = (.ok (), emptyMachine.withDisk disk) ∧
      run (readDocument? (.ofText "reports/tags.json") : SandboxM (Surrogates × Option Document))
        (emptyMachine.withDisk disk)
          = (.ok (privateUse, some (.object [("tags", ofTexts ["a\ue000", "b"]),
            ("where", .string "src"), ("found", .list [.string "2026-01-31",
              .object (fieldsOf detection (.int 2) (.int 3))])])), emptyMachine.withDisk disk) := by
  intro room detection
  let found : List (Document × Document) :=
    [(.date ⟨2026, 1, 31⟩, .string "2026-01-31"),
      (detection.record .int, .object (fieldsOf detection (.int 2) (.int 3)))]
  let members (tags : Document) : List (String × Document × Document) :=
    [("tags", tags, ofTexts ["a\ue000", "b"]), ("where", .path (.ofText "src"), .string "src"),
      ("found", .list (found.map Prod.fst), .list (found.map Prod.snd))]
  have hsorted : ["a\ue000", "b"] = sortedTexts privateUse ["b", "a\ue000"] := by
    refine eq_sortedTexts_iff.2 ⟨?_, by simp [or_comm]⟩
    exact List.pairwise_pair.2 (by decide)
  obtain ⟨hpairwise, hmem⟩ := eq_sortedTexts_iff.1 hsorted
  have htags : ofElements privateUse (["b", "a\ue000"].map .string)
      = .ok (.set (["a\ue000", "b"].map .string)) := by
    rw [ofElements_map_string, ← hsorted]
  have hdate : LoadsAs privateUse (.date ⟨2026, 1, 31⟩) (.string "2026-01-31") :=
    .date ⟨2026, 1, 31⟩
  have hdetection : LoadsAs privateUse (detection.record .int)
      (.object (fieldsOf detection (.int 2) (.int 3))) :=
    .record (.int (by decide +kernel)) (.int (by decide +kernel))
  have hwhere : LoadsAs privateUse (.path (.ofText "src")) (.string "src") := .path (.ofText "src")
  have hfound : LoadsAs privateUse (.list (found.map Prod.fst)) (.list (found.map Prod.snd)) :=
    .list (List.forall_mem_cons.2 ⟨hdate, List.forall_mem_singleton.2 hdetection⟩)
  have hmembers : ∀ m ∈ members (.set (["a\ue000", "b"].map .string)),
      LoadsAs privateUse m.2.1 m.2.2 :=
    List.forall_mem_cons.2 ⟨.set htags hpairwise hmem,
      List.forall_mem_cons.2 ⟨hwhere, List.forall_mem_singleton.2 hfound⟩⟩
  have hvalue := LoadsAs.object (by decide) hmembers
  have hloadable : IsLoadable privateUse
      (.object ((members (.set (["a\ue000", "b"].map .string))).map fun m => (m.1, m.2.2))) :=
    ⟨by decide +kernel, by decide +kernel, by decide +kernel, fun _ => by decide +kernel⟩
  obtain ⟨disk, hwrite, -, hread⟩ :=
    (loaded_of_saved (isFresh_tags (by decide)) hvalue hloadable).1 (by decide +kernel)
  exact ⟨_, disk, htags, hwrite, hread⟩

/-! ## Integers that are too large -/

/-- One more digit than can be written. -/
def largeDigits : List Char := '1' :: List.replicate maxIntegerDigits '0'

theorem mem_largeDigits {c : Char} (h : c ∈ largeDigits) : c = '1' ∨ c = '0' :=
  (List.mem_cons.1 h).imp_right List.eq_of_mem_replicate

theorem isWhole_largeDigits : Document.IsWhole largeDigits where
  digit c hc := by rcases mem_largeDigits hc with rfl | rfl <;> decide
  nonempty := List.cons_ne_nil _ _
  head := .inr (by simp [largeDigits])

theorem length_largeDigits : largeDigits.length = 4301 := by
  rw [largeDigits, List.length_cons, List.length_replicate, maxIntegerDigits]

/-- The file of an integer of these digits. -/
def largeText : String := String.ofList (largeDigits ++ ['\n'])

theorem decode?_largeText : decode? largeText.toUTF8 = some largeText := by
  apply decode?_toUTF8
  rw [largeText, String.toList_ofList, List.mem_append, List.mem_singleton]
  rintro (hc | hc)
  · rcases mem_largeDigits hc with hc | hc <;> cases hc
  · cases hc

/-- A machine with this file. -/
def largeMachine : Sandbox :=
  { emptyMachine with disk := .directory [("large.json", .file largeText.toUTF8)] }

theorem find_large : largeMachine.disk.find largeMachine.here (.ofText "large.json")
    = .ok (.file largeText.toUTF8) := by
  have hnames : (Path.ofText "large.json").namesFrom largeMachine.here = ["large.json"] := by
    decide +kernel
  have hdirect : Tree.AreDirect ["large.json"] := List.forall_mem_singleton.2 (by decide +kernel)
  have hfits : Tree.Obstacle.ofPath? (.ofText "large.json") = none := by decide +kernel
  rw [Tree.find, hfits, hnames]
  exact Tree.reach_of_get? hdirect rfl

/-! ## Values that are too deep -/

/-- Lists inside of each other, around an empty one. -/
def nestedLists : Nat → Document
  | 0 => .list []
  | n + 1 => .list [nestedLists n]

theorem depth_nestedLists (n : Nat) : (nestedLists n).depth = n + 1 := by
  induction n with
  | zero => rfl
  | succ n ih =>
    rw [nestedLists, depth, depthOfItems, depthOfItems, ih]
    omega

theorem isSavable_nestedLists (n : Nat) : (nestedLists n).isSavable = true := by
  induction n with
  | zero => rfl
  | succ n ih => rw [nestedLists, isSavable_list, List.forall_mem_singleton, ih]

/-- An integer with too many digits is not saved, nor is its text loaded; lists too far inside of
each other are not saved; and the two halves of a pair are loaded as one character. -/
theorem large_not_loaded :
    let _ : Room := .ofSize 1000 (by decide)
    (run (writeDocument .none (.ofText "large.json") (.ofNat (Nat.pow 10 maxIntegerDigits)) :
        SandboxM Unit) emptyMachine).1 = .error (.tooManyDigits none) ∧
      (run (readDocument? (.ofText "large.json") : SandboxM (Surrogates × Option Document))
        largeMachine).1 = .error (.tooManyDigits (some 4301)) ∧
      (run (writeDocument .none (.ofText "deep.json") (nestedLists 1000) : SandboxM Unit)
        emptyMachine).1 = .error .tooDeep ∧
      ∃ disk, run (writeDocument privateUse (.ofText "reports/tags.json") (.string "\ue03d\ue600") :
          SandboxM Unit) emptyMachine = (.ok (), emptyMachine.withDisk disk) ∧
        run (readDocument? (.ofText "reports/tags.json") : SandboxM (Surrogates × Option Document))
          (emptyMachine.withDisk disk)
            = (.ok (.none, some (.string "😀")), emptyMachine.withDisk disk) := by
  intro room
  refine ⟨?_, ?_, ?_, ?_⟩
  · unfold writeDocument
    rw [run_bind, run_lift, savedTextWith_tooManyDigits (Nat.le_refl _)]
  · have hlong : maxIntegerDigits < largeDigits.length := by
      rw [length_largeDigits]
      decide
    rw [run_readDocument? find_large decode?_largeText, documentIn?, largeText,
      String.toList_ofList, parseWith_tooManyDigits _ isWhole_largeDigits hlong, length_largeDigits]
    rfl
  · have hroom : Room.saving.fits (nestedLists 1000) = false := by
      refine decide_eq_false (Nat.not_le.2 ?_)
      show 1000 < callsFor (fun _ => 0) (fun _ => 1) (nestedLists 1000)
      rw [callsFor_levels, depth_nestedLists]
      decide
    have hsaved : (nestedLists 1000).savedTextWith .none = .error .tooDeep :=
      bind_eq_error.2 (.inl (saved_tooDeep (isSavable_nestedLists 1000) hroom))
    unfold writeDocument
    rw [run_bind, run_lift, hsaved]
  · have hhalves : LoadsAs privateUse (.string "\ue03d\ue600") (.string "\ue03d\ue600") :=
      .string "\ue03d\ue600"
    obtain ⟨disk, hwrite, -, hread⟩ := exists_run_writeDocument (isFresh_tags (by decide))
      hhalves.isExact (hhalves.savedTextWith_eq (by decide) privateUse) (by decide +kernel)
    exact ⟨disk, hwrite, hread⟩

end Files

end UsageCensus
