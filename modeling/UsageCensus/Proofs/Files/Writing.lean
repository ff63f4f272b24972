import Mathlib.Data.List.Nodup
import UsageCensus.Proofs.Files.Changes
import UsageCensus.Proofs.Sandbox
import UsageCensus.Proofs.Text.Order

/-!
# What becomes of the files where texts are written

Writing a text goes through steps that can fail one by one: the directories above are made, a draft
is made and written, and it takes the place of the file; or else it is removed and the file is
written in place. Whichever of them fails, either the file holds what has been written of the text
and no other file has changed, or no file has changed at all and no draft is left; only a text that
has no bytes leaves its draft (`run_writeText`). So when texts are written in the order of their
names, a fault leaves exactly those before it written (`run_mapM_writeText`).
-/

namespace UsageCensus

open UsageCensus.Files UsageCensus.Text

/-! ## Steps in a sandbox -/

namespace Sandbox

variable {s : Sandbox} {path : Path} {surrogates : Surrogates} {text : String}

@[simp]
theorem withDisk_disk (s : Sandbox) (disk : Tree) : (s.withDisk disk).disk = disk := rfl

@[simp]
theorem withDisk_here (s : Sandbox) (disk : Tree) : (s.withDisk disk).here = s.here := rfl

@[simp]
theorem withDisk_withDisk (s : Sandbox) (disk disk' : Tree) :
    (s.withDisk disk).withDisk disk' = s.withDisk disk' := rfl

theorem run_change (path : Path) (step : Tree → Place → Except Tree.Obstacle Tree) (s : Sandbox) :
    run (change path step) s = match step s.disk s.here with
      | .ok disk => (.ok (), s.withDisk disk)
      | .error obstacle => (.error (obstacle.toFault path), s) := by
  show run (do let sandbox ← get; _) s = _
  rw [run_bind]
  show run (match step s.disk s.here with
    | .ok disk => set (s.withDisk disk)
    | .error obstacle => throw (obstacle.toFault path)) s = _
  cases step s.disk s.here <;> rfl

variable [Room]

theorem run_makeDirectories (path : Path) (s : Sandbox) :
    run (Host.makeDirectories path : SandboxM Unit) s
      = (match (s.disk.makeDirectories Room.made s.here path).2 with
        | some obstacle => .error (obstacle.toFault path)
        | none => .ok (), s.withDisk (s.disk.makeDirectories Room.made s.here path).1) := by
  show run (makeDirectories path) s = _
  unfold makeDirectories
  rw [run_bind]
  show run (do
    set (s.withDisk (s.disk.makeDirectories Room.made s.here path).1)
    match (s.disk.makeDirectories Room.made s.here path).2 with
    | some obstacle => throw (obstacle.toFault path)
    | none => return) s = _
  rcases s.disk.makeDirectories Room.made s.here path with ⟨disk, _ | obstacle⟩ <;> rfl

theorem run_makeDraft (path : Path) (s : Sandbox) :
    run (Host.makeDraft path : SandboxM Path) s = match s.disk.makeDraft s.here path with
      | .ok (disk, draft) => (.ok draft, s.withDisk disk)
      | .error obstacle => (.error (obstacle.toFault path), s) := by
  show run (makeDraft path) s = _
  unfold makeDraft
  rw [run_bind]
  show run (match s.disk.makeDraft s.here path with
    | .ok (disk, draft) => do
      set (s.withDisk disk)
      return draft
    | .error obstacle => throw (obstacle.toFault path)) s = _
  rcases s.disk.makeDraft s.here path with _ | ⟨disk, draft⟩ <;> rfl

theorem run_writeEncoded (h : surrogates.occurIn text.toList = false) (path : Path) (s : Sandbox) :
    run (writeEncoded surrogates path text : SandboxM Unit) s
      = match s.disk.putFile s.here path text.toUTF8 with
        | .ok disk => (.ok (), s.withDisk disk)
        | .error obstacle => (.error (obstacle.toFault path), s) := by
  unfold writeEncoded
  rw [run_bind, run_encodable h]
  exact run_change path _ s

theorem run_writeDraft (h : surrogates.occurIn text.toList = false) (path : Path) (s : Sandbox) :
    run (writeDraft surrogates path text : SandboxM Unit) s
      = match s.disk.putFile s.here path (draftContent text) with
        | .ok disk => (.ok (), s.withDisk disk)
        | .error obstacle => (.error (obstacle.toFault path), s) := by
  unfold writeDraft
  rw [run_bind, run_encodable h]
  exact run_change path _ s

theorem run_moveFile (source target : Path) (s : Sandbox) :
    run (Host.moveFile source target : SandboxM Unit) s
      = match s.disk.moveFile s.here source target with
        | .ok disk => (.ok (), s.withDisk disk)
        | .error obstacle => (.error (obstacle.toFault target), s) :=
  run_change target _ s

theorem run_removeFile (path : Path) (s : Sandbox) :
    run (Host.removeFile path : SandboxM Unit) s = match s.disk.removeFile s.here path with
      | .ok disk => (.ok (), s.withDisk disk)
      | .error obstacle => (.error (obstacle.toFault path), s) :=
  run_change path _ s

end Sandbox

namespace Files

open Sandbox

theorem isFileFault_toFault {obstacle : Tree.Obstacle} (h : obstacle.IsInTree) (path : Path) :
    isFileFault (obstacle.toFault path) = true := by
  cases obstacle with
  | unusable => exact absurd rfl h.1
  | tooDeep => exact absurd rfl h.2
  | _ => rfl

section

variable [Room] {s : Sandbox} {surrogates : Surrogates} {path : Path} {text : String}

/-- What has been written of a text: all of it, or as much as one write takes. -/
def IsTaken (text : String) (content : ByteArray) : Prop :=
  content = text.toUTF8 ∨ Room.written < text.toUTF8.size ∧ content = draftContent text

theorem IsTaken.eq {content : ByteArray} (h : IsTaken text content)
    (hsize : text.toUTF8.size ≤ Room.written) : content = text.toUTF8 := by
  rcases h with h | ⟨hlong, -⟩
  · exact h
  · omega

theorem isTaken_draftContent (text : String) : IsTaken text (draftContent text) := by
  by_cases hsize : Room.written < text.toUTF8.size
  · exact .inr ⟨hsize, rfl⟩
  · have hall : Room.written = max Room.written text.toUTF8.size := by omega
    left
    rw [draftContent, hall, ByteArray.extract_zero_max_size]

/-- How writing a file ends: what has been written of the text is there and no other file has
changed, or no file has changed; but a draft is left for a text that has no bytes. -/
def IsOutcome (surrogates : Surrogates) (before after : Tree) (place : Place) (text : String) :
    Except Fault Unit → Prop
  | .ok _ => surrogates.occurIn text.toList = false ∧ ∃ content, IsTaken text content ∧
      after.fileAt? = Function.update before.fileAt? place (some content)
  | .error fault => after.fileAt? = before.fileAt? ∨
      surrogates.occurIn text.toList = true ∧ fault = .unencodable ∧
        ∃ draft, before.fileAt? draft = none ∧
          after.fileAt? = Function.update before.fileAt? draft (some .empty)

theorem run_removeDraft {before : Tree} {draft : Place} {content : ByteArray}
    (h : before.IsDraft draft content s.disk) :
    ∃ disk, run (removeDraft (.ofPlace draft) : SandboxM Unit) s = (.ok (), s.withDisk disk) ∧
      disk.fileAt? = before.fileAt? := by
  obtain ⟨disk, hremove, hfiles⟩ := h.remove s.here
  refine ⟨disk, ?_, hfiles⟩
  unfold removeDraft
  rw [run_catch, run_removeFile, hremove]

/-- Where a draft has been written, it takes the place of the file, or something stands in the way
and the draft is still there. -/
theorem run_draft {before : Tree} {draft : Place} {content : ByteArray}
    (h : before.IsDraft draft content s.disk) (husable : path.isUnusable = false)
    (htext : surrogates.occurIn text.toList = false) :
    ∃ outcome disk, run (do
        writeDraft surrogates (.ofPlace draft) text
        Host.moveFile (.ofPlace draft) path : SandboxM Unit) s = (outcome, s.withDisk disk) ∧
      match outcome with
      | .ok _ => disk.fileAt?
          = Function.update before.fileAt? (path.placeFrom s.here) (some (draftContent text))
      | .error fault => isFileFault fault = true ∧ ∃ content, before.IsDraft draft content disk := by
  rw [run_bind, run_writeDraft htext]
  cases hwrite : s.disk.putFile s.here (.ofPlace draft) (draftContent text) with
  | error obstacle =>
    have hobstacle := Tree.isInTree_of_putFile h.isUsable hwrite
    exact ⟨_, s.disk, rfl, isFileFault_toFault hobstacle _, content, h⟩
  | ok written =>
    have hwritten := h.write hwrite
    simp only [run_moveFile, withDisk_disk, withDisk_here, withDisk_withDisk]
    cases hmove : written.moveFile s.here (.ofPlace draft) path with
    | ok moved => exact ⟨_, moved, rfl, hwritten.move hmove⟩
    | error obstacle =>
      have hobstacle := hwritten.isInTree_of_moveFile husable hmove
      exact ⟨_, written, rfl, isFileFault_toFault hobstacle _, _, hwritten⟩

theorem run_writeDraft_unencodable (htext : surrogates.occurIn text.toList = true) (draft : Path)
    (s : Sandbox) :
    run (writeDraft surrogates draft text : SandboxM Unit) s = (.error .unencodable, s) := by
  unfold writeDraft Host.encodable
  rw [run_bind, if_pos htext]
  rfl

/-- A text is written or not at all, but for a draft of one that has no bytes. -/
theorem run_writeText (s : Sandbox) (husable : path.isUnusable = false) (surrogates : Surrogates)
    (text : String) :
    ∃ outcome disk, run (writeText surrogates path text : SandboxM Unit) s
        = (outcome, s.withDisk disk) ∧
      IsOutcome surrogates s.disk disk (path.placeFrom s.here) text outcome := by
  unfold writeText
  rw [run_bind, run_makeDirectories]
  have hmade := Tree.fileAt?_makeDirectories s.disk Room.made s.here path.parent
  cases hmake : s.disk.makeDirectories Room.made s.here path.parent with
  | mk made obstacle =>
    rw [hmake] at hmade
    cases obstacle with
    | some obstacle => exact ⟨_, made, rfl, .inl hmade⟩
    | none =>
      simp only [run_bind, run_makeDraft, withDisk_disk, withDisk_here, withDisk_withDisk]
      cases hdraft : made.makeDraft s.here path.parent with
      | error obstacle => exact ⟨_, made, rfl, .inl hmade⟩
      | ok result =>
        obtain ⟨drafted, draft⟩ := result
        obtain ⟨place, rfl, hisDraft⟩ := Tree.exists_isDraft hdraft
        cases htext : surrogates.occurIn text.toList with
        | true =>
          simp only [run_catch, run_bind, run_writeDraft_unencodable htext]
          have hfresh := hisDraft.fresh
          have hfiles := hisDraft.files
          rw [hmade] at hfresh hfiles
          exact ⟨_, drafted, rfl, .inr ⟨htext, rfl, place, hfresh, hfiles⟩⟩
        | false =>
          obtain ⟨outcome, disk, hrun, houtcome⟩ :=
            run_draft (s := s.withDisk drafted) hisDraft husable htext
          simp only [run_catch, hrun, withDisk_withDisk]
          cases outcome with
          | ok done =>
            exact ⟨_, disk, rfl, htext, _, isTaken_draftContent text,
              houtcome.trans (by rw [hmade]; rfl)⟩
          | error fault =>
            obtain ⟨hfault, content, hleft⟩ := houtcome
            obtain ⟨removed, hremove, hfiles⟩ := run_removeDraft (s := s.withDisk disk) hleft
            simp only [hfault, if_true, run_bind, hremove, run_writeEncoded htext, withDisk_disk,
              withDisk_here, withDisk_withDisk]
            cases hput : removed.putFile s.here path text.toUTF8 with
            | ok written =>
              refine ⟨_, written, rfl, htext, _, .inl rfl, ?_⟩
              rw [Tree.fileAt?_putFile hput, hfiles, hmade]
            | error obstacle => exact ⟨_, removed, rfl, .inl (hfiles.trans hmade)⟩

/-! ## Several texts -/

/-- Where a text of a name goes, below a directory. -/
def textPath (directory : Path) (name : String) : Path := directory.append (.ofText name)

/-- The place where a text of a name goes, seen from a place. -/
def textPlace (here : Place) (directory : Path) (name : String) : Place :=
  (textPath directory name).placeFrom here

/-- The files after texts have been written: a place where none of them goes holds what it held, and
one where some go holds the last of these. -/
structure HoldLast (here : Place) (directory : Path) (before : Place → Option ByteArray)
    (entries : List (String × String)) (after : Place → Option ByteArray) : Prop where
  other : ∀ place, (∀ entry ∈ entries, textPlace here directory entry.1 ≠ place) →
    after place = before place
  last : ∀ front entry back, entries = front ++ entry :: back →
    (∀ later ∈ back, textPlace here directory later.1 ≠ textPlace here directory entry.1) →
    ∃ content, IsTaken entry.2 content ∧ after (textPlace here directory entry.1) = some content

namespace HoldLast

variable {here : Place} {directory : Path} {before after : Place → Option ByteArray}
  {entry : String × String} {entries : List (String × String)} {content : ByteArray}

theorem nil : HoldLast here directory before [] before where
  other _ _ := rfl
  last front entry back h := by
    have := congrArg List.length h
    simp at this

theorem cons (hcontent : IsTaken entry.2 content)
    (h : HoldLast here directory
      (Function.update before (textPlace here directory entry.1) (some content)) entries after) :
    HoldLast here directory before (entry :: entries) after where
  other place hplace := by
    obtain ⟨hentry, hentries⟩ := List.forall_mem_cons.1 hplace
    rw [h.other place hentries, Function.update_of_ne hentry.symm]
  last front last back hsplit hback := by
    cases front with
    | nil =>
      obtain ⟨rfl, rfl⟩ := List.cons.inj hsplit
      exact ⟨content, hcontent, by rw [h.other _ hback, Function.update_self]⟩
    | cons first front => exact h.last front last back (List.cons.inj hsplit).2 hback

end HoldLast

/-- How writing texts ends: all of them are written, or exactly those before one that cannot be. -/
inductive AreWritten (surrogates : Surrogates) (s : Sandbox) (directory : Path)
    (entries : List (String × String)) (after : Tree) : Except Fault (List Path) → Prop
  | all (h : HoldLast s.here directory s.disk.fileAt? entries after.fileAt?) :
      AreWritten surrogates s directory entries after
        (.ok (entries.map fun entry => textPath directory entry.1))
  | upTo {written unwritten : List (String × String)} {failing : String × String} {between : Tree}
      {fault : Fault} (hsplit : entries = written ++ failing :: unwritten)
      (h : HoldLast s.here directory s.disk.fileAt? written between.fileAt?)
      (hfault : run (writeText surrogates (textPath directory failing.1) failing.2 : SandboxM Unit)
        (s.withDisk between) = (.error fault, s.withDisk after))
      (hfailing : IsOutcome surrogates between after (textPlace s.here directory failing.1)
        failing.2 (.error fault)) :
      AreWritten surrogates s directory entries after (.error fault)

theorem AreWritten.cons {directory : Path} {entry : String × String}
    {entries : List (String × String)} {between after : Tree} {outcome : Except Fault (List Path)}
    {content : ByteArray} (hcontent : IsTaken entry.2 content)
    (hfirst : between.fileAt? = Function.update s.disk.fileAt?
      (textPlace s.here directory entry.1) (some content))
    (h : AreWritten surrogates (s.withDisk between) directory entries after outcome) :
    AreWritten surrogates s directory (entry :: entries) after
      (outcome.map (textPath directory entry.1 :: ·)) := by
  have hcons {entries : List (String × String)} {after : Place → Option ByteArray}
      (h : HoldLast s.here directory between.fileAt? entries after) :
      HoldLast s.here directory s.disk.fileAt? (entry :: entries) after :=
    .cons hcontent (hfirst ▸ h)
  cases h with
  | all h => exact .all (hcons h)
  | @upTo written unwritten failing _ fault hsplit h hfault hfailing =>
    have hsplit' : entry :: entries = (entry :: written) ++ failing :: unwritten := by
      rw [hsplit, List.cons_append]
    exact .upTo hsplit' (hcons h) hfault hfailing

end

/-- A machine with an empty disk. -/
def emptyMachine : Sandbox where
  disk := .directory []
  here := []
  console := ⟨false, false, false⟩
  moment := ""
  shown := []
  notes := []

end Files

end UsageCensus
