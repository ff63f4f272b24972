import Mathlib.Data.List.Induction
import Mathlib.Data.List.Perm.Subperm
import UsageCensus.Proofs.Files.Writing

/-!
# Files at fresh paths

Where no file is in the way of the directories above a path, these can be made
(`exists_makeMissing`), there is a name for a draft (`exists_freshName`), and a file can be put
where no directory stands (`exists_putFile`). So a text is written at any path that is fresh
(`IsFresh.run_writeText`), and can then be read.
-/

namespace UsageCensus

open UsageCensus.Files UsageCensus.Text

namespace Files.Tree

variable {tree new : Tree} {here place : Place} {path : Path} {name : String}
  {names : List String} {content : ByteArray} {entries : List (String × Tree)}

/-- No file stands where the names lead to, or above. -/
def IsOpen (tree : Tree) (names : List String) : Prop :=
  ∀ above, above <+: names → ∀ content, tree.nodeAt? above ≠ some (.file content)

theorem IsOpen.dropLast (h : tree.IsOpen names) : tree.IsOpen names.dropLast :=
  fun above habove => h above (habove.trans (List.dropLast_prefix names))

theorem isOpen_of_empty : (directory []).IsOpen names := by
  rintro (_ | ⟨name, above⟩) - content h <;> cases h

theorem AreDirect.dropLast (h : AreDirect names) : AreDirect names.dropLast :=
  fun name hname => h name ((List.dropLast_prefix names).subset hname)

theorem walk_missing {above : List Tree} (hnames : AreDirect names) (hopen : tree.IsOpen names)
    (h : tree.nodeAt? names = none) : walk above tree names = .error .missing := by
  induction names generalizing tree above with
  | nil => cases h
  | cons name names ih =>
    obtain ⟨⟨hup, hshort⟩, hnames⟩ := List.forall_mem_cons.1 hnames
    cases tree with
    | file content => exact absurd rfl (hopen [] List.nil_prefix content)
    | directory entries =>
      rw [walk.eq_def]
      dsimp only
      rw [hshort, if_neg (by decide), if_neg hup]
      rw [nodeAt?_directory] at h
      cases hentry : entries.lookup name with
      | none => rfl
      | some entry =>
        rw [hentry] at h
        refine ih hnames (fun above habove content => ?_) h
        have hfile := hopen (name :: above) (List.prefix_cons_inj name |>.2 habove) content
        rwa [nodeAt?_directory, hentry] at hfile

/-! ## Places of new entries -/

theorem placeFor_eq (hnames : AreDirect names)
    (hparent : tree.nodeAt? names.dropLast = some .directory) :
    tree.placeFor names = .ok names := by
  obtain ⟨entries, hget⟩ := exists_directory_of_nodeAt? hparent
  have hlast : names.getLast?.any Path.isLongName = false := by
    cases hlast : names.getLast? with
    | none => rfl
    | some last => exact (hnames last (List.mem_of_getLast? hlast)).2
  unfold placeFor
  rw [reach_of_get? hnames.dropLast hget]
  show (if names.getLast?.any Path.isLongName = true then _ else _) = _
  rw [hlast, if_neg (by decide), follow_of_areDirect hnames]
  rfl

theorem placeFor_missing (hnames : AreDirect names) (hopen : tree.IsOpen names)
    (h : tree.nodeAt? names.dropLast = none) : tree.placeFor names = .error .missing := by
  have hreach : tree.reach names.dropLast = .error .missing :=
    walk_missing hnames.dropLast hopen.dropLast h
  unfold placeFor
  rw [hreach]
  rfl

/-! ## Making directories -/

theorem get?_put (hparent : tree.nodeAt? place = some .directory) :
    (tree.put new (place ++ [name])).get? (place ++ [name]) = some new := by
  induction place generalizing tree with
  | nil =>
    cases tree with
    | file content => cases hparent
    | directory entries =>
      rw [List.nil_append, put, get?, lookup_updatePairs, if_pos rfl]
      rfl
  | cons first place ih =>
    cases tree with
    | file content => cases hparent
    | directory entries =>
      rw [nodeAt?_directory] at hparent
      cases hlookup : entries.lookup first with
      | none => rw [hlookup] at hparent; cases hparent
      | some entry =>
        rw [hlookup] at hparent
        rw [List.cons_append, put, get?, lookup_updatePairs, if_pos rfl, hlookup]
        exact ih hparent

theorem makeDirectory_eq (hnames : AreDirect names)
    (hparent : tree.nodeAt? names.dropLast = some .directory) (h : tree.nodeAt? names = none) :
    tree.makeDirectory names = .ok (tree.put (directory []) names) := by
  have hget : tree.get? names = none := Option.map_eq_none_iff.1 h
  unfold makeDirectory
  rw [placeFor_eq hnames hparent]
  simp only [bind, Except.bind, hget]
  rfl

theorem makeMissing_of_there (hnames : AreDirect names)
    (h : tree.nodeAt? names = some .directory) (room : Nat) :
    tree.makeMissing (room + 1) names = (tree, none) := by
  obtain ⟨entries, hget⟩ := exists_directory_of_nodeAt? h
  have hparent : tree.nodeAt? names.dropLast = some .directory := by
    obtain ⟨last, hlast⟩ := List.dropLast_prefix names
    rw [← hlast] at h
    exact nodeAt?_above h
  have hmake : tree.makeDirectory names = .error .occupied := by
    unfold makeDirectory
    rw [placeFor_eq hnames hparent]
    simp only [bind, Except.bind, hget]
    rfl
  rw [makeMissing, hmake]
  dsimp only
  rw [remaining, reach_of_get? hnames hget]

/-- Where no file is in the way, the directories that are missing are made, and those that are there
stay as they are. -/
theorem exists_makeMissing {room : Nat} (hnames : AreDirect names) (hopen : tree.IsOpen names)
    (hroom : names.length < room) :
    ∃ tree', tree.makeMissing room names = (tree', none) ∧
      tree'.get? names = some ((tree.get? names).getD (directory [])) := by
  induction names using List.reverseRecOn generalizing room with
  | nil =>
    obtain ⟨room, rfl⟩ : ∃ n, room = n + 1 := ⟨room - 1, by omega⟩
    cases tree with
    | file content => exact absurd rfl (hopen [] List.nil_prefix content)
    | directory entries => exact ⟨_, makeMissing_of_there hnames rfl room, rfl⟩
  | append_singleton above last ih =>
    obtain ⟨room, rfl⟩ : ∃ n, room = n + 1 := ⟨room - 1, by omega⟩
    rw [List.length_append, List.length_singleton] at hroom
    have habove : AreDirect above := by simpa using hnames.dropLast
    have hopenAbove : tree.IsOpen above := by simpa using hopen.dropLast
    have hparent : (above ++ [last]).dropLast = above := List.dropLast_concat
    cases hnode : tree.nodeAt? (above ++ [last]) with
    | some node =>
      cases node with
      | file content => exact absurd hnode (hopen _ List.prefix_rfl content)
      | directory =>
        obtain ⟨entries, hget⟩ := exists_directory_of_nodeAt? hnode
        exact ⟨tree, makeMissing_of_there hnames hnode room, by rw [hget, Option.getD_some]⟩
    | none =>
      have hget : tree.get? (above ++ [last]) = none := Option.map_eq_none_iff.1 hnode
      rw [hget, Option.getD_none, makeMissing]
      cases hnodeAbove : tree.nodeAt? above with
      | some node =>
        cases node with
        | file content => exact absurd hnodeAbove (hopenAbove _ List.prefix_rfl content)
        | directory =>
          rw [makeDirectory_eq hnames (hparent.symm ▸ hnodeAbove) hnode]
          exact ⟨_, rfl, get?_put hnodeAbove⟩
      | none =>
        have hroomAbove : above.length < room := by omega
        obtain ⟨made, hmake, hmade⟩ := ih habove hopenAbove hroomAbove
        rw [Option.map_eq_none_iff.1 hnodeAbove, Option.getD_none] at hmade
        have hmadeAbove : made.nodeAt? above = some .directory := by
          rw [nodeAt?, hmade]
          rfl
        have hmadeNode : made.nodeAt? (above ++ [last]) = none := by
          rw [nodeAt?_append, hmade]
          rfl
        have hmissing : tree.makeDirectory (above ++ [last]) = .error .missing := by
          unfold makeDirectory
          rw [placeFor_missing hnames hopen (hparent.symm ▸ hnodeAbove)]
          rfl
        rw [hmissing]
        dsimp only
        rw [hparent, hmake]
        dsimp only
        rw [makeDirectory_eq hnames (hparent.symm ▸ hmadeAbove) hmadeNode]
        exact ⟨_, rfl, get?_put hmadeAbove⟩

/-! ## Files and drafts -/

/-- Where no directory stands, a file can be put. -/
theorem exists_putFile (hfits : Obstacle.ofPath? path = none)
    (hnames : AreDirect (path.namesFrom here))
    (hparent : tree.nodeAt? (path.namesFrom here).dropLast = some .directory)
    (hplace : tree.nodeAt? (path.namesFrom here) ≠ some .directory) (content : ByteArray) :
    ∃ tree', tree.putFile here path content = .ok tree' := by
  refine ⟨tree.put (file content) (path.namesFrom here), ?_⟩
  unfold putFile
  rw [hfits]
  dsimp only
  rw [placeFor_eq hnames hparent]
  rw [nodeAt?] at hplace
  cases hget : tree.get? (path.namesFrom here) with
  | none =>
    simp only [bind, Except.bind, hget]
    rfl
  | some found =>
    cases found with
    | file old =>
      simp only [bind, Except.bind, hget]
      rfl
    | directory entries => exact absurd (by rw [hget]; rfl) hplace

theorem draftName_injective {j k : Nat} (h : draftName j = draftName k) : j = k := by
  have htext := congrArg String.toList h
  simp only [draftName, String.toList_append] at htext
  have hdigits : Nat.toDigits 10 (10000000 + j) = Nat.toDigits 10 (10000000 + k) := by
    rw [← Nat.toList_repr, ← Nat.toList_repr]
    exact List.append_cancel_left (List.append_cancel_right htext)
  have hnumber := congrArg (fun digits => Nat.ofDigitChars 10 digits 0) hdigits
  simp only [Nat.ofDigitChars_ten_toDigits] at hnumber
  omega

/-- There are more names for drafts than names. -/
theorem exists_freshName (names : List String) : ∃ name, freshName? names = some name := by
  by_contra hnone
  have hall : ∀ k ∈ List.range (names.length + 1), draftName k ∈ names := by
    intro k hk
    by_contra hfresh
    have hfind : ((List.range (names.length + 1)).find?
        fun k => !names.contains (draftName k)).isSome := by
      rw [List.find?_isSome]
      exact ⟨k, hk, by simpa using hfresh⟩
    obtain ⟨found, hfound⟩ := Option.isSome_iff_exists.1 hfind
    exact hnone ⟨draftName found, by rw [freshName?, hfound]; rfl⟩
  have hnodup : ((List.range (names.length + 1)).map draftName).Nodup :=
    List.nodup_range.map fun j k h => draftName_injective h
  have hsub : (List.range (names.length + 1)).map draftName ⊆ names := by
    intro name hname
    obtain ⟨k, hk, rfl⟩ := List.mem_map.1 hname
    exact hall k hk
  have hlength := (hnodup.subperm hsub).length_le
  rw [List.length_map, List.length_range] at hlength
  omega

/-- A draft can be made in a directory that is there. -/
theorem exists_makeDraft (hfits : Obstacle.ofPath? path = none)
    (hnames : AreDirect (path.namesFrom here))
    (hget : tree.get? (path.namesFrom here) = some (directory entries))
    (hname : freshName? (entries.map Prod.fst) = some name) (hshort : Path.isLongName name = false)
    (hdraft : Obstacle.ofPath? (.ofPlace (path.namesFrom here ++ [name])) = none) :
    ∃ tree', tree.makeDraft here path = .ok (tree', .ofPlace (path.namesFrom here ++ [name])) ∧
      tree'.nodeAt? = Function.update tree.nodeAt? (path.namesFrom here ++ [name])
        (some (.file .empty)) := by
  obtain ⟨hfresh, hup⟩ := freshName?_eq_some hname
  have hplace : AreDirect (path.namesFrom here ++ [name]) :=
    List.forall_mem_append.2 ⟨hnames, List.forall_mem_singleton.2 ⟨hup, hshort⟩⟩
  have hparent :
      tree.nodeAt? ((Path.ofPlace (path.namesFrom here ++ [name])).namesFrom here).dropLast
        = some .directory := by
    rw [namesFrom_ofPlace, List.dropLast_concat, nodeAt?, hget]
    rfl
  have hempty : tree.nodeAt? (path.namesFrom here ++ [name]) = none := by
    have hnone : entries.lookup name = none := lookup_eq_none_iff.2 hfresh
    rw [nodeAt?_append, hget, Option.bind_some, nodeAt?_directory, hnone]
    rfl
  obtain ⟨tree', hput⟩ := exists_putFile hdraft hplace hparent
    (by rw [namesFrom_ofPlace, hempty]; simp) .empty
  have hplaceFrom : path.placeFrom here = path.namesFrom here := follow_of_areDirect hnames
  have hfind : tree.find here path = .ok (directory entries) := by
    rw [find, hfits]
    exact reach_of_get? hnames hget
  refine ⟨tree', ?_, ?_⟩
  · unfold makeDraft
    rw [hfind]
    simp only [bind, Except.bind, hname, hplaceFrom, hput]
    rfl
  · rw [(putFile_eq_ok hput).2.2.2, placeFrom_ofPlace hplace]

/-- A draft can be written again. -/
theorem IsDraft.exists_putFile {before : Tree} {draft : Place}
    (h : IsDraft before draft content tree) (here : Place)
    (hparent : tree.nodeAt? draft.dropLast = some .directory) (new : ByteArray) :
    ∃ tree', tree.putFile here (.ofPlace draft) new = .ok tree' := by
  have hplace : tree.nodeAt? ((Path.ofPlace draft).namesFrom here) ≠ some .directory := by
    rw [namesFrom_ofPlace, h.written]
    simp
  exact Tree.exists_putFile h.fits h.direct hparent hplace new

/-- A draft can be moved to where a file can be put. -/
theorem IsDraft.exists_moveFile {before moved : Tree} {draft : Place}
    (h : IsDraft before draft content tree) (hput : tree.putFile here path content = .ok moved) :
    ∃ tree', tree.moveFile here (.ofPlace draft) path = .ok tree' := by
  unfold moveFile
  rw [h.find here]
  simp only [bind, Except.bind, hput]
  split
  · exact ⟨moved, rfl⟩
  · exact ⟨moved.erase ((Path.ofPlace draft).placeFrom here), rfl⟩

end Files.Tree

namespace Sandbox

open Files.Tree

variable {s : Sandbox} {path : Path} {surrogates : Surrogates} {text : String}

/-- A file can be made at the path: its names can be given, nothing is there, no file is in the way
of the directories above it, and a draft fits beside it. -/
structure IsFresh [Room] (s : Sandbox) (path : Path) : Prop where
  named : path.names ≠ []
  direct : AreDirect (path.namesFrom s.here)
  fits : Obstacle.ofPath? path = none
  few : (path.namesFrom s.here).length ≤ Room.made
  isOpen : s.disk.IsOpen (path.namesFrom s.here).dropLast
  empty : s.disk.nodeAt? (path.namesFrom s.here) = none
  draft : ∀ name, freshName? (s.namesIn (path.namesFrom s.here).dropLast) = some name →
    Path.isLongName name = false ∧
      Obstacle.ofPath? (.ofPlace ((path.namesFrom s.here).dropLast ++ [name])) = none

theorem namesFrom_parent (h : path.names ≠ []) (here : Place) :
    path.parent.namesFrom here = (path.namesFrom here).dropLast := by
  rw [Path.namesFrom, Path.namesFrom, List.dropLast_append_of_ne_nil h]
  rfl

theorem size_intercalate_dropLast_le (names : List String) :
    ("/".intercalate names.dropLast).utf8ByteSize ≤ ("/".intercalate names).utf8ByteSize := by
  rcases List.eq_nil_or_concat' names with rfl | ⟨above, last, rfl⟩
  · exact Nat.le_refl _
  · rw [List.dropLast_concat]
    by_cases habove : above = []
    · subst habove
      exact Nat.zero_le _
    · rw [String.intercalate_append_of_ne_nil habove (List.cons_ne_nil last []),
        String.utf8ByteSize_append, String.utf8ByteSize_append]
      omega

theorem size_text_parent_le (path : Path) :
    path.parent.text.utf8ByteSize ≤ max 1 path.text.utf8ByteSize := by
  have hsize := size_intercalate_dropLast_le path.names
  unfold Path.text
  by_cases hparent : path.parent.root = "" ∧ path.parent.names = []
  · rw [if_pos hparent]
    exact Nat.le_max_left _ _
  · have hpath : ¬ (path.root = "" ∧ path.names = []) := by
      rintro ⟨hroot, hnames⟩
      exact hparent ⟨hroot, by rw [Path.parent, hnames]; rfl⟩
    rw [if_neg hparent, if_neg hpath, String.utf8ByteSize_append, String.utf8ByteSize_append]
    exact Nat.le_trans (Nat.add_le_add_left hsize _) (Nat.le_max_right _ _)

/-- A path is no worse without its last name. -/
theorem ofPath?_parent (h : Obstacle.ofPath? path = none) :
    Obstacle.ofPath? path.parent = none := by
  obtain ⟨husable, hshort⟩ := ofPath?_eq_none_iff.1 h
  refine ofPath?_eq_none_iff.2 ⟨?_, ?_⟩
  · rw [Path.isUnusable, List.any_eq_false] at husable ⊢
    exact fun name hname => husable name ((List.dropLast_prefix path.names).subset hname)
  · exact Nat.le_trans (size_text_parent_le path) (Nat.max_le.2 ⟨by decide, hshort⟩)

/-- The directories above a fresh path can be made, and then there is still nothing at the path. -/
theorem IsFresh.exists_makeDirectories [Room] (h : s.IsFresh path) :
    ∃ made entries, s.disk.makeDirectories Room.made s.here path.parent = (made, none) ∧
      made.get? (path.namesFrom s.here).dropLast = some (directory entries) ∧
      entries.map Prod.fst = s.namesIn (path.namesFrom s.here).dropLast ∧
      made.nodeAt? (path.namesFrom s.here) = none := by
  have hne : path.namesFrom s.here ≠ [] := List.append_ne_nil_of_right_ne_nil _ h.named
  obtain ⟨above, last, hnames⟩ := (List.eq_nil_or_concat' (path.namesFrom s.here)).resolve_left hne
  have habove : (path.namesFrom s.here).dropLast = above := by rw [hnames, List.dropLast_concat]
  have hlength : above.length < Room.made := by
    have hfew := h.few
    rw [hnames, List.length_append, List.length_singleton] at hfew
    omega
  have hdirect : AreDirect above := habove ▸ h.direct.dropLast
  have hopen : s.disk.IsOpen above := habove ▸ h.isOpen
  obtain ⟨made, hmake, hmade⟩ := exists_makeMissing hdirect hopen hlength
  have hmakeDirectories : s.disk.makeDirectories Room.made s.here path.parent = (made, none) := by
    rw [Tree.makeDirectories, ofPath?_parent h.fits, namesFrom_parent h.named, habove]
    exact hmake
  have hplace : made.nodeAt? (path.namesFrom s.here)
      = ((s.disk.get? above).getD (directory [])).nodeAt? [last] := by
    rw [hnames, nodeAt?_append, hmade, Option.bind_some]
  have hempty := h.empty
  rw [hnames, nodeAt?_append] at hempty
  rw [habove, namesIn]
  cases hget : s.disk.get? above with
  | none =>
    rw [hget] at hmade hplace
    exact ⟨made, [], hmakeDirectories, hmade, rfl, hplace⟩
  | some found =>
    rw [hget] at hmade hplace hempty
    cases found with
    | file content =>
      exact absurd (by rw [nodeAt?, hget]; rfl) (hopen above List.prefix_rfl content)
    | directory entries =>
      exact ⟨made, entries, hmakeDirectories, hmade, rfl, hplace.trans hempty⟩

/-- At a fresh path every text can be written. -/
theorem IsFresh.exists_run_writeText [Room] (h : s.IsFresh path)
    (htext : surrogates.occurIn text.toList = false) :
    ∃ after, run (writeText surrogates path text : SandboxM Unit) s = (.ok (), after) := by
  obtain ⟨made, entries, hmake, hget, hnamesIn, hempty⟩ := h.exists_makeDirectories
  obtain ⟨name, hname⟩ := exists_freshName (entries.map Prod.fst)
  obtain ⟨hshort, hdraftFits⟩ := h.draft name (hnamesIn ▸ hname)
  have hparent := namesFrom_parent h.named s.here
  rw [← hparent] at hget hdraftFits
  obtain ⟨drafted, hmakeDraft, hdrafted⟩ := exists_makeDraft (ofPath?_parent h.fits)
    (hparent ▸ h.direct.dropLast) hget hname hshort hdraftFits
  have hdraft : IsDraft made (path.parent.namesFrom s.here ++ [name]) .empty drafted := by
    obtain ⟨place, hplace, hdraft⟩ := exists_isDraft hmakeDraft
    cases hplace
    exact hdraft
  -- the draft is the only new entry, so the directory is still there and no directory at the path
  have hdirectory {tree : Tree} {content : ByteArray} (hnodes : tree.nodeAt?
      = Function.update made.nodeAt? (path.parent.namesFrom s.here ++ [name])
        (some (.file content))) :
      tree.nodeAt? (path.parent.namesFrom s.here) = some .directory ∧
        tree.nodeAt? (path.namesFrom s.here) ≠ some .directory := by
    constructor
    · rw [hnodes, Function.update_of_ne (by simp), nodeAt?, hget]
      rfl
    · rw [hnodes]
      by_cases hsame : path.namesFrom s.here = path.parent.namesFrom s.here ++ [name]
      · rw [hsame, Function.update_self]
        simp
      · rw [Function.update_of_ne hsame, hempty]
        simp
  obtain ⟨written, hwrite⟩ := hdraft.exists_putFile s.here
    (by rw [List.dropLast_concat]; exact (hdirectory hdrafted).1) (draftContent text)
  have hwritten := hdraft.write hwrite
  have hnodes := (putFile_eq_ok hwrite).2.2.2
  rw [placeFrom_ofPlace hdraft.direct, hdrafted, Function.update_idem] at hnodes
  have hwrittenParent : written.nodeAt? (path.namesFrom s.here).dropLast = some .directory :=
    hparent ▸ (hdirectory hnodes).1
  obtain ⟨moved, hput⟩ :=
    exists_putFile h.fits h.direct hwrittenParent (hdirectory hnodes).2 (draftContent text)
  obtain ⟨after, hmove⟩ := hwritten.exists_moveFile hput
  refine ⟨s.withDisk after, ?_⟩
  simp only [writeText, run_bind, run_makeDirectories, hmake, run_makeDraft, withDisk_disk,
    withDisk_here, withDisk_withDisk, hmakeDraft, run_catch, run_writeDraft htext, hwrite,
    run_moveFile, hmove]

/-- A text that has been written at a fresh path, and that one write takes, is all that has changed,
and can be read. -/
theorem IsFresh.run_writeText [Room] (h : s.IsFresh path)
    (htext : surrogates.occurIn text.toList = false) (hsize : text.toUTF8.size ≤ Room.written) :
    ∃ disk, run (writeText surrogates path text : SandboxM Unit) s = (.ok (), s.withDisk disk) ∧
      disk.fileAt? = Function.update s.disk.fileAt? (path.placeFrom s.here) (some text.toUTF8) ∧
      disk.find s.here path = .ok (.file text.toUTF8) := by
  have husable := (ofPath?_eq_none_iff.1 h.fits).1
  obtain ⟨after, hok⟩ := h.exists_run_writeText htext
  obtain ⟨outcome, disk, hrun, houtcome⟩ := Files.run_writeText s husable surrogates text
  rw [hrun] at hok
  cases hok
  obtain ⟨-, content, hcontent, hwritten⟩ := houtcome
  rw [hcontent.eq hsize] at hwritten
  refine ⟨disk, hrun, hwritten, ?_⟩
  have hfile : disk.fileAt? (path.placeFrom s.here) = some text.toUTF8 := by
    rw [hwritten, Function.update_self]
  have hplace : path.placeFrom s.here = path.namesFrom s.here := follow_of_areDirect h.direct
  rw [hplace] at hfile
  rw [Tree.find, h.fits]
  exact reach_of_get? h.direct (exists_file_of_nodeAt? (fileAt?_eq_some_iff.1 hfile))

end Sandbox

end UsageCensus
