import Mathlib.Data.List.Basic
import UsageCensus.Proofs.Files.Places
import UsageCensus.Proofs.Tables

/-!
# What becomes of the files of a tree

Each change of a tree that is made is told by what it changes: a new directory changes no file
(`fileAt?_makeDirectories`), and a file that is put is the only one that changes
(`fileAt?_putFile`). A draft is a file that was not there (`IsDraft`); it can be written again, be
removed without a trace, and be moved to the place of a file, which then is the only one that has
changed.
-/

namespace UsageCensus.Files.Tree

variable {tree tree' found : Tree} {here place : Place} {path : Path} {names : List String}
  {content content' : ByteArray} {obstacle : Obstacle}

/-! ## Finding -/

theorem ofPath?_eq_none_iff :
    Obstacle.ofPath? path = none
      ↔ path.isUnusable = false ∧ path.text.utf8ByteSize ≤ Path.maxTextSize := by
  unfold Obstacle.ofPath? Path.isLong
  cases path.isUnusable with
  | true => simp
  | false => simp

theorem find_eq_ok (h : tree.find here path = .ok found) :
    tree.get? (path.placeFrom here) = some found ∧ AreDirect (path.placeFrom here) := by
  unfold find at h
  split at h
  · cases h
  · exact get?_of_reach h

theorem namesFrom_ofPlace (here place : Place) : (Path.ofPlace place).namesFrom here = place := rfl

theorem placeFrom_ofPlace (hplace : AreDirect place) :
    (Path.ofPlace place).placeFrom here = place :=
  follow_of_areDirect hplace

theorem find_ofPlace (hfits : Obstacle.ofPath? (.ofPlace place) = none) (hplace : AreDirect place)
    (h : tree.get? place = some found) : tree.find here (.ofPlace place) = .ok found := by
  rw [find, hfits, namesFrom_ofPlace]
  exact reach_of_get? hplace h

/-! ## Places of new entries -/

/-- An entry that is no directory is in a directory that is there, under a name that can be given. -/
theorem placeFor_eq_ok (h : tree.placeFor names = .ok place)
    (hempty : tree.nodeAt? place ≠ some .directory) :
    place = Path.follow [] names ∧ AreDirect place ∧
      ∃ parent name, place = parent ++ [name] ∧ tree.nodeAt? parent = some .directory := by
  unfold placeFor at h
  obtain ⟨found, hreach, h⟩ := bind_eq_ok.1 h
  cases found with
  | file content => cases h
  | directory entries =>
    dsimp only at h
    split at h
    · cases h
    · rename_i hlast
      cases h
      refine ⟨rfl, ?_⟩
      have hdirectory := nodeAt?_of_reach hreach
      have hdirect := (get?_of_reach hreach).2
      rcases List.eq_nil_or_concat' names with rfl | ⟨names, name, rfl⟩
      · exact absurd hdirectory hempty
      · rw [List.dropLast_concat] at hdirectory hdirect
        rw [List.getLast?_concat, Option.any_some, Bool.not_eq_true] at hlast
        rw [follow_concat] at hempty ⊢
        by_cases hup : name = ".."
        · rw [if_pos hup] at hempty
          obtain ⟨last, hlast⟩ := List.dropLast_prefix (Path.follow [] names)
          rw [← hlast] at hdirectory
          exact absurd (nodeAt?_above hdirectory) hempty
        · rw [if_neg hup]
          refine ⟨?_, _, name, rfl, hdirectory⟩
          exact List.forall_mem_append.2 ⟨hdirect, List.forall_mem_singleton.2 ⟨hup, hlast⟩⟩

/-! ## Directories -/

theorem makeDirectory_eq_ok (h : tree.makeDirectory names = .ok tree') :
    tree.nodeAt? (Path.follow [] names) = none ∧
      tree'.nodeAt? = Function.update tree.nodeAt? (Path.follow [] names) (some .directory) := by
  unfold makeDirectory at h
  obtain ⟨place, hplace, h⟩ := bind_eq_ok.1 h
  cases hget : tree.get? place with
  | some found => simp only [hget] at h; cases h
  | none =>
    simp only [hget] at h
    cases h
    have hnone : tree.nodeAt? place = none := by rw [nodeAt?, hget]; rfl
    have hempty : tree.nodeAt? place ≠ some .directory := by rw [hnone]; simp
    obtain ⟨hfollow, -, parent, name, rfl, hparent⟩ := placeFor_eq_ok hplace hempty
    rw [← hfollow]
    refine ⟨hnone, nodeAt?_put hparent hempty fun below hbelow => ?_⟩
    cases below with
    | nil => exact absurd rfl hbelow
    | cons name below => rfl

theorem fileAt?_makeDirectory (h : tree.makeDirectory names = .ok tree') :
    tree'.fileAt? = tree.fileAt? := by
  obtain ⟨hnone, hnodes⟩ := makeDirectory_eq_ok h
  rw [fileAt?_of_nodeAt?_eq hnodes]
  apply Function.update_eq_self_iff.2
  rw [fileAt?, hnone]
  rfl

theorem fileAt?_makeMissing (tree : Tree) (room : Nat) (names : List String) :
    (tree.makeMissing room names).1.fileAt? = tree.fileAt? := by
  induction room generalizing names with
  | zero => rfl
  | succ room ih =>
    rw [makeMissing]
    cases hmake : tree.makeDirectory names with
    | ok tree' => exact fileAt?_makeDirectory hmake
    | error obstacle =>
      cases obstacle with
      | missing =>
        dsimp only
        have habove := ih names.dropLast
        cases hmissing : tree.makeMissing room names.dropLast with
        | mk above obstacle =>
          rw [hmissing] at habove
          cases obstacle with
          | some obstacle => exact habove
          | none =>
            dsimp only
            cases hlast : above.makeDirectory names with
            | ok tree' => exact (fileAt?_makeDirectory hlast).trans habove
            | error obstacle => exact habove
      | _ => rfl

/-- Making directories changes no file. -/
theorem fileAt?_makeDirectories (tree : Tree) (room : Nat) (here : Place) (path : Path) :
    (tree.makeDirectories room here path).1.fileAt? = tree.fileAt? := by
  unfold makeDirectories
  split
  · rfl
  · exact fileAt?_makeMissing tree room _

/-! ## Files -/

theorem putFile_eq_ok (h : tree.putFile here path content = .ok tree') :
    Obstacle.ofPath? path = none ∧ AreDirect (path.placeFrom here) ∧ path.placeFrom here ≠ [] ∧
      tree'.nodeAt?
        = Function.update tree.nodeAt? (path.placeFrom here) (some (.file content)) := by
  unfold putFile at h
  split at h
  · cases h
  · rename_i hfits
    obtain ⟨place, hplace, h⟩ := bind_eq_ok.1 h
    have hput : tree' = tree.put (file content) place ∧
        tree.nodeAt? place ≠ some .directory := by
      cases hget : tree.get? place with
      | none =>
        simp only [hget] at h
        cases h
        exact ⟨rfl, by rw [nodeAt?, hget]; simp⟩
      | some found =>
        cases found with
        | file old =>
          simp only [hget] at h
          cases h
          exact ⟨rfl, by rw [nodeAt?, hget]; simp [node]⟩
        | directory entries => simp only [hget] at h; cases h
    obtain ⟨rfl, hempty⟩ := hput
    obtain ⟨hfollow, hdirect, parent, name, rfl, hparent⟩ := placeFor_eq_ok hplace hempty
    have hplaceFrom : path.placeFrom here = parent ++ [name] := hfollow.symm
    rw [hplaceFrom]
    exact ⟨hfits, hdirect, List.append_ne_nil_of_right_ne_nil _ (List.cons_ne_nil _ _),
      nodeAt?_put hparent hempty fun below hbelow => nodeAt?_file content hbelow⟩

theorem fileAt?_putFile (h : tree.putFile here path content = .ok tree') :
    tree'.fileAt? = Function.update tree.fileAt? (path.placeFrom here) (some content) :=
  fileAt?_of_nodeAt?_eq (putFile_eq_ok h).2.2.2

/-! ## Drafts -/

/-- A tree with one file more than before: a draft. -/
structure IsDraft (before : Tree) (draft : Place) (content : ByteArray) (tree : Tree) : Prop where
  fits : Obstacle.ofPath? (.ofPlace draft) = none
  direct : AreDirect draft
  nonempty : draft ≠ []
  fresh : before.fileAt? draft = none
  written : tree.nodeAt? draft = some (.file content)
  files : tree.fileAt? = Function.update before.fileAt? draft (some content)

theorem draftName_ne_up (k : Nat) : draftName k ≠ ".." := by
  intro h
  have htext := congrArg String.toList h
  simp [draftName] at htext

theorem freshName?_eq_some {name : String} (h : freshName? names = some name) :
    name ∉ names ∧ name ≠ ".." := by
  obtain ⟨k, hk, rfl⟩ := Option.map_eq_some_iff.1 h
  have hfresh := List.find?_some hk
  exact ⟨by simpa using hfresh, draftName_ne_up k⟩

theorem exists_isDraft {draft : Path} (h : tree.makeDraft here path = .ok (tree', draft)) :
    ∃ place, draft = .ofPlace place ∧ IsDraft tree place .empty tree' := by
  unfold makeDraft at h
  obtain ⟨found, hfind, h⟩ := bind_eq_ok.1 h
  cases found with
  | file content => cases h
  | directory entries =>
    dsimp only at h
    cases hname : freshName? (entries.map Prod.fst) with
    | none => simp only [hname] at h; cases h
    | some name =>
      simp only [hname] at h
      obtain ⟨written, hput, h⟩ := bind_eq_ok.1 h
      cases h
      obtain ⟨hget, habove⟩ := find_eq_ok hfind
      obtain ⟨hfresh, hup⟩ := freshName?_eq_some hname
      obtain ⟨hfits, hdirect, hnonempty, hnodes⟩ := putFile_eq_ok hput
      have hplaceFrom : (Path.ofPlace (path.placeFrom here ++ [name])).placeFrom here
          = path.placeFrom here ++ [name] := by
        rw [Path.placeFrom, namesFrom_ofPlace, follow_concat, if_neg hup,
          follow_of_areDirect habove]
      rw [hplaceFrom] at hdirect hnonempty hnodes
      refine ⟨_, rfl, hfits, hdirect, hnonempty, ?_, ?_, ?_⟩
      · have hnone : entries.lookup name = none := lookup_eq_none_iff.2 hfresh
        rw [fileAt?, nodeAt?_append, hget, Option.bind_some, nodeAt?_directory, hnone]
        rfl
      · rw [hnodes, Function.update_self]
      · exact fileAt?_of_nodeAt?_eq hnodes

namespace IsDraft

variable {before : Tree} {draft : Place}

theorem find (h : IsDraft before draft content tree) (here : Place) :
    tree.find here (.ofPlace draft) = .ok (file content) :=
  find_ofPlace h.fits h.direct (exists_file_of_nodeAt? h.written)

theorem write (h : IsDraft before draft content tree)
    (hput : tree.putFile here (.ofPlace draft) content' = .ok tree') :
    IsDraft before draft content' tree' := by
  obtain ⟨-, -, -, hnodes⟩ := putFile_eq_ok hput
  rw [placeFrom_ofPlace h.direct] at hnodes
  refine ⟨h.fits, h.direct, h.nonempty, h.fresh, ?_, ?_⟩
  · rw [hnodes, Function.update_self]
  · rw [fileAt?_of_nodeAt?_eq hnodes, h.files, Function.update_idem]
    rfl

/-- A draft can be removed, and then no file has changed. -/
theorem remove (h : IsDraft before draft content tree) (here : Place) :
    ∃ tree', tree.removeFile here (.ofPlace draft) = .ok tree' ∧
      tree'.fileAt? = before.fileAt? := by
  refine ⟨tree.erase draft, ?_, ?_⟩
  · rw [removeFile, h.find here, placeFrom_ofPlace h.direct]
    rfl
  · rw [fileAt?_of_nodeAt?_eq (nodeAt?_erase h.written h.nonempty), h.files, Function.update_idem]
    exact Function.update_eq_self_iff.2 h.fresh.symm

/-- A draft that has been moved is the file at its new place, and no other file has changed. -/
theorem move (h : IsDraft before draft content tree)
    (hmove : tree.moveFile here (.ofPlace draft) path = .ok tree') :
    tree'.fileAt? = Function.update before.fileAt? (path.placeFrom here) (some content) := by
  unfold moveFile at hmove
  obtain ⟨found, hfind, hmove⟩ := bind_eq_ok.1 hmove
  rw [h.find here] at hfind
  cases hfind
  rw [placeFrom_ofPlace h.direct] at hmove
  obtain ⟨moved, hput, hmove⟩ := bind_eq_ok.1 hmove
  obtain ⟨-, -, -, hnodes⟩ := putFile_eq_ok hput
  have hfiles := fileAt?_putFile hput
  rw [h.files] at hfiles
  by_cases hsame : draft = path.placeFrom here
  · rw [if_pos hsame] at hmove
    cases hmove
    rw [hfiles, hsame, Function.update_idem]
  · rw [if_neg hsame] at hmove
    cases hmove
    have hdraft : moved.nodeAt? draft = some (.file content) := by
      rw [hnodes, Function.update_of_ne hsame, h.written]
    rw [fileAt?_of_nodeAt?_eq (nodeAt?_erase hdraft h.nonempty), hfiles,
      Function.update_comm hsame, Function.update_idem]
    apply Function.update_eq_self_iff.2
    rw [Function.update_of_ne hsame, h.fresh]
    rfl

end IsDraft

/-! ## What stands in the way -/

/-- The obstacle stands in the tree: it is none of the text of a path, nor of the number of
directories to be made. -/
def Obstacle.IsInTree (obstacle : Obstacle) : Prop := obstacle ≠ .unusable ∧ obstacle ≠ .tooDeep

theorem isInTree_of_walk {above : List Tree} (h : walk above tree names = .error obstacle) :
    obstacle.IsInTree := by
  induction names generalizing above tree with
  | nil =>
    rw [walk] at h
    cases h
  | cons name names ih =>
    rw [walk.eq_def] at h
    cases tree with
    | file content =>
      cases h
      exact ⟨by decide, by decide⟩
    | directory entries =>
      dsimp only at h
      by_cases hlong : Path.isLongName name = true
      · rw [if_pos hlong] at h
        cases h
        exact ⟨by decide, by decide⟩
      · rw [if_neg hlong] at h
        by_cases hup : name = ".."
        · rw [if_pos hup] at h
          cases above with
          | nil => exact ih h
          | cons parent above => exact ih h
        · rw [if_neg hup] at h
          cases hentry : entries.lookup name with
          | none =>
            rw [hentry] at h
            cases h
            exact ⟨by decide, by decide⟩
          | some entry =>
            rw [hentry] at h
            exact ih h

theorem isInTree_of_placeFor (h : tree.placeFor names = .error obstacle) : obstacle.IsInTree := by
  unfold placeFor at h
  rcases bind_eq_error.1 h with h | ⟨found, -, h⟩
  · exact isInTree_of_walk h
  · cases found with
    | file content =>
      cases h
      exact ⟨by decide, by decide⟩
    | directory entries =>
      dsimp only at h
      split at h
      · cases h
        exact ⟨by decide, by decide⟩
      · cases h

theorem isInTree_of_ofPath? (husable : path.isUnusable = false)
    (h : Obstacle.ofPath? path = some obstacle) : obstacle.IsInTree := by
  rw [Obstacle.ofPath?, husable, if_neg (by decide)] at h
  split at h
  · cases h
    exact ⟨by decide, by decide⟩
  · cases h

theorem isInTree_of_putFile (husable : path.isUnusable = false)
    (h : tree.putFile here path content = .error obstacle) : obstacle.IsInTree := by
  unfold putFile at h
  split at h
  · rename_i hfits
    cases h
    exact isInTree_of_ofPath? husable hfits
  · rcases bind_eq_error.1 h with h | ⟨place, -, h⟩
    · exact isInTree_of_placeFor h
    · cases hget : tree.get? place with
      | none => simp only [hget] at h; cases h
      | some found =>
        cases found with
        | file old => simp only [hget] at h; cases h
        | directory entries =>
          simp only [hget] at h
          cases h
          exact ⟨by decide, by decide⟩

namespace IsDraft

variable {before : Tree} {draft : Place}

theorem isUsable (h : IsDraft before draft content tree) :
    (Path.ofPlace draft).isUnusable = false :=
  (ofPath?_eq_none_iff.1 h.fits).1

theorem isInTree_of_moveFile (h : IsDraft before draft content tree)
    (husable : path.isUnusable = false)
    (hmove : tree.moveFile here (.ofPlace draft) path = .error obstacle) : obstacle.IsInTree := by
  unfold moveFile at hmove
  rcases bind_eq_error.1 hmove with hfind | ⟨found, hfind, hmove⟩
  · rw [h.find here] at hfind
    cases hfind
  · rw [h.find here] at hfind
    cases hfind
    rcases bind_eq_error.1 hmove with hput | ⟨moved, -, hmove⟩
    · exact isInTree_of_putFile husable hput
    · split at hmove <;> cases hmove

end IsDraft

end UsageCensus.Files.Tree
