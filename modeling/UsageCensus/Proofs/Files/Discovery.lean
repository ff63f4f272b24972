import Mathlib
import UsageCensus.Files.Discovery
import UsageCensus.Proofs.Files.Walk
import UsageCensus.Proofs.Glob.Below
import UsageCensus.Proofs.Text.Order

/-!
# Discovery finds what is wanted

Directories that are skipped hold no wanted files, so discovery finds the same files as if it went
everywhere: those that the pattern covers and no ignored glob does, each once and in order
(`find_eq_wanted`). It fails only where there is no room for a glob or for directories that are
inside of each other, and what is below a directory that cannot be listed stays unseen.
-/

namespace UsageCensus.Files

/-! ## The order of places -/

/-- The first place comes before the second one, name by name. -/
def Place.Before (a b : Place) : Prop := List.Lex (fun s t => s < t) a b

theorem Place.le_iff {a b : Place} : Place.le a b = true ↔ ¬ Place.Before b a := by
  unfold Place.le
  rw [Bool.not_eq_true', ← Bool.not_eq_true]
  exact not_congr List.lex_eq_true_iff_lt

theorem Place.before_of_le {a b : Place} (hle : Place.le a b = true) (hne : a ≠ b) :
    Place.Before a b := by
  rw [Place.le_iff] at hle
  by_cases hbefore : Place.Before a b
  · exact hbefore
  · exact absurd (List.le_antisymm hle hbefore) hne

theorem inOrder_perm (places : List Place) : (inOrder places).Perm places :=
  List.mergeSort_perm places Place.le

/-- Different places come out one strictly behind the other. -/
theorem inOrder_sorted {places : List Place} (h : places.Nodup) :
    (inOrder places).Pairwise Place.Before := by
  have hnames : (places.map id).Nodup := by rwa [List.map_id]
  refine (Text.pairwise_mergeSort (fun a b c hab hbc => ?_) (fun a b => ?_) hnames).imp
    fun {a b} hab => Place.before_of_le hab.1 hab.2
  · rw [Place.le_iff] at hab hbc ⊢
    exact List.le_trans hab hbc
  · rw [Bool.or_eq_true, Place.le_iff, Place.le_iff]
    exact List.le_total a b

/-! ## Wanted files -/

/-- A file of the tree that the pattern covers and no ignored glob does. -/
structure IsWantedFile (root : Tree) (pattern : String) (ignored : List String) (place : Place) :
    Prop where
  isFile : ∃ content, root.get? place = some (.file content)
  isCovered : Glob.covers pattern.toList (relativeText place).toList = true
  isKept : Glob.ignores ignored (relativeText place).toList = false

/-- Every directory on the way to a place can be listed, from the first one on. -/
def IsListed (canList : Place → Bool) (place : Place) : Prop :=
  ∀ front back, place = front ++ back → back ≠ [] → canList front = true

/-- Whether a place is wanted, where there is room for the globs. -/
def wants (pattern : String) (ignored : List String) (place : Place) : Bool :=
  Glob.covers pattern.toList (relativeText place).toList
    && !Glob.ignores ignored (relativeText place).toList

theorem wants_iff {root : Tree} {pattern : String} {ignored : List String} {place : Place}
    (hfile : ∃ content, root.get? place = some (.file content)) :
    wants pattern ignored place = true ↔ IsWantedFile root pattern ignored place := by
  rw [wants, Bool.and_eq_true, Bool.not_eq_true']
  constructor
  · rintro ⟨hcovered, hkept⟩
    exact ⟨hfile, hcovered, hkept⟩
  · rintro ⟨-, hcovered, hkept⟩
    exact ⟨hcovered, hkept⟩

theorem not_isListed_of_not_canList {canList : Place → Bool} (hroot : canList [] = false)
    {entries : List (String × Tree)} {pattern : String} {ignored : List String} {place : Place}
    (hwanted : IsWantedFile (.directory entries) pattern ignored place) :
    ¬ IsListed canList place := by
  intro hlisted
  obtain ⟨content, hget⟩ := hwanted.isFile
  have hne : place ≠ [] := by
    rintro rfl
    cases hget
  rw [hlisted [] place rfl hne] at hroot
  cases hroot

theorem relativeText_append {front back : Place} (hfront : front ≠ []) (hback : back ≠ []) :
    (relativeText (front ++ back)).toList
      = (relativeText front).toList ++ '/' :: (relativeText back).toList := by
  unfold relativeText
  rw [String.intercalate_append_of_ne_nil hfront hback, String.toList_append, String.toList_append]
  simp

section

variable [Room]

/-- What can keep discovery from an answer. -/
inductive IsOutOfReach (root : Tree) (pattern : String) (ignored : List String) : Prop
  | pattern (h : Room.pattern < Glob.groupCount 0 pattern.toList)
  | ignored (glob : String) (hglob : glob ∈ ignored)
      (h : Room.ignored < Glob.groupCount 0 glob.toList
        ∨ Room.ignoredBelow < Glob.groupCount 0 glob.toList)
  | directory (place : Place) (inner : List (String × Tree))
      (hplace : root.get? place = some (.directory inner)) (h : Room.entered < place.length)

theorem isWanted_eq (pattern : String) (ignored : List String) (place : Place) :
    isWanted pattern ignored place
      = Glob.tryCovers Room.pattern pattern.toList (relativeText place).toList >>= fun isCovered =>
        if isCovered then
          Glob.tryIgnores Room.ignored ignored (relativeText place).toList >>= fun isIgnored =>
            .ok !isIgnored
        else .ok false := rfl

theorem isWanted_cases (root : Tree) (pattern : String) (ignored : List String) (place : Place) :
    isWanted pattern ignored place = .ok (wants pattern ignored place) ∨
      (isWanted pattern ignored place = .error .tooDeep ∧ IsOutOfReach root pattern ignored) := by
  rw [isWanted_eq, wants]
  rcases Glob.tryCovers_cases Room.pattern pattern.toList (relativeText place).toList with
    h | ⟨h, hdeep⟩
  · rw [h]
    cases Glob.covers pattern.toList (relativeText place).toList with
    | false => exact .inl rfl
    | true =>
      rcases Glob.tryIgnores_cases Room.ignored ignored (relativeText place).toList with
        h | ⟨h, glob, hglob, hdeep⟩
      · left
        rw [h]
        rfl
      · right
        rw [h]
        exact ⟨rfl, .ignored glob hglob (.inl hdeep)⟩
  · right
    rw [h]
    exact ⟨rfl, .pattern hdeep⟩

/-! ## Directories that are not entered -/

theorem isSkipped_error {ignored : List String} {place : Place} {fault : Fault}
    (h : isSkipped ignored place = .error fault) :
    fault = .tooDeep ∧ ((∃ glob ∈ ignored, Room.ignoredBelow < Glob.groupCount 0 glob.toList) ∨
      Room.entered < place.length) := by
  rcases bind_eq_error.1 h with h | ⟨isIgnored, -, h⟩
  · obtain ⟨rfl, hdeep⟩ := Glob.tryIgnoresBelow_error h
    exact ⟨rfl, .inl hdeep⟩
  · by_cases hdeep : Room.entered < place.length
    · cases isIgnored with
      | true => cases h
      | false =>
        simp only [hdeep, decide_true] at h
        cases h
        exact ⟨rfl, .inr hdeep⟩
    · simp only [hdeep, decide_false, Bool.and_false] at h
      cases h

theorem tryIgnoresBelow_of_isSkipped {ignored : List String} {place : Place}
    (h : isSkipped ignored place = .ok true) :
    Glob.tryIgnoresBelow Room.ignoredBelow ignored (relativeText place).toList = .ok true := by
  obtain ⟨isIgnored, hbelow, h⟩ := bind_eq_ok.1 h
  cases isIgnored with
  | true => exact hbelow
  | false =>
    by_cases hdeep : Room.entered < place.length
    · simp only [hdeep, decide_true] at h
      cases h
    · simp only [hdeep, decide_false, Bool.and_false] at h
      cases h

/-- Nothing below a directory that is skipped is wanted. -/
theorem wants_below {pattern : String} {ignored : List String} {front back : Place}
    (h : isSkipped ignored front = .ok true) (hfront : front ≠ []) (hback : back ≠ []) :
    wants pattern ignored (front ++ back) = false := by
  unfold wants
  rw [relativeText_append hfront hback,
    Glob.ignores_below (tryIgnoresBelow_of_isSkipped h) (relativeText back).toList, Bool.not_true,
    Bool.and_false]

end

section

variable {canList : Place → Bool} {skip : Place → Except Fault Bool} {place : Place}

theorem isPassedOver_true (h : isPassedOver canList skip place = .ok true) :
    skip place = .ok true ∨ canList place = false := by
  obtain ⟨isSkipped, hskip, h⟩ := bind_eq_ok.1 h
  cases isSkipped with
  | true => exact .inl hskip
  | false => exact .inr (by simpa using Except.ok.inj h)

theorem canList_of_isPassedOver (h : isPassedOver canList skip place = .ok false) :
    canList place = true := by
  obtain ⟨isSkipped, -, h⟩ := bind_eq_ok.1 h
  simpa using (Bool.or_eq_false_iff.1 (Except.ok.inj h)).2

theorem isPassedOver_error {fault : Fault} (h : isPassedOver canList skip place = .error fault) :
    skip place = .error fault := by
  rcases bind_eq_error.1 h with h | ⟨_, -, h⟩
  · exact h
  · cases h

end

/-! ## What discovery finds -/

section

variable [Room] {canList : Place → Bool} {entries : List (String × Tree)} {pattern : String}
  {ignored : List String} {reached : List (Place × ByteArray)}

/-- Where the root cannot be listed nothing is found, and everything is behind the root. -/
theorem find_of_not_canList (hroot : canList [] = false) :
    find canList (.directory entries) pattern ignored = .ok [] := by
  rw [find, filesListed, hroot]
  show Except.ok (inOrder []) = .ok []
  rw [inOrder, List.mergeSort_nil]

theorem find_of_canList (hroot : canList [] = true) :
    find canList (.directory entries) pattern ignored
      = Tree.entryFiles (isPassedOver canList (isSkipped ignored)) [] entries >>= fun reached =>
        select pattern ignored (reached.map Prod.fst) := by
  rw [find, filesListed, hroot, Tree.filesFrom]
  exact bind_assoc ..

theorem select_cases (root : Tree) (places : List Place) :
    select pattern ignored places = .ok (inOrder (places.filter (wants pattern ignored))) ∨
      (select pattern ignored places = .error .tooDeep ∧ IsOutOfReach root pattern ignored) := by
  unfold select
  rcases filterM_cases fun place (_ : place ∈ places) =>
      isWanted_cases root pattern ignored place with h | ⟨h, hdeep⟩
  · left
    rw [h]
    rfl
  · right
    rw [h]
    exact ⟨rfl, hdeep⟩

/-- The wanted places among those that a walk has come to are all the wanted files whose
directories can be listed. -/
theorem mem_wanted (hnames : Tree.DistinctNames entries) (hroot : canList [] = true)
    (h : Tree.entryFiles (isPassedOver canList (isSkipped ignored)) [] entries = .ok reached)
    (place : Place) :
    place ∈ (reached.map Prod.fst).filter (wants pattern ignored) ↔
      IsWantedFile (.directory entries) pattern ignored place ∧ IsListed canList place := by
  rw [List.mem_filter]
  constructor
  · rintro ⟨hmem, hwants⟩
    obtain ⟨⟨place, content⟩, hentry, rfl⟩ := List.mem_map.1 hmem
    obtain ⟨names, rfl, -, hget⟩ := Tree.mem_entryFiles hnames h hentry
    refine ⟨(wants_iff ⟨content, hget⟩).1 hwants, ?_⟩
    rintro front back hplace hback
    cases front with
    | nil => exact hroot
    | cons name front =>
      have hmem' : [] ++ (name :: front ++ back) ∈ reached.map Prod.fst := hplace ▸ hmem
      exact canList_of_isPassedOver (Tree.entered_of_mem hnames h hmem' (by simp) hback)
  · rintro ⟨hwanted, hlisted⟩
    obtain ⟨content, hget⟩ := hwanted.isFile
    have hwants := (wants_iff ⟨content, hget⟩).2 hwanted
    refine ⟨?_, hwants⟩
    by_cases hmem : ([] ++ place, content) ∈ reached
    · exact List.mem_map.2 ⟨_, hmem, rfl⟩
    · obtain ⟨front, back, rfl, hfront, hback, hover⟩ := Tree.exists_skipped hnames h hget hmem
      rw [List.nil_append] at hover
      rcases isPassedOver_true hover with hskip | hcannot
      · rw [wants_below hskip hfront hback] at hwants
        cases hwants
      · rw [hlisted front back rfl hback] at hcannot
        cases hcannot

end

section

variable [Room]

/-- Discovery finds all wanted files whose directories can be listed and nothing else, each once
and in the order of their places, unless something is out of its reach; and below a directory that
is skipped every path is ignored, as far as there is room to say so. -/
theorem find_eq_wanted (canList : Place → Bool) {entries : List (String × Tree)}
    (hnames : Tree.DistinctNames entries) (pattern : String) (ignored : List String) :
    ((∃ places, find canList (.directory entries) pattern ignored = .ok places ∧
        places.Pairwise Place.Before ∧
        ∀ place, place ∈ places ↔
          IsWantedFile (.directory entries) pattern ignored place ∧ IsListed canList place) ∨
      (find canList (.directory entries) pattern ignored = .error .tooDeep ∧
        IsOutOfReach (.directory entries) pattern ignored)) ∧
    ∀ directory rest, Glob.tryIgnoresBelow Room.ignoredBelow ignored directory = .ok true →
      Glob.tryIgnores Room.ignored ignored (directory ++ '/' :: rest) = .ok true ∨
        (Glob.tryIgnores Room.ignored ignored (directory ++ '/' :: rest) = .error .tooDeep ∧
          ∃ glob ∈ ignored, Room.ignored < Glob.groupCount 0 glob.toList) := by
  refine ⟨?_, fun directory rest h => ?_⟩
  · cases hroot : canList [] with
    | false =>
      left
      refine ⟨[], find_of_not_canList hroot, .nil, fun place => ⟨nofun, ?_⟩⟩
      rintro ⟨hwanted, hlisted⟩
      exact absurd hlisted (not_isListed_of_not_canList hroot hwanted)
    | true =>
      rw [find_of_canList hroot]
      cases hwalk : Tree.entryFiles (isPassedOver canList (isSkipped ignored)) [] entries with
      | error fault =>
        right
        obtain ⟨names, inner, hget, -, hover⟩ := Tree.exists_failing hnames hwalk
        obtain ⟨rfl, ⟨glob, hglob, hdeep⟩ | hdeep⟩ := isSkipped_error (isPassedOver_error hover)
        · exact ⟨rfl, .ignored glob hglob (.inr hdeep)⟩
        · exact ⟨rfl, .directory names inner hget hdeep⟩
      | ok reached =>
        rcases select_cases (.directory entries) (reached.map Prod.fst) with h | hfault
        · refine .inl ⟨_, h, ?_, fun place => ?_⟩
          · exact inOrder_sorted ((Tree.nodup_entryFiles hnames hwalk).filter _)
          · rw [(inOrder_perm _).mem_iff, mem_wanted hnames hroot hwalk]
        · exact .inr hfault
  · have hignored := Glob.ignores_below h rest
    rcases Glob.tryIgnores_cases Room.ignored ignored (directory ++ '/' :: rest) with h | h
    · exact .inl (by rw [h, hignored])
    · exact .inr h

end

/-- The files of a small project. -/
def shopFiles : List (String × Tree) :=
  [("index.tsx", .file .empty),
    ("node_modules", .directory [("ui", .directory [("Card.tsx", .file .empty)])]),
    ("src", .directory [("Cart.tsx", .file .empty), ("Cart.test.tsx", .file .empty)])]

theorem distinctNames_shopFiles : Tree.DistinctNames shopFiles := by
  refine .file (by decide) (.directory (by simp) ?_ (.directory (by simp) ?_ .nil))
  · exact .directory (by simp) (.file (by simp) .nil) .nil
  · exact .file (by simp) (.file (by simp) .nil)

/-- The files that are neither tests nor below `node_modules`, where all directories can be
listed. -/
theorem find_shopFiles :
    let _ : Room := .ofSize 1000 (by decide)
    Tree.DistinctNames shopFiles ∧
    find (fun _ => true) (.directory shopFiles) "**/*.tsx" ["node_modules/**", "**/*.test.*"]
      = .ok [["index.tsx"], ["src", "Cart.tsx"]] ∧
    (∀ place, place ∈ [["index.tsx"], ["src", "Cart.tsx"]] ↔
      IsWantedFile (.directory shopFiles) "**/*.tsx" ["node_modules/**", "**/*.test.*"] place ∧
        IsListed (fun _ => true) place) ∧
    ∀ rest, Glob.tryIgnores 1000 ["node_modules/**", "**/*.test.*"]
      ("node_modules".toList ++ '/' :: rest) = .ok true := by
  intro room
  have hfind : find (fun _ => true) (.directory shopFiles) "**/*.tsx"
      ["node_modules/**", "**/*.test.*"] = .ok [["index.tsx"], ["src", "Cart.tsx"]] := by cbv
  obtain ⟨hfound, hbelow⟩ := find_eq_wanted (fun _ => true) distinctNames_shopFiles "**/*.tsx"
    ["node_modules/**", "**/*.test.*"]
  refine ⟨distinctNames_shopFiles, hfind, ?_, fun rest => ?_⟩
  · rw [hfind] at hfound
    obtain ⟨places, h, -, hmem⟩ | ⟨h, -⟩ := hfound
    · exact Except.ok.inj h ▸ hmem
    · cases h
  · obtain h | ⟨-, glob, hglob, hdeep⟩ := hbelow "node_modules".toList rest (by cbv)
    · exact h
    · have : ∀ glob ∈ ["node_modules/**", "**/*.test.*"],
          ¬ 1000 < Glob.groupCount 0 glob.toList := by decide
      exact absurd hdeep (this glob hglob)

/-! ## What is out of reach -/

/-- A pattern of groups of one option. -/
def groups (n : Nat) : List Char := (List.replicate n ['\x7b', 'a', '\x7d']).flatten

theorem groupCount_groups (n : Nat) : Glob.groupCount 0 (groups n) = n := by
  unfold groups
  induction n with
  | zero => rfl
  | succ n ih =>
    rw [List.replicate_succ, List.flatten_cons]
    show Glob.groupCount 0 (List.replicate n _).flatten + 1 = n + 1
    rw [ih]

/-- A file below directories that are inside of each other. -/
def nested : Nat → List (String × Tree)
  | 0 => [("a", .file .empty)]
  | n + 1 => [("d", .directory (nested n))]

section

variable [Room]

/-- A pattern that there is no room for is a fault as soon as there is a file. -/
theorem find_of_not_shallow {pattern : String} (h : Room.pattern < Glob.groupCount 0 pattern.toList)
    (name : String) (content : ByteArray) :
    find (fun _ => true) (.directory [(name, .file content)]) pattern [] = .error .tooDeep := by
  have hwanted : isWanted pattern [] [name] = .error .tooDeep := by
    have hshallow : Glob.isShallow Room.pattern pattern.toList = false := by
      simpa [Glob.isShallow] using h
    rw [isWanted_eq, Glob.tryCovers, hshallow]
    rfl
  rw [find, filesListed, Tree.filesFrom, Tree.entryFiles, Tree.entryFiles]
  show select pattern [] [[name]] = .error .tooDeep
  rw [select, List.filterM, List.filterAuxM, hwanted]
  rfl

theorem isPassedOver_nothingIgnored (place : Place) :
    isPassedOver (fun _ => true) (isSkipped []) place
      = if Room.entered < place.length then .error .tooDeep else .ok false := by
  unfold isPassedOver isSkipped Glob.tryIgnoresBelow
  by_cases h : Room.entered < place.length
  · rw [decide_eq_true h, if_pos h]
    rfl
  · rw [decide_eq_false h, if_neg h]
    rfl

/-- Directories that there is no room for are a fault as soon as the walk comes to them. -/
theorem entryFiles_nested (n : Nat) {here : Place} (hhere : here.length ≤ Room.entered)
    (hdeep : Room.entered < here.length + n) :
    Tree.entryFiles (isPassedOver (fun _ => true) (isSkipped [])) here (nested n)
      = .error .tooDeep := by
  induction n generalizing here with
  | zero => omega
  | succ n ih =>
    have hlength : (here ++ ["d"]).length = here.length + 1 := List.length_append
    rw [nested, Tree.entryFiles, isPassedOver_nothingIgnored, hlength]
    by_cases hnext : Room.entered < here.length + 1
    · rw [if_pos hnext]
      rfl
    · have hinner : Tree.entryFiles (isPassedOver (fun _ => true) (isSkipped []))
          (here ++ ["d"]) (nested n) = .error .tooDeep := ih (by omega) (by omega)
      rw [if_neg hnext]
      exact bind_eq_error.2 (.inr ⟨false, rfl, bind_eq_error.2 (.inl hinner)⟩)

end

/-- A pattern of many groups and a deep tree give no answer, and a wanted file below a directory
that cannot be listed is not found. -/
theorem find_outOfReach :
    let _ : Room := .ofSize 1000 (by decide)
    find (fun _ => true) (.directory [("a", .file .empty)]) (String.ofList (groups 1100)) []
      = .error .tooDeep ∧
    find (fun _ => true) (.directory (nested 1100)) "**" [] = .error .tooDeep ∧
    find (fun place => decide (place.length < 2)) (.directory (nested 3)) "**" [] = .ok [] ∧
    IsWantedFile (.directory (nested 3)) "**" [] ["d", "d", "d", "a"] := by
  intro room
  refine ⟨?_, ?_, by cbv, ⟨.empty, by cbv⟩, by cbv, by cbv⟩
  · refine find_of_not_shallow ?_ "a" .empty
    rw [String.toList_ofList, groupCount_groups]
    decide
  · have hwalk : Tree.entryFiles (isPassedOver (fun _ => true) (isSkipped [])) [] (nested 1100)
        = .error .tooDeep := entryFiles_nested 1100 (by decide) (by decide)
    rw [find, filesListed, Tree.filesFrom, hwalk]
    rfl

end UsageCensus.Files
