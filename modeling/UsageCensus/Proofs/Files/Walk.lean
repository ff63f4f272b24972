import UsageCensus.Files.Tree
import UsageCensus.Proofs.Attempts

/-!
# Walking through a tree

A walk comes to every file that is not below a directory it does not enter, and to no other, and
to each one once (`exists_skipped`, `entered_of_mem`, `nodup_entryFiles`); it fails only where it is
asked about a directory of the tree (`exists_failing`). Trees have no two entries of one name in a
directory.
-/

namespace UsageCensus.Files.Tree

/-- No two entries of a directory have one name, here and in the directories below. -/
inductive DistinctNames : List (String × Tree) → Prop
  | nil : DistinctNames []
  | file {name : String} {content : ByteArray} {entries : List (String × Tree)}
      (hname : ∀ entry ∈ entries, entry.1 ≠ name) (hrest : DistinctNames entries) :
      DistinctNames ((name, .file content) :: entries)
  | directory {name : String} {inner entries : List (String × Tree)}
      (hname : ∀ entry ∈ entries, entry.1 ≠ name) (hinner : DistinctNames inner)
      (hrest : DistinctNames entries) : DistinctNames ((name, .directory inner) :: entries)

/-! ## What stands at a place -/

section

variable {name : String} {names : List String} {tree found : Tree} {entries : List (String × Tree)}

theorem get?_cons_self :
    (directory ((name, tree) :: entries)).get? (name :: names) = tree.get? names := by
  rw [get?, List.lookup_cons_self]

theorem get?_cons_of_ne {other : String} (h : other ≠ name) :
    (directory ((name, tree) :: entries)).get? (other :: names)
      = (directory entries).get? (other :: names) := by
  have hne : (other == name) = false := by simpa using h
  simp only [get?, List.lookup_cons, hne]

theorem exists_entry_of_get? (h : (directory entries).get? (name :: names) = some found) :
    ∃ entry ∈ entries, entry.1 = name := by
  rw [get?] at h
  cases hlookup : entries.lookup name with
  | none => rw [hlookup] at h; cases h
  | some inner =>
    obtain ⟨front, back, rfl, -⟩ := List.lookup_eq_some_iff.1 hlookup
    exact ⟨(name, inner), by simp, rfl⟩

theorem get?_cons_of_get? (hname : ∀ entry ∈ entries, entry.1 ≠ name) (hne : names ≠ [])
    (h : (directory entries).get? names = some found) :
    (directory ((name, tree) :: entries)).get? names = some found := by
  cases names with
  | nil => exact absurd rfl hne
  | cons other names =>
    obtain ⟨entry, hentry, rfl⟩ := exists_entry_of_get? h
    rw [get?_cons_of_ne (hname entry hentry), h]

end

/-! ## Walks that may fail -/

section

variable {ε : Type} {skip : Place → Except ε Bool} {here : Place} {name : String}
  {content : ByteArray} {inner entries : List (String × Tree)} {found : List (Place × ByteArray)}

theorem entryFiles_file (h : entryFiles skip here ((name, file content) :: entries) = .ok found) :
    ∃ rest, entryFiles skip here entries = .ok rest ∧
      found = (here ++ [name], content) :: rest := by
  rw [entryFiles, bind_eq_ok] at h
  obtain ⟨rest, hrest, e⟩ := h
  cases e
  exact ⟨rest, hrest, rfl⟩

theorem entryFiles_directory
    (h : entryFiles skip here ((name, directory inner) :: entries) = .ok found) :
    ∃ below rest, entryFiles skip here entries = .ok rest ∧ found = below ++ rest ∧
      ((skip (here ++ [name]) = .ok true ∧ below = []) ∨
        (skip (here ++ [name]) = .ok false ∧
          entryFiles skip (here ++ [name]) inner = .ok below)) := by
  rw [entryFiles, bind_eq_ok] at h
  obtain ⟨isSkipped, hskip, h⟩ := h
  cases isSkipped with
  | true =>
    obtain ⟨below, hbelow, h⟩ := bind_eq_ok.1 h
    obtain ⟨rest, hrest, e⟩ := bind_eq_ok.1 h
    cases hbelow
    cases e
    exact ⟨[], rest, hrest, rfl, .inl ⟨hskip, rfl⟩⟩
  | false =>
    obtain ⟨below, hbelow, h⟩ := bind_eq_ok.1 h
    obtain ⟨rest, hrest, e⟩ := bind_eq_ok.1 h
    cases e
    exact ⟨below, rest, hrest, rfl, .inr ⟨hskip, hbelow⟩⟩

theorem entryFiles_directory_error {e : ε}
    (h : entryFiles skip here ((name, directory inner) :: entries) = .error e) :
    skip (here ++ [name]) = .error e ∨ entryFiles skip (here ++ [name]) inner = .error e ∨
      entryFiles skip here entries = .error e := by
  rw [entryFiles, bind_eq_error] at h
  rcases h with hskip | ⟨isSkipped, -, h⟩
  · exact .inl hskip
  · have hrest : ∀ {below : List (Place × ByteArray)},
        (do let rest ← entryFiles skip here entries; return below ++ rest) = .error e →
          entryFiles skip here entries = .error e := by
      intro below h
      rcases bind_eq_error.1 h with h | ⟨_, -, h⟩
      · exact h
      · cases h
    cases isSkipped with
    | true => exact .inr (.inr (hrest h))
    | false =>
      rcases bind_eq_error.1 h with h | ⟨below, -, h⟩
      · exact .inr (.inl h)
      · exact .inr (.inr (hrest h))

theorem mem_entryFiles (hnames : DistinctNames entries)
    (h : entryFiles skip here entries = .ok found) {place : Place}
    (hmem : (place, content) ∈ found) :
    ∃ names, place = here ++ names ∧ names ≠ [] ∧
      (directory entries).get? names = some (file content) := by
  induction hnames generalizing here found with
  | nil => rw [entryFiles] at h; cases h; cases hmem
  | @file name _ entries hname hnames ih =>
    obtain ⟨rest, hrest, rfl⟩ := entryFiles_file h
    rcases List.mem_cons.1 hmem with e | hmem
    · cases e
      exact ⟨[name], rfl, by simp, get?_cons_self⟩
    · obtain ⟨names, hplace, hne, hget⟩ := ih hrest hmem
      exact ⟨names, hplace, hne, get?_cons_of_get? hname hne hget⟩
  | @directory name inner entries hname hinner hnames ihInner ih =>
    obtain ⟨below, rest, hrest, rfl, hbelow⟩ := entryFiles_directory h
    rcases List.mem_append.1 hmem with hmem | hmem
    · rcases hbelow with ⟨-, rfl⟩ | ⟨-, hbelow⟩
      · cases hmem
      · obtain ⟨names, hplace, hne, hget⟩ := ihInner hbelow hmem
        refine ⟨name :: names, ?_, by simp, ?_⟩
        · rw [hplace, List.append_assoc, List.singleton_append]
        · rw [get?_cons_self, hget]
    · obtain ⟨names, hplace, hne, hget⟩ := ih hrest hmem
      exact ⟨names, hplace, hne, get?_cons_of_get? hname hne hget⟩

/-- The directories that lead to a file that a walk finds are entered. -/
theorem entered_of_mem (hnames : DistinctNames entries)
    (h : entryFiles skip here entries = .ok found) {front back : List String}
    (hmem : here ++ (front ++ back) ∈ found.map Prod.fst) (hfront : front ≠ [])
    (hback : back ≠ []) : skip (here ++ front) = .ok false := by
  induction hnames generalizing here found front with
  | nil => rw [entryFiles] at h; cases h; cases hmem
  | @file name _ entries hname hnames ih =>
    obtain ⟨rest, hrest, rfl⟩ := entryFiles_file h
    rcases List.mem_cons.1 hmem with e | hmem
    · have hlength := congrArg List.length (List.append_cancel_left e)
      have := List.length_pos_iff.2 hfront
      have := List.length_pos_iff.2 hback
      simp only [List.length_append, List.length_singleton] at hlength
      omega
    · exact ih hrest hmem hfront
  | @directory name inner entries hname hinner hnames ihInner ih =>
    obtain ⟨below, rest, hrest, rfl, hbelow⟩ := entryFiles_directory h
    rw [List.map_append] at hmem
    rcases List.mem_append.1 hmem with hmem | hmem
    · rcases hbelow with ⟨-, rfl⟩ | ⟨hskip, hbelow⟩
      · cases hmem
      · obtain ⟨⟨place, content⟩, hentry, hplace⟩ := List.mem_map.1 hmem
        obtain ⟨names, rfl, -, -⟩ := mem_entryFiles hinner hbelow hentry
        cases front with
        | nil => exact absurd rfl hfront
        | cons first front =>
          rw [List.append_assoc] at hplace
          obtain ⟨rfl, rfl⟩ := List.cons.inj (List.append_cancel_left hplace)
          cases front with
          | nil => exact hskip
          | cons second front =>
            have hmem' : here ++ [name] ++ (second :: front ++ back) ∈ below.map Prod.fst := by
              rw [List.append_assoc]
              exact hmem
            have := ihInner hbelow hmem' (by simp)
            rwa [List.append_assoc] at this
    · exact ih hrest hmem hfront

/-- A file that a walk does not find is below a directory that is not entered. -/
theorem exists_skipped (hnames : DistinctNames entries)
    (h : entryFiles skip here entries = .ok found) {names : List String}
    (hget : (directory entries).get? names = some (file content))
    (hmem : (here ++ names, content) ∉ found) :
    ∃ front back, names = front ++ back ∧ front ≠ [] ∧ back ≠ [] ∧
      skip (here ++ front) = .ok true := by
  induction hnames generalizing here found names with
  | nil =>
    cases names with
    | nil => cases hget
    | cons other names => cases hget
  | @file name _ entries hname hnames ih =>
    obtain ⟨rest, hrest, rfl⟩ := entryFiles_file h
    cases names with
    | nil => cases hget
    | cons other names =>
      by_cases hname : other = name
      · subst hname
        rw [get?_cons_self] at hget
        cases names with
        | nil => cases hget; exact absurd List.mem_cons_self hmem
        | cons _ _ => cases hget
      · rw [get?_cons_of_ne hname] at hget
        exact ih hrest hget fun hrest => hmem (List.mem_cons_of_mem _ hrest)
  | @directory name inner entries hname hinner hnames ihInner ih =>
    obtain ⟨below, rest, hrest, rfl, hbelow⟩ := entryFiles_directory h
    cases names with
    | nil => cases hget
    | cons other names =>
      by_cases hname : other = name
      · subst hname
        rw [get?_cons_self] at hget
        have hne : names ≠ [] := by rintro rfl; cases hget
        rcases hbelow with ⟨hskip, -⟩ | ⟨-, hbelow⟩
        · exact ⟨[other], names, rfl, by simp, hne, hskip⟩
        · have hnot : (here ++ [other] ++ names, content) ∉ below := by
            rw [List.append_assoc]
            exact fun hin => hmem (List.mem_append_left _ hin)
          obtain ⟨front, back, rfl, -, hback, hskip⟩ := ihInner hbelow hget hnot
          refine ⟨other :: front, back, rfl, by simp, hback, ?_⟩
          rwa [List.append_assoc] at hskip
      · rw [get?_cons_of_ne hname] at hget
        exact ih hrest hget fun hrest => hmem (List.mem_append_right _ hrest)

theorem not_mem_of_ne (hname : ∀ entry ∈ entries, entry.1 ≠ name) (hnames : DistinctNames entries)
    (h : entryFiles skip here entries = .ok found) (names : List String) :
    here ++ name :: names ∉ found.map Prod.fst := by
  intro hmem
  obtain ⟨⟨place, content⟩, hmem, hplace⟩ := List.mem_map.1 hmem
  obtain ⟨names', rfl, hne, hget⟩ := mem_entryFiles hnames h hmem
  obtain rfl : names' = name :: names := List.append_cancel_left hplace
  obtain ⟨entry, hentry, e⟩ := exists_entry_of_get? hget
  exact hname entry hentry e

theorem nodup_entryFiles (hnames : DistinctNames entries)
    (h : entryFiles skip here entries = .ok found) : (found.map Prod.fst).Nodup := by
  induction hnames generalizing here found with
  | nil => rw [entryFiles] at h; cases h; exact List.nodup_nil
  | @file name _ entries hname hnames ih =>
    obtain ⟨rest, hrest, rfl⟩ := entryFiles_file h
    exact List.nodup_cons.2 ⟨not_mem_of_ne hname hnames hrest [], ih hrest⟩
  | @directory name inner entries hname hinner hnames ihInner ih =>
    obtain ⟨below, rest, hrest, rfl, hbelow⟩ := entryFiles_directory h
    have hnodup := ih hrest
    rcases hbelow with ⟨-, rfl⟩ | ⟨-, hbelow⟩
    · exact hnodup
    · rw [List.map_append, List.nodup_append]
      refine ⟨ihInner hbelow, hnodup, ?_⟩
      rintro place hplace _ hplace' rfl
      obtain ⟨⟨place, content⟩, hmem, rfl⟩ := List.mem_map.1 hplace
      obtain ⟨names, rfl, -, -⟩ := mem_entryFiles hinner hbelow hmem
      rw [List.append_assoc] at hplace'
      exact not_mem_of_ne hname hnames hrest names hplace'

/-- A walk fails only where a directory of the tree is asked about. -/
theorem exists_failing (hnames : DistinctNames entries) {e : ε}
    (h : entryFiles skip here entries = .error e) :
    ∃ names inner, (directory entries).get? names = some (directory inner) ∧ names ≠ [] ∧
      skip (here ++ names) = .error e := by
  induction hnames generalizing here with
  | nil => rw [entryFiles] at h; cases h
  | @file name _ entries hname hnames ih =>
    rw [entryFiles, bind_eq_error] at h
    rcases h with h | ⟨_, _, h⟩
    · obtain ⟨names, inner, hget, hne, hskip⟩ := ih h
      exact ⟨names, inner, get?_cons_of_get? hname hne hget, hne, hskip⟩
    · cases h
  | @directory name inner entries hname hinner hnames ihInner ih =>
    rcases entryFiles_directory_error h with h | h | h
    · exact ⟨[name], inner, get?_cons_self, by simp, h⟩
    · obtain ⟨names, inner', hget, hne, hskip⟩ := ihInner h
      refine ⟨name :: names, inner', ?_, by simp, ?_⟩
      · rw [get?_cons_self, hget]
      · rwa [List.append_assoc] at hskip
    · obtain ⟨names, inner', hget, hne, hskip⟩ := ih h
      exact ⟨names, inner', get?_cons_of_get? hname hne hget, hne, hskip⟩

end

end UsageCensus.Files.Tree
