import Mathlib.Logic.Function.Basic
import UsageCensus.Files.Tree
import UsageCensus.Proofs.Attempts

/-!
# What stands at the places of a tree

A tree is told by what stands at each place, a file with its content or a directory (`nodeAt?`).
Putting something into a directory that is there, and taking a file away, change this at one place
only (`nodeAt?_put`, `nodeAt?_erase`). A walk along names, `..` among them, comes to what stands at
the place that the names lead to (`nodeAt?_of_reach`), and where all names can be given, the walk to
something is possible (`reach_of_get?`).
-/

namespace UsageCensus.Files

/-- What stands at a place, whatever is below. -/
inductive Node where
  | file (content : ByteArray)
  | directory

namespace Node

/-- The content, if it is that of a file. -/
def content? : Node → Option ByteArray
  | file content => some content
  | directory => none

end Node

namespace Tree

def node : Tree → Node
  | file content => .file content
  | directory _ => .directory

/-- What stands at a place. -/
def nodeAt? (tree : Tree) (place : Place) : Option Node := (tree.get? place).map node

/-- The file at a place, if there is one. -/
def fileAt? (tree : Tree) (place : Place) : Option ByteArray :=
  (tree.nodeAt? place).bind Node.content?

section

variable {tree new found : Tree} {place below : Place} {name : String} {names : List String}
  {entries : List (String × Tree)} {content : ByteArray}

theorem nodeAt?_file (content : ByteArray) (h : below ≠ []) : (file content).nodeAt? below = none := by
  cases below with
  | nil => exact absurd rfl h
  | cons name below => rfl

theorem nodeAt?_directory (entries : List (String × Tree)) (name : String) (names : List String) :
    (directory entries).nodeAt? (name :: names)
      = (entries.lookup name).bind fun entry => entry.nodeAt? names := by
  rw [nodeAt?, get?]
  cases entries.lookup name <;> rfl

theorem get?_append (tree : Tree) (place below : Place) :
    tree.get? (place ++ below) = (tree.get? place).bind fun found => found.get? below := by
  induction place generalizing tree with
  | nil => rfl
  | cons name place ih =>
    cases tree with
    | file content => rfl
    | directory entries =>
      rw [List.cons_append, get?, get?]
      cases entries.lookup name with
      | none => rfl
      | some entry => exact ih entry

theorem nodeAt?_append (tree : Tree) (place below : Place) :
    tree.nodeAt? (place ++ below) = (tree.get? place).bind fun found => found.nodeAt? below := by
  rw [nodeAt?, get?_append, Option.map_bind]
  rfl

theorem exists_directory_of_nodeAt? (h : tree.nodeAt? place = some .directory) :
    ∃ entries, tree.get? place = some (directory entries) := by
  rw [nodeAt?, Option.map_eq_some_iff] at h
  obtain ⟨_ | entries, hget, hnode⟩ := h
  · cases hnode
  · exact ⟨entries, hget⟩

theorem exists_file_of_nodeAt? (h : tree.nodeAt? place = some (.file content)) :
    tree.get? place = some (file content) := by
  rw [nodeAt?, Option.map_eq_some_iff] at h
  obtain ⟨_ | entries, hget, hnode⟩ := h
  · cases hnode
    exact hget
  · cases hnode

/-- Below a file, and below nothing, there is nothing. -/
theorem nodeAt?_below (h : tree.nodeAt? place ≠ some .directory) (hbelow : below ≠ []) :
    tree.nodeAt? (place ++ below) = none := by
  rw [nodeAt?_append]
  cases hget : tree.get? place with
  | none => rfl
  | some found =>
    cases found with
    | file content => exact nodeAt?_file content hbelow
    | directory entries => exact absurd (by rw [nodeAt?, hget]; rfl) h

/-- Above a directory there are directories. -/
theorem nodeAt?_above (h : tree.nodeAt? (place ++ below) = some .directory) :
    tree.nodeAt? place = some .directory := by
  by_contra hplace
  by_cases hbelow : below = []
  · rw [hbelow, List.append_nil] at h
    exact hplace h
  · rw [nodeAt?_below hplace hbelow] at h
    cases h

/-! ## Changes at one place -/

/-- A directory in which one entry changes at one place below. -/
theorem nodeAt?_eq_update {entries' : List (String × Tree)} {node : Option Node}
    (hother : ∀ other, other ≠ name → entries'.lookup other = entries.lookup other)
    (hname : ∀ rest, (directory entries').nodeAt? (name :: rest)
      = Function.update (fun rest => (directory entries).nodeAt? (name :: rest)) names node rest) :
    (directory entries').nodeAt?
      = Function.update (directory entries).nodeAt? (name :: names) node := by
  funext place
  cases place with
  | nil => rfl
  | cons other rest =>
    by_cases hfirst : other = name
    · subst hfirst
      rw [hname]
      by_cases hrest : rest = names
      · rw [hrest, Function.update_self, Function.update_self]
      · rw [Function.update_of_ne hrest, Function.update_of_ne (by simpa using hrest)]
    · rw [Function.update_of_ne (by simp [hfirst]), nodeAt?_directory, nodeAt?_directory,
        hother other hfirst]

/-- In a directory that is there, something is put at a place with nothing below it. -/
theorem nodeAt?_put (hparent : tree.nodeAt? place = some .directory)
    (hempty : tree.nodeAt? (place ++ [name]) ≠ some .directory)
    (hnew : ∀ below, below ≠ [] → new.nodeAt? below = none) :
    (tree.put new (place ++ [name])).nodeAt?
      = Function.update tree.nodeAt? (place ++ [name]) (some new.node) := by
  induction place generalizing tree with
  | nil =>
    cases tree with
    | file content => cases hparent
    | directory entries =>
      show (directory (updatePairs name (fun _ => new) entries)).nodeAt? = _
      refine nodeAt?_eq_update (fun other hother => ?_) fun rest => ?_
      · rw [lookup_updatePairs, if_neg hother]
      · rw [nodeAt?_directory, lookup_updatePairs, if_pos rfl, Option.bind_some]
        by_cases hrest : rest = []
        · rw [hrest, Function.update_self]
          rfl
        · rw [hnew rest hrest, Function.update_of_ne hrest]
          exact (nodeAt?_below hempty hrest).symm
  | cons first place ih =>
    cases tree with
    | file content => cases hparent
    | directory entries =>
      rw [nodeAt?_directory] at hparent
      rw [List.cons_append, nodeAt?_directory] at hempty
      cases hlookup : entries.lookup first with
      | none => rw [hlookup] at hparent; cases hparent
      | some entry =>
        rw [hlookup] at hparent hempty
        show (directory (updatePairs first (fun old =>
          (old.getD (directory [])).put new (place ++ [name])) entries)).nodeAt? = _
        refine nodeAt?_eq_update (fun other hother => ?_) fun rest => ?_
        · rw [lookup_updatePairs, if_neg hother]
        · simp only [nodeAt?_directory, lookup_updatePairs, if_true, hlookup, Option.bind_some,
            Option.getD_some]
          rw [ih hparent hempty]
          rfl

theorem lookup_filter_ne (entries : List (String × Tree)) (name other : String) :
    (entries.filter fun entry => entry.1 != name).lookup other
      = if other = name then none else entries.lookup other := by
  induction entries with
  | nil => simp
  | cons entry entries ih =>
    obtain ⟨first, tree⟩ := entry
    by_cases hfirst : first = name
    · subst hfirst
      rw [List.filter_cons_of_neg (by simp), ih, List.lookup_cons]
      by_cases hother : other = first
      · simp [hother]
      · simp [hother, beq_eq_false_iff_ne.2 hother]
    · rw [List.filter_cons_of_pos (by simpa using hfirst), List.lookup_cons, List.lookup_cons, ih]
      by_cases hother : other = first
      · subst hother
        simp [hfirst]
      · simp [beq_eq_false_iff_ne.2 hother]

theorem lookup_map_at (change : Tree → Tree) (entries : List (String × Tree))
    (name other : String) :
    (entries.map fun entry => if entry.1 = name then (name, change entry.2) else entry).lookup other
      = if other = name then (entries.lookup name).map change else entries.lookup other := by
  induction entries with
  | nil => simp
  | cons entry entries ih =>
    obtain ⟨first, tree⟩ := entry
    rw [List.map_cons]
    by_cases hfirst : first = name
    · subst hfirst
      rw [if_pos rfl, List.lookup_cons, ih]
      by_cases hother : other = first
      · simp [hother]
      · simp [hother, List.lookup_cons, beq_eq_false_iff_ne.2 hother]
    · rw [if_neg hfirst, List.lookup_cons, ih]
      by_cases hother : other = first
      · subst hother
        simp [hfirst]
      · simp [List.lookup_cons, beq_eq_false_iff_ne.2 hother,
          beq_eq_false_iff_ne.2 (Ne.symm hfirst)]

/-- A file that is taken away is all that is missing. -/
theorem nodeAt?_erase (h : tree.nodeAt? place = some (.file content)) (hne : place ≠ []) :
    (tree.erase place).nodeAt? = Function.update tree.nodeAt? place none := by
  induction place generalizing tree with
  | nil => exact absurd rfl hne
  | cons name names ih =>
    cases tree with
    | file content => cases h
    | directory entries =>
      rw [nodeAt?_directory] at h
      cases hlookup : entries.lookup name with
      | none => rw [hlookup] at h; cases h
      | some entry =>
        rw [hlookup, Option.bind_some] at h
        rw [erase]
        by_cases hnames : names = []
        · subst hnames
          rw [List.isEmpty_nil, if_pos rfl]
          refine nodeAt?_eq_update (fun other hother => ?_) fun rest => ?_
          · rw [lookup_filter_ne, if_neg hother]
          · rw [nodeAt?_directory, lookup_filter_ne, if_pos rfl, Option.bind_none]
            by_cases hrest : rest = []
            · rw [hrest, Function.update_self]
            · rw [Function.update_of_ne hrest, nodeAt?_directory, hlookup, Option.bind_some]
              have hroot : entry.nodeAt? [] ≠ some .directory := by
                rw [h]
                simp
              exact (nodeAt?_below hroot hrest).symm
        · rw [if_neg (by simpa using hnames)]
          have hlookups := lookup_map_at (fun entry => entry.erase names) entries name
          refine nodeAt?_eq_update (fun other hother => ?_) fun rest => ?_
          · rw [hlookups, if_neg hother]
          · simp only [nodeAt?_directory, hlookups, if_true, hlookup, Option.bind_some,
              Option.map_some]
            rw [ih h hnames]

/-! ## Files -/

theorem fileAt?_of_nodeAt?_eq {tree' : Tree} {node : Option Node}
    (h : tree'.nodeAt? = Function.update tree.nodeAt? place node) :
    tree'.fileAt? = Function.update tree.fileAt? place (node.bind Node.content?) := by
  funext other
  rw [fileAt?, h]
  by_cases hother : other = place
  · rw [hother, Function.update_self, Function.update_self]
  · rw [Function.update_of_ne hother, Function.update_of_ne hother]
    rfl

theorem fileAt?_eq_some_iff :
    tree.fileAt? place = some content ↔ tree.nodeAt? place = some (.file content) := by
  rw [fileAt?]
  cases tree.nodeAt? place with
  | none => simp
  | some node => cases node <;> simp [Node.content?]

end

/-! ## Walking -/

section

variable {root tree found : Tree} {above : List Tree} {back names : List String} {place : Place}

/-- The names that have been walked along without turning back, the last one first, with the
directories on the way. -/
inductive Leads (root : Tree) : List String → List Tree → Tree → Prop
  | root : Leads root [] [] root
  | into {back : List String} {above : List Tree} {entries : List (String × Tree)} {name : String}
      {entry : Tree} (hback : Leads root back above (directory entries)) (hup : name ≠ "..")
      (hshort : Path.isLongName name = false) (hentry : entries.lookup name = some entry) :
      Leads root (name :: back) (directory entries :: above) entry

theorem Leads.get? (h : Leads root back above tree) : root.get? back.reverse = some tree := by
  induction h with
  | root => rfl
  | into hback hup hshort hentry ih =>
    rw [List.reverse_cons, get?_append, ih, Option.bind_some, Tree.get?, hentry]
    rfl

/-- Names that can be given, none of them `..`. -/
def AreDirect (names : List String) : Prop :=
  ∀ name ∈ names, name ≠ ".." ∧ Path.isLongName name = false

theorem Leads.areDirect (h : Leads root back above tree) : AreDirect back := by
  induction h with
  | root => exact fun name hname => by cases hname
  | into _ hup hshort _ ih => exact List.forall_mem_cons.2 ⟨⟨hup, hshort⟩, ih⟩

/-- One name takes the way further, or one step back. -/
def stepBack (back : List String) (name : String) : List String :=
  if name = ".." then back.drop 1 else name :: back

theorem follow_eq (here : Place) (names : List String) :
    Path.follow here names = (names.foldl stepBack here.reverse).reverse := rfl

theorem exists_leads_of_walk (h : Leads root back above tree)
    (hwalk : walk above tree names = .ok found) :
    ∃ above', Leads root (names.foldl stepBack back) above' found := by
  induction names generalizing back above tree with
  | nil =>
    rw [walk] at hwalk
    cases hwalk
    exact ⟨above, h⟩
  | cons name names ih =>
    rw [List.foldl_cons]
    cases tree with
    | file content =>
      rw [walk] at hwalk
      cases hwalk
    | directory entries =>
      rw [walk.eq_def] at hwalk
      dsimp only at hwalk
      by_cases hlong : Path.isLongName name = true
      · rw [if_pos hlong] at hwalk
        cases hwalk
      · rw [if_neg hlong] at hwalk
        by_cases hup : name = ".."
        · rw [if_pos hup] at hwalk
          rw [stepBack, if_pos hup]
          cases h with
          | root => exact ih .root hwalk
          | into hback _ _ _ => exact ih hback hwalk
        · rw [if_neg hup] at hwalk
          rw [stepBack, if_neg hup]
          cases hentry : entries.lookup name with
          | none =>
            rw [hentry] at hwalk
            cases hwalk
          | some entry =>
            rw [hentry] at hwalk
            exact ih (.into h hup (Bool.eq_false_iff.2 hlong) hentry) hwalk

/-- A walk comes to what stands at the place that the names lead to. -/
theorem get?_of_reach (h : tree.reach names = .ok found) :
    tree.get? (Path.follow [] names) = some found ∧ AreDirect (Path.follow [] names) := by
  obtain ⟨above, hleads⟩ := exists_leads_of_walk .root h
  refine ⟨hleads.get?, fun name hname => ?_⟩
  exact hleads.areDirect name (List.mem_reverse.1 hname)

theorem nodeAt?_of_reach (h : tree.reach names = .ok found) :
    tree.nodeAt? (Path.follow [] names) = some found.node := by
  rw [nodeAt?, (get?_of_reach h).1]
  rfl

theorem walk_of_get? (hnames : AreDirect names) (h : tree.get? names = some found) :
    walk above tree names = .ok found := by
  induction names generalizing tree above with
  | nil =>
    cases h
    rw [walk]
  | cons name names ih =>
    obtain ⟨⟨hup, hshort⟩, hnames⟩ := List.forall_mem_cons.1 hnames
    cases tree with
    | file content => cases h
    | directory entries =>
      rw [Tree.get?] at h
      rw [walk.eq_def]
      dsimp only
      rw [hshort, if_neg (by decide), if_neg hup]
      cases hentry : entries.lookup name with
      | none => rw [hentry] at h; cases h
      | some entry =>
        rw [hentry] at h
        exact ih hnames h

/-- Along names that can be given, everything that is there is reached. -/
theorem reach_of_get? (hnames : AreDirect names) (h : tree.get? names = some found) :
    tree.reach names = .ok found :=
  walk_of_get? hnames h

theorem follow_of_areDirect (hnames : AreDirect names) : Path.follow [] names = names := by
  have hfold : ∀ back : List String, names.foldl stepBack back = names.reverse ++ back := by
    induction names with
    | nil => exact fun back => rfl
    | cons name names ih =>
      intro back
      obtain ⟨⟨hup, -⟩, hnames⟩ := List.forall_mem_cons.1 hnames
      rw [List.foldl_cons, ih hnames, stepBack, if_neg hup, List.reverse_cons, List.append_assoc]
      rfl
  rw [follow_eq, List.reverse_nil, hfold, List.append_nil, List.reverse_reverse]

/-- The last name leads into the directory that the names before it lead to, or back out of it. -/
theorem follow_concat (names : List String) (name : String) :
    Path.follow [] (names ++ [name])
      = if name = ".." then (Path.follow [] names).dropLast else Path.follow [] names ++ [name] := by
  rw [follow_eq, List.foldl_append, List.foldl_cons, List.foldl_nil, stepBack, follow_eq]
  split
  · rw [List.drop_one, List.dropLast_reverse]
  · rw [List.reverse_cons]

end

end Tree

end UsageCensus.Files
