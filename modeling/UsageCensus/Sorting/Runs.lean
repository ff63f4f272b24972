import UsageCensus.Sorting.Merge

/-!
# Sorting by runs

A sort for comparisons by which some items have no place, such as numbers among which there is
one that is none. The order that comes out then depends on the steps, so they are fixed here. The
list is cut into runs that ascend, or descend strictly and are turned around; a short run is made
longer by inserting the items behind it. Runs wait until a later one is found that is not to be
merged before them, and are then merged with their neighbours (`settle`). No item is lost
(`perm_sort`).
-/

namespace UsageCensus.Sorting

variable {α : Type}

/-! ## Runs -/

/-- Takes the items from the start of a list for as long as each of them is right behind the one
before it; the first is compared with `last`. -/
def takeRun (follows : α → α → Bool) (last : α) : List α → List α × List α
  | [] => ([], [])
  | a :: rest =>
    if follows last a then (a :: (takeRun follows a rest).1, (takeRun follows a rest).2)
    else ([], a :: rest)

theorem takeRun_append (follows : α → α → Bool) (last : α) (items : List α) :
    (takeRun follows last items).1 ++ (takeRun follows last items).2 = items := by
  induction items generalizing last with
  | nil => rfl
  | cons a rest ih =>
    rw [takeRun]
    split
    · simp [ih]
    · rfl

/-- The first run of a list, in ascending order, and the items behind it. -/
def firstRun (lt : α → α → Bool) : List α → List α × List α
  | [] => ([], [])
  | [a] => ([a], [])
  | a :: b :: rest =>
    if lt b a then
      let run := takeRun (fun last item => lt item last) b rest
      ((a :: b :: run.1).reverse, run.2)
    else
      let run := takeRun (fun last item => !lt item last) b rest
      (a :: b :: run.1, run.2)

theorem perm_firstRun (lt : α → α → Bool) (items : List α) :
    ((firstRun lt items).1 ++ (firstRun lt items).2).Perm items := by
  match items with
  | [] => exact .refl _
  | [a] => exact .refl _
  | a :: b :: rest =>
    rw [firstRun]
    split
    · refine ((List.reverse_perm _).append_right _).trans ?_
      simp [takeRun_append]
    · simp [takeRun_append]

/-- Puts an item into a run, behind those that are not larger. -/
def insertItem (lt : α → α → Bool) (run : List α) (item : α) : List α :=
  let before (place : Nat) : Bool := (run[place]?.map fun other => !lt item other).getD false
  let place := boundary .forward before 0 run.length
  run.take place ++ item :: run.drop place

theorem perm_insertItem (lt : α → α → Bool) (run : List α) (item : α) :
    (insertItem lt run item).Perm (item :: run) := by
  refine List.perm_middle.trans (.cons item ?_)
  rw [List.take_append_drop]

theorem perm_foldl_insertItem (lt : α → α → Bool) (items run : List α) :
    (items.foldl (insertItem lt) run).Perm (run ++ items) := by
  induction items generalizing run with
  | nil => simp
  | cons a items ih =>
    refine (ih _).trans (((perm_insertItem lt run a).append_right items).trans ?_)
    exact List.perm_middle.symm

/-- The first run of a list, with at least `least` items as far as there are so many, and the items
behind it. -/
def nextRun (lt : α → α → Bool) (least : Nat) (items : List α) : List α × List α :=
  let (run, rest) := firstRun lt items
  let missing := least - run.length
  ((rest.take missing).foldl (insertItem lt) run, rest.drop missing)

theorem perm_nextRun (lt : α → α → Bool) (least : Nat) (items : List α) :
    ((nextRun lt least items).1 ++ (nextRun lt least items).2).Perm items := by
  unfold nextRun
  dsimp only
  refine ((perm_foldl_insertItem _ _ _).append_right _).trans ?_
  rw [List.append_assoc, List.take_append_drop]
  exact perm_firstRun lt items

/-- A list that is shorter makes one run. -/
def shortList : Nat := 64

/-- The least length of a run in a list of a length: the leading binary digits of the length as
a number, and one `more` if a digit behind them is not zero. -/
def leastRun (length more : Nat) : Nat :=
  if length < shortList then length + more else leastRun (length / 2) (max more (length % 2))
termination_by length
decreasing_by
  simp only [shortList] at *
  omega

/-! ## Runs that wait -/

/-- A run that waits to be merged. -/
structure Pending (α : Type) where
  items : List α
  /-- Where it starts in the whole list. -/
  start : Nat
  /-- How deep the bound behind it lies, once there is a run there. -/
  depth : Nat

/-- The runs that wait, last one first, and the patience of their merges. -/
structure Runs (α : Type) where
  pending : List (Pending α)
  patience : Nat

namespace Runs

/-- All items of the runs. -/
def contents (runs : Runs α) : List α := runs.pending.flatMap Pending.items

/-- In which halving of a list of `length` the places `a / 2` and `b / 2` part, the first one being
the halving of the whole list. -/
def partingDepth (length : Nat) : (fuel a b : Nat) → Nat
  | 0, _, _ => 1
  | fuel + 1, a, b =>
    if a / length = b / length then
      partingDepth length fuel (2 * (a % length)) (2 * (b % length)) + 1
    else 1

/-- How deep the bound lies between two neighbouring runs: where the middles of the runs part. -/
def depthBetween (length start left right : Nat) : Nat :=
  let middle := 2 * start + left
  partingDepth length (length + 1) middle (middle + left + right)

/-- Merges a run with the one behind it. -/
def mergePending (lt : α → α → Bool) (patience : Nat) (left right : Pending α) :
    Pending α × Nat :=
  let (items, patience) := mergeRuns lt patience left.items right.items
  (⟨items, left.start, right.depth⟩, patience)

theorem perm_mergePending (lt : α → α → Bool) (patience : Nat) (left right : Pending α) :
    (mergePending lt patience left right).1.items.Perm (left.items ++ right.items) :=
  perm_mergeRuns _ _ _ _

/-- Merges the last runs for as long as the bound before the last one lies deeper than `depth`. -/
def settle (lt : α → α → Bool) (depth : Nat) : List (Pending α) → (patience : Nat) → Runs α
  | right :: left :: pending, patience =>
    if depth < left.depth then
      let (merged, patience) := mergePending lt patience left right
      settle lt depth (merged :: pending) patience
    else ⟨right :: left :: pending, patience⟩
  | pending, patience => ⟨pending, patience⟩
termination_by pending => pending.length

theorem perm_settle (lt : α → α → Bool) (depth : Nat) (pending : List (Pending α))
    (patience : Nat) :
    (settle lt depth pending patience).contents.Perm (pending.flatMap Pending.items) := by
  fun_induction settle lt depth pending patience with
  | case1 right left pending patience _ merged _ hmerge ih =>
    refine ih.trans ?_
    have hperm := perm_mergePending lt patience left right
    rw [hmerge] at hperm
    simp only [List.flatMap_cons, ← List.append_assoc]
    exact (hperm.trans List.perm_append_comm).append_right _
  | case2 => exact .refl _
  | case3 => exact .refl _

/-- How deep the bound lies behind the last run, if a run of `size` items comes next. -/
def depthBehind (length size : Nat) : List (Pending α) → Nat
  | [] => 0
  | last :: _ => depthBetween length last.start last.items.length size

/-- Puts a run behind the others, with a bound of the given depth before it. -/
def push (depth : Nat) (items : List α) : List (Pending α) → List (Pending α)
  | [] => [⟨items, 0, 0⟩]
  | last :: pending =>
    ⟨items, last.start + last.items.length, 0⟩ :: { last with depth } :: pending

/-- Adds a run behind the others, in a list of `length`. -/
def add (lt : α → α → Bool) (length : Nat) (runs : Runs α) (items : List α) : Runs α :=
  let depth := depthBehind length items.length runs.pending
  let settled := settle lt depth runs.pending runs.patience
  { settled with pending := push depth items settled.pending }

theorem perm_push (depth : Nat) (items : List α) (pending : List (Pending α)) :
    ((push depth items pending).flatMap Pending.items).Perm
      (items ++ pending.flatMap Pending.items) := by
  cases pending <;> simp [push]

theorem perm_add (lt : α → α → Bool) (length : Nat) (runs : Runs α) (items : List α) :
    (runs.add lt length items).contents.Perm (items ++ runs.contents) :=
  (perm_push _ _ _).trans ((perm_settle _ _ _ _).append_left items)

/-- Merges all runs, the last ones first; a run between two others is merged with the shorter
one. -/
def collapse (lt : α → α → Bool) : List (Pending α) → (patience : Nat) → List α
  | right :: middle :: left :: pending, patience =>
    if left.items.length < right.items.length then
      let (merged, patience) := mergePending lt patience left middle
      collapse lt (right :: merged :: pending) patience
    else
      let (merged, patience) := mergePending lt patience middle right
      collapse lt (merged :: left :: pending) patience
  | [right, left], patience => (mergeRuns lt patience left.items right.items).1
  | [run], _ => run.items
  | [], _ => []
termination_by pending => pending.length

theorem perm_collapse (lt : α → α → Bool) (pending : List (Pending α)) (patience : Nat) :
    (collapse lt pending patience).Perm (pending.flatMap Pending.items) := by
  fun_induction collapse lt pending patience with
  | case1 right middle left pending patience _ merged _ hmerge ih =>
    refine ih.trans ?_
    have hperm := perm_mergePending lt patience left middle
    rw [hmerge] at hperm
    simp only [List.flatMap_cons, ← List.append_assoc]
    refine List.Perm.append_right _ ?_
    rw [List.append_assoc]
    exact (hperm.trans List.perm_append_comm).append_left _
  | case2 right middle left pending patience _ merged _ hmerge ih =>
    refine ih.trans ?_
    have hperm := perm_mergePending lt patience middle right
    rw [hmerge] at hperm
    simp only [List.flatMap_cons, ← List.append_assoc]
    exact ((hperm.trans List.perm_append_comm).append_right _).append_right _
  | case3 right left patience =>
    simpa using (perm_mergeRuns lt patience left.items right.items).trans List.perm_append_comm
  | case4 => simp
  | case5 => simp

/-- Adds the runs of a list, at most `fuel` of them. -/
def addAll (lt : α → α → Bool) (length least : Nat) :
    (fuel : Nat) → Runs α → List α → Runs α × List α
  | 0, runs, items => (runs, items)
  | _, runs, [] => (runs, [])
  | fuel + 1, runs, items =>
    let (run, rest) := nextRun lt least items
    addAll lt length least fuel (runs.add lt length run) rest

theorem perm_addAll (lt : α → α → Bool) (length least fuel : Nat) (runs : Runs α)
    (items : List α) :
    ((addAll lt length least fuel runs items).1.contents
      ++ (addAll lt length least fuel runs items).2).Perm (runs.contents ++ items) := by
  fun_induction addAll lt length least fuel runs items with
  | case1 => exact .refl _
  | case2 => exact .refl _
  | case3 fuel runs items _ run rest hrun ih =>
    refine ih.trans (((perm_add _ _ _ _).append_right _).trans ?_)
    have hperm := perm_nextRun lt least items
    rw [hrun] at hperm
    refine ((List.perm_append_comm.append_right rest).trans ?_)
    rw [List.append_assoc]
    exact hperm.append_left _

end Runs

/-- The items in ascending order, as far as they have one. -/
def sort (lt : α → α → Bool) (items : List α) : List α :=
  let (runs, rest) :=
    Runs.addAll lt items.length (leastRun items.length 0) items.length ⟨[], worthwhile⟩ items
  Runs.collapse lt runs.pending runs.patience ++ rest

theorem perm_sort (lt : α → α → Bool) (items : List α) : (sort lt items).Perm items :=
  ((Runs.perm_collapse _ _ _).append_right _).trans (Runs.perm_addAll _ _ _ _ _ _)

end UsageCensus.Sorting
