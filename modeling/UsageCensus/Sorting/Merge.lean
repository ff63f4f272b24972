/-!
# Merging two runs

Two runs in ascending order are merged item by item: the smaller of the two first ones is next,
of equal ones the left one. A run that wins often in a row is looked through in leaps that double,
and then by halving, for all of its items that are next. Where a comparison gives some items no
place, such as numbers among which there is one that is none, the outcome depends on which items
are compared, so every comparison is fixed here. No item is lost (`perm_mergeRuns`).
-/

namespace UsageCensus.Sorting

variable {α : Type}

/-! ## Searching a run -/

/-- From which of its ends a run is looked through. From its last item on, it is given in reverse
and its comparison is turned around. -/
inductive Direction where
  | forward
  | backward
  deriving Repr, DecidableEq

/-- The middle of the places from `low` up to `high`; of two in the middle, the one that is
nearer to the last item of the run. -/
def Direction.middle : Direction → (low high : Nat) → Nat
  | forward, low, high => low + (high - low) / 2
  | backward, low, high => high - 1 - (high - low) / 2

/-- Where, from `low` up to `high`, the places end that are `before`, found by halving. -/
def boundary (direction : Direction) (before : Nat → Bool) (low high : Nat) : Nat :=
  if low < high then
    if before (direction.middle low high) then
      boundary direction before (direction.middle low high + 1) high
    else boundary direction before low (direction.middle low high)
  else low
termination_by high - low
decreasing_by
  · cases direction <;> simp only [Direction.middle] <;> omega
  · cases direction <;> simp only [Direction.middle] <;> omega

/-- Leaps on from `next`, twice as far each time, for as long as the places are `before`: the
last one that is, and the bound of those that may be. -/
def leap (before : Nat → Bool) (length last next : Nat) : Nat × Nat :=
  if next < length then
    if before next then leap before length next (2 * next + 1) else (last, next)
  else (last, length)
termination_by length - next

/-- How many items are `next` at the start of a run. -/
def countNext (direction : Direction) (next : α → Bool) (run : List α) : Nat :=
  let before (place : Nat) : Bool := (run[place]?.map next).getD false
  if before 0 then
    let (last, bound) := leap before run.length 0 1
    boundary direction before (last + 1) bound
  else 0

/-! ## Merging -/

/-- Two runs that are being merged. -/
structure Merging (α : Type) where
  /-- What is merged already, last item first. -/
  merged : List α
  left : List α
  right : List α

namespace Merging

/-- Takes items from the start of the left run. -/
def takeLeft (count : Nat) (m : Merging α) : Merging α :=
  { m with merged := (m.left.take count).reverse ++ m.merged, left := m.left.drop count }

/-- Takes items from the start of the right run. -/
def takeRight (count : Nat) (m : Merging α) : Merging α :=
  { m with merged := (m.right.take count).reverse ++ m.merged, right := m.right.drop count }

/-- Nothing is left to compare: the last item of the left run is larger than all of the right
one, as the start of a merge sees to. -/
def isOver (m : Merging α) : Bool :=
  match m.left, m.right with
  | _ :: _ :: _, _ :: _ => false
  | _, _ => true

/-- What is merged, and then what is left. -/
def result (m : Merging α) : List α := m.merged.reverse ++ (m.right ++ m.left)

theorem perm_takeLeft (count : Nat) (m : Merging α) : (m.takeLeft count).result.Perm m.result := by
  simp only [result, takeLeft, List.reverse_append, List.reverse_reverse, List.append_assoc]
  refine List.Perm.append_left _ ?_
  refine (List.perm_append_comm_assoc _ _ _).trans ?_
  rw [List.take_append_drop]

theorem perm_takeRight (count : Nat) (m : Merging α) :
    (m.takeRight count).result.Perm m.result := by
  simp only [result, takeRight, List.reverse_append, List.reverse_reverse, List.append_assoc]
  refine List.Perm.append_left _ ?_
  rw [← List.append_assoc, List.take_append_drop]

/-- Takes the left items that are next, and the right one behind them; how many of them there
were. -/
def gallopLeft (direction : Direction) (lt : α → α → Bool) (m : Merging α) : Merging α × Nat :=
  match m.right with
  | [] => (m, 0)
  | other :: _ =>
    let count := countNext direction (fun item => !lt other item) m.left
    let taken := m.takeLeft count
    (if taken.isOver then taken else taken.takeRight 1, count)

/-- Takes the right items that are next, and the left one behind them; how many of them there
were. -/
def gallopRight (direction : Direction) (lt : α → α → Bool) (m : Merging α) : Merging α × Nat :=
  match m.left with
  | [] => (m, 0)
  | other :: _ =>
    let count := countNext direction (fun item => lt item other) m.right
    let taken := m.takeRight count
    (if taken.isOver then taken else taken.takeLeft 1, count)

theorem perm_gallopLeft (direction : Direction) (lt : α → α → Bool) (m : Merging α) :
    (m.gallopLeft direction lt).1.result.Perm m.result := by
  unfold gallopLeft
  split
  · exact .refl _
  · dsimp only
    split
    · exact perm_takeLeft _ _
    · exact (perm_takeRight _ _).trans (perm_takeLeft _ _)

theorem perm_gallopRight (direction : Direction) (lt : α → α → Bool) (m : Merging α) :
    (m.gallopRight direction lt).1.result.Perm m.result := by
  unfold gallopRight
  split
  · exact .refl _
  · dsimp only
    split
    · exact perm_takeRight _ _
    · exact (perm_takeLeft _ _).trans (perm_takeRight _ _)

/-- Looks through both runs in turn; the larger number of items that were next in one. -/
def gallop (direction : Direction) (lt : α → α → Bool) (m : Merging α) : Merging α × Nat :=
  let (first, second) := match direction with
    | .forward => (gallopLeft direction lt, gallopRight direction lt)
    | .backward => (gallopRight direction lt, gallopLeft direction lt)
  let (m, count) := first m
  if m.isOver then (m, count)
  else
    let (m, other) := second m
    (m, max count other)

theorem perm_gallop (direction : Direction) (lt : α → α → Bool) (m : Merging α) :
    (m.gallop direction lt).1.result.Perm m.result := by
  unfold gallop
  cases direction
  · dsimp only
    split
    · exact perm_gallopLeft _ _ _
    · exact (perm_gallopRight _ _ _).trans (perm_gallopLeft _ _ _)
  · dsimp only
    split
    · exact perm_gallopRight _ _ _
    · exact (perm_gallopLeft _ _ _).trans (perm_gallopRight _ _ _)

end Merging

/-- How a merge goes on. -/
inductive Pace where
  /-- Item by item; how often the left and the right run have won in a row. -/
  | steps (leftWins rightWins : Nat)
  | gallop
  deriving Repr, DecidableEq

/-- So many items that are next at once make a gallop worth its while. -/
def worthwhile : Nat := 7

/-- A merge on its way. -/
structure MergeState (α : Type) where
  merging : Merging α
  pace : Pace
  /-- So many wins in a row make it gallop. -/
  patience : Nat

namespace MergeState

/-- Goes on after a run has won. -/
def afterWin (patience : Nat) (merging : Merging α) (leftWins rightWins : Nat) : MergeState α :=
  if !merging.isOver && decide (patience ≤ max leftWins rightWins) then
    ⟨merging, .gallop, patience + 1⟩
  else ⟨merging, .steps leftWins rightWins, patience⟩

/-- Goes on after both runs have been looked through. -/
def afterGallop (patience : Nat) (merging : Merging α) (count : Nat) : MergeState α :=
  if merging.isOver || decide (worthwhile ≤ count) then ⟨merging, .gallop, patience⟩
  else ⟨merging, .steps 0 0, patience + 1⟩

/-- The next step, which takes at least one item. -/
def next (direction : Direction) (lt : α → α → Bool) (s : MergeState α) : MergeState α :=
  match s.pace with
  | .steps leftWins rightWins =>
    match s.merging.left, s.merging.right with
    | left :: _, right :: _ =>
      if lt right left then afterWin s.patience (s.merging.takeRight 1) 0 (rightWins + 1)
      else afterWin s.patience (s.merging.takeLeft 1) (leftWins + 1) 0
    | _, _ => s
  | .gallop =>
    let (merging, count) := s.merging.gallop direction lt
    afterGallop (if 1 < s.patience then s.patience - 1 else s.patience) merging count

theorem merging_afterWin (patience : Nat) (merging : Merging α) (leftWins rightWins : Nat) :
    (afterWin patience merging leftWins rightWins).merging = merging := by
  unfold afterWin
  split <;> rfl

theorem merging_afterGallop (patience : Nat) (merging : Merging α) (count : Nat) :
    (afterGallop patience merging count).merging = merging := by
  unfold afterGallop
  split <;> rfl

theorem perm_next (direction : Direction) (lt : α → α → Bool) (s : MergeState α) :
    (s.next direction lt).merging.result.Perm s.merging.result := by
  unfold next
  split
  · split
    · split
      · rw [merging_afterWin]
        exact Merging.perm_takeRight _ _
      · rw [merging_afterWin]
        exact Merging.perm_takeLeft _ _
    · exact .refl _
  · dsimp only
    rw [merging_afterGallop]
    exact Merging.perm_gallop _ _ _

/-- Goes on to the end, in at most `fuel` steps. -/
def finish (direction : Direction) (lt : α → α → Bool) : (fuel : Nat) → MergeState α → MergeState α
  | 0, s => s
  | fuel + 1, s => if s.merging.isOver then s else finish direction lt fuel (s.next direction lt)

theorem perm_finish (direction : Direction) (lt : α → α → Bool) (fuel : Nat) (s : MergeState α) :
    (s.finish direction lt fuel).merging.result.Perm s.merging.result := by
  induction fuel generalizing s with
  | zero => exact .refl _
  | succ fuel ih =>
    rw [finish]
    split
    · exact .refl _
    · exact (ih _).trans (perm_next _ _ _)

/-- Merges two runs, of which the right one has the smallest item; and the patience that is left. -/
def run (direction : Direction) (lt : α → α → Bool) (patience : Nat) (left right : List α) :
    List α × Nat :=
  let merging : Merging α := ⟨[], left, right⟩
  let start : MergeState α := ⟨merging.takeRight 1, .steps 0 0, patience⟩
  let done := start.finish direction lt (left.length + right.length)
  (done.merging.result, done.patience)

theorem perm_run (direction : Direction) (lt : α → α → Bool) (patience : Nat)
    (left right : List α) : (run direction lt patience left right).1.Perm (left ++ right) :=
  (perm_finish _ _ _ _).trans ((Merging.perm_takeRight 1 ⟨[], left, right⟩).trans
    (show (right ++ left).Perm (left ++ right) from List.perm_append_comm))

end MergeState

/-! ## Runs side by side -/

/-- Merges two runs from that end at which the shorter one is put aside. -/
def mergeRest (lt : α → α → Bool) (patience : Nat) (left right : List α) : List α × Nat :=
  if left.length ≤ right.length then MergeState.run .forward lt patience left right
  else
    let (merged, patience) :=
      MergeState.run .backward (fun a b => lt b a) patience right.reverse left.reverse
    (merged.reverse, patience)

theorem perm_mergeRest (lt : α → α → Bool) (patience : Nat) (left right : List α) :
    (mergeRest lt patience left right).1.Perm (left ++ right) := by
  unfold mergeRest
  split
  · exact MergeState.perm_run _ _ _ _ _
  · refine (List.reverse_perm _).trans ((MergeState.perm_run _ _ _ _ _).trans ?_)
    refine ((List.reverse_perm _).append (List.reverse_perm _)).trans ?_
    exact List.perm_append_comm

/-- How many items at the start of the left run stay in place. -/
def ahead (lt : α → α → Bool) (left right : List α) : Nat :=
  match right with
  | [] => left.length
  | first :: _ => countNext .forward (fun item => !lt first item) left

/-- How many items at the end of the right run stay in place. -/
def behind (lt : α → α → Bool) (left right : List α) : Nat :=
  match left.getLast? with
  | none => right.length
  | some last => countNext .backward (fun item => !lt item last) right.reverse

/-- Merges two neighbouring runs, without the items that stay in place; and the patience that is
left. -/
def mergeRuns (lt : α → α → Bool) (patience : Nat) (left right : List α) : List α × Nat :=
  let first := ahead lt left right
  let rest := left.drop first
  let last := right.length - behind lt rest right
  if rest.isEmpty || (right.take last).isEmpty then (left ++ right, patience)
  else
    let merged := mergeRest lt patience rest (right.take last)
    (left.take first ++ (merged.1 ++ right.drop last), merged.2)

theorem perm_mergeRuns (lt : α → α → Bool) (patience : Nat) (left right : List α) :
    (mergeRuns lt patience left right).1.Perm (left ++ right) := by
  unfold mergeRuns
  generalize ahead lt left right = first
  generalize right.length - behind lt (left.drop first) right = last
  dsimp only
  split
  · exact .refl _
  · refine (((perm_mergeRest lt patience _ _).append_right _).append_left _).trans ?_
    rw [List.append_assoc, List.take_append_drop, ← List.append_assoc, List.take_append_drop]

end UsageCensus.Sorting
