/-!
# Tables

A table holds one value per key and shows its entries in the order in which the keys first
came. Setting a key that is there keeps its place; a new key goes to the end (`keys_update`).
Looking a key up after an update finds the new value at that key and the old one elsewhere
(`get?_update`).
-/

namespace UsageCensus

/-! ## Association lists -/

/-- Sets `key` to what `f` makes of its old value, in place or at the end. -/
def updatePairs {κ ν : Type} [DecidableEq κ] (key : κ) (f : Option ν → ν) :
    List (κ × ν) → List (κ × ν)
  | [] => [(key, f none)]
  | (k, v) :: rest =>
    if k = key then (k, f (some v)) :: rest else (k, v) :: updatePairs key f rest

theorem map_fst_updatePairs {κ ν : Type} [DecidableEq κ] (key : κ) (f : Option ν → ν)
    (pairs : List (κ × ν)) :
    (updatePairs key f pairs).map Prod.fst =
      if key ∈ pairs.map Prod.fst then pairs.map Prod.fst else pairs.map Prod.fst ++ [key] := by
  induction pairs with
  | nil => simp [updatePairs]
  | cons p rest ih =>
    obtain ⟨k, v⟩ := p
    by_cases h : k = key
    · simp [updatePairs, h]
    · have h' : ¬ key = k := fun e => h e.symm
      simp only [updatePairs, h, if_false, List.map_cons, ih, List.mem_cons, h', false_or]
      split <;> simp

theorem nodup_updatePairs {κ ν : Type} [DecidableEq κ] {key : κ} {f : Option ν → ν}
    {pairs : List (κ × ν)} (h : (pairs.map Prod.fst).Nodup) :
    ((updatePairs key f pairs).map Prod.fst).Nodup := by
  rw [map_fst_updatePairs]
  split
  · exact h
  · rename_i hk
    rw [List.nodup_append]
    refine ⟨h, by simp, ?_⟩
    rintro a ha b hb rfl
    simp only [List.mem_cons, List.not_mem_nil, or_false] at hb
    exact hk (hb ▸ ha)

theorem lookup_updatePairs {κ ν : Type} [DecidableEq κ] (key k : κ) (f : Option ν → ν)
    (pairs : List (κ × ν)) :
    (updatePairs key f pairs).lookup k =
      if k = key then some (f (pairs.lookup key)) else pairs.lookup k := by
  induction pairs with
  | nil =>
    by_cases h : k = key
    · simp [updatePairs, h]
    · have : (k == key) = false := by simpa using h
      simp [updatePairs, List.lookup_cons, h, this]
  | cons p rest ih =>
    obtain ⟨k', v⟩ := p
    simp only [updatePairs]
    by_cases h' : k' = key
    · subst h'
      by_cases h : k = k'
      · subst h; simp
      · have : (k == k') = false := by simpa using h
        simp [List.lookup_cons, h, this]
    · by_cases h : k = key
      · subst h
        have : (k == k') = false := by simpa using fun e => h' e.symm
        simp [h', List.lookup_cons, this, ih]
      · by_cases hk : k = k'
        · subst hk; simp [h']
        · have : (k == k') = false := by simpa using hk
          simp [h', List.lookup_cons, this, ih, h]

/-! ## Tables -/

/-- One value per key, in the order in which the keys came. -/
structure Table (κ ν : Type) where
  entries : List (κ × ν)
  nodup_keys : (entries.map Prod.fst).Nodup

namespace Table

variable {κ ν : Type}

@[ext]
theorem ext {s t : Table κ ν} (h : s.entries = t.entries) : s = t := by
  cases s; cases t; cases h; rfl

def empty : Table κ ν := ⟨[], by simp⟩

instance : Inhabited (Table κ ν) := ⟨empty⟩

instance [DecidableEq κ] [DecidableEq ν] : DecidableEq (Table κ ν) := fun s t =>
  decidable_of_iff (s.entries = t.entries) ⟨ext, fun h => h ▸ rfl⟩

instance [Repr κ] [Repr ν] : Repr (Table κ ν) := ⟨fun t n => reprPrec t.entries n⟩

def keys (t : Table κ ν) : List κ := t.entries.map Prod.fst

def values (t : Table κ ν) : List ν := t.entries.map Prod.snd

def size (t : Table κ ν) : Nat := t.entries.length

def isEmpty (t : Table κ ν) : Bool := t.entries.isEmpty

/-- The same keys with their values changed. -/
def mapValues {μ : Type} (f : ν → μ) (t : Table κ ν) : Table κ μ :=
  ⟨t.entries.map fun e => (e.1, f e.2), by
    have := t.nodup_keys
    simpa [List.map_map, Function.comp_def] using this⟩

section
variable [DecidableEq κ]

def get? (t : Table κ ν) (key : κ) : Option ν := t.entries.lookup key

def getD (t : Table κ ν) (key : κ) (default : ν) : ν := (t.get? key).getD default

def contains (t : Table κ ν) (key : κ) : Bool := (t.get? key).isSome

/-- Sets `key` to what `f` makes of its old value. -/
def update (t : Table κ ν) (key : κ) (f : Option ν → ν) : Table κ ν :=
  ⟨updatePairs key f t.entries, nodup_updatePairs t.nodup_keys⟩

def insert (t : Table κ ν) (key : κ) (value : ν) : Table κ ν := t.update key fun _ => value

/-- The pairs entered one after the other: a repeated key keeps its first place and takes its
last value. -/
def ofPairs (pairs : List (κ × ν)) : Table κ ν :=
  pairs.foldl (fun t p => t.insert p.1 p.2) empty

/-- `amount` more at `key`, where a key that is missing counts nothing. -/
def add [Add ν] [OfNat ν 0] (t : Table κ ν) (key : κ) (amount : ν) : Table κ ν :=
  t.update key fun old => old.getD 0 + amount

/-- Every count of `source` added to `target`. -/
def addAll [Add ν] [OfNat ν 0] (target source : Table κ ν) : Table κ ν :=
  source.entries.foldl (fun t e => t.add e.1 e.2) target

/-- How often each value occurs in a list, in the order of first occurrence. -/
def tally (items : List κ) : Table κ Nat := items.foldl (fun t k => t.add k 1) empty

theorem get?_update (t : Table κ ν) (key k : κ) (f : Option ν → ν) :
    (t.update key f).get? k = if k = key then some (f (t.get? key)) else t.get? k :=
  lookup_updatePairs key k f t.entries

theorem keys_update (t : Table κ ν) (key : κ) (f : Option ν → ν) :
    (t.update key f).keys = if key ∈ t.keys then t.keys else t.keys ++ [key] :=
  map_fst_updatePairs key f t.entries

end

/-- The sum of the counts. -/
def total [Add ν] [OfNat ν 0] (t : Table κ ν) : ν := t.values.foldl (· + ·) 0

/-! ## Ranking -/

/-- Entries by descending weight; entries of equal weight keep their order. -/
def ranked (t : Table κ ν) (weight : ν → Int) : List (κ × ν) :=
  t.entries.mergeSort fun a b => decide (weight b.2 ≤ weight a.2)

end Table

end UsageCensus
