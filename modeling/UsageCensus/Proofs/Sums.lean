import Mathlib.Tactic.Push
import UsageCensus.Number.Share
import UsageCensus.Proofs.Tables

/-!
# Sums over items and over tables

A sum of counts does not depend on the order of the items (`sumOf_perm`). Where a table is updated
at one key, a sum over its values changes by what the value at that key changes by
(`sumOf_update`), so that counting in a table and adding one table of counts to another are seen
key by key (`getD_add`, `getD_addAll`).
-/

namespace UsageCensus

namespace Number

variable {α β : Type} {count count' : α → Nat}

theorem sumOf_append (count : α → Nat) (items items' : List α) :
    sumOf count (items ++ items') = sumOf count items + sumOf count items' := by
  induction items with
  | nil => exact (Nat.zero_add _).symm
  | cons a items ih => rw [List.cons_append, sumOf, sumOf, ih, Nat.add_assoc]

theorem sumOf_map (count : β → Nat) (f : α → β) (items : List α) :
    sumOf count (items.map f) = sumOf (fun a => count (f a)) items := by
  induction items with
  | nil => rfl
  | cons a items ih => rw [List.map_cons, sumOf, sumOf, ih]

theorem sumOf_congr {items : List α} (h : ∀ a ∈ items, count a = count' a) :
    sumOf count items = sumOf count' items := by
  induction items with
  | nil => rfl
  | cons a items ih =>
    rw [sumOf, sumOf, h a List.mem_cons_self, ih fun b hb => h b (List.mem_cons_of_mem a hb)]

theorem sumOf_add (count count' : α → Nat) (items : List α) :
    sumOf (fun a => count a + count' a) items = sumOf count items + sumOf count' items := by
  induction items with
  | nil => rfl
  | cons a items ih =>
    simp only [sumOf, ih]
    omega

theorem sumOf_le_sumOf {items : List α} (h : ∀ a ∈ items, count a ≤ count' a) :
    sumOf count items ≤ sumOf count' items := by
  induction items with
  | nil => exact Nat.le_refl 0
  | cons a items ih =>
    have hle := ih fun b hb => h b (List.mem_cons_of_mem a hb)
    have hhead := h a List.mem_cons_self
    simp only [sumOf]
    omega

theorem sumOf_const (n : Nat) (items : List α) : sumOf (fun _ => n) items = n * items.length := by
  induction items with
  | nil => rfl
  | cons a items ih =>
    rw [sumOf, ih, List.length_cons, Nat.mul_succ, Nat.add_comm]

theorem sumOf_zero (items : List α) : sumOf (fun _ => 0) items = 0 := by
  rw [sumOf_const, Nat.zero_mul]

theorem sumOf_perm {items items' : List α} (h : items.Perm items') (count : α → Nat) :
    sumOf count items = sumOf count items' := by
  induction h with
  | nil => rfl
  | cons a _ ih => rw [sumOf, sumOf, ih]
  | swap a b items =>
    simp only [sumOf]
    omega
  | trans _ _ ih ih' => exact ih.trans ih'

/-- Items that count nothing can be left out. -/
theorem sumOf_filter {p : α → Bool} {items : List α}
    (h : ∀ a ∈ items, p a = false → count a = 0) :
    sumOf count (items.filter p) = sumOf count items := by
  induction items with
  | nil => rfl
  | cons a items ih =>
    have ih := ih fun b hb => h b (by simp [hb])
    cases hp : p a with
    | true => rw [List.filter_cons_of_pos hp, sumOf, sumOf, ih]
    | false =>
      have hzero : count a = 0 := h a (by simp) hp
      rw [List.filter_cons_of_neg (by simp [hp]), sumOf, ih]
      omega

theorem exists_of_sumOf_ne_zero {items : List α} (h : sumOf count items ≠ 0) :
    ∃ a ∈ items, count a ≠ 0 := by
  by_contra hall
  push Not at hall
  apply h
  rw [sumOf_congr hall, sumOf_zero]

theorem le_sumOf {items : List α} {a : α} (h : a ∈ items) : count a ≤ sumOf count items := by
  induction items with
  | nil => cases h
  | cons b items ih =>
    rw [sumOf]
    rcases List.mem_cons.1 h with rfl | h
    · omega
    · have hle := ih h
      omega

theorem sumOf_ite (p : α → Bool) (items : List α) :
    sumOf (fun a => if p a then 1 else 0) items = items.countP p := by
  induction items with
  | nil => rfl
  | cons a items ih =>
    rw [sumOf, ih, List.countP_cons]
    omega

/-- Counts of pairs are summed up in any order. -/
theorem sumOf_comm (count : α → β → Nat) (items : List α) (items' : List β) :
    sumOf (fun a => sumOf (count a) items') items
      = sumOf (fun b => sumOf (fun a => count a b) items) items' := by
  induction items with
  | nil => exact (sumOf_zero items').symm
  | cons a items ih =>
    simp only [sumOf, ih, sumOf_add]

/-- Of items with a key each, the counts of the keys add up to the number of items. -/
theorem sumOf_countP [DecidableEq β] {key : α → β} {keys : List β} (hkeys : keys.Nodup)
    {items : List α} (h : ∀ a ∈ items, key a ∈ keys) :
    sumOf (fun k => items.countP fun a => key a == k) keys = items.length := by
  induction items with
  | nil => exact sumOf_zero keys
  | cons a items ih =>
    have hone : sumOf (fun k => if key a == k then 1 else 0) keys = 1 := by
      have hcount : keys.count (key a) = 1 := by
        rw [hkeys.count, if_pos (h a List.mem_cons_self)]
      rw [sumOf_ite, ← hcount]
      exact List.countP_congr fun k _ => by rw [beq_iff_eq, beq_iff_eq, eq_comm]
    have ih := ih fun b hb => h b (List.mem_cons_of_mem a hb)
    simp only [List.countP_cons, sumOf_add]
    rw [ih, hone, List.length_cons]

end Number

open Number

/-! ## Sums over the values of a table -/

section

variable {κ ν : Type} [DecidableEq κ]

theorem sumOf_updatePairs (count : ν → Nat) (key : κ) (f : Option ν → ν) (pairs : List (κ × ν)) :
    sumOf count ((updatePairs key f pairs).map Prod.snd) + ((pairs.lookup key).map count).getD 0
      = sumOf count (pairs.map Prod.snd) + count (f (pairs.lookup key)) := by
  induction pairs with
  | nil => simp [updatePairs, sumOf]
  | cons p rest ih =>
    obtain ⟨k, v⟩ := p
    by_cases heq : k = key
    · subst heq
      rw [updatePairs, if_pos rfl, List.lookup_cons_self]
      simp only [List.map_cons, sumOf, Option.map_some, Option.getD_some]
      omega
    · have hne : (key == k) = false := by simpa using Ne.symm heq
      rw [updatePairs, if_neg heq, List.lookup_cons, hne]
      simp only [List.map_cons, sumOf]
      omega

namespace Table

/-- The new sum and the old value at the key are the old sum and the new value. -/
theorem sumOf_update (count : ν → Nat) (t : Table κ ν) (key : κ) (f : Option ν → ν) :
    sumOf count (t.update key f).values + ((t.get? key).map count).getD 0
      = sumOf count t.values + count (f (t.get? key)) :=
  sumOf_updatePairs count key f t.entries

/-- What the value at the key grows by, the sum grows by. -/
theorem sumOf_update_of_add {count : ν → Nat} {t : Table κ ν} {key : κ} {f : Option ν → ν} {n : Nat}
    (h : count (f (t.get? key)) = ((t.get? key).map count).getD 0 + n) :
    sumOf count (t.update key f).values = sumOf count t.values + n := by
  have hsum := t.sumOf_update count key f
  omega

theorem sumOf_insert {count : ν → Nat} {t : Table κ ν} {key : κ} {old new : ν}
    (h : t.get? key = some old) :
    sumOf count (t.insert key new).values + count old = sumOf count t.values + count new := by
  have hsum := t.sumOf_update count key fun _ => new
  rw [h] at hsum
  exact hsum

/-- Over keys that come once and include those of the table, the values that are found add up to
those of the table. -/
theorem sumOf_get? (count : ν → Nat) (t : Table κ ν) {keys : List κ} (hkeys : keys.Nodup)
    (hsub : ∀ key ∈ t.keys, key ∈ keys) :
    sumOf (fun key => ((t.get? key).map count).getD 0) keys = sumOf count t.values := by
  have hfound : sumOf (fun key => ((t.get? key).map count).getD 0)
      (keys.filter fun key => decide (key ∈ t.keys))
      = sumOf (fun key => ((t.get? key).map count).getD 0) keys := by
    apply sumOf_filter
    intro key _ hkey
    rw [get?_eq_none_iff.2 (of_decide_eq_false hkey)]
    rfl
  have hperm : (keys.filter fun key => decide (key ∈ t.keys)).Perm t.keys := by
    apply (List.perm_ext_iff_of_nodup (hkeys.filter _) t.nodup_keys).2
    intro key
    rw [List.mem_filter, decide_eq_true_iff]
    exact ⟨And.right, fun h => ⟨hsub key h, h⟩⟩
  rw [← hfound, sumOf_perm hperm, Table.keys, values, sumOf_map, sumOf_map]
  apply sumOf_congr
  rintro ⟨key, value⟩ hmem
  rw [get?_eq_some_iff.2 hmem]
  rfl

/-! ## Counts -/

omit [DecidableEq κ] in
theorem total_eq_sumOf (t : Table κ Nat) : t.total = sumOf id t.values := by
  have hfoldl : ∀ (counts : List Nat) (n : Nat), counts.foldl (· + ·) n = n + sumOf id counts := by
    intro counts
    induction counts with
    | nil => exact fun n => rfl
    | cons count counts ih =>
      intro n
      rw [List.foldl_cons, ih, sumOf, Nat.add_assoc]
      rfl
  rw [total, hfoldl, Nat.zero_add]

theorem getD_le_total (t : Table κ Nat) (key : κ) : t.getD key 0 ≤ t.total := by
  rw [total_eq_sumOf, getD]
  cases hget : t.get? key with
  | none => exact Nat.zero_le _
  | some n =>
    have hmem : n ∈ t.values := mem_values_iff.2 ⟨key, hget⟩
    exact @le_sumOf Nat id t.values n hmem

theorem total_add (t : Table κ Nat) (key : κ) (amount : Nat) :
    (t.add key amount).total = t.total + amount := by
  rw [total_eq_sumOf, total_eq_sumOf]
  apply sumOf_update_of_add
  rw [Option.map_id_apply]
  rfl

theorem getD_add (t : Table κ Nat) (key k : κ) (amount : Nat) :
    (t.add key amount).getD k 0 = t.getD k 0 + if k = key then amount else 0 := by
  unfold add getD
  rw [get?_update]
  by_cases h : k = key
  · rw [if_pos h, if_pos h, h]
    rfl
  · rw [if_neg h, if_neg h, Nat.add_zero]

theorem getD_tally (items : List κ) (key : κ) : (tally items).getD key 0 = items.count key := by
  induction items using List.reverseRecOn with
  | nil => rfl
  | append_singleton items item ih =>
    have hstep : tally (items ++ [item]) = (tally items).add item 1 := by
      rw [tally, List.foldl_append]
      rfl
    rw [hstep, getD_add, ih, List.count_append, List.count_singleton]
    simp only [beq_iff_eq, eq_comm (a := item)]

theorem getD_addAll (target source : Table κ Nat) (key : κ) :
    (target.addAll source).getD key 0 = target.getD key 0 + source.getD key 0 := by
  have hfoldl : ∀ (pairs : List (κ × Nat)) (t : Table κ Nat), (pairs.map Prod.fst).Nodup →
      (pairs.foldl (fun t e => t.add e.1 e.2) t).getD key 0
        = t.getD key 0 + (pairs.lookup key).getD 0 := by
    intro pairs
    induction pairs with
    | nil => exact fun t _ => rfl
    | cons p rest ih =>
      obtain ⟨k, n⟩ := p
      intro t hkeys
      obtain ⟨hk, hrest⟩ := List.nodup_cons.1 hkeys
      rw [List.foldl_cons, ih _ hrest, getD_add]
      by_cases h : key = k
      · subst h
        rw [lookup_eq_none_iff.2 hk, List.lookup_cons_self, if_pos rfl]
        rfl
      · have hne : (key == k) = false := by simpa using h
        rw [if_neg h, List.lookup_cons, hne, Nat.add_zero]
  exact hfoldl source.entries target source.nodup_keys

theorem mem_keys_addAll {target source : Table κ Nat} {key : κ} :
    key ∈ (target.addAll source).keys ↔ key ∈ target.keys ∨ key ∈ source.keys := by
  have hfoldl : ∀ (pairs : List (κ × Nat)) (t : Table κ Nat),
      key ∈ (pairs.foldl (fun t e => t.add e.1 e.2) t).keys
        ↔ key ∈ t.keys ∨ key ∈ pairs.map Prod.fst := by
    intro pairs
    induction pairs with
    | nil => exact fun t => by simp
    | cons p rest ih =>
      intro t
      rw [List.foldl_cons, ih, add, mem_keys_update, List.map_cons, List.mem_cons, or_assoc]
  exact hfoldl source.entries target

end Table

end

/-! ## Counts entered one after the other -/

section

variable {κ : Type} [DecidableEq κ] {pairs : List (κ × Nat)}

/-- What is entered at a key, together. -/
def enteredAt (key : κ) (pairs : List (κ × Nat)) : Nat :=
  sumOf Prod.snd (pairs.filter fun entry => entry.1 == key)

theorem enteredAt_concat (key : κ) (pairs : List (κ × Nat)) (entry : κ × Nat) :
    enteredAt key (pairs ++ [entry])
      = enteredAt key pairs + if key = entry.1 then entry.2 else 0 := by
  unfold enteredAt
  rw [List.filter_append, sumOf_append]
  by_cases h : key = entry.1
  · rw [if_pos h, List.filter_cons_of_pos (by simp [h])]
    rfl
  · have hne : ¬(entry.1 == key) = true := by simpa using Ne.symm h
    rw [if_neg h, List.filter_cons, if_neg hne]
    rfl

theorem enteredAt_eq_zero_iff {key : κ} :
    enteredAt key pairs = 0 ↔ ∀ entry ∈ pairs, entry.1 = key → entry.2 = 0 := by
  unfold enteredAt
  constructor
  · intro h entry hentry hkey
    have hmem : entry ∈ pairs.filter fun entry => entry.1 == key :=
      List.mem_filter.2 ⟨hentry, by simpa using hkey⟩
    have hle : entry.2 ≤ sumOf Prod.snd (pairs.filter fun entry => entry.1 == key) := le_sumOf hmem
    omega
  · intro h
    have hzero : ∀ entry ∈ pairs.filter fun entry => entry.1 == key, entry.2 = 0 := by
      intro entry hentry
      obtain ⟨hentry, hkey⟩ := List.mem_filter.1 hentry
      exact h entry hentry (eq_of_beq hkey)
    rw [sumOf_congr hzero, sumOf_zero]

namespace Table

theorem getD_insert (t : Table κ Nat) (key k count : _) :
    (t.insert key count).getD k 0 = if k = key then count else t.getD k 0 := by
  unfold insert getD
  rw [get?_update]
  split <;> rfl

theorem getD_ofPairs_le (key : κ) (pairs : List (κ × Nat)) :
    (ofPairs pairs).getD key 0 ≤ enteredAt key pairs := by
  induction pairs using List.reverseRecOn with
  | nil => exact Nat.le_refl 0
  | append_singleton pairs entry ih =>
    rw [ofPairs_concat, getD_insert, enteredAt_concat]
    split <;> omega

theorem total_insert (t : Table κ Nat) (key : κ) (count : Nat) :
    (t.insert key count).total + t.getD key 0 = t.total + count := by
  have hsum := t.sumOf_update id key fun _ => count
  rw [Option.map_id_apply] at hsum
  rw [total_eq_sumOf, total_eq_sumOf]
  exact hsum

/-- A table keeps what is entered if nothing but zero is ever replaced. -/
theorem ofPairs_keeps_iff :
    ((ofPairs pairs).total = sumOf Prod.snd pairs ∧
      ∀ key, (ofPairs pairs).getD key 0 = enteredAt key pairs)
      ↔ pairs.Pairwise fun entry later => entry.1 = later.1 → entry.2 = 0 := by
  induction pairs using List.reverseRecOn with
  | nil => exact iff_of_true ⟨rfl, fun _ => rfl⟩ List.Pairwise.nil
  | append_singleton pairs entry ih =>
    have hpairwise : ((pairs ++ [entry]).Pairwise fun entry later =>
        entry.1 = later.1 → entry.2 = 0) ↔ (pairs.Pairwise fun entry later =>
          entry.1 = later.1 → entry.2 = 0) ∧ enteredAt entry.1 pairs = 0 := by
      rw [List.pairwise_append, enteredAt_eq_zero_iff]
      simp
    have hle := getD_ofPairs_le entry.1 pairs
    have htotal := (ofPairs pairs).total_insert entry.1 entry.2
    have hsum : sumOf Prod.snd (pairs ++ [entry]) = sumOf Prod.snd pairs + entry.2 :=
      sumOf_append Prod.snd pairs [entry]
    rw [hpairwise, ← ih, ofPairs_concat, hsum]
    simp only [getD_insert, enteredAt_concat]
    constructor
    · rintro ⟨hall, hkeys⟩
      have hzero := hkeys entry.1
      rw [if_pos rfl, if_pos rfl] at hzero
      refine ⟨⟨by omega, fun key => ?_⟩, by omega⟩
      by_cases hkey : key = entry.1
      · subst hkey
        omega
      · have hother := hkeys key
        rw [if_neg hkey, if_neg hkey] at hother
        exact hother
    · rintro ⟨⟨hall, hkeys⟩, hzero⟩
      refine ⟨by omega, fun key => ?_⟩
      by_cases hkey : key = entry.1
      · rw [if_pos hkey, if_pos hkey, hkey, hzero, Nat.zero_add]
      · rw [if_neg hkey, if_neg hkey, hkeys key, Nat.add_zero]

end Table

end

end UsageCensus
