import Mathlib.Data.List.Induction
import UsageCensus.Table

/-!
# Tables and their entries

Pairs with distinct keys are the entries of the table that is made of them (`entries_ofPairs`),
and so are keys with a value each, every key once (`entries_ofPairs_map`). A key is looked up where
it stands (`get?_eq_some_iff`).
-/

namespace UsageCensus

variable {κ ν : Type} [DecidableEq κ]

theorem updatePairs_of_not_mem {key : κ} (f : Option ν → ν) {pairs : List (κ × ν)}
    (h : key ∉ pairs.map Prod.fst) : updatePairs key f pairs = pairs ++ [(key, f none)] := by
  induction pairs with
  | nil => rfl
  | cons p rest ih =>
    obtain ⟨k, v⟩ := p
    have hne : k ≠ key := fun e => h (by simp [e])
    rw [updatePairs, if_neg hne, ih fun hk => h (by simp [hk])]
    rfl

theorem updatePairs_of_lookup {key : κ} {value : ν} {pairs : List (κ × ν)}
    (h : pairs.lookup key = some value) : updatePairs key (fun _ => value) pairs = pairs := by
  induction pairs with
  | nil => cases h
  | cons p rest ih =>
    obtain ⟨k, v⟩ := p
    by_cases heq : k = key
    · subst heq
      rw [List.lookup_cons_self] at h
      cases h
      exact if_pos rfl
    · have hne : (key == k) = false := by simpa using Ne.symm heq
      rw [List.lookup_cons, hne] at h
      rw [updatePairs, if_neg heq, ih h]

/-- A key that comes once is looked up where it stands. -/
theorem lookup_eq_some_iff {pairs : List (κ × ν)} (h : (pairs.map Prod.fst).Nodup) {key : κ}
    {value : ν} : pairs.lookup key = some value ↔ (key, value) ∈ pairs := by
  induction pairs with
  | nil => simp
  | cons p rest ih =>
    obtain ⟨k, v⟩ := p
    obtain ⟨hk, hrest⟩ := List.nodup_cons.1 h
    by_cases heq : key = k
    · subst heq
      have hnot : (key, value) ∉ rest := fun hmem => hk (List.mem_map.2 ⟨_, hmem, rfl⟩)
      rw [List.lookup_cons_self]
      simp [hnot, eq_comm]
    · have hne : (key == k) = false := by simpa using heq
      rw [List.lookup_cons, hne]
      simp [heq, ih hrest]

theorem lookup_eq_none_iff {pairs : List (κ × ν)} {key : κ} :
    pairs.lookup key = none ↔ key ∉ pairs.map Prod.fst := by
  rw [List.lookup_eq_none_iff, List.mem_map]
  constructor
  · rintro h ⟨p, hp, rfl⟩
    simpa using h p hp
  · intro h p hp
    have hne : key ≠ p.1 := fun e => h ⟨p, hp, e.symm⟩
    simpa using hne

/-- Where two lists have the same pairs, with distinct keys, keys are looked up alike. -/
theorem lookup_perm {pairs pairs' : List (κ × ν)} (h : pairs.Perm pairs')
    (hkeys : (pairs.map Prod.fst).Nodup) (key : κ) : pairs.lookup key = pairs'.lookup key := by
  have hkeys' : (pairs'.map Prod.fst).Nodup := (h.map Prod.fst).nodup_iff.1 hkeys
  cases hlookup : pairs'.lookup key with
  | none =>
    rw [lookup_eq_none_iff] at hlookup ⊢
    rwa [(h.map Prod.fst).mem_iff]
  | some value =>
    rw [lookup_eq_some_iff hkeys'] at hlookup
    rwa [lookup_eq_some_iff hkeys, h.mem_iff]

theorem lookup_map_snd {μ : Type} (f : ν → μ) (pairs : List (κ × ν)) (key : κ) :
    (pairs.map fun p => (p.1, f p.2)).lookup key = (pairs.lookup key).map f := by
  induction pairs with
  | nil => rfl
  | cons p rest ih =>
    rw [List.map_cons, List.lookup_cons, List.lookup_cons]
    cases key == p.1
    · exact ih
    · rfl

theorem map_updatePairs_of_lookup {μ : Type} {f : ν → μ} {key : κ} {old new : ν}
    {pairs : List (κ × ν)} (h : pairs.lookup key = some old) (hf : f new = f old) :
    (updatePairs key (fun _ => new) pairs).map (fun p => (p.1, f p.2))
      = pairs.map fun p => (p.1, f p.2) := by
  induction pairs with
  | nil => cases h
  | cons p rest ih =>
    obtain ⟨k, v⟩ := p
    by_cases heq : k = key
    · subst heq
      rw [List.lookup_cons_self] at h
      cases h
      rw [updatePairs, if_pos rfl, List.map_cons, List.map_cons, hf]
    · have hne : (key == k) = false := by simpa using Ne.symm heq
      rw [List.lookup_cons, hne] at h
      rw [updatePairs, if_neg heq, List.map_cons, List.map_cons, ih h]

theorem lookup_map_pair (f : κ → ν) (keys : List κ) (key : κ) :
    (keys.map fun k => (k, f k)).lookup key = if key ∈ keys then some (f key) else none := by
  induction keys with
  | nil => rfl
  | cons k keys ih =>
    rw [List.map_cons]
    by_cases heq : key = k
    · subst heq
      rw [List.lookup_cons_self, if_pos List.mem_cons_self]
    · have hne : (key == k) = false := by simpa using heq
      rw [List.lookup_cons, hne, ih]
      simp only [List.mem_cons, heq, false_or]

theorem eraseDups_concat (items : List κ) (a : κ) : (items ++ [a]).eraseDups
    = if a ∈ items then items.eraseDups else items.eraseDups ++ [a] := by
  rw [List.eraseDups_append, List.removeAll]
  by_cases h : a ∈ items
  · rw [if_pos h, List.filter_cons_of_neg (by simpa using h)]
    exact List.append_nil _
  · rw [if_neg h, List.filter_cons_of_pos (by simpa using h)]
    rfl

theorem eraseDups_sublist (items : List κ) : items.eraseDups.Sublist items := by
  induction items using List.reverseRecOn with
  | nil => exact .slnil
  | append_singleton items a ih =>
    rw [eraseDups_concat]
    split
    · exact ih.trans (List.sublist_append_left items [a])
    · exact ih.append (.refl [a])

theorem eraseDups_of_nodup {items : List κ} (h : items.Nodup) : items.eraseDups = items := by
  induction items using List.reverseRecOn with
  | nil => rfl
  | append_singleton items a ih =>
    obtain ⟨hitems, -, hdisjoint⟩ := List.nodup_append.1 h
    have ha : a ∉ items := fun ha => hdisjoint a ha a List.mem_cons_self rfl
    rw [eraseDups_concat, if_neg ha, ih hitems]

/-- Where distinct items have nothing in common, repeats are those of whole items. -/
theorem eraseDups_flatMap {α : Type} [DecidableEq α] {f : α → List κ}
    (hnodup : ∀ a, (f a).Nodup) (hdisjoint : ∀ a b, ∀ k ∈ f a, k ∈ f b → a = b) (items : List α) :
    (items.flatMap f).eraseDups = items.eraseDups.flatMap f := by
  induction items using List.reverseRecOn with
  | nil => rfl
  | append_singleton items a ih =>
    rw [List.flatMap_append, List.flatMap_singleton, List.eraseDups_append, ih, eraseDups_concat,
      List.removeAll]
    by_cases ha : a ∈ items
    · have hnone : (f a).filter (fun k => !(items.flatMap f).elem k) = [] := by
        apply List.filter_eq_nil_iff.2
        intro k hk
        have hmem : k ∈ items.flatMap f := List.mem_flatMap.2 ⟨a, ha, hk⟩
        simp [hmem]
      rw [if_pos ha, hnone]
      exact List.append_nil _
    · have hall : (f a).filter (fun k => !(items.flatMap f).elem k) = f a := by
        apply List.filter_eq_self.2
        intro k hk
        have hmem : k ∉ items.flatMap f := by
          intro hmem
          obtain ⟨b, hb, hkb⟩ := List.mem_flatMap.1 hmem
          exact ha (hdisjoint b a k hkb hk ▸ hb)
        simpa using hmem
      rw [if_neg ha, hall, eraseDups_of_nodup (hnodup a), List.flatMap_append,
        List.flatMap_singleton]

/-- What is left without repeats stands in the order of first occurrence. -/
theorem pairwise_eraseDups (items : List κ) :
    items.eraseDups.Pairwise fun a b => items.idxOf a < items.idxOf b := by
  induction items using List.reverseRecOn with
  | nil => exact .nil
  | append_singleton items a ih =>
    have hkept : items.eraseDups.Pairwise fun b c =>
        (items ++ [a]).idxOf b < (items ++ [a]).idxOf c := by
      refine ih.imp_of_mem fun hb hc hlt => ?_
      rwa [List.idxOf_append, List.idxOf_append, if_pos (List.mem_eraseDups.1 hb),
        if_pos (List.mem_eraseDups.1 hc)]
    rw [eraseDups_concat]
    by_cases ha : a ∈ items
    · rwa [if_pos ha]
    · rw [if_neg ha, List.pairwise_append]
      refine ⟨hkept, List.pairwise_singleton _ a, fun b hb c hc => ?_⟩
      obtain rfl := List.mem_singleton.1 hc
      have hb := List.mem_eraseDups.1 hb
      rw [List.idxOf_append, List.idxOf_append, if_pos hb, if_neg ha]
      exact Nat.lt_of_lt_of_le (List.idxOf_lt_length_of_mem hb) (Nat.le_add_left _ _)

namespace Table

omit [DecidableEq κ] in
/-- No entry of a ranking weighs more than one before it. -/
theorem pairwise_ranked (t : Table κ ν) (weight : ν → Int) :
    (t.ranked weight).Pairwise fun entry later => weight later.2 ≤ weight entry.2 := by
  have hsorted : (t.ranked weight).Pairwise fun entry later =>
      decide (weight later.2 ≤ weight entry.2) = true := by
    apply List.pairwise_mergeSort
    · intro a b c hab hbc
      simp only [decide_eq_true_eq] at hab hbc ⊢
      omega
    · intro a b
      simp only [Bool.or_eq_true, decide_eq_true_eq]
      omega
  exact hsorted.imp of_decide_eq_true

theorem get?_eq_some_iff {t : Table κ ν} {key : κ} {value : ν} :
    t.get? key = some value ↔ (key, value) ∈ t.entries := lookup_eq_some_iff t.nodup_keys

theorem getD_of_mem {t : Table κ ν} {entry : κ × ν} (h : entry ∈ t.entries) (default : ν) :
    t.getD entry.1 default = entry.2 := by
  rw [getD, get?_eq_some_iff.2 h, Option.getD_some]

theorem mem_keys_update {t : Table κ ν} {key k : κ} {f : Option ν → ν} :
    k ∈ (t.update key f).keys ↔ k ∈ t.keys ∨ k = key := by
  rw [keys_update]
  by_cases h : key ∈ t.keys
  · rw [if_pos h]
    constructor
    · exact .inl
    · rintro (hk | rfl)
      · exact hk
      · exact h
  · rw [if_neg h, List.mem_append, List.mem_singleton]

theorem get?_eq_none_iff {t : Table κ ν} {key : κ} : t.get? key = none ↔ key ∉ t.keys :=
  lookup_eq_none_iff

theorem mem_values_iff {t : Table κ ν} {value : ν} :
    value ∈ t.values ↔ ∃ key, t.get? key = some value := by
  simp only [values, List.mem_map, get?_eq_some_iff]
  constructor
  · rintro ⟨⟨key, value⟩, hmem, rfl⟩
    exact ⟨key, hmem⟩
  · rintro ⟨key, hmem⟩
    exact ⟨(key, value), hmem, rfl⟩

theorem get?_mapValues {μ : Type} (f : ν → μ) (t : Table κ ν) (key : κ) :
    (t.mapValues f).get? key = (t.get? key).map f := lookup_map_snd f t.entries key

omit [DecidableEq κ] in
theorem keys_mapValues {μ : Type} (f : ν → μ) (t : Table κ ν) : (t.mapValues f).keys = t.keys := by
  rw [keys, keys, mapValues, List.map_map]
  rfl

omit [DecidableEq κ] in
theorem values_mapValues {μ : Type} (f : ν → μ) (t : Table κ ν) :
    (t.mapValues f).values = t.values.map f := by
  rw [values, values, mapValues, List.map_map, List.map_map]
  rfl

/-- What holds of all entries and of the new value holds of all entries after an update. -/
theorem forall_update {P : κ → ν → Prop} {t : Table κ ν} {key : κ} {f : Option ν → ν}
    (h : ∀ entry ∈ t.entries, P entry.1 entry.2) (hnew : P key (f (t.get? key))) :
    ∀ entry ∈ (t.update key f).entries, P entry.1 entry.2 := by
  rintro ⟨k, v⟩ hmem
  rw [← get?_eq_some_iff, get?_update] at hmem
  split at hmem
  · rename_i hk
    cases hmem
    rwa [hk]
  · exact h (k, v) (get?_eq_some_iff.1 hmem)

/-- A view of the values that a new value does not change. -/
theorem mapValues_insert {μ : Type} {f : ν → μ} {t : Table κ ν} {key : κ} {old new : ν}
    (h : t.get? key = some old) (hf : f new = f old) :
    (t.insert key new).mapValues f = t.mapValues f :=
  Table.ext (map_updatePairs_of_lookup h hf)

theorem entries_foldl_insert {pairs : List (κ × ν)} (t : Table κ ν)
    (h : ((t.entries ++ pairs).map Prod.fst).Nodup) :
    (pairs.foldl (fun t p => t.insert p.1 p.2) t).entries = t.entries ++ pairs := by
  induction pairs generalizing t with
  | nil => rw [List.foldl_nil, List.append_nil]
  | cons p pairs ih =>
    have hp : p.1 ∉ t.entries.map Prod.fst := by
      rw [List.map_append, List.nodup_append] at h
      exact fun hmem => h.2.2 p.1 hmem p.1 (by simp) rfl
    have hinsert : (t.insert p.1 p.2).entries = t.entries ++ [p] :=
      updatePairs_of_not_mem _ hp
    rw [List.foldl_cons, ih, hinsert, List.append_assoc, List.singleton_append]
    rw [hinsert, List.append_assoc, List.singleton_append]
    exact h

theorem ofPairs_concat (pairs : List (κ × ν)) (entry : κ × ν) :
    ofPairs (pairs ++ [entry]) = (ofPairs pairs).insert entry.1 entry.2 := by
  rw [ofPairs, List.foldl_append]
  rfl

/-- Each key is entered once, where it comes first. -/
theorem keys_ofPairs (pairs : List (κ × ν)) :
    (ofPairs pairs).keys = (pairs.map Prod.fst).eraseDups := by
  induction pairs using List.reverseRecOn with
  | nil => rfl
  | append_singleton pairs entry ih =>
    rw [ofPairs_concat, insert, keys_update, ih, List.map_append, List.map_singleton,
      eraseDups_concat]
    simp only [List.mem_eraseDups]

/-- The last value of a key is looked up. -/
theorem get?_ofPairs (pairs : List (κ × ν)) (key : κ) :
    (ofPairs pairs).get? key = pairs.reverse.lookup key := by
  induction pairs using List.reverseRecOn with
  | nil => rfl
  | append_singleton pairs entry ih =>
    rw [ofPairs_concat, insert, get?_update, List.reverse_concat, ih]
    by_cases heq : key = entry.1
    · rw [if_pos heq, heq, List.lookup_cons_self]
    · have hne : (key == entry.1) = false := by simpa using heq
      rw [if_neg heq, List.lookup_cons, hne]

/-- Every entry is one of the pairs. -/
theorem mem_of_mem_ofPairs {pairs : List (κ × ν)} {entry : κ × ν}
    (h : entry ∈ (ofPairs pairs).entries) : entry ∈ pairs := by
  rw [← get?_eq_some_iff, get?_ofPairs] at h
  obtain ⟨before, after, hpairs, -⟩ := List.lookup_eq_some_iff.1 h
  rw [← List.mem_reverse, hpairs]
  exact List.mem_append_right before List.mem_cons_self

theorem get?_ofPairs_append_cons {before after : List (κ × ν)} {entry : κ × ν}
    (h : entry.1 ∉ after.map Prod.fst) :
    (ofPairs (before ++ entry :: after)).get? entry.1 = some entry.2 := by
  have hafter : after.reverse.lookup entry.1 = none := by
    rwa [lookup_eq_none_iff, List.map_reverse, List.mem_reverse]
  rw [get?_ofPairs, List.reverse_append, List.reverse_cons, List.append_assoc, List.lookup_append,
    hafter, Option.none_or, List.singleton_append, List.lookup_cons_self]

/-- Pairs with distinct keys are entries. -/
theorem entries_ofPairs {pairs : List (κ × ν)} (h : (pairs.map Prod.fst).Nodup) :
    (ofPairs pairs).entries = pairs :=
  entries_foldl_insert empty h

/-- Of keys with a value each, the entries are the first ones of the keys. -/
theorem entries_ofPairs_map (f : κ → ν) (keys : List κ) :
    (ofPairs (keys.map fun k => (k, f k))).entries = keys.eraseDups.map fun k => (k, f k) := by
  induction keys using List.reverseRecOn with
  | nil => rfl
  | append_singleton keys key ih =>
    have hinsert : (ofPairs ((keys ++ [key]).map fun k => (k, f k))).entries
        = updatePairs key (fun _ => f key) (keys.eraseDups.map fun k => (k, f k)) := by
      rw [← ih, List.map_append, ofPairs, List.foldl_append]
      rfl
    have hlookup := lookup_map_pair f keys.eraseDups key
    rw [hinsert, eraseDups_concat]
    by_cases hkey : key ∈ keys
    · rw [if_pos (List.mem_eraseDups.2 hkey)] at hlookup
      rw [if_pos hkey, updatePairs_of_lookup hlookup]
    · rw [if_neg (mt List.mem_eraseDups.1 hkey), lookup_eq_none_iff] at hlookup
      rw [if_neg hkey, updatePairs_of_not_mem _ hlookup, List.map_append]
      rfl

theorem keys_ofPairs_map (f : κ → ν) (keys : List κ) :
    (ofPairs (keys.map fun k => (k, f k))).keys = keys.eraseDups := by
  rw [keys_ofPairs, List.map_map]
  exact congrArg List.eraseDups (List.map_id _)

theorem get?_ofPairs_map (f : κ → ν) (keys : List κ) (key : κ) :
    (ofPairs (keys.map fun k => (k, f k))).get? key
      = if key ∈ keys then some (f key) else none := by
  rw [get?, entries_ofPairs_map, lookup_map_pair]
  simp only [List.mem_eraseDups]

end Table

end UsageCensus
