import UsageCensus.Defaults.Detection
import UsageCensus.Proofs.Sums

/-!
# Values by component and prop

Grouping enters the items one by one in a table of tables. Where no two items are about one prop of
one component, nothing is entered twice: there is one leaf for each item and no other, and no table
in it is empty (`isGrouping_groupBy`).
-/

namespace UsageCensus

open UsageCensus.Number

namespace Table

variable {κ ν : Type} [DecidableEq κ] {t : Table κ (Table String ν)} {key : κ} {prop : String}

/-- The value below two keys. -/
def leaf? (t : Table κ (Table String ν)) (key : κ) (prop : String) : Option ν :=
  (t.get? key).bind fun props => props.get? prop

/-- How many values there are below two keys. -/
def leafCount (t : Table κ (Table String ν)) : Nat := sumOf Table.size t.values

/-- One more value below two keys. -/
def addLeaf (t : Table κ (Table String ν)) (key : κ) (prop : String) (value : ν) :
    Table κ (Table String ν) :=
  t.update key fun props => (props.getD .empty).insert prop value

theorem leaf?_addLeaf (t : Table κ (Table String ν)) (key k : κ) (prop p : String) (value : ν) :
    (t.addLeaf key prop value).leaf? k p
      = if k = key ∧ p = prop then some value else t.leaf? k p := by
  unfold leaf? addLeaf
  rw [get?_update]
  by_cases hkey : k = key
  · subst hkey
    rw [if_pos rfl, Option.bind_some, insert, get?_update]
    cases t.get? k with
    | none => simp [Table.get?, Table.empty]
    | some props => simp
  · rw [if_neg hkey, if_neg fun h => hkey h.1]

theorem size_insert {props : Table String ν} (h : props.get? prop = none) (value : ν) :
    (props.insert prop value).size = props.size + 1 := by
  have hkeys := props.keys_update prop fun _ => value
  rw [if_neg (get?_eq_none_iff.1 h)] at hkeys
  have hlength := congrArg List.length hkeys
  rwa [List.length_append, keys, keys, List.length_map, List.length_map] at hlength

theorem leafCount_addLeaf (h : t.leaf? key prop = none) (value : ν) :
    (t.addLeaf key prop value).leafCount = t.leafCount + 1 := by
  unfold leaf? at h
  apply sumOf_update_of_add
  cases hget : t.get? key with
  | none => rfl
  | some props =>
    rw [hget] at h
    exact size_insert h value

theorem forall_ne_nil_addLeaf (h : ∀ entry ∈ t.entries, entry.2.entries ≠ []) (value : ν) :
    ∀ entry ∈ (t.addLeaf key prop value).entries, entry.2.entries ≠ [] := by
  apply forall_update (P := fun _ (props : Table String ν) => props.entries ≠ []) h
  intro hnil
  have hget := ((t.get? key).getD .empty).get?_update prop prop fun _ => value
  rw [if_pos rfl, get?_eq_some_iff] at hget
  exact List.ne_nil_of_mem hget hnil

end Table

namespace Detection

variable {κ ν β : Type} [DecidableEq κ] {key : β → κ} {prop : β → String} {value : β → ν}

theorem groupBy_concat (items : List β) (item : β) :
    groupBy key prop value (items ++ [item])
      = (groupBy key prop value items).addLeaf (key item) (prop item) (value item) := by
  rw [groupBy, List.foldl_append]
  rfl

/-- The table has the values of the items and no others, each in its own place. -/
structure IsGrouping (key : β → κ) (prop : β → String) (value : β → ν) (items : List β)
    (table : Table κ (Table String ν)) : Prop where
  leaf : ∀ k p v,
    table.leaf? k p = some v ↔ ∃ item ∈ items, key item = k ∧ prop item = p ∧ value item = v
  count : table.leafCount = items.length
  nonempty : ∀ entry ∈ table.entries, entry.2.entries ≠ []

/-- The order of the entries does not matter. -/
theorem IsGrouping.perm {items : List β} {table table' : Table κ (Table String ν)}
    (h : IsGrouping key prop value items table) (hperm : table.entries.Perm table'.entries) :
    IsGrouping key prop value items table' where
  leaf k p v := by
    rw [← h.leaf k p v, Table.leaf?, Table.leaf?, Table.get?, Table.get?,
      lookup_perm hperm table.nodup_keys]
  count := by
    rw [← h.count, Table.leafCount, Table.leafCount]
    exact (sumOf_perm (hperm.map Prod.snd) Table.size).symm
  nonempty entry hentry := h.nonempty entry (hperm.mem_iff.2 hentry)

/-- Items about distinct props are all there. -/
theorem isGrouping_groupBy {items : List β}
    (h : items.Pairwise fun a b => ¬ (key a = key b ∧ prop a = prop b)) :
    IsGrouping key prop value items (groupBy key prop value items) := by
  induction items using List.reverseRecOn with
  | nil =>
    refine ⟨fun k p v => ?_, rfl, fun entry hentry => by cases hentry⟩
    simp [groupBy, Table.leaf?, Table.get?, Table.empty]
  | append_singleton items item ih =>
    obtain ⟨hitems, -, happart⟩ := List.pairwise_append.1 h
    obtain ⟨hleaf, hcount, hnonempty⟩ := ih hitems
    have hother : ∀ earlier ∈ items, ¬ (key earlier = key item ∧ prop earlier = prop item) :=
      fun earlier hmem => happart earlier hmem item List.mem_cons_self
    have hnew : (groupBy key prop value items).leaf? (key item) (prop item) = none := by
      refine Option.eq_none_iff_forall_not_mem.2 fun v hv => ?_
      obtain ⟨earlier, hmem, hkey, hprop, -⟩ := (hleaf _ _ _).1 hv
      exact hother earlier hmem ⟨hkey, hprop⟩
    rw [groupBy_concat]
    constructor
    case leaf =>
      intro k p v
      rw [Table.leaf?_addLeaf]
      simp only [List.mem_append, List.mem_singleton, or_and_right, exists_or, exists_eq_left]
      rw [← hleaf k p v]
      by_cases hplace : k = key item ∧ p = prop item
      · obtain ⟨rfl, rfl⟩ := hplace
        simp [hnew]
      · rw [if_neg hplace]
        refine ⟨.inl, fun h => h.resolve_right ?_⟩
        rintro ⟨rfl, rfl, -⟩
        exact hplace ⟨rfl, rfl⟩
    case count => rw [Table.leafCount_addLeaf hnew, hcount, List.length_append, List.length_singleton]
    case nonempty => exact Table.forall_ne_nil_addLeaf hnonempty _

end Detection

end UsageCensus
