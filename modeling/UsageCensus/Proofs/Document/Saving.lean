import UsageCensus.Document.Saved
import UsageCensus.Proofs.Attempts

/-!
# What can be saved

A document can be saved if each integer in it can be written, nothing in it is without a form, and
there is room for it (`takesRoom_savedWithin`, `isSavable_of_savedWithin`). What a document of a
report asks for is read off its form.
-/

namespace UsageCensus

theorem Text.isWritable_of_le {m n : Nat} (h : isWritable n = true) (hle : m ≤ n) :
    isWritable m = true := by
  have hlt : n < Nat.pow 10 maxIntegerDigits := of_decide_eq_true h
  exact decide_eq_true (Nat.lt_of_le_of_lt hle hlt)

namespace Document

mutual

/-- The document has a form in which it can be saved, where there is room for it. -/
def isSavable : Document → Bool
  | int n => Text.isWritable n
  | list items => areSavable items
  | object members => areMembersSavable members
  | set members => areComparable members && areSavable members
  | record _ fields => areMembersSavable fields
  | bytes _ => false
  | _ => true

def areSavable : List Document → Bool
  | [] => true
  | item :: items => item.isSavable && areSavable items

def areMembersSavable : List (String × Document) → Bool
  | [] => true
  | (_, value) :: members => value.isSavable && areMembersSavable members

end

/-! ## What reports are made of -/

section

variable {items : List Document} {members : List (String × Document)} {n : Nat}

theorem areSavable_iff : areSavable items = true ↔ ∀ item ∈ items, item.isSavable = true := by
  induction items with
  | nil => simp [areSavable]
  | cons item items ih => rw [areSavable, Bool.and_eq_true, ih, List.forall_mem_cons]

theorem areMembersSavable_iff :
    areMembersSavable members = true ↔ ∀ member ∈ members, member.2.isSavable = true := by
  induction members with
  | nil => simp [areMembersSavable]
  | cons member members ih => rw [areMembersSavable, Bool.and_eq_true, ih, List.forall_mem_cons]

theorem depthOfItems_le_iff : depthOfItems items ≤ n ↔ ∀ item ∈ items, item.depth ≤ n := by
  induction items with
  | nil => simp [depthOfItems]
  | cons item items ih => rw [depthOfItems, Nat.max_le, ih, List.forall_mem_cons]

theorem depthOfMembers_le_iff :
    depthOfMembers members ≤ n ↔ ∀ member ∈ members, member.2.depth ≤ n := by
  induction members with
  | nil => simp [depthOfMembers]
  | cons member members ih => rw [depthOfMembers, Nat.max_le, ih, List.forall_mem_cons]

@[simp]
theorem isSavable_null : isSavable .null = true := rfl

@[simp]
theorem isSavable_string (text : String) : (string text).isSavable = true := rfl

@[simp]
theorem isSavable_float (x : Number.Binary64) : (float x).isSavable = true := rfl

@[simp]
theorem isSavable_ofNat (n : Nat) : (ofNat n).isSavable = Text.isWritable n := rfl

@[simp]
theorem isSavable_list :
    (list items).isSavable = true ↔ ∀ item ∈ items, item.isSavable = true := areSavable_iff

@[simp]
theorem isSavable_object :
    (object members).isSavable = true ↔ ∀ member ∈ members, member.2.isSavable = true :=
  areMembersSavable_iff

@[simp]
theorem isSavable_ofTexts (texts : List String) : (ofTexts texts).isSavable = true := by
  simp [ofTexts]

@[simp]
theorem isSavable_ofTable {ν : Type} {f : ν → Document} {table : Table String ν} :
    (ofTable f table).isSavable = true
      ↔ ∀ entry ∈ table.entries, (f entry.2).isSavable = true := by
  unfold ofTable Table.mapValues
  rw [isSavable_object, List.forall_mem_map]

@[simp]
theorem depth_null : depth .null = 0 := rfl

@[simp]
theorem depth_string (text : String) : (string text).depth = 0 := rfl

@[simp]
theorem depth_float (x : Number.Binary64) : (float x).depth = 0 := rfl

@[simp]
theorem depth_ofNat (n : Nat) : (ofNat n).depth = 0 := rfl

@[simp]
theorem depth_list_le : (list items).depth ≤ n + 1 ↔ ∀ item ∈ items, item.depth ≤ n :=
  Nat.add_le_add_iff_right.trans depthOfItems_le_iff

@[simp]
theorem depth_object_le :
    (object members).depth ≤ n + 1 ↔ ∀ member ∈ members, member.2.depth ≤ n :=
  Nat.add_le_add_iff_right.trans depthOfMembers_le_iff

@[simp]
theorem depth_ofTexts_le (texts : List String) : (ofTexts texts).depth ≤ n + 1 := by
  simp [ofTexts]

@[simp]
theorem depth_ofTable_le {ν : Type} {f : ν → Document} {table : Table String ν} :
    (ofTable f table).depth ≤ n + 1 ↔ ∀ entry ∈ table.entries, (f entry.2).depth ≤ n := by
  unfold ofTable Table.mapValues
  rw [depth_object_le, List.forall_mem_map]

end

/-! ## Room -/

/-- There is an outcome where `needed` calls can be open, and with fewer it is for this reason that
there is none. -/
def TakesRoom {α : Type} (needed : Nat) (f : Nat → Except Fault α) : Prop :=
  ∀ room, (needed ≤ room → ∃ a, f room = .ok a) ∧ (room < needed → f room = .error .tooDeep)

namespace TakesRoom

variable {α β γ : Type} {calls : Calls} {value : Document} {f : Nat → Except Fault α}
  {g : Nat → Except Fault β} {m n : Nat}

theorem pure (a : α) : TakesRoom 0 fun _ => .ok a :=
  fun _ => ⟨fun _ => ⟨a, rfl⟩, fun h => absurd h (Nat.not_lt_zero _)⟩

theorem map (h : TakesRoom n f) (k : α → β) :
    TakesRoom n fun room => f room >>= fun a => .ok (k a) := by
  intro room
  constructor
  · intro hroom
    obtain ⟨a, ha⟩ := (h room).1 hroom
    exact ⟨k a, bind_eq_ok.2 ⟨a, ha, rfl⟩⟩
  · exact fun hroom => bind_eq_error.2 (.inl ((h room).2 hroom))

theorem both (hf : TakesRoom m f) (hg : TakesRoom n g) (k : α → β → γ) :
    TakesRoom (max m n) fun room => f room >>= fun a => g room >>= fun b => .ok (k a b) := by
  intro room
  constructor
  · intro hroom
    obtain ⟨a, ha⟩ := (hf room).1 (by omega)
    obtain ⟨b, hb⟩ := (hg room).1 (by omega)
    exact ⟨k a b, bind_eq_ok.2 ⟨a, ha, bind_eq_ok.2 ⟨b, hb, rfl⟩⟩⟩
  · intro hroom
    by_cases hm : room < m
    · exact bind_eq_error.2 (.inl ((hf room).2 hm))
    · obtain ⟨a, ha⟩ := (hf room).1 (by omega)
      exact bind_eq_error.2 (.inr ⟨a, ha, bind_eq_error.2 (.inl ((hg room).2 (by omega)))⟩)

/-- A value that is met takes what it takes by itself. -/
theorem met (a : α) :
    TakesRoom (calls.own value) fun room => calls.meet room value >>= fun _ => .ok a := by
  intro room
  dsimp only [Calls.meet]
  constructor
  · intro hroom
    rw [if_pos hroom]
    exact ⟨a, rfl⟩
  · intro hroom
    rw [if_neg (Nat.not_le.2 hroom)]
    rfl

/-- One that is entered also takes what is open around what is inside. -/
theorem inside (h : TakesRoom n f) :
    TakesRoom (max (calls.own value) (calls.around value + n)) fun room =>
      calls.meet room value >>= fun _ => calls.enter room value >>= f := by
  intro room
  dsimp only [Calls.meet, Calls.enter]
  constructor
  · intro hroom
    rw [if_pos (by omega), if_pos (by omega)]
    exact (h _).1 (by omega)
  · intro hroom
    by_cases hown : calls.own value ≤ room
    · rw [if_pos hown]
      by_cases haround : calls.around value ≤ room
      · rw [if_pos haround]
        exact (h _).2 (by omega)
      · rw [if_neg haround]
        rfl
    · rw [if_neg hown]
      rfl

end TakesRoom

section

variable {calls : Calls}

mutual

/-- A document that has a form is saved where there is room for it. -/
theorem takesRoom_savedWithin {value : Document} (h : value.isSavable = true) :
    TakesRoom (value.callsFor calls.own calls.around) (value.savedWithin calls) := by
  cases value with
  | int n =>
    have hsaved : (int n).savedWithin calls = fun room =>
        calls.meet room (.int n) >>= fun _ => .ok (.int n) := by
      funext room
      rw [isSavable] at h
      rw [savedWithin, if_pos h]
      rfl
    rw [hsaved]
    exact .met _
  | list items => exact ((takesRoom_savedItems h).map list).inside
  | object members => exact ((takesRoom_savedMembers h).map object).inside
  | set members =>
    obtain ⟨hcomparable, hmembers⟩ := Bool.and_eq_true_iff.1 h
    have hsaved : (set members).savedWithin calls = fun room =>
        calls.meet room (.set members) >>= fun _ => calls.enter room (.set members) >>=
          fun room => savedItems calls room members >>= fun saved => .ok (.list saved) := by
      funext room
      rw [savedWithin, hcomparable]
      rfl
    rw [hsaved]
    exact ((takesRoom_savedItems hmembers).map list).inside
  | record kind fields => exact ((takesRoom_savedMembers h).map object).inside
  | bytes content => cases h
  | _ => exact .met _

theorem takesRoom_savedItems {items : List Document} (h : areSavable items = true) :
    TakesRoom (callsForItems calls.own calls.around items)
      fun room => savedItems calls room items := by
  cases items with
  | nil => exact .pure []
  | cons item items =>
    obtain ⟨hitem, hitems⟩ := Bool.and_eq_true_iff.1 h
    exact (takesRoom_savedWithin hitem).both (takesRoom_savedItems hitems) List.cons

theorem takesRoom_savedMembers {members : List (String × Document)}
    (h : areMembersSavable members = true) :
    TakesRoom (callsForMembers calls.own calls.around members)
      fun room => savedMembers calls room members := by
  cases members with
  | nil => exact .pure []
  | cons member members =>
    obtain ⟨hvalue, hmembers⟩ := Bool.and_eq_true_iff.1 h
    exact (takesRoom_savedWithin hvalue).both (takesRoom_savedMembers hmembers)
      fun saved rest => (member.1, saved) :: rest

end

mutual

/-- What has been saved has a form. -/
theorem isSavable_of_savedWithin {value saved : Document} {room : Nat}
    (h : value.savedWithin calls room = .ok saved) : value.isSavable = true := by
  rw [savedWithin.eq_def] at h
  obtain ⟨_, -, h⟩ := bind_eq_ok.1 h
  cases value with
  | int n =>
    dsimp only at h
    by_cases hn : Text.isWritable n
    · exact hn
    · rw [if_neg hn] at h
      cases h
  | list items =>
    obtain ⟨inner, -, h⟩ := bind_eq_ok.1 h
    obtain ⟨_, hitems, -⟩ := bind_eq_ok.1 h
    exact areSavable_of_savedItems hitems
  | object members =>
    obtain ⟨inner, -, h⟩ := bind_eq_ok.1 h
    obtain ⟨_, hmembers, -⟩ := bind_eq_ok.1 h
    exact areMembersSavable_of_savedMembers hmembers
  | set members =>
    dsimp only at h
    by_cases hcomparable : areComparable members
    · rw [hcomparable] at h
      obtain ⟨inner, -, h⟩ := bind_eq_ok.1 h
      obtain ⟨_, hmembers, -⟩ := bind_eq_ok.1 h
      exact Bool.and_eq_true_iff.2 ⟨hcomparable, areSavable_of_savedItems hmembers⟩
    · rw [eq_false_of_ne_true hcomparable] at h
      cases h
  | record kind fields =>
    obtain ⟨inner, -, h⟩ := bind_eq_ok.1 h
    obtain ⟨_, hfields, -⟩ := bind_eq_ok.1 h
    exact areMembersSavable_of_savedMembers hfields
  | bytes content => cases h
  | _ => rfl

theorem areSavable_of_savedItems {items saved : List Document} {room : Nat}
    (h : savedItems calls room items = .ok saved) : areSavable items = true := by
  cases items with
  | nil => rfl
  | cons item items =>
    obtain ⟨_, hitem, h⟩ := bind_eq_ok.1 h
    obtain ⟨_, hitems, -⟩ := bind_eq_ok.1 h
    exact Bool.and_eq_true_iff.2
      ⟨isSavable_of_savedWithin hitem, areSavable_of_savedItems hitems⟩

theorem areMembersSavable_of_savedMembers {members saved : List (String × Document)} {room : Nat}
    (h : savedMembers calls room members = .ok saved) : areMembersSavable members = true := by
  cases members with
  | nil => rfl
  | cons member members =>
    obtain ⟨_, hvalue, h⟩ := bind_eq_ok.1 h
    obtain ⟨_, hmembers, -⟩ := bind_eq_ok.1 h
    exact Bool.and_eq_true_iff.2
      ⟨isSavable_of_savedWithin hvalue, areMembersSavable_of_savedMembers hmembers⟩

end

end

section

variable [Room] {value : Document}

/-- Documents of few levels are saved if they have a form. -/
theorem exists_savedText_iff (h : value.depth ≤ fewLevels) :
    (∃ text, value.savedText = .ok text) ↔ value.isSavable = true := by
  have hsaved : (∃ text, value.savedText = .ok text) ↔ ∃ saved, value.saved = .ok saved :=
    exists_bind_pure_eq_ok
  rw [hsaved]
  constructor
  · rintro ⟨saved, h⟩
    exact isSavable_of_savedWithin h
  · exact fun hsavable => (takesRoom_savedWithin hsavable _).1 (Room.saving.few value h)

/-- A document that has a form and that there is no room for is not saved. -/
theorem saved_tooDeep (h : value.isSavable = true) (hroom : Room.saving.fits value = false) :
    value.saved = .error .tooDeep :=
  (takesRoom_savedWithin h _).2 (Nat.not_le.1 (of_decide_eq_false hroom))

end

end Document

end UsageCensus
