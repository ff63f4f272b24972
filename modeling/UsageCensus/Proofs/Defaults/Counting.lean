import UsageCensus.Defaults.Detection
import UsageCensus.Proofs.Attempts
import UsageCensus.Proofs.Tables

/-!
# Detecting defaults from either kind of counts

Usages are counted in naturals while files are added, and in values of a document once they have
been saved. A natural is judged like the integer that it is saved as (`Agree.ofNat`), so a prop
has the same detection either way, whatever order its values are saved in
(`detect_eq_of_agree`).
-/

namespace UsageCensus.Detection

open UsageCensus.Defaults UsageCensus.Number

variable {α β : Type}

/-- The detection with its counts in another form. -/
def mapCounts (f : α → β) (detection : Detection α) : Detection β :=
  { detection with count := f detection.count, total := f detection.total }

/-- Entries with their counts in another form. -/
def mapEntries (f : α → β) (entries : List (String × α)) : List (String × β) :=
  entries.map fun entry => (entry.1, f entry.2)

/-! ## What a detection is about -/

/-- The detection is about a prop of a component. -/
def IsAbout (component prop : String) (detection : Detection α) : Prop :=
  detection.component = component ∧ detection.prop = prop

section

variable {component prop : String} {values : Table String α} {total : α}
  {detection : Detection α}

theorem isAbout_of_element (h : ofElement? component prop values total = some detection) :
    IsAbout component prop detection := by
  unfold ofElement? at h
  obtain ⟨element, -, h⟩ := Option.bind_eq_some_iff.1 h
  obtain ⟨count, -, h⟩ := Option.bind_eq_some_iff.1 h
  cases h
  exact ⟨rfl, rfl⟩

variable [Quantity α (Except Fault)]

theorem isAbout_of_known {value : String} {count : α} {ranked : List (String × α)}
    (h : ofKnown component prop value count total ranked = .ok detection) :
    IsAbout component prop detection := by
  unfold ofKnown at h
  dsimp only at h
  split at h
  all_goals
    obtain ⟨isMinority, -, h⟩ := bind_eq_ok.1 h
    cases h
    exact ⟨rfl, rfl⟩

theorem isAbout_of_rare {ranked : List (String × α)}
    (h : ofRare? component prop total ranked = .ok (some detection)) :
    IsAbout component prop detection := by
  unfold ofRare? at h
  split at h
  · obtain ⟨share, -, h⟩ := bind_eq_ok.1 h
    split at h
    · cases h
      exact ⟨rfl, rfl⟩
    · cases h
  · cases h

theorem isAbout_of_literal (h : ofLiteral? component prop values total = some detection) :
    IsAbout component prop detection := by
  unfold ofLiteral? at h
  split at h
  · split at h
    · cases h
    · cases h
      exact ⟨rfl, rfl⟩
  · cases h

/-- A detection is about the prop that was judged. -/
theorem isAbout_of_detect (h : detect component prop values total = .ok (some detection)) :
    IsAbout component prop detection := by
  unfold detect at h
  split at h
  · cases h
  · obtain ⟨ranked, -, h⟩ := bind_eq_ok.1 h
    split at h
    · rename_i helement
      cases h
      exact isAbout_of_element helement
    · split at h
      · obtain ⟨found, hknown, h⟩ := bind_eq_ok.1 h
        cases h
        exact isAbout_of_known hknown
      · obtain ⟨found, hrare, h⟩ := bind_eq_ok.1 h
        cases found with
        | some found =>
          cases h
          exact isAbout_of_rare hrare
        | none => exact isAbout_of_literal (Except.ok.inj h)

end

/-! ## Counts that are judged alike -/

theorem element?_congr {component prop : String} {values : Table String α}
    {stored : Table String β} (h : ∀ key, stored.contains key = values.contains key) :
    element? component prop stored = element? component prop values := by
  unfold element?
  simp only [h]

theorem ofElement?_map {f : α → β} {component prop : String} {values : Table String α}
    {stored : Table String β} (hget : ∀ key, stored.get? key = (values.get? key).map f)
    (total : α) :
    ofElement? component prop stored (f total)
      = (ofElement? component prop values total).map (mapCounts f) := by
  have helement : element? component prop stored = element? component prop values := by
    apply element?_congr
    intro key
    rw [Table.contains, Table.contains, hget, Option.isSome_map]
  unfold ofElement?
  rw [helement]
  cases element? component prop values with
  | none => rfl
  | some element =>
    show (stored.get? (text element) >>= _) = Option.map _ (values.get? (text element) >>= _)
    rw [hget]
    cases values.get? (text element) <;> rfl

theorem known?_map {f : α → β} {prop : String} {values : Table String α} {stored : Table String β}
    (hget : ∀ key, stored.get? key = (values.get? key).map f) :
    known? prop stored = (known? prop values).map fun found => (found.1, f found.2) := by
  unfold known?
  rw [List.map_findSome?]
  congr 1
  funext value
  rw [hget, Option.map_map, Function.comp_apply, Option.map_map]
  rfl

section

variable [Quantity α (Except Fault)] [Quantity β (Except Fault)]

/-- The counts are judged like their other form, one by one. -/
structure Agree (f : α → β) : Prop where
  isZero : ∀ a : α, Quantity.isZero (f a) = Quantity.isZero a
  isAtMostHalf : ∀ a b : α, Quantity.isAtMostHalf (f a) (f b) = Quantity.isAtMostHalf a b
  share : ∀ a b : α, Quantity.share (f a) (f b) = Quantity.share a b
  text : ∀ a : α, Quantity.text (f a) = Quantity.text a

variable {f : α → β} {component prop : String}

theorem ofKnown_map (h : Agree f) (value : String) (count total : α)
    (ranked : List (String × α)) :
    ofKnown component prop value (f count) (f total) (mapEntries f ranked)
      = (ofKnown component prop value count total ranked).map (mapCounts f) := by
  unfold ofKnown
  match ranked with
  | [] => simp only [mapEntries, List.map_nil, pure_bind, h.text]; rfl
  | [_] => simp only [mapEntries, List.map_cons, List.map_nil, pure_bind, h.text]; rfl
  | (_, largest) :: _ :: _ =>
    simp only [mapEntries, List.map_cons, h.isAtMostHalf, h.text]
    cases Quantity.isAtMostHalf count largest <;> rfl

theorem ofRare?_map (h : Agree f) (total : α) (ranked : List (String × α)) :
    ofRare? component prop (f total) (mapEntries f ranked)
      = (ofRare? component prop total ranked).map (Option.map (mapCounts f)) := by
  unfold ofRare?
  match ranked with
  | [] => rfl
  | [_] => rfl
  | first :: second :: rest =>
    obtain ⟨⟨value, count⟩, hlast⟩ : ∃ last, (first :: second :: rest).getLast? = some last :=
      ⟨_, List.getLast?_eq_some_getLast (by simp)⟩
    have hlast' : (mapEntries f (first :: second :: rest)).getLast? = some (value, f count) := by
      rw [mapEntries, List.getLast?_map, hlast]
      rfl
    rw [hlast, hlast']
    simp only [mapEntries, List.map_cons, h.share, h.text]
    cases hshare : Quantity.share count total with
    | error fault => rfl
    | ok share =>
      show (if _ then _ else _) = Except.map _ (if _ then _ else _)
      by_cases hrare : share.lt rareShare && looksLikeDefault value
      · rw [if_pos hrare, if_pos hrare]; rfl
      · rw [if_neg hrare, if_neg hrare]; rfl

theorem ofLiteral?_map (h : Agree f) {values : Table String α} {stored : Table String β}
    (hget : ∀ key, stored.get? key = (values.get? key).map f) (total : α) :
    ofLiteral? component prop stored (f total)
      = (ofLiteral? component prop values total).map (mapCounts f) := by
  unfold ofLiteral?
  rw [hget]
  cases values.get? literalDefault with
  | none => rfl
  | some count =>
    simp only [Option.map_some, h.text]
    by_cases hprop : prop = "data-testid"
    · rw [if_pos hprop, if_pos hprop]; rfl
    · rw [if_neg hprop, if_neg hprop]; rfl

/-- Values that are looked up and ranked alike have the same detection. -/
theorem detect_eq_of_agree (h : Agree f) {values : Table String α} {stored : Table String β}
    (hempty : stored.isEmpty = values.isEmpty)
    (hget : ∀ key, stored.get? key = (values.get? key).map f)
    (hranked : (Quantity.ranked stored.entries : Except Fault _)
      = (Quantity.ranked values.entries).map (mapEntries f)) (total : α) :
    detect component prop stored (f total)
      = (detect component prop values total).map (Option.map (mapCounts f)) := by
  unfold detect
  rw [hempty, h.isZero, hranked, ofElement?_map hget, known?_map hget, ofLiteral?_map h hget]
  by_cases hzero : values.isEmpty || Quantity.isZero total
  · rw [if_pos hzero, if_pos hzero]; rfl
  · rw [if_neg hzero, if_neg hzero]
    cases Quantity.ranked values.entries with
    | error fault => rfl
    | ok ranked =>
      cases ofElement? component prop values total with
      | some found => rfl
      | none =>
        rw [Option.map_none]
        dsimp only
        cases known? prop values with
        | some found =>
          show (ofKnown component prop found.1 (f found.2) (f total) (mapEntries f ranked) >>= _)
            = Except.map _ (ofKnown component prop found.1 found.2 total ranked >>= _)
          rw [ofKnown_map h]
          cases ofKnown component prop found.1 found.2 total ranked <;> rfl
        | none =>
          show (ofRare? component prop (f total) (mapEntries f ranked) >>= _)
            = Except.map _ (ofRare? component prop total ranked >>= _)
          rw [ofRare?_map h]
          cases ofRare? component prop total ranked with
          | error fault => rfl
          | ok found => cases found <;> rfl

end

/-! ## Naturals and the integers they are saved as -/

section

variable (surrogates : Text.Surrogates)

theorem Agree.ofNat : @Agree Nat Document _ (.ofDocuments surrogates) Document.ofNat := by
  refine @Agree.mk Nat Document _ (.ofDocuments surrogates) _ (fun n => ?_) (fun m n => ?_)
    (fun m n => ?_) fun n => ?_
  · show ((n : Int) == 0) = (n == 0)
    rw [Bool.eq_iff_iff, beq_iff_eq, beq_iff_eq]
    omega
  · rfl
  · rfl
  · show String.ofList (toString (n : Int)).toList = toString n
    rw [String.ofList_toList]
    rfl

/-- The order in which values of more usages come first. -/
def isRanked (a b : String × Nat) : Bool := decide (b.2 ≤ a.2)

theorem isRanked_trans (a b c : String × Nat) (hab : isRanked a b) (hbc : isRanked b c) :
    isRanked a c := by
  unfold isRanked at hab hbc ⊢
  rw [decide_eq_true_iff] at hab hbc ⊢
  omega

theorem isRanked_total (a b : String × Nat) : (isRanked a b || isRanked b a) = true := by
  unfold isRanked
  rw [Bool.or_eq_true, decide_eq_true_iff, decide_eq_true_iff]
  omega

theorem pairwise_isRanked (values : List (String × Nat)) :
    (values.mergeSort isRanked).Pairwise fun a b => isRanked a b :=
  List.pairwise_mergeSort isRanked_trans isRanked_total values

theorem ranked_eq (values : List (String × Nat)) :
    (Quantity.ranked values : Except Fault _) = .ok (values.mergeSort isRanked) := rfl

theorem Table.ranked_eq (values : Table String Nat) :
    values.ranked Int.ofNat = values.entries.mergeSort isRanked := by
  unfold Table.ranked
  congr 1
  funext a b
  unfold isRanked
  rw [Bool.eq_iff_iff, decide_eq_true_iff, decide_eq_true_iff]
  exact Int.ofNat_le

/-- A saved count with the amount that it is. -/
def counted (entry : String × Nat) : String × Document × Amount :=
  (entry.1, .ofNat entry.2, .whole entry.2)

/-- Saved counts are ranked like the counts themselves. -/
theorem ranked_mapEntries (values : List (String × Nat)) :
    (Quantity.ofDocuments surrogates).ranked (mapEntries .ofNat values)
      = .ok (mapEntries .ofNat (values.mergeSort isRanked)) := by
  have hcounted : (mapEntries Document.ofNat values).mapM (fun entry => do
      let amount ← entry.2.amount
      return (entry.1, entry.2, amount)) = (.ok (values.map counted) : Except Fault _) := by
    rw [mapEntries, List.mapM_map]
    exact mapM_of_forall fun entry _ => rfl
  have hplaces : (values.map counted).all (fun entry => entry.2.2.hasPlace) = true := by
    rw [List.all_map]
    exact List.all_eq_true.2 fun entry _ => rfl
  have hsort : (values.map counted).mergeSort (fun a b => !a.2.2.lt b.2.2)
      = (values.mergeSort isRanked).map counted := by
    refine (List.map_mergeSort fun a _ b _ => ?_).symm
    show decide (b.2 ≤ a.2) = !decide ((a.2 : Int) * 1 < (b.2 : Int) * 1)
    rw [Bool.eq_iff_iff, decide_eq_true_iff, Bool.not_eq_true', decide_eq_false_iff_not]
    omega
  show (List.mapM _ (mapEntries Document.ofNat values) >>= _) = _
  rw [hcounted]
  show (Except.ok (List.map _ (if _ then _ else _)) : Except Fault _) = _
  rw [if_pos hplaces, hsort, List.map_map]
  rfl

/-- Counts that were saved in descending order are judged as they were before. -/
theorem detect_ofDocuments {component prop : String} {values : Table String Nat}
    {stored : Table String Document}
    (h : stored.entries = mapEntries .ofNat (values.ranked Int.ofNat)) (total : Nat) :
    @detect Document (Except Fault) _ (.ofDocuments surrogates) component prop stored (.ofNat total)
      = (detect component prop values total).map (Option.map (mapCounts .ofNat)) := by
  rw [Table.ranked_eq] at h
  have hperm := List.mergeSort_perm values.entries isRanked
  refine @detect_eq_of_agree Nat Document _ (.ofDocuments surrogates) _ _ _ (.ofNat surrogates)
    values stored ?_ (fun key => ?_) ?_ total
  · rw [Table.isEmpty, Table.isEmpty, h, mapEntries, List.isEmpty_map, hperm.isEmpty_eq]
  · rw [Table.get?, Table.get?, h, mapEntries, lookup_map_snd]
    rw [lookup_perm hperm.symm values.nodup_keys]
  · rw [h, ranked_mapEntries, ranked_eq, List.mergeSort_of_pairwise (pairwise_isRanked _)]
    rfl

end

end UsageCensus.Detection
