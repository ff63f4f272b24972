import UsageCensus.Proofs.Defaults.Judgement

/-!
# Values that are used equally often

Two tables with the same counts rank their values alike, up to the order of values that are used
equally often (`map_snd_ranking`). Of the least used values the one that came last is ranked last
(`getLast?_ranking_iff`), and only this one is judged as a rare value. So the order in which the
values came makes a difference exactly where different values came last among the least used, no
default is known among the values, and one of the two is rare and looks like a default
(`detect_perm`).
-/

namespace UsageCensus.Detection

open UsageCensus.Defaults UsageCensus.Number

/-! ## Ranks -/

section

variable {values values' : Table String Nat} {last entry : String × Nat}

theorem ranking_perm (h : values.entries.Perm values'.entries) :
    (ranking values).Perm (ranking values') :=
  (List.mergeSort_perm _ _).trans (h.trans (List.mergeSort_perm _ _).symm)

theorem map_snd_ranking (h : values.entries.Perm values'.entries) :
    (ranking values).map Prod.snd = (ranking values').map Prod.snd := by
  have hsorted : ∀ table : Table String Nat,
      ((ranking table).map Prod.snd).Pairwise fun m n => n ≤ m := by
    intro table
    exact List.pairwise_map.2 ((pairwise_isRanked table.entries).imp of_decide_eq_true)
  exact List.Perm.eq_of_pairwise (fun m n _ _ hnm hmn => Nat.le_antisymm hmn hnm)
    (hsorted values) (hsorted values') ((ranking_perm h).map Prod.snd)

theorem exists_getLast?_ranking (h : values.entries.Perm values'.entries)
    (hne : (ranking values).getLast? ≠ (ranking values').getLast?) :
    ∃ last last', (ranking values).getLast? = some last ∧
      (ranking values').getLast? = some last' ∧ last ≠ last' := by
  have hempty := (ranking_perm h).isEmpty_eq
  cases hlast : (ranking values).getLast? with
  | none =>
    rw [List.getLast?_eq_none_iff.1 hlast, eq_comm, List.isEmpty_nil, List.isEmpty_iff] at hempty
    rw [hlast, hempty] at hne
    exact absurd rfl hne
  | some last =>
    cases hlast' : (ranking values').getLast? with
    | none =>
      rw [List.getLast?_eq_none_iff.1 hlast', List.isEmpty_nil, List.isEmpty_iff] at hempty
      rw [hempty] at hlast
      cases hlast
    | some last' =>
      rw [hlast, hlast'] at hne
      exact ⟨last, last', rfl, rfl, fun heq => hne (congrArg some heq)⟩

/-- Of the values that are used least, the one that came last. -/
def IsLastLeast (values : Table String Nat) (last : String × Nat) : Prop :=
  ∃ before after, values.entries = before ++ last :: after ∧
    (∀ entry ∈ before, last.2 ≤ entry.2) ∧ ∀ entry ∈ after, last.2 < entry.2

/-- Values of equal counts keep their order, so none of them comes behind the one ranked last. -/
theorem not_sublist_of_getLast? (h : (ranking values).getLast? = some last)
    (hle : entry.2 ≤ last.2) : ¬ [last, entry].Sublist values.entries := by
  intro hpair
  obtain ⟨front, hfront⟩ := List.getLast?_eq_some_iff.1 h
  have hranked : [last, entry].Sublist (front ++ [last]) :=
    hfront ▸ List.pair_sublist_mergeSort isRanked_trans isRanked_total (decide_eq_true hle) hpair
  have hnodup : (front ++ [last]).Nodup :=
    hfront ▸ (List.mergeSort_perm _ _).nodup_iff.2 values.nodup_keys.of_map
  obtain ⟨left, right, hsplit, hleft, hright⟩ := List.sublist_append_iff.1 hranked
  cases left with
  | nil =>
    have hlength := hright.length_le
    rw [List.nil_append] at hsplit
    rw [← hsplit] at hlength
    simp at hlength
  | cons first left =>
    obtain ⟨rfl, -⟩ := List.cons.inj hsplit
    have hlast : last ∈ front := hleft.subset List.mem_cons_self
    exact (List.nodup_append.1 hnodup).2.2 last hlast last List.mem_cons_self rfl

/-- Of the least used values the one that came last is ranked last. -/
theorem getLast?_ranking_iff : (ranking values).getLast? = some last ↔ IsLastLeast values last := by
  constructor
  · intro h
    have hleast : ∀ entry ∈ values.entries, last.2 ≤ entry.2 := fun entry hentry =>
      le_of_getLast?_ranking h entry.2 (List.mem_map_of_mem hentry)
    obtain ⟨before, after, hentries⟩ :=
      List.append_of_mem (mem_ranking.1 (List.mem_of_getLast? h))
    rw [hentries] at hleast
    refine ⟨before, after, hentries, (List.forall_mem_append.1 hleast).1, fun entry hentry => ?_⟩
    refine Nat.lt_of_not_le fun hle => not_sublist_of_getLast? h hle ?_
    rw [hentries]
    exact ((List.singleton_sublist.2 hentry).cons_cons last).trans (List.sublist_append_right _ _)
  · rintro ⟨before, after, hentries, hbefore, hafter⟩
    have hmem : last ∈ values.entries := hentries ▸ List.mem_append_right before List.mem_cons_self
    obtain ⟨entry, hentry⟩ : ∃ entry, (ranking values).getLast? = some entry :=
      Option.ne_none_iff_exists'.1
        (mt List.getLast?_eq_none_iff.1 (List.ne_nil_of_mem (mem_ranking.2 hmem)))
    have hle : entry.2 ≤ last.2 :=
      le_of_getLast?_ranking hentry last.2 (List.mem_map_of_mem hmem)
    have hplace := mem_ranking.1 (List.mem_of_getLast? hentry)
    rw [hentries, List.mem_append, List.mem_cons] at hplace
    rcases hplace with hplace | rfl | hplace
    · refine absurd ?_ (not_sublist_of_getLast? hentry (hbefore entry hplace))
      rw [hentries]
      exact (List.singleton_sublist.2 hplace).append (List.singleton_sublist.2 List.mem_cons_self)
    · exact hentry
    · exact absurd hle (Nat.not_le.2 (hafter entry hplace))

end

/-! ## The rules by rank -/

section

variable {component prop : String} {total : Nat} {ranked ranked' : List (String × Nat)}

theorem ofKnown_congr (h : ranked.map Prod.snd = ranked'.map Prod.snd) (value : String)
    (count : Nat) : (ofKnown component prop value count total ranked : Except Fault _)
      = ofKnown component prop value count total ranked' := by
  match ranked, ranked', h with
  | [], [], _ => rfl
  | [_], [_], _ => rfl
  | [_], _ :: _ :: _, h => cases (List.cons.inj h).2
  | _ :: _ :: _, [_], h => cases (List.cons.inj h).2
  | (_, largest) :: _ :: _, (_, largest') :: _ :: _, h =>
    obtain rfl : largest = largest' := (List.cons.inj h).1
    rfl

/-- Of the ranks only the last one is judged, if there are two or more. -/
theorem ofRare?_congr (h : ranked.map Prod.snd = ranked'.map Prod.snd)
    (hlast : ranked.getLast? = ranked'.getLast?) :
    (ofRare? component prop total ranked : Except Fault _)
      = ofRare? component prop total ranked' := by
  match ranked, ranked', h with
  | [], [], _ => rfl
  | [_], [_], _ => rfl
  | [_], _ :: _ :: _, h => cases (List.cons.inj h).2
  | _ :: _ :: _, [_], h => cases (List.cons.inj h).2
  | _ :: _ :: _, first :: second :: rest, _ =>
    unfold ofRare?
    rw [hlast]
    cases (first :: second :: rest).getLast? <;> rfl

/-- A count that is a rare share of all usages. -/
def IsRareCount (count total : Nat) : Prop :=
  ∃ share, Quantity.share count total = (.ok share : Except Fault _) ∧ share.lt rareShare = true

theorem ofRare?_of_rare {value : String} {count : Nat} (hseveral : 2 ≤ ranked.length)
    (hlast : ranked.getLast? = some (value, count)) (hrare : IsRareCount count total) :
    ∃ found : Detection Nat, found.value = value ∧ found.confidence = .low ∧
      (ofRare? component prop total ranked : Except Fault _)
        = .ok (if looksLikeDefault value then some found else none) := by
  obtain ⟨share, hshare, hrare⟩ := hrare
  match ranked, hseveral with
  | first :: second :: rest, _ =>
    unfold ofRare?
    rw [hlast]
    dsimp only
    rw [hshare]
    dsimp only [bind, Except.bind]
    rw [hrare, Bool.true_and]
    cases looksLikeDefault value with
    | true => exact ⟨_, rfl, rfl, rfl⟩
    | false => exact ⟨⟨component, prop, value, .low, "", count, total⟩, rfl, rfl, rfl⟩

theorem ofRare?_of_not_rare {value : String} {count : Nat} (hseveral : 2 ≤ ranked.length)
    (hlast : ranked.getLast? = some (value, count)) (hrare : ¬ IsRareCount count total) :
    (ofRare? component prop total ranked : Except Fault _)
      = (Quantity.share count total : Except Fault _).map fun _ => none := by
  match ranked, hseveral with
  | first :: second :: rest, _ =>
    unfold ofRare?
    rw [hlast]
    dsimp only
    cases hshare : (Quantity.share count total : Except Fault Binary64) with
    | error fault => rfl
    | ok share =>
      have hlt : share.lt rareShare = false := by
        rw [← Bool.not_eq_true]
        exact fun h => hrare ⟨share, hshare, h⟩
      dsimp only [bind, Except.bind]
      rw [hlt]
      rfl

end

/-! ## Two orders of the values -/

theorem two_le_length {α : Type} {items : List α} {a b : α} (ha : a ∈ items) (hb : b ∈ items)
    (h : a ≠ b) : 2 ≤ items.length := by
  match items with
  | [only] => exact absurd ((List.mem_singleton.1 ha).trans (List.mem_singleton.1 hb).symm) h
  | _ :: _ :: _ => simp

section

variable {component prop : String} {values values' : Table String Nat} {total : Nat}

theorem ofElement?_congr (hget : ∀ key, values.get? key = values'.get? key) :
    ofElement? component prop values total = ofElement? component prop values' total := by
  unfold ofElement? element? Table.contains
  simp only [hget]

theorem known?_congr (hget : ∀ key, values.get? key = values'.get? key) :
    known? prop values = known? prop values' := by
  unfold known?
  simp only [hget]

theorem ofLiteral?_congr (hget : ∀ key, values.get? key = values'.get? key) :
    ofLiteral? component prop values total = ofLiteral? component prop values' total := by
  unfold ofLiteral?
  rw [hget]

theorem isKnown_of_ofElement? {detection : Detection Nat}
    (h : ofElement? component prop values total = some detection) :
    IsKnown component prop detection.value := by
  unfold ofElement? element? at h
  split at h
  · rename_i has
    obtain ⟨element, helement, h⟩ := Option.bind_eq_some_iff.1 h
    obtain ⟨count, -, h⟩ := Option.bind_eq_some_iff.1 h
    cases h
    have hnamed := (Option.filter_eq_some_iff.1 helement).1
    exact .inr ⟨has, congrArg (Option.map text) hnamed⟩
  · cases h

theorem noneKnown_iff : NoneKnown component prop values ↔
    ofElement? component prop values total = none ∧ known? prop values = none := by
  refine ⟨fun h => ⟨?_, ?_⟩, fun h => noneKnown_of_none h.1 h.2⟩
  · refine Option.eq_none_iff_forall_not_mem.2 fun detection hdetection => ?_
    have hcount := (ofElement?_spec hdetection).1.1
    exact h _ (isKnown_of_ofElement? hdetection)
      (List.mem_map_of_mem (Table.get?_eq_some_iff.1 hcount))
  · refine Option.eq_none_iff_forall_not_mem.2 fun known hknown => ?_
    obtain ⟨hvalue, hcount⟩ := known?_spec hknown
    exact h _ (.inl hvalue) (List.mem_map_of_mem (Table.get?_eq_some_iff.1 hcount))

theorem detect_congr (h : values.entries.Perm values'.entries)
    (hrare : NoneKnown component prop values →
      (ofRare? component prop total (ranking values) : Except Fault _)
        = ofRare? component prop total (ranking values')) :
    (detect component prop values total : Except Fault _)
      = detect component prop values' total := by
  have hget : ∀ key, values.get? key = values'.get? key := lookup_perm h values.nodup_keys
  have hempty : values.isEmpty = values'.isEmpty := h.isEmpty_eq
  rw [detect_eq, detect_eq, hempty, ← ofElement?_congr hget, ← known?_congr hget,
    ← ofLiteral?_congr hget]
  split
  · rfl
  · cases helement : ofElement? component prop values total with
    | some detection => rfl
    | none =>
      cases hknown : known? prop values with
      | some known =>
        dsimp only
        rw [ofKnown_congr (map_snd_ranking h)]
      | none =>
        dsimp only
        rw [hrare (noneKnown_iff.2 ⟨helement, hknown⟩)]

/-- The order of the values makes a difference: different ones came last among the least used, no
default is known among the values, and one of the two is rare and looks like a default. -/
structure HangsOnOrder (component prop : String) (values values' : Table String Nat)
    (total : Nat) : Prop where
  positive : 0 < total
  unknown : NoneKnown component prop values
  rare : ∃ last last', IsLastLeast values last ∧ IsLastLeast values' last' ∧ last ≠ last' ∧
    IsRareCount last.2 total ∧
    (looksLikeDefault last.1 = true ∨ looksLikeDefault last'.1 = true)

theorem eq_false_of_or_eq {found found' : Detection Nat} {literal : Option (Detection Nat)}
    {looks looks' : Bool} (hlow : found.confidence = .low) (hlow' : found'.confidence = .low)
    (hvalue : found.value ≠ found'.value)
    (hliteral : ∀ detection, literal = some detection → detection.confidence = .high)
    (h : (if looks then some found else none).or literal
      = (if looks' then some found' else none).or literal) : looks = false ∧ looks' = false := by
  have hother : ∀ {detection : Detection Nat}, detection.confidence = .low →
      literal ≠ some detection := by
    intro detection hlow hsome
    have hhigh := hliteral detection hsome
    rw [hlow] at hhigh
    cases hhigh
  cases looks with
  | true =>
    cases looks' with
    | true => exact absurd (congrArg value (Option.some.inj h)) hvalue
    | false => exact absurd h.symm (hother hlow)
  | false =>
    cases looks' with
    | true => exact absurd h (hother hlow')
    | false => exact ⟨rfl, rfl⟩

theorem detect_of_noneKnown (hvalues : values.entries ≠ []) (htotal : 0 < total)
    (hnone : NoneKnown component prop values) :
    detect component prop values total =
      (ofRare? component prop total (ranking values)).map fun found =>
        found.or (ofLiteral? component prop values total) := by
  have hempty : (values.isEmpty || total == 0) = false := by
    rw [Bool.or_eq_false_iff, Table.isEmpty, List.isEmpty_eq_false_iff]
    exact ⟨hvalues, beq_eq_false_iff_ne.2 htotal.ne'⟩
  obtain ⟨helement, hknown⟩ := noneKnown_iff.1 hnone
  rw [detect_eq, hempty, helement, hknown]
  rfl

/-- Where no default is known and the values ranked last differ, the two orders are told apart
exactly if these are rare and one of them looks like a default. -/
theorem detect_eq_iff_of_ne (h : values.entries.Perm values'.entries) (htotal : 0 < total)
    (hnone : NoneKnown component prop values) {last last' : String × Nat}
    (hlast : (ranking values).getLast? = some last)
    (hlast' : (ranking values').getLast? = some last') (hne : last ≠ last') :
    (detect component prop values total : Except Fault _) = detect component prop values' total ↔
      ¬ (IsRareCount last.2 total ∧
        (looksLikeDefault last.1 = true ∨ looksLikeDefault last'.1 = true)) := by
  have hget : ∀ key, values.get? key = values'.get? key := lookup_perm h values.nodup_keys
  have hmem : last ∈ values.entries := mem_ranking.1 (List.mem_of_getLast? hlast)
  have hmem' : last' ∈ values.entries :=
    h.mem_iff.2 (mem_ranking.1 (List.mem_of_getLast? hlast'))
  have hcount : last.2 = last'.2 := by
    have hcounts := congrArg List.getLast? (map_snd_ranking h)
    rw [List.getLast?_map, List.getLast?_map, hlast, hlast'] at hcounts
    exact Option.some.inj hcounts
  have hname : last.1 ≠ last'.1 := fun hname => hne (Prod.ext hname hcount)
  have hseveral : 2 ≤ (ranking values).length :=
    two_le_length (mem_ranking.2 hmem) (mem_ranking.2 hmem') hne
  have hseveral' : 2 ≤ (ranking values').length := by
    rw [length_ranking, Table.size, ← h.length_eq]
    exact two_le_length hmem hmem' hne
  have hnone' : NoneKnown component prop values' := by
    intro value hvalue hkey
    exact hnone value hvalue ((h.map Prod.fst).mem_iff.2 hkey)
  rw [detect_of_noneKnown (List.ne_nil_of_mem hmem) htotal hnone,
    detect_of_noneKnown (List.ne_nil_of_mem (h.mem_iff.1 hmem)) htotal hnone',
    ← ofLiteral?_congr hget]
  by_cases hrare : IsRareCount last.2 total
  · obtain ⟨found, hvalue, hlow, hfound⟩ := ofRare?_of_rare hseveral hlast hrare
    obtain ⟨found', hvalue', hlow', hfound'⟩ :=
      ofRare?_of_rare hseveral' hlast' (hcount ▸ hrare)
    rw [hfound, hfound']
    constructor
    · rintro heq ⟨-, hlooks⟩
      obtain ⟨hfalse, hfalse'⟩ := eq_false_of_or_eq hlow hlow' (by rwa [hvalue, hvalue'])
        (fun detection hdetection => (ofLiteral?_spec hdetection).2) (Except.ok.inj heq)
      rw [hfalse, hfalse'] at hlooks
      simp at hlooks
    · intro hand
      have hlooks := not_or.1 fun hlooks => hand ⟨hrare, hlooks⟩
      rw [if_neg hlooks.1, if_neg hlooks.2]
  · refine iff_of_true ?_ fun hand => hrare hand.1
    rw [ofRare?_of_not_rare hseveral hlast hrare,
      ofRare?_of_not_rare hseveral' hlast' (hcount ▸ hrare), hcount]

theorem getLast?_ranking_of_unique (h : values.entries.Perm values'.entries)
    (hunique : ∀ least ∈ values.entries, ∀ entry ∈ values.entries,
      (∀ count ∈ values.values, least.2 ≤ count) → entry.2 ≤ least.2 → entry = least) :
    (ranking values).getLast? = (ranking values').getLast? := by
  by_contra hlast
  obtain ⟨last, last', hlast, hlast', hne⟩ := exists_getLast?_ranking h hlast
  have hmem := mem_ranking.1 (List.mem_of_getLast? hlast)
  have hmem' := h.mem_iff.2 (mem_ranking.1 (List.mem_of_getLast? hlast'))
  have hleast' : last'.2 ≤ last.2 :=
    le_of_getLast?_ranking hlast' _ (List.mem_map_of_mem (h.mem_iff.1 hmem))
  exact hne (hunique last hmem last' hmem' (le_of_getLast?_ranking hlast) hleast').symm

/-- With the same counts, the order in which the values came makes a difference exactly where the
detection hangs on it; where only one value is used least, it makes none. -/
theorem detect_perm (component prop : String) {values values' : Table String Nat}
    (h : values.entries.Perm values'.entries) (total : Nat) :
    ((detect component prop values total : Except Fault _) = detect component prop values' total ↔
      ¬ HangsOnOrder component prop values values' total) ∧
    ((∀ least ∈ values.entries, ∀ entry ∈ values.entries,
      (∀ count ∈ values.values, least.2 ≤ count) → entry.2 ≤ least.2 → entry = least) →
      (detect component prop values total : Except Fault _)
        = detect component prop values' total) := by
  have hsame : (ranking values).getLast? = (ranking values').getLast? →
      (detect component prop values total : Except Fault _)
        = detect component prop values' total := fun hlast =>
    detect_congr h fun _ => ofRare?_congr (map_snd_ranking h) hlast
  constructor
  · constructor
    · rintro heq ⟨htotal, hnone, last, last', hlast, hlast', hne, hrare⟩
      exact (detect_eq_iff_of_ne h htotal hnone (getLast?_ranking_iff.2 hlast)
        (getLast?_ranking_iff.2 hlast') hne).1 heq hrare
    · intro hhangs
      rcases Nat.eq_zero_or_pos total with rfl | htotal
      · rw [detect_eq, detect_eq, Bool.or_comm, Bool.or_comm values'.isEmpty]
        rfl
      by_cases hlast : (ranking values).getLast? = (ranking values').getLast?
      · exact hsame hlast
      by_cases hnone : NoneKnown component prop values
      · obtain ⟨last, last', hlast, hlast', hne⟩ := exists_getLast?_ranking h hlast
        rw [detect_eq_iff_of_ne h htotal hnone hlast hlast' hne]
        rintro ⟨hrare, hlooks⟩
        exact hhangs ⟨htotal, hnone, last, last', getLast?_ranking_iff.1 hlast,
          getLast?_ranking_iff.1 hlast', hne, hrare, hlooks⟩
      · exact detect_congr h fun hknown => absurd hknown hnone
  · exact fun hunique => hsame (getLast?_ranking_of_unique h hunique)

end

def tones : Table String Nat :=
  ⟨[("\"primary\"", 5), (text "default", 1), ("\"critical\"", 1)], by decide⟩

/-- The same tones, in the order in which they come from other files. -/
def tonesReversed : Table String Nat := ⟨tones.entries.reverse, by decide⟩

theorem detect_tones : tones.entries.Perm tonesReversed.entries ∧
    (detect "Button" "tone" tones 7 : Except Fault _)
      = detect "Button" "tone" tonesReversed 7 := by
  have hperm : tones.entries.Perm tonesReversed.entries := (List.reverse_perm _).symm
  refine ⟨hperm, (detect_perm "Button" "tone" hperm 7).1.2 fun h => ?_⟩
  exact h.unknown (text "default") (.inl (by decide)) (by decide)

/-- Radii of which two are used least; the one that looks like a default came first. -/
def radii : Table String Nat :=
  ⟨[("2", 5), (text "none", 1), (text "big", 1)], by decide⟩

def radiiSwapped : Table String Nat :=
  ⟨[("2", 5), (text "big", 1), (text "none", 1)], by decide⟩

/-- The same counts in another order: nothing is detected, and a default is detected. -/
theorem detect_radii : radii.entries.Perm radiiSwapped.entries ∧
    (detect "Card" "radius" radii 7 : Except Fault _) = .ok none ∧
    (detect "Card" "radius" radiiSwapped 7 : Except Fault _).map (Option.map Detection.value)
      = .ok (some (text "none")) := by
  have hranking : ranking radii = radii.entries := List.mergeSort_of_pairwise (by decide)
  have hranking' : ranking radiiSwapped = radiiSwapped.entries :=
    List.mergeSort_of_pairwise (by decide)
  refine ⟨.cons _ (.swap _ _ _), ?_, ?_⟩
  · rw [detect_eq, hranking]
    decide +kernel
  · rw [detect_eq, hranking']
    decide +kernel

end UsageCensus.Detection
