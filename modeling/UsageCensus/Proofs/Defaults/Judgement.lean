import UsageCensus.Proofs.Defaults.Counting
import UsageCensus.Proofs.Document.Amounts
import UsageCensus.Proofs.Sums

/-!
# What a detection stands for

Usages counted in naturals below 2 to the 53 are judged without any rounding: half of such a number
is a binary64 number (`half_eq`), and a share that is rounded to one below the rare share is below
it (`lt_of_share_lt`). A value that is detected is one of the values, with its own count. How
often it is used follows from the confidence, and nothing is detected only where no default is known
(`detect_isJustified`). Every rule adds what has to hold for it to find a default, and what does not
hold where it finds none.
-/

namespace UsageCensus.Detection

open UsageCensus.Defaults UsageCensus.Number

/-! ## Judging by exact counts -/

section

variable {a b : Nat}

/-- Half of a natural of at most 53 bits is not rounded. -/
theorem half_eq (hpos : 0 < b) (hb : b < 2 ^ 53) :
    half (.whole b) = .ok (.finite false (Binary64.normalized b) (-1 + b.log2 - 52)) := by
  have hhalf : Binary64.ofRatio false 1 2 = .finite false (2 ^ 52) (-53) := by decide
  have hvalue : Binary64.value (Binary64.normalized b) (b.log2 - 52) * Binary64.value (2 ^ 52) (-53)
      = Binary64.value b (-1) := by
    have hwhole := Binary64.value_normalized hb 0
    rw [zero_add] at hwhole
    rw [hwhole, Binary64.value, Binary64.value, Binary64.value]
    norm_num
  rw [half, Amount.toBinary64_of_lt hpos hb, hhalf]
  exact congrArg Except.ok
    (Binary64.mul_eq_of_value false false hpos hb hvalue (by decide) (by decide))

theorem isAtMostHalf_eq (hpos : 0 < b) (hb : b < 2 ^ 53) :
    (Quantity.isAtMostHalf a b : Except Fault Bool) = .ok (decide (2 * a ≤ b)) := by
  have hiff : (a : ℚ) ≤ Binary64.value b (-1) ↔ 2 * a ≤ b := by
    rw [Binary64.value, zpow_neg_one, ← div_eq_mul_inv, le_div_iff₀ two_pos, mul_comm]
    exact_mod_cast Iff.rfl
  show (half (.whole b) >>= fun bound => pure ((Amount.whole a).le (.real bound))) = _
  rw [half_eq hpos hb]
  show Except.ok _ = _
  rw [Amount.le_real, Binary64.value_normalized hb, decide_eq_decide.2 hiff]

theorem share_eq (hle : a ≤ b) (hpos : 0 < b) :
    (Quantity.share a b : Except Fault Binary64) = .ok (.ofRatio false a b) :=
  Amount.quotient_of_le hle hpos

/-- A share that is rounded to less than the rare share is less than 3 in 20. -/
theorem lt_of_share_lt (hpos : 0 < b) (h : (Binary64.ofRatio false a b).lt rareShare = true) :
    20 * a < 3 * b := by
  have hrare : rareShare = .finite false 5404319552844595 (-55) := by decide
  by_contra hle
  have hratio : (3 / 20 : ℚ) ≤ a / b := by
    rw [div_le_div_iff₀ (by norm_num) (by exact_mod_cast hpos)]
    have hle : 3 * b ≤ a * 20 := by omega
    exact_mod_cast hle
  have hbelow : Binary64.value 5404319552844595 (-55) ≤ 3 / 20 := by
    rw [Binary64.value]
    norm_num
  rw [hrare, Binary64.ofRatio_lt_eq_false hpos (by decide) (by decide) (hbelow.trans hratio)] at h
  cases h

end

/-! ## The ranking -/

section

variable {values : Table String Nat}

/-- The values by descending count. -/
def ranking (values : Table String Nat) : List (String × Nat) := values.entries.mergeSort isRanked

theorem mem_ranking {entry : String × Nat} :
    entry ∈ ranking values ↔ entry ∈ values.entries := by
  rw [ranking, List.mem_mergeSort]

theorem length_ranking (values : Table String Nat) : (ranking values).length = values.size :=
  List.length_mergeSort _

theorem le_of_ranking_eq_cons {first : String × Nat} {rest : List (String × Nat)}
    (h : ranking values = first :: rest) : ∀ count ∈ values.values, count ≤ first.2 := by
  intro count hcount
  obtain ⟨entry, hentry, rfl⟩ := List.mem_map.1 hcount
  have hpairwise : (first :: rest).Pairwise fun a b => isRanked a b :=
    h ▸ pairwise_isRanked values.entries
  rcases List.mem_cons.1 (h ▸ mem_ranking.2 hentry) with rfl | hrest
  · exact Nat.le_refl _
  · exact of_decide_eq_true (List.rel_of_pairwise_cons hpairwise hrest)

theorem le_of_getLast?_ranking {last : String × Nat} (h : (ranking values).getLast? = some last) :
    ∀ count ∈ values.values, last.2 ≤ count := by
  intro count hcount
  obtain ⟨entry, hentry, rfl⟩ := List.mem_map.1 hcount
  obtain ⟨front, hfront⟩ := List.getLast?_eq_some_iff.1 h
  have hpairwise : (front ++ [last]).Pairwise fun a b => isRanked a b :=
    hfront ▸ pairwise_isRanked values.entries
  rcases List.mem_append.1 (hfront ▸ mem_ranking.2 hentry) with hmem | hmem
  · exact of_decide_eq_true ((List.pairwise_append.1 hpairwise).2.2 _ hmem _ List.mem_cons_self)
  · rw [List.mem_singleton.1 hmem]

end

/-! ## What each rule finds -/

/-- Values of a prop with how often each of them is used, and how many usages there are. -/
structure IsDistribution (values : Table String Nat) (total : Nat) : Prop where
  nonempty : values.entries ≠ []
  positive : ∀ count ∈ values.values, 0 < count
  /-- No count is rounded as a binary64 number. -/
  bounded : ∀ count ∈ values.values, count < 2 ^ 53
  total_eq : total = values.total

namespace IsDistribution

variable {values : Table String Nat} {total : Nat}

theorem le_total (h : IsDistribution values total) : ∀ count ∈ values.values, count ≤ total := by
  intro count hcount
  rw [h.total_eq, Table.total_eq_sumOf]
  exact @le_sumOf Nat id values.values count hcount

theorem total_pos (h : IsDistribution values total) : 0 < total := by
  obtain ⟨entry, hentry⟩ := List.exists_mem_of_ne_nil _ h.nonempty
  have hcount : entry.2 ∈ values.values := List.mem_map_of_mem hentry
  exact Nat.lt_of_lt_of_le (h.positive _ hcount) (h.le_total _ hcount)

end IsDistribution

/-- A value that is known to be the default of a prop, of any component or of this one. -/
def IsKnown (component prop value : String) : Prop :=
  value ∈ knownValues prop ∨ prop = "as" ∧ (elementOf? component).map text = some value

/-- The value is one of several, the least used one, rare, and looks like a default. -/
structure IsRare (values : Table String Nat) (total : Nat) (detection : Detection Nat) : Prop where
  several : 2 ≤ values.size
  least : ∀ count ∈ values.values, detection.count ≤ count
  rare : 20 * detection.count < 3 * total
  looks : looksLikeDefault detection.value = true

/-- The value is a known default of the prop that is not called a default, and is used more than
half as often as any of the values. -/
structure IsUsual (prop : String) (values : Table String Nat) (detection : Detection Nat) :
    Prop where
  known : detection.value ∈ knownValues prop
  ne_default : detection.value ≠ text "default"
  ne_regular : detection.value ≠ text "regular"
  usual : ∀ count ∈ values.values, count < 2 * detection.count

section

variable {component prop : String} {values : Table String Nat} {total : Nat}
  {detection : Detection Nat}

/-- The detection has the count of its value and the number of all usages. -/
def IsCounted (values : Table String Nat) (total : Nat) (detection : Detection Nat) : Prop :=
  values.get? detection.value = some detection.count ∧ detection.total = total

theorem ofElement?_spec (h : ofElement? component prop values total = some detection) :
    IsCounted values total detection ∧ detection.confidence = .high := by
  unfold ofElement? at h
  obtain ⟨element, -, h⟩ := Option.bind_eq_some_iff.1 h
  obtain ⟨count, hcount, h⟩ := Option.bind_eq_some_iff.1 h
  cases h
  exact ⟨⟨hcount, rfl⟩, rfl⟩

theorem not_mem_of_ofElement? (h : ofElement? component prop values total = none) {value : String}
    (has : prop = "as") (hvalue : (elementOf? component).map text = some value) :
    value ∉ values.keys := by
  obtain ⟨element, helement, rfl⟩ := Option.map_eq_some_iff.1 hvalue
  intro hkey
  have hthere : values.get? (text element) ≠ none := mt Table.get?_eq_none_iff.1 (not_not.2 hkey)
  obtain ⟨count, hcount⟩ := Option.ne_none_iff_exists'.1 hthere
  have hfound : element? component prop values = some element := by
    rw [element?, if_pos has, helement, Option.filter_some, Table.contains, hcount]
    rfl
  rw [ofElement?, hfound] at h
  change (values.get? (text element) >>= _) = none at h
  rw [hcount] at h
  cases h

theorem known?_spec {value : String} {count : Nat} (h : known? prop values = some (value, count)) :
    value ∈ knownValues prop ∧ values.get? value = some count := by
  obtain ⟨value', hmem, h⟩ := List.exists_of_findSome?_eq_some h
  obtain ⟨count', hcount, h⟩ := Option.map_eq_some_iff.1 h
  cases h
  exact ⟨hmem, hcount⟩

theorem not_mem_of_known? (h : known? prop values = none) :
    ∀ value ∈ knownValues prop, value ∉ values.keys := by
  intro value hmem
  have hnone := List.findSome?_eq_none_iff.1 h value hmem
  exact Table.get?_eq_none_iff.1 (Option.map_eq_none_iff.1 hnone)

/-- A known default is detected with high confidence if it names itself or is one of the minority,
and is used more than half as often as any value where it is not. -/
theorem exists_ofKnown (h : IsDistribution values total) (prop : String) {value : String}
    {count : Nat} (hcount : values.get? value = some count) :
    ∃ (isMinority : Bool) (reason : String),
      ofKnown component prop value count total (ranking values) = (.ok ⟨component, prop, value,
        if namesItself value || isMinority then .high else .medium, reason, count, total⟩ :
          Except Fault _) ∧
      (isMinority = false → ∀ other ∈ values.values, other < 2 * count) := by
  have hvalue : (value, count) ∈ ranking values := mem_ranking.2 (Table.get?_eq_some_iff.1 hcount)
  have hmem : count ∈ values.values := Table.mem_values_iff.2 ⟨value, hcount⟩
  have hpos := h.positive count hmem
  unfold ofKnown
  match hranking : ranking values with
  | [] => exact absurd (hranking ▸ hvalue) List.not_mem_nil
  | [only] =>
    obtain rfl : (value, count) = only := List.mem_singleton.1 (hranking ▸ hvalue)
    refine ⟨false, _, rfl, fun _ other hother => ?_⟩
    have hle : other ≤ count := le_of_ranking_eq_cons hranking other hother
    omega
  | (first, largest) :: second :: rest =>
    have hfirst : (first, largest) ∈ values.entries :=
      mem_ranking.1 (hranking ▸ List.mem_cons_self)
    have hlargest : largest ∈ values.values := List.mem_map_of_mem hfirst
    have hhalf := isAtMostHalf_eq (a := count) (h.positive _ hlargest) (h.bounded _ hlargest)
    dsimp only
    rw [hhalf]
    refine ⟨decide (2 * count ≤ largest), _, rfl, fun hminority other hother => ?_⟩
    have hlt := of_decide_eq_false hminority
    have hle : other ≤ largest := le_of_ranking_eq_cons hranking other hother
    omega

theorem ofKnown_spec (h : IsDistribution values total) (component : String) {value : String}
    {count : Nat} (hvalue : value ∈ knownValues prop) (hcount : values.get? value = some count) :
    ∃ detection, ofKnown component prop value count total (ranking values)
        = (.ok detection : Except Fault _) ∧
      IsCounted values total detection ∧ detection.confidence ≠ .low ∧
      (detection.confidence = .medium → IsUsual prop values detection) := by
  obtain ⟨isMinority, reason, hknown, husual⟩ := exists_ofKnown h prop hcount
  refine ⟨_, hknown, ⟨hcount, rfl⟩, ?_, ?_⟩
  · dsimp only
    split
    · exact nofun
    · exact nofun
  · dsimp only
    split
    · exact nofun
    · rename_i hlevel
      rw [Bool.or_eq_true, not_or, Bool.not_eq_true, Bool.not_eq_true] at hlevel
      intro _
      refine ⟨hvalue, ?_, ?_, husual hlevel.2⟩
      · rintro rfl
        exact absurd hlevel.1 (by decide)
      · rintro rfl
        exact absurd hlevel.1 (by decide)

theorem ofRare?_spec (h : IsDistribution values total) (component prop : String) :
    ∃ found, ofRare? component prop total (ranking values) = (.ok found : Except Fault _) ∧
      ∀ detection, found = some detection →
        IsCounted values total detection ∧ detection.confidence = .low ∧
        IsRare values total detection := by
  unfold ofRare?
  split
  · rename_i first second rest value count hranking hlast
    have hentry : (value, count) ∈ values.entries :=
      mem_ranking.1 (List.mem_of_getLast? hlast)
    have hmem : count ∈ values.values := List.mem_map_of_mem hentry
    rw [share_eq (h.le_total _ hmem) h.total_pos]
    dsimp only [bind, Except.bind]
    split
    · rename_i hrare
      rw [Bool.and_eq_true] at hrare
      refine ⟨_, rfl, fun detection hdetection => ?_⟩
      cases hdetection
      refine ⟨⟨Table.get?_eq_some_iff.2 hentry, rfl⟩, rfl, ?_, ?_, ?_, hrare.2⟩
      · rw [← length_ranking, hranking]
        simp
      · exact le_of_getLast?_ranking hlast
      · exact lt_of_share_lt h.total_pos hrare.1
    · exact ⟨none, rfl, nofun⟩
  · exact ⟨none, rfl, nofun⟩

theorem ofLiteral?_spec (h : ofLiteral? component prop values total = some detection) :
    IsCounted values total detection ∧ detection.confidence = .high := by
  unfold ofLiteral? at h
  split at h
  · rename_i count hcount
    split at h
    · cases h
    · cases h
      exact ⟨⟨hcount, rfl⟩, rfl⟩
  · cases h

theorem not_mem_of_ofLiteral? (h : ofLiteral? component prop values total = none)
    (hprop : prop ≠ "data-testid") : literalDefault ∉ values.keys := by
  unfold ofLiteral? at h
  split at h
  · rw [if_neg hprop] at h
    cases h
  · rename_i hnone
    exact Table.get?_eq_none_iff.1 hnone

end

/-! ## What is found -/

/-- No known default of the prop is among the values. -/
def NoneKnown (component prop : String) (values : Table String Nat) : Prop :=
  ∀ value, IsKnown component prop value → value ∉ values.keys

/-- What a detection says is so: its value is there as often as it says, and used as much as its
confidence stands for. -/
structure IsJustified (component prop : String) (values : Table String Nat) (total : Nat)
    (detection : Detection Nat) : Prop where
  about : IsAbout component prop detection
  counted : IsCounted values total detection
  low : detection.confidence = .low →
    IsRare values total detection ∧ NoneKnown component prop values
  medium : detection.confidence = .medium → IsUsual prop values detection

section

variable {component prop : String} {values : Table String Nat} {total : Nat}
  {detection : Detection Nat}

theorem IsJustified.ofHigh (habout : IsAbout component prop detection)
    (hcounted : IsCounted values total detection) (hhigh : detection.confidence = .high) :
    IsJustified component prop values total detection := by
  refine ⟨habout, hcounted, fun h => ?_, fun h => ?_⟩
  · rw [hhigh] at h
    cases h
  · rw [hhigh] at h
    cases h

/-- A justified detection is an outcome; nothing is to be said of the other one. -/
theorem IsJustified.outcome (h : IsJustified component prop values total detection)
    {unknown : Prop} :
    (∀ other, some detection = some other → IsJustified component prop values total other) ∧
      (some detection = none → unknown) :=
  ⟨fun _ hsame => Option.some.inj hsame ▸ h, fun hnone => absurd hnone (Option.some_ne_none _)⟩

theorem noneKnown_of_none (helement : ofElement? component prop values total = none)
    (hknown : known? prop values = none) : NoneKnown component prop values := by
  rintro value (hvalue | ⟨hprop, hvalue⟩)
  · exact not_mem_of_known? hknown value hvalue
  · exact not_mem_of_ofElement? helement hprop hvalue

end

/-- The rules one after the other. -/
theorem detect_eq (component prop : String) (values : Table String Nat) (total : Nat) :
    detect component prop values total =
      if values.isEmpty || total == 0 then .ok none
      else match ofElement? component prop values total with
        | some detection => .ok (some detection)
        | none => match known? prop values with
          | some (value, count) =>
            (ofKnown component prop value count total (ranking values)).map some
          | none => (ofRare? component prop total (ranking values)).map fun found =>
            found.or (ofLiteral? component prop values total) := by
  unfold detect
  rw [ranked_eq]
  show (if values.isEmpty || total == 0 then _ else _) = _
  split
  · rfl
  · show Except.bind (.ok (ranking values)) _ = _
    dsimp only [Except.bind]
    cases ofElement? component prop values total with
    | some detection => rfl
    | none =>
      cases known? prop values with
      | some known => rfl
      | none =>
        dsimp only
        cases ofRare? component prop total (ranking values) with
        | error fault => rfl
        | ok found => cases found <;> rfl

/-- A prop with a distribution of values is judged without a fault. What is detected is justified,
and nothing is detected only if no default of the prop is known to be among the values. -/
theorem detect_isJustified (component prop : String) {values : Table String Nat} {total : Nat}
    (h : IsDistribution values total) :
    ∃ found, detect component prop values total = (.ok found : Except Fault _) ∧
      (∀ detection, found = some detection → IsJustified component prop values total detection) ∧
      (found = none → NoneKnown component prop values ∧
        (prop ≠ "data-testid" → literalDefault ∉ values.keys)) := by
  have hthere : (values.isEmpty || total == 0) = false := by
    rw [Bool.or_eq_false_iff, Table.isEmpty, List.isEmpty_eq_false_iff]
    exact ⟨h.nonempty, beq_eq_false_iff_ne.2 h.total_pos.ne'⟩
  rw [detect_eq, hthere, if_neg (by decide)]
  cases helement : ofElement? component prop values total with
  | some detection =>
    obtain ⟨hcounted, hhigh⟩ := ofElement?_spec helement
    have hjustified := IsJustified.ofHigh (isAbout_of_element helement) hcounted hhigh
    exact ⟨some detection, rfl, hjustified.outcome⟩
  | none =>
    dsimp only
    cases hknown : known? prop values with
    | some known =>
      obtain ⟨value, count⟩ := known
      obtain ⟨hvalue, hcount⟩ := known?_spec hknown
      obtain ⟨detection, hdetection, hcounted, hlow, husual⟩ :=
        ofKnown_spec h component hvalue hcount
      dsimp only
      rw [hdetection]
      have hjustified : IsJustified component prop values total detection :=
        ⟨isAbout_of_known hdetection, hcounted, fun h => absurd h hlow, husual⟩
      exact ⟨some detection, rfl, hjustified.outcome⟩
    | none =>
      have hnone := noneKnown_of_none helement hknown
      obtain ⟨found, hfound, hrare⟩ := ofRare?_spec h component prop
      dsimp only
      rw [hfound]
      cases found with
      | some detection =>
        obtain ⟨hcounted, hlow, hrare⟩ := hrare detection rfl
        have hjustified : IsJustified component prop values total detection :=
          ⟨isAbout_of_rare hfound, hcounted, fun _ => ⟨hrare, hnone⟩,
            fun hmedium => absurd (hlow.symm.trans hmedium) (by decide)⟩
        exact ⟨some detection, rfl, hjustified.outcome⟩
      | none =>
        refine ⟨ofLiteral? component prop values total, rfl, fun detection hliteral => ?_,
          fun hliteral => ⟨hnone, not_mem_of_ofLiteral? hliteral⟩⟩
        obtain ⟨hcounted, hhigh⟩ := ofLiteral?_spec hliteral
        exact .ofHigh (isAbout_of_literal hliteral) hcounted hhigh

/-- Rows are the direction of most usages. -/
def directions : Table String Nat := ⟨[("\"row\"", 6), ("\"column\"", 4)], by decide⟩

theorem detect_directions :
    IsDistribution directions 10 ∧
      ∃ detection,
        detect "Flex" "direction" directions 10 = (.ok (some detection) : Except Fault _) ∧
        detection.value = "\"row\"" ∧ detection.confidence = .medium ∧
        IsJustified "Flex" "direction" directions 10 detection := by
  have hdistribution : IsDistribution directions 10 := by
    refine ⟨by decide, ?_, ?_, by decide⟩
    · decide
    · decide
  obtain ⟨found, hfound, hjustified, -⟩ := detect_isJustified "Flex" "direction" hdistribution
  have hrow : (detect "Flex" "direction" directions 10 : Except Fault _).map
      (Option.map fun detection => (detection.value, detection.confidence))
        = .ok (some ("\"row\"", .medium)) := by
    have hranking : ranking directions = directions.entries :=
      List.mergeSort_of_pairwise (by decide)
    rw [detect_eq, hranking]
    decide +kernel
  rw [hfound] at hrow
  obtain ⟨detection, rfl, hsame⟩ := Option.map_eq_some_iff.1 (Except.ok.inj hrow)
  obtain ⟨hvalue, hconfidence⟩ := Prod.mk.inj hsame
  exact ⟨hdistribution, detection, hfound, hvalue, hconfidence, hjustified detection rfl⟩

end UsageCensus.Detection
