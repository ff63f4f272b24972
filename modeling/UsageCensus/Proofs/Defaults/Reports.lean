import Mathlib
import UsageCensus.Document.Access
import UsageCensus.Proofs.Defaults.Listed
import UsageCensus.Proofs.Defaults.Snippet

/-!
# The reports of detections

Detections are reported as a list, as a document and as a text. None of the three loses a detection
or has one more: the list has each that was made once (`IsFound`), the counts of the document add up
to their number and its components have one leaf for each (`IsSummary`), and the piece of
configuration in the text is read as what is sure among them, if no text among them has the two
halves of a pair next to each other (`IsListing`).
-/

namespace UsageCensus.Detection

open UsageCensus.Defaults UsageCensus.Document UsageCensus.Number UsageCensus.Text

variable {α : Type} {detections : List (Detection α)}

theorem isGrouping_byComponent {ν : Type} {value : Detection α → ν}
    (h : (detections.map place).Nodup) :
    IsGrouping component prop value detections (byComponent value detections) :=
  isGrouping_groupBy ((List.pairwise_map.1 h).imp fun hne hplace =>
    hne (Prod.ext hplace.1 hplace.2))

/-! ## The document -/

/-- The document has the number of detections, counts by level that add up to it, and the details
of each detection below its component and its prop. -/
structure IsSummary (count : α → Document) (detections : List (Detection α))
    (document : Document) : Prop where
  total : document.member "total_detected" = .ok (.ofNat detections.length)
  levels : ∃ counts : List (Confidence × Nat),
    document.member "by_confidence" = .ok (.object (counts.map fun (level, n) =>
      (level.label, .ofNat n))) ∧
    counts.map Prod.fst = Confidence.levels ∧
    sumOf Prod.snd counts = detections.length
  components : ∃ table,
    document.member "components" = .ok (.ofTable (.ofTable id) table) ∧
    IsGrouping component prop (detail count) detections table

theorem sumOf_countByConfidence
    (h : ∀ detection ∈ detections, detection.confidence ∈ Confidence.levels) :
    sumOf Prod.snd (countByConfidence detections) = detections.length := by
  rw [countByConfidence, sumOf_map]
  exact sumOf_countP (by decide) h

theorem isSummary_summary (hplaces : (detections.map place).Nodup)
    (hlevels : ∀ detection ∈ detections, detection.confidence ∈ Confidence.levels)
    (count : α → Document) (generatedAt : Option String) :
    IsSummary count detections (summary count generatedAt detections) where
  total := rfl
  levels := ⟨countByConfidence detections, rfl, rfl, sumOf_countByConfidence hlevels⟩
  components := ⟨_, rfl, isGrouping_byComponent hplaces⟩

/-! ## The text -/

def listed (detection : Detection α) : List String :=
  [detection.component, detection.prop, detection.value]

/-- What stands in the text from the last opening of a piece of configuration on is read, between
braces, as the values of the sure detections, if their texts are read back from their quotes. -/
def IsListing [Room] (surrogates : Surrogates) (detections : List (Detection α)) (text : String) :
    Prop :=
  ∃ part table, IsFromLast (· == openingLine) text.toList part ∧
    IsGrouping component prop value (detections.filter fun d => d.confidence.isSure) table ∧
    ∀ read, (∀ detection ∈ detections, ∀ text ∈ detection.listed,
        IsReadable surrogates read text.toList) →
      parseWith read ('\x7b' :: part ++ ['\x7d'])
        = .ok (.object [("propDefaults", .ofTable (.ofTable .string) table)])

theorem isReadable_of_isGrouping {written read : Surrogates}
    {table : Table String (Table String String)}
    (h : IsGrouping component prop value detections table)
    (hread : ∀ detection ∈ detections, ∀ text ∈ detection.listed,
      IsReadable written read text.toList) :
    ∀ entry ∈ table.entries, Entry.IsReadable written read entry := by
  intro entry hentry
  have hleaf : ∀ member ∈ entry.2.entries, ∃ detection ∈ detections,
      detection.component = entry.1 ∧ detection.prop = member.1 ∧ detection.value = member.2 := by
    intro member hmember
    refine (h.leaf entry.1 member.1 member.2).1 (Option.bind_eq_some_iff.2 ⟨entry.2, ?_, ?_⟩)
    · exact Table.get?_eq_some_iff.2 hentry
    · exact Table.get?_eq_some_iff.2 hmember
  constructor
  · obtain ⟨member, hmember⟩ := List.exists_mem_of_ne_nil _ (h.nonempty entry hentry)
    obtain ⟨detection, hdetection, hcomponent, -⟩ := hleaf member hmember
    exact hcomponent ▸ hread detection hdetection detection.component (by simp [listed])
  · refine forall_textsOfMembers_iff.2 (List.forall_mem_map.2 fun member hmember => ?_)
    obtain ⟨detection, hdetection, -, hprop, hvalue⟩ := hleaf member hmember
    refine ⟨hprop ▸ hread detection hdetection detection.prop (by simp [listed]), ?_⟩
    refine List.forall_mem_singleton.2 ?_
    exact hvalue ▸ hread detection hdetection detection.value (by simp [listed])

theorem isListing_listing [Room] (surrogates : Surrogates)
    (hplaces : (detections.map place).Nodup) (count : α → String) :
    IsListing surrogates detections (listing surrogates count detections) := by
  have hsorted : (sureValues detections).entries.Perm (sortedEntries surrogates detections) :=
    (List.mergeSort_perm _ _).symm
  have hkeys : ((sortedEntries surrogates detections).map Prod.fst).Nodup :=
    (hsorted.map Prod.fst).nodup_iff.1 (sureValues detections).nodup_keys
  have hsure : ((detections.filter fun d => d.confidence.isSure).map place).Nodup :=
    hplaces.sublist (List.filter_sublist.map place)
  have hgrouping : IsGrouping component prop value
      (detections.filter fun d => d.confidence.isSure)
      ⟨sortedEntries surrogates detections, hkeys⟩ :=
    (isGrouping_byComponent hsure).perm hsorted
  refine ⟨_, _, snippet_listing count detections, hgrouping, fun read hread => ?_⟩
  exact parseWith_snippet hkeys (isReadable_of_isGrouping hgrouping fun detection hdetection =>
    hread detection (List.mem_filter.1 hdetection).1)

/-! ## All three -/

/-- What the detector finds is listed once, counted once, and read back from the text. -/
theorem detectAll_reported [Room] {detector : Detector α (Except Fault)}
    {components : Table String (Table String (Usage α))} (h : AnswersOn detector components)
    (surrogates : Surrogates) :
    ∃ detections, detectAll surrogates detector components = .ok detections ∧
      IsFound surrogates detector components detections ∧
      (∀ count generatedAt, IsSummary count detections (summary count generatedAt detections)) ∧
      ∀ count, IsListing surrogates detections (listing surrogates count detections) := by
  obtain ⟨detections, hdetections, hfound⟩ := exists_isFound h
  have hlevels : ∀ detection ∈ detections, detection.confidence ∈ Confidence.levels := by
    intro detection hmem
    obtain ⟨component, prop, usage, hasked, hanswer⟩ := (hfound.mem_iff detection).1 hmem
    obtain ⟨answer, hanswer', hall⟩ := h component prop usage hasked
    exact (hall detection (Except.ok.inj (hanswer'.symm.trans hanswer))).2
  exact ⟨detections, hdetections, hfound, isSummary_summary hfound.nodup hlevels,
    isListing_listing surrogates hfound.nodup⟩

/-- A detector that answers from rows, each with the value and the confidence for one prop. -/
def fromRows (rows : List ((String × String) × String × Confidence)) :
    Detector Nat (Except Fault) := fun component prop values total =>
  .ok ((rows.lookup (component, prop)).map fun (value, confidence) =>
    ⟨component, prop, value, confidence, "", values.getD value 0, total⟩)

theorem answersOn_fromRows {rows : List ((String × String) × String × Confidence)}
    (h : ∀ row ∈ rows, row.2.2 ∈ Confidence.levels)
    (components : Table String (Table String (Usage Nat))) :
    AnswersOn (fromRows rows) components := by
  intro component prop usage _
  refine ⟨_, rfl, fun detection hdetection => ?_⟩
  obtain ⟨⟨value, confidence⟩, hrow, rfl⟩ := Option.map_eq_some_iff.1 hdetection
  obtain ⟨before, after, rfl, -⟩ := List.lookup_eq_some_iff.1 hrow
  exact ⟨⟨rfl, rfl⟩, h ((component, prop), value, confidence) (by simp)⟩

/-- A component named like the opening of the configuration, and one with a quote and half of a pair
in its name. -/
def oddlyNamed : Table String (Table String (Usage Nat)) :=
  .ofPairs [
    ("propDefaults", .ofPairs [("tone", ⟨.ofPairs [("soft", 6), ("loud", 1)], 7⟩),
      ("onClick", ⟨.ofPairs [("go", 2)], 2⟩)]),
    ("Fly\"Out\ue000", .ofPairs [("tone", ⟨.ofPairs [("soft", 2)], 2⟩), ("mode", ⟨.empty, 0⟩)])]

def oddRows : List ((String × String) × String × Confidence) :=
  [(("propDefaults", "tone"), "soft", .medium), (("propDefaults", "onClick"), "go", .high),
    (("Fly\"Out\ue000", "tone"), "soft\n", .high), (("Fly\"Out\ue000", "mode"), "", .low)]

theorem reported_oddlyNamed :
    let _ : Room := .ofSize 1000 (by decide)
    AnswersOn (fromRows oddRows) oddlyNamed ∧
      ∃ detections, detectAll ⟨57344⟩ (fromRows oddRows) oddlyNamed = .ok detections ∧
        (⟨"Fly\"Out\ue000", "tone", "soft\n", .high, "", 0, 2⟩ : Detection Nat) ∈ detections ∧
        IsListing ⟨57344⟩ detections (listing ⟨57344⟩ toString detections) := by
  intro room
  have hanswers : AnswersOn (fromRows oddRows) oddlyNamed :=
    answersOn_fromRows (by decide) oddlyNamed
  obtain ⟨detections, hdetections, hfound, -, hlisting⟩ := detectAll_reported hanswers ⟨57344⟩
  have hasked : IsAsked oddlyNamed "Fly\"Out\ue000" "tone" ⟨.ofPairs [("soft", 2)], 2⟩ :=
    ⟨rfl, by decide +kernel⟩
  exact ⟨hanswers, detections, hdetections,
    (hfound.mem_iff _).2 ⟨_, _, _, hasked, rfl⟩, hlisting toString⟩

def toneUsages (components : List String) : Table String (Table String (Usage Nat)) :=
  .ofPairs (components.map fun component =>
    (component, .ofPairs [("tone", ⟨.ofPairs [("soft", 1)], 1⟩)]))

def toneRows (components : List String) : List ((String × String) × String × Confidence) :=
  components.map fun component => ((component, "tone"), "soft", .high)

/-- Two names, of which one has the two halves of the pair that the other is, have one entry in the
piece of configuration. A component that is named like the opening of the piece hides it from a
reader who takes any line for the opening that has its text in it. -/
theorem listing_mistaken :
    let _ : Room := .ofSize 1000 (by decide)
    (∃ detections part,
      detectAll ⟨57344⟩ (fromRows (toneRows ["\ue03d\ue600", "😀"]))
        (toneUsages ["\ue03d\ue600", "😀"]) = .ok detections ∧
      detections.map place = [("\ue03d\ue600", "tone"), ("😀", "tone")] ∧
      IsFromLast (· == openingLine) (listing ⟨57344⟩ toString detections).toList part ∧
      parseWith ⟨57344⟩ ('\x7b' :: part ++ ['\x7d']) = .ok (.object [("propDefaults",
        .object [("😀", .object [("tone", .string "soft")])])])) ∧
    ∃ detections part,
      detectAll .none (fromRows (toneRows ["propDefaults"])) (toneUsages ["propDefaults"])
        = .ok detections ∧
      IsFromLast (occurs "\"propDefaults\": \x7b".toList) (listing .none toString detections).toList
        part ∧
      parseWith .none ('\x7b' :: part ++ ['\x7d']) = .error .malformed := by
  intro room
  let tone (component : String) : Detection Nat := ⟨component, "tone", "soft", .high, "", 1, 1⟩
  constructor
  · refine ⟨[tone "\ue03d\ue600", tone "😀"], _, ?_, rfl, snippet_listing toString _, ?_⟩
    · show Except.ok (sort ⟨57344⟩ [tone "\ue03d\ue600", tone "😀"]) = _
      rw [sort, List.mergeSort_of_pairwise (by decide +kernel)]
    · have hsorted : sortedEntries ⟨57344⟩ [tone "\ue03d\ue600", tone "😀"]
          = [("\ue03d\ue600", .ofPairs [("tone", "soft")]), ("😀", .ofPairs [("tone", "soft")])] :=
        List.mergeSort_of_pairwise (by decide +kernel)
      rw [hsorted]
      cbv
  · have hinner : innerLines .none (sortedEntries .none [tone "propDefaults"])
        = ["    \"propDefaults\": \x7b\"tone\": \"soft\"\x7d".toList, [' ', ' ', '\x7d'], []] := by
      decide +kernel
    have hcut := cutAt_listing .none toString [tone "propDefaults"]
    rw [hinner, List.append_cons] at hcut
    refine ⟨[tone "propDefaults"], _, by decide +kernel,
      ⟨_, _, _, hcut, by decide +kernel, by decide +kernel, rfl⟩, ?_⟩
    cbv
end UsageCensus.Detection
