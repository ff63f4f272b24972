import UsageCensus.Proofs.Document.Amounts
import UsageCensus.Proofs.Report.ComponentSheet
import UsageCensus.Report.Markdown

/-!
# How often props are set

The usages of a prop are counted by attribute and the instances of a component by tag, so the
usages are how often the tags set the prop, together. Where no tag sets a prop more than once, the
page of the components gives it a share of the instances of at most a hundred percent
(`prop_usages_of_instances`); a tag that sets it twice counts twice (`prop_usages_repeated`).
-/

namespace UsageCensus

open UsageCensus.Number

/-! ## Percentages with one place -/

namespace Number.Binary64

/-- A number up to a hundred is written as at most a thousand tenths. -/
theorem AtMost.fixed_one {x : Binary64} (h : AtMost 100 x) :
    ∃ tenths ≤ 1000, x.fixed 1 = String.ofList (placed 1 tenths) := by
  cases x with
  | finite s m e =>
    obtain ⟨rfl, h⟩ := h
    refine ⟨units 1 m e, ?_, ?_⟩
    · apply roundDiv_le (magnitude_pos m e)
      have hten : Nat.pow 10 1 = 10 := rfl
      rw [hten]
      omega
    · show String.ofList ([] ++ placed 1 (units 1 m e) ++ []) = _
      rw [List.nil_append, List.append_nil]
  | infinite s => exact h.elim
  | nan => exact h.elim

end Number.Binary64

/-- A part is at most a hundred percent of its whole, also as amounts. -/
theorem Amount.percent_of_le {a b : Nat} (h : a ≤ b) (hpos : 0 < b) :
    ∃ share, (whole a).percent (whole b) = .ok share ∧ share.AtMost 100 := by
  have hpart : (Binary64.ofRatio false a b).AtMost 1 :=
    Binary64.atMost_ofRatio hpos (by omega) (by decide)
  have hhundred : Binary64.AtMost 100 .hundred :=
    Binary64.atMost_ofRatio (by decide) (by decide) (by decide)
  exact ⟨_, bind_eq_ok.2 ⟨_, quotient_of_le h hpos, rfl⟩, hpart.mul hhundred (by decide)⟩

namespace Census

open UsageCensus.Report UsageCensus.Source

/-! ## Usages are attributes -/

/-- How often a tag sets a prop. -/
def PlacedTag.settings (prop : String) (found : PlacedTag) : Nat :=
  found.tag.attributes.countP fun a => a.name == prop

/-- How often a report counts a prop. -/
def ComponentReport.usagesOf (report : ComponentReport) (prop : String) : Nat :=
  ((report.props.get? prop).map PropUsage.total).getD 0

theorem total_usageOf (attributes : List Attribute) (prop : String) :
    (((usageOf attributes).get? prop).map PropUsage.total).getD 0
      = attributes.countP fun a => a.name == prop := by
  induction attributes using List.reverseRecOn with
  | nil => rfl
  | append_singleton attributes a ih =>
    have hstep : usageOf (attributes ++ [a]) = (usageOf attributes).update a.name fun usage =>
        (usage.getD .empty).add (PropValue.aggregationKey a.value) := by
      rw [usageOf, List.foldl_append]
      rfl
    rw [hstep, Table.get?_update, List.countP_append, List.countP_singleton, ← ih]
    by_cases hname : prop = a.name
    · subst hname
      rw [if_pos rfl, if_pos (by simp)]
      cases (usageOf attributes).get? a.name <;> rfl
    · rw [if_neg hname, if_neg (by simpa using Ne.symm hname), Nat.add_zero]

theorem sumOf_settings (prop : String) (tags : List PlacedTag) :
    (tags.flatMap fun found => found.tag.attributes).countP (fun a => a.name == prop)
      = sumOf (PlacedTag.settings prop) tags := by
  induction tags with
  | nil => rfl
  | cons found tags ih =>
    rw [List.flatMap_cons, List.countP_append, ih, sumOf]
    rfl

/-- A report counts each tag as an instance and each of its attributes as a usage. -/
structure ComponentReport.IsTallyOf (tags : List PlacedTag) (report : ComponentReport) : Prop where
  instances : report.instances = tags.length
  usages : ∀ prop, report.usagesOf prop = sumOf (PlacedTag.settings prop) tags

namespace ComponentReport.IsTallyOf

variable {tags : List PlacedTag} {report : ComponentReport}

theorem ofTags (component : String) (importers : List String) (tags : List PlacedTag) :
    (ComponentReport.ofTags component importers tags).IsTallyOf tags where
  instances := rfl
  usages prop := (total_usageOf _ prop).trans (sumOf_settings prop tags)

theorem applyDefault (h : report.IsTallyOf tags) (prop value : String) :
    (report.applyDefault prop value).IsTallyOf tags := by
  unfold ComponentReport.applyDefault
  cases hget : report.props.get? prop with
  | none => exact h
  | some usage =>
    refine ⟨h.instances, fun other => ?_⟩
    rw [← h.usages other]
    show (((report.props.insert prop _).get? other).map _).getD 0 = _
    rw [ComponentReport.usagesOf, Table.insert, Table.get?_update]
    by_cases hother : other = prop
    · rw [if_pos hother, hother, hget]
      rfl
    · rw [if_neg hother]

end ComponentReport.IsTallyOf

/-! ## Shares of the instances -/

theorem sumOf_settings_le {prop : String} {tags : List PlacedTag} {most : Nat}
    (h : ∀ found ∈ tags, found.settings prop ≤ most) :
    sumOf (PlacedTag.settings prop) tags ≤ most * tags.length := by
  rw [← sumOf_const]
  exact sumOf_le_sumOf h

theorem instanceShare_of_le (prop : String) {usage : PropUsage} {instances : Nat}
    (h : usage.total ≤ instances) :
    ∃ tenths ≤ 1000, Markdown.instanceShare (ComponentReport.propEntry prop usage)
      (.ofNat instances) = .ok (String.ofList (Binary64.placed 1 tenths) ++ "%") := by
  rcases Nat.eq_zero_or_pos instances with rfl | hpos
  · exact ⟨0, Nat.zero_le 1000, rfl⟩
  · obtain ⟨share, hshare, hatMost⟩ := Amount.percent_of_le h hpos
    obtain ⟨tenths, htenths, hfixed⟩ := hatMost.fixed_one
    have hpresent : (Document.ofNat instances).isPresent = true := by
      show ((instances : Int) != 0) = true
      simpa using hpos.ne'
    refine ⟨tenths, htenths, ?_⟩
    rw [Markdown.instanceShare, hpresent, if_pos rfl, ← hfixed]
    refine bind_eq_ok.2 ⟨.ofNat usage.total, rfl, bind_eq_ok.2 ⟨.whole usage.total, rfl, ?_⟩⟩
    exact bind_eq_ok.2 ⟨.whole instances, rfl, bind_eq_ok.2 ⟨share, hshare, rfl⟩⟩

theorem valueNotes (usage : PropUsage) :
    ∃ notes, (((usage.values.ranked Int.ofNat).take ComponentReport.listedValues).map
      fun (value, n) => Document.object [("value", .string value), ("count", .ofNat n)]).mapM
        Markdown.valueNote = .ok notes := by
  apply exists_mapM
  intro note hnote
  obtain ⟨entry, -, rfl⟩ := List.mem_map.1 hnote
  exact ⟨_, rfl⟩

/-- The row of a prop on the page of the components. -/
theorem propRow_propEntry {prop : String} {usage : PropUsage} {instances : Nat} {share : String}
    (hshare : Markdown.instanceShare (ComponentReport.propEntry prop usage) (.ofNat instances)
      = .ok share) :
    ∃ values, Markdown.propRow (.ofNat instances) (ComponentReport.propEntry prop usage)
      = .ok (Markdown.row [Markdown.cellText prop, toString usage.total,
          toString usage.defaultUsages, share, values]) := by
  obtain ⟨notes, hnotes⟩ := valueNotes usage
  have hnumber (n : Nat) : (Document.ofNat n).display = toString n := cell_ofNat n
  refine ⟨", ".intercalate notes, ?_⟩
  unfold Markdown.propRow
  refine bind_eq_ok.2 ⟨share, hshare, bind_eq_ok.2 ⟨_, rfl, bind_eq_ok.2 ⟨_, rfl, ?_⟩⟩⟩
  refine bind_eq_ok.2 ⟨notes, hnotes, bind_eq_ok.2 ⟨.string prop, rfl, ?_⟩⟩
  rw [← hnumber, ← hnumber]
  rfl

/-- After any files a report has an instance for each tag of its component and a usage of a prop
for each attribute of that name. So the usages are at most as many times the instances as one tag
sets the prop, and where no tag sets it twice, the share in its row on the page is at most a hundred
percent. -/
theorem prop_usages_of_instances {tracked : Tracked} {files : List SourceFile}
    {inventory : Inventory} (h : inventory.IsOf tracked files) {component : String}
    {report : ComponentReport} (hreport : inventory.reports.get? component = some report)
    (prop : String) :
    report.instances = (tagsOf component (tagsIn tracked files)).length ∧
      report.usagesOf prop
        = sumOf (PlacedTag.settings prop) (tagsOf component (tagsIn tracked files)) ∧
      (∀ most, (∀ found ∈ tagsOf component (tagsIn tracked files), found.settings prop ≤ most) →
        report.usagesOf prop ≤ most * report.instances) ∧
      ((∀ found ∈ tagsOf component (tagsIn tracked files), found.settings prop ≤ 1) →
        ∀ usage, report.props.get? prop = some usage → usage.total ≤ report.instances ∧
          ∃ tenths ≤ 1000, ∃ values,
            Markdown.propRow (.ofNat report.instances) (ComponentReport.propEntry prop usage)
              = .ok (Markdown.row [Markdown.cellText prop, toString usage.total,
                toString usage.defaultUsages,
                String.ofList (Binary64.placed 1 tenths) ++ "%", values])) := by
  have htally : report.IsTallyOf (tagsOf component (tagsIn tracked files)) := by
    refine h.forall_reports (P := fun component report =>
      report.IsTallyOf (tagsOf component (tagsIn tracked files)))
      (fun component => .ofTags component _ _)
      (fun _ _ prop value hreport => hreport.applyDefault prop value)
      (component, report) (Table.get?_eq_some_iff.1 hreport)
  have hmost : ∀ most, (∀ found ∈ tagsOf component (tagsIn tracked files),
      found.settings prop ≤ most) → report.usagesOf prop ≤ most * report.instances := by
    intro most hsettings
    rw [htally.usages, htally.instances]
    exact sumOf_settings_le hsettings
  refine ⟨htally.instances, htally.usages prop, hmost, fun hone usage husage => ?_⟩
  have htotal : report.usagesOf prop = usage.total := by
    rw [ComponentReport.usagesOf, husage]
    rfl
  have hle : usage.total ≤ report.instances := by
    have hle := hmost 1 hone
    rwa [Nat.one_mul, htotal] at hle
  obtain ⟨tenths, htenths, hshare⟩ := instanceShare_of_le prop hle
  exact ⟨hle, tenths, htenths, propRow_propEntry hshare⟩

/-- One file with a tag that sets a prop and one that does not. -/
def tonedFiles : List SourceFile :=
  [("web", "Cart.tsx", "import { Card } from 'ui'\n<Card tone='a'/><Card/>".toList)]

theorem prop_usages_of_tonedFiles :
    ∃ (inventory : Inventory) (report : ComponentReport) (usage : PropUsage),
      inventory.IsOf panelLibrary tonedFiles ∧ inventory.reports.get? "Card" = some report ∧
      (∀ found ∈ tagsOf "Card" (tagsIn panelLibrary tonedFiles), found.settings "tone" ≤ 1) ∧
      report.props.get? "tone" = some usage ∧
      report.usagesOf "tone" = 1 ∧ report.instances = 2 ∧ usage.total ≤ report.instances := by
  have h : Inventory.IsOf panelLibrary tonedFiles
      ⟨.ofScans panelLibrary.components (scansOf panelLibrary tonedFiles), none⟩ :=
    .inl (Inventory.ofFiles_eq panelLibrary tonedFiles)
  obtain ⟨report, hreport⟩ := Option.isSome_iff_exists.1 (show ((ComponentReports.ofScans
    panelLibrary.components (scansOf panelLibrary tonedFiles)).get? "Card").isSome by
      decide +kernel)
  obtain ⟨hinstances, husages, -, hshare⟩ := prop_usages_of_instances h hreport "tone"
  have hone : ∀ found ∈ tagsOf "Card" (tagsIn panelLibrary tonedFiles),
      found.settings "tone" ≤ 1 := by decide +kernel
  have htotal : report.usagesOf "tone" = 1 := by
    rw [husages]
    decide +kernel
  obtain ⟨usage, husage⟩ : ∃ usage, report.props.get? "tone" = some usage := by
    apply Option.ne_none_iff_exists'.1
    intro hnone
    rw [ComponentReport.usagesOf, hnone] at htotal
    cases htotal
  refine ⟨_, report, usage, h, hreport, hone, husage, htotal, ?_, (hshare hone usage husage).1⟩
  rw [hinstances]
  decide +kernel

/-- A file with a tag that sets a prop twice. -/
def repeatedTone : List SourceFile :=
  [("web", "Cart.tsx", "import { Card } from 'ui'\n<Card tone='a' tone='a'/>".toList)]

/-- A tag that sets a prop twice makes two usages of one instance. -/
theorem prop_usages_repeated :
    ∃ inventory, Inventory.ofFiles panelLibrary repeatedTone = .ok inventory ∧
      (inventory.reports.get? "Card").map (fun report =>
        (report.instances, report.usagesOf "tone", (report.props.get? "tone").map fun usage =>
          (Markdown.instanceShare (ComponentReport.propEntry "tone" usage)
            (.ofNat report.instances)).toOption))
        = some (1, 2, some (some "200.0%")) :=
  ⟨_, Inventory.ofFiles_eq panelLibrary repeatedTone, by decide +kernel⟩

end Census

end UsageCensus
