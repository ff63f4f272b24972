import UsageCensus.Defaults.Stored
import UsageCensus.Proofs.Defaults.Counting
import UsageCensus.Proofs.Document.Amounts

/-!
# Reports from anywhere

A report on disk may hold any values. A document is no report where nothing called props is in it,
and one only if it is an object with such a member (`ofDocument?_eq_none_iff`,
`ofDocument?_eq_some_iff`); other documents fault. Where every prop of a report has counts that a
quotient can be taken of, its defaults are detected without a fault and can be saved
(`exists_detectAll`). Where the props are no object, or a value has no amount for its count,
detection faults (`detectAll_of_isBroken`).
-/

namespace UsageCensus

open UsageCensus.Defaults UsageCensus.Files UsageCensus.Number UsageCensus.Text

/-! ## Counts -/

namespace Document

/-- The value counts usages: it is an amount, and no integer that is too large for a quotient. -/
def IsCount (value : Document) : Prop := ∃ a, value.amount? = some a ∧ a.IsModest

theorem amount_of_amount? {value : Document} {a : Amount} (h : value.amount? = some a) :
    value.amount = .ok a := by
  rw [amount, h]

theorem members_of_ne_object {value : Document} (h : ∀ members, value ≠ .object members) :
    value.members = .error .noOperation := by
  unfold Document.members
  split
  · exact absurd rfl (h _)
  · rfl

theorem memberOr_of_ne_object {value : Document} (h : ∀ members, value ≠ .object members)
    (key : String) (default : Document) : value.memberOr key default = .error .noOperation := by
  unfold memberOr
  split
  · exact absurd rfl (h _)
  · rfl

theorem IsCount.depth_eq {value : Document} (h : value.IsCount) : value.depth = 0 := by
  obtain ⟨a, ha, -⟩ := h
  unfold amount? at ha
  split at ha
  · rfl
  · rfl
  · rfl
  · cases ha

theorem IsCount.copying_fits [Room] {value : Document} (h : value.IsCount) :
    Room.copying.fits value = true :=
  Room.copying.fits_of_depth_le (h.depth_eq.trans_le (Nat.zero_le _))

end Document

namespace Detection

/-! ## Detection without a fault -/

section

variable {α : Type} {component prop : String} {values : Table String α} {total : α}

theorem get?_of_ofElement? {detection : Detection α}
    (h : ofElement? component prop values total = some detection) :
    values.get? detection.value = some detection.count ∧ detection.total = total := by
  unfold ofElement? at h
  obtain ⟨element, -, h⟩ := Option.bind_eq_some_iff.1 h
  obtain ⟨count, hcount, h⟩ := Option.bind_eq_some_iff.1 h
  cases h
  exact ⟨hcount, rfl⟩

theorem get?_of_known? {value : String} {count : α} (h : known? prop values = some (value, count)) :
    values.get? value = some count := by
  obtain ⟨value', -, h⟩ := List.exists_of_findSome?_eq_some h
  obtain ⟨count', hcount, h⟩ := Option.map_eq_some_iff.1 h
  cases h
  exact hcount

theorem get?_of_ofLiteral? [Quantity α (Except Fault)] {detection : Detection α}
    (h : ofLiteral? component prop values total = some detection) :
    values.get? detection.value = some detection.count ∧ detection.total = total := by
  unfold ofLiteral? at h
  split at h
  · rename_i count hcount
    split at h
    · cases h
    · cases h
      exact ⟨hcount, rfl⟩
  · cases h

variable [Quantity α (Except Fault)] {counts : α → Prop}

/-- Quantities of a kind are ranked and compared without a fault. -/
structure IsTotalOn (counts : α → Prop) : Prop where
  ranked : ∀ entries : List (String × α), (∀ entry ∈ entries, counts entry.2) →
    ∃ ranked, (Quantity.ranked entries : Except Fault _) = .ok ranked ∧
      ∀ entry ∈ ranked, entry ∈ entries
  isAtMostHalf : ∀ a b : α, counts a → counts b →
    ∃ isMinority, (Quantity.isAtMostHalf a b : Except Fault Bool) = .ok isMinority
  share : ∀ a b : α, counts a → counts b → Quantity.isZero b = false →
    ∃ share, (Quantity.share a b : Except Fault Binary64) = .ok share

theorem IsTotalOn.exists_ofKnown (h : IsTotalOn counts) (component prop value : String)
    (total : α) {count : α} {ranked : List (String × α)} (hcount : counts count)
    (hranked : ∀ entry ∈ ranked, counts entry.2) :
    ∃ detection, ofKnown component prop value count total ranked
        = (.ok detection : Except Fault _) ∧
      detection.count = count ∧ detection.total = total := by
  unfold ofKnown
  split
  · rename_i name largest second rest
    obtain ⟨isMinority, hhalf⟩ :=
      h.isAtMostHalf count largest hcount (hranked (name, largest) List.mem_cons_self)
    rw [hhalf]
    exact ⟨_, rfl, rfl, rfl⟩
  · exact ⟨_, rfl, rfl, rfl⟩

theorem IsTotalOn.exists_ofRare? (h : IsTotalOn counts) (component prop : String)
    {ranked : List (String × α)} (hranked : ∀ entry ∈ ranked, counts entry.2)
    (htotal : counts total) (hzero : Quantity.isZero total = false) :
    ∃ found, ofRare? component prop total ranked = (.ok found : Except Fault _) ∧
      ∀ detection, found = some detection → counts detection.count ∧ detection.total = total := by
  unfold ofRare?
  split
  · rename_i first second rest value count hlast
    have hcount : counts count := hranked (value, count) (List.mem_of_getLast? hlast)
    obtain ⟨share, hshare⟩ := h.share count total hcount htotal hzero
    rw [hshare]
    dsimp only [bind, Except.bind]
    split
    · refine ⟨_, rfl, fun detection hdetection => ?_⟩
      cases hdetection
      exact ⟨hcount, rfl⟩
    · exact ⟨none, rfl, nofun⟩
  · exact ⟨none, rfl, nofun⟩

/-- A prop with counts is judged without a fault, and what is detected has one of the counts. -/
theorem IsTotalOn.exists_detect (h : IsTotalOn counts)
    (hvalues : ∀ entry ∈ values.entries, counts entry.2) (htotal : counts total) :
    ∃ found, detect component prop values total = (.ok found : Except Fault _) ∧
      ∀ detection, found = some detection → counts detection.count ∧ detection.total = total := by
  have hget {value : String} {count : α} (hcount : values.get? value = some count) :
      counts count := hvalues _ (Table.get?_eq_some_iff.1 hcount)
  unfold detect
  split
  · exact ⟨none, rfl, nofun⟩
  · rename_i hjudged
    rw [Bool.or_eq_true, not_or, Bool.not_eq_true, Bool.not_eq_true] at hjudged
    obtain ⟨ranked, hranked, hmem⟩ := h.ranked values.entries hvalues
    have hcounts : ∀ entry ∈ ranked, counts entry.2 :=
      fun entry hentry => hvalues entry (hmem entry hentry)
    rw [hranked]
    change ∃ found, Except.bind (Except.ok ranked) _ = _ ∧ _
    rw [Except.bind]
    cases helement : ofElement? component prop values total with
    | some detection =>
      obtain ⟨hcount, htotal⟩ := get?_of_ofElement? helement
      refine ⟨some detection, rfl, fun other hother => ?_⟩
      cases hother
      exact ⟨hget hcount, htotal⟩
    | none =>
      dsimp only
      cases hknown : known? prop values with
      | some known =>
        obtain ⟨value, count⟩ := known
        have hcount := hget (get?_of_known? hknown)
        obtain ⟨detection, hdetection, hsame, htotal⟩ :=
          h.exists_ofKnown component prop value total hcount hcounts
        dsimp only
        rw [hdetection]
        refine ⟨some detection, rfl, fun other hother => ?_⟩
        cases hother
        exact ⟨hsame ▸ hcount, htotal⟩
      | none =>
        obtain ⟨found, hfound, hrare⟩ := h.exists_ofRare? component prop hcounts htotal
          hjudged.2
        dsimp only
        rw [hfound]
        cases found with
        | some detection => exact ⟨some detection, rfl, hrare⟩
        | none =>
          refine ⟨ofLiteral? component prop values total, rfl, fun detection hliteral => ?_⟩
          obtain ⟨hcount, htotal⟩ := get?_of_ofLiteral? hliteral
          exact ⟨hget hcount, htotal⟩

/-- Values that cannot be ranked are not judged. -/
theorem detect_of_ranked_error (hvalues : values.entries ≠ [])
    (hzero : Quantity.isZero total = false)
    (h : ∃ fault, (Quantity.ranked values.entries : Except Fault _) = .error fault) :
    ∃ fault, detect component prop values total = (.error fault : Except Fault _) := by
  obtain ⟨fault, hfault⟩ := h
  have hjudged : ¬ (values.isEmpty || Quantity.isZero total) = true := by
    rw [hzero, Bool.or_false, Table.isEmpty, List.isEmpty_iff]
    exact hvalues
  refine ⟨fault, ?_⟩
  unfold detect
  rw [if_neg hjudged, hfault]
  rfl

end

/-! ## Counts in a document -/

section

variable (surrogates : Surrogates)

/-- Values are ranked by the amounts of their counts, if each count has one. -/
theorem ranked_ofDocuments (amountOf : Document → Amount) {entries : List (String × Document)}
    (h : ∀ entry ∈ entries, entry.2.amount? = some (amountOf entry.2)) :
    ∃ ranked, (Quantity.ofDocuments surrogates).ranked entries = .ok ranked ∧
      ∀ entry ∈ ranked, entry ∈ entries := by
  let counted (entry : String × Document) := (entry.1, entry.2, amountOf entry.2)
  have hcounted : entries.mapM (fun entry => do
      let amount ← entry.2.amount
      return (entry.1, entry.2, amount)) = (.ok (entries.map counted) : Except Fault _) := by
    apply mapM_of_forall
    intro entry hentry
    rw [Document.amount_of_amount? (h entry hentry)]
    rfl
  have hsorted : ∃ sorted : List (String × Document × Amount), sorted.Perm (entries.map counted) ∧
      (Quantity.ofDocuments surrogates).ranked entries
        = .ok (sorted.map fun entry => (entry.1, entry.2.1)) := by
    change ∃ sorted : List (String × Document × Amount), _ ∧ (List.mapM _ entries >>= _) = _
    rw [hcounted]
    dsimp only [bind, Except.bind]
    split
    · exact ⟨_, List.mergeSort_perm _ _, rfl⟩
    · exact ⟨_, Sorting.perm_sort _ _, rfl⟩
  obtain ⟨sorted, hperm, hranked⟩ := hsorted
  refine ⟨_, hranked, fun entry hentry => ?_⟩
  obtain ⟨placed, hplaced, rfl⟩ := List.mem_map.1 hentry
  obtain ⟨entry, hmem, rfl⟩ := List.mem_map.1 (hperm.mem_iff.1 hplaced)
  exact hmem

/-- Values are not ranked where one of them has no amount for its count. -/
theorem ranked_ofDocuments_error {entries : List (String × Document)}
    (h : ∃ entry ∈ entries, entry.2.amount? = none) :
    ∃ fault, (Quantity.ofDocuments surrogates).ranked entries = .error fault := by
  obtain ⟨entry, hentry, hnone⟩ := h
  have hamount : entry.2.amount = .error .wrongKind := by rw [Document.amount, hnone]
  refine exists_bind_error (exists_mapM_error ⟨entry, hentry, .wrongKind, ?_⟩)
  show (entry.2.amount >>= _) = _
  rw [hamount]
  rfl

/-- Counts in a document are judged without a fault. -/
theorem IsTotalOn.ofDocuments :
    @IsTotalOn Document (.ofDocuments surrogates) Document.IsCount := by
  refine @IsTotalOn.mk Document (.ofDocuments surrogates) _ (fun entries hentries => ?_)
    (fun a b ha hb => ?_) fun a b ha hb hzero => ?_
  · apply ranked_ofDocuments surrogates fun value => value.amount?.getD (.whole 0)
    intro entry hentry
    obtain ⟨a, ha, -⟩ := hentries entry hentry
    rw [ha, Option.getD_some]
  · obtain ⟨x, hx, -⟩ := ha
    obtain ⟨y, hy, hmodest⟩ := hb
    obtain ⟨whole, hwhole⟩ := hmodest.exists_toBinary64
    have hhalf : half y = .ok (whole.mul (.ofRatio false 1 2)) := by
      rw [half, hwhole]
      rfl
    show ∃ isMinority, (do
      let bound ← half (← b.amount)
      return (← a.amount).le (.real bound) : Except Fault Bool) = _
    rw [Document.amount_of_amount? hx, Document.amount_of_amount? hy]
    change ∃ isMinority, (half y >>= _) = _
    rw [hhalf]
    exact ⟨_, rfl⟩
  · obtain ⟨x, hx, hxmodest⟩ := ha
    obtain ⟨y, hy, hymodest⟩ := hb
    have hyzero : y.isZero = false := by
      simp only [Quantity.isZero, hy] at hzero
      exact hzero
    obtain ⟨share, hshare⟩ := hxmodest.exists_quotient hymodest hyzero
    show ∃ share, (do (← a.amount).quotient (← b.amount) : Except Fault Binary64) = _
    rw [Document.amount_of_amount? hx, Document.amount_of_amount? hy]
    exact ⟨share, hshare⟩

end

end Detection

namespace Document

/-! ## Documents that hold a report -/

/-- What the value is made of can be looked through, and the text is not in it. -/
def Lacks (key : String) : Document → Prop
  | object members => members.lookup key = none
  | list items => .string key ∉ items
  | string s => ¬ key.toList <:+: s.toList
  | _ => False

/-- The document is taken for no report: it is as good as nothing, or has nothing called props. -/
def IsNoReport (document : Document) : Prop := document.isPresent = false ∨ document.Lacks "props"

/-- The document is an object with props. It calls its component by the label, or else by the
fallback. -/
def IsReport (fallback : String) (document : Document) (report : StoredReport) : Prop :=
  ∃ members, document = .object members ∧ members.lookup "props" = some report.props ∧
    Label.ofDocument ((members.lookup "component").getD (.string fallback)) = .ok report.label

end Document

namespace Defaults.StoredReport

variable {surrogates : Surrogates} {fallback : String} {document : Document}
  {report : StoredReport} {reports : List StoredReport}

theorem ofDocument?_object {members : List (String × Document)} {props : Document}
    (h : members.lookup "props" = some props) :
    ofDocument? fallback (.object members)
      = (Label.ofDocument ((members.lookup "component").getD (.string fallback))).map
        fun label => some ⟨label, props⟩ := by
  rw [ofDocument?, h]
  dsimp only
  cases Label.ofDocument ((members.lookup "component").getD (.string fallback)) <;> rfl

theorem any_iff_mem {α : Type} {p : α → Bool} {a : α} {items : List α}
    (h : ∀ item, p item = true ↔ item = a) : items.any p = true ↔ a ∈ items := by
  rw [List.any_eq_true]
  simp only [h, exists_eq_right]

/-- A document that is no object is no report, or it faults. -/
theorem ofDocument?_of_ne_object (fallback : String) (h : ∀ members, document ≠ .object members) :
    document.IsNoReport ∧ ofDocument? fallback document = .ok none ∨
      ¬ document.IsNoReport ∧ ofDocument? fallback document = .error .wrongKind := by
  have hsimple (hlacks : ¬ document.Lacks "props") (hof : ofDocument? fallback document
      = if document.isPresent then .error .wrongKind else .ok none) :
      document.IsNoReport ∧ ofDocument? fallback document = .ok none ∨
        ¬ document.IsNoReport ∧ ofDocument? fallback document = .error .wrongKind := by
    rw [hof, Document.IsNoReport, or_iff_left hlacks]
    cases document.isPresent <;> simp
  cases document with
  | object members => exact absurd rfl (h members)
  | list items =>
    have hempty : items = [] → .string "props" ∉ items := fun h => h ▸ List.not_mem_nil
    rw [Document.IsNoReport, Document.isPresent, Bool.not_eq_false', List.isEmpty_iff,
      Document.Lacks, or_iff_right_of_imp hempty, ofDocument?]
    by_cases hmem : .string "props" ∈ items
    · exact .inr ⟨not_not_intro hmem,
        if_pos ((any_iff_mem fun item => by cases item <;> simp).2 hmem)⟩
    · exact .inl ⟨hmem, if_neg (mt (any_iff_mem fun item => by cases item <;> simp).1 hmem)⟩
  | string s =>
    have hempty : s = "" → ¬ "props".toList <:+: s.toList := by
      rintro rfl
      decide
    rw [Document.IsNoReport, Document.isPresent, Bool.not_eq_false', String.isEmpty_iff,
      Document.Lacks, or_iff_right_of_imp hempty, ← occurs_iff, ofDocument?]
    cases occurs "props".toList s.toList <;> simp
  | _ => exact hsimple id rfl

theorem ofDocument?_eq_none_iff :
    ofDocument? fallback document = .ok none ↔ document.IsNoReport := by
  by_cases hobject : ∃ members, document = .object members
  · obtain ⟨members, rfl⟩ := hobject
    have hempty : members = [] → members.lookup "props" = none := fun h => h ▸ rfl
    rw [Document.IsNoReport, Document.isPresent, Bool.not_eq_false', List.isEmpty_iff,
      Document.Lacks, or_iff_right_of_imp hempty]
    cases hprops : members.lookup "props" with
    | none => simp [ofDocument?, hprops]
    | some props =>
      rw [ofDocument?_object hprops]
      cases Label.ofDocument ((members.lookup "component").getD (.string fallback)) <;>
        simp [Except.map]
  · rcases ofDocument?_of_ne_object fallback (not_exists.1 hobject) with h | h
    · exact iff_of_true h.2 h.1
    · rw [h.2]
      exact iff_of_false (by simp) h.1

theorem ofDocument?_eq_some_iff :
    ofDocument? fallback document = .ok (some report) ↔ document.IsReport fallback report := by
  by_cases hobject : ∃ members, document = .object members
  · obtain ⟨members, rfl⟩ := hobject
    unfold Document.IsReport
    simp only [Document.object.injEq, exists_eq_left']
    cases hprops : members.lookup "props" with
    | none => simp [ofDocument?, hprops]
    | some props =>
      rw [ofDocument?_object hprops]
      cases report
      cases Label.ofDocument ((members.lookup "component").getD (.string fallback)) <;>
        simp [Except.map, and_comm]
  · have hno : ¬ document.IsReport fallback report :=
      fun ⟨members, h, _⟩ => hobject ⟨members, h⟩
    refine iff_of_false (fun h => ?_) hno
    rcases ofDocument?_of_ne_object fallback (not_exists.1 hobject) with hof | hof
    · exact nomatch hof.2.symm.trans h
    · exact nomatch hof.2.symm.trans h

/-! ## Stored usages -/

/-- The values of a stored prop; none, where there is no such member. -/
def valuesIn (members : List (String × Document)) : Document :=
  (members.lookup "values").getD (.object [])

/-- How many usages a stored prop has. -/
def totalIn (members : List (String × Document)) : Document :=
  (members.lookup "total_usages").getD (.int 0)

/-- There are no usages to be judged. -/
def IsUnused (members : List (String × Document)) : Prop :=
  (valuesIn members).isPresent = false ∨ Quantity.isZero (totalIn members) = true

/-- The stored prop is not used, or every value has a count. -/
def HasCounts (stored : Document) : Prop :=
  ∃ members, stored = .object members ∧ (IsUnused members ∨ (totalIn members).IsCount ∧
    ∃ counts, valuesIn members = .object counts ∧ ∀ entry ∈ counts, entry.2.IsCount)

/-- The stored prop is no object, or is used by what are no values with an amount each. -/
def IsMisshapen (stored : Document) : Prop :=
  ∀ members, stored = .object members → ¬ IsUnused members ∧
    ∀ counts, valuesIn members = .object counts →
      ∃ entry ∈ (Table.ofPairs counts).entries, entry.2.amount? = none

theorem usage?_of_isUnused {members : List (String × Document)} (h : IsUnused members) :
    usage? (.object members) = .ok none := by
  have hskip : (!(valuesIn members).isPresent || Quantity.isZero (totalIn members)) = true := by
    rw [Bool.or_eq_true, Bool.not_eq_true']
    exact h
  exact if_pos hskip

theorem usage?_of_not_isUnused {members : List (String × Document)} (h : ¬ IsUnused members) :
    usage? (.object members) = (valuesIn members).members.map fun entries =>
      some ⟨.ofPairs entries, totalIn members⟩ := by
  have hskip : ¬ (!(valuesIn members).isPresent || Quantity.isZero (totalIn members)) = true := by
    rw [Bool.or_eq_true, Bool.not_eq_true']
    exact h
  refine (if_neg hskip).trans ?_
  show ((valuesIn members).members >>= _) = _
  cases (valuesIn members).members <;> rfl

/-! ## Detection in stored reports -/

/-- A detection of the report that can be saved. -/
def IsSaved [Room] (report : StoredReport) (labelled : Labelled) : Prop :=
  labelled.1 = report.label ∧ labelled.2.isShallow = true

theorem exists_detectProp [Room] (report : StoredReport) (prop : String) {stored : Document}
    (h : isSkipped prop = true ∨ HasCounts stored) :
    ∃ found, detectProp surrogates report prop stored = .ok found ∧
      ∀ labelled, found = some labelled → report.IsSaved labelled := by
  unfold detectProp
  cases hskipped : isSkipped prop with
  | true => exact ⟨none, rfl, nofun⟩
  | false =>
    obtain ⟨members, rfl, hunused | ⟨htotal, counts, hvalues, hcounts⟩⟩ :=
      h.resolve_left (ne_true_of_eq_false hskipped)
    · rw [usage?_of_isUnused hunused]
      exact ⟨none, rfl, nofun⟩
    · by_cases hunused : IsUnused members
      · rw [usage?_of_isUnused hunused]
        exact ⟨none, rfl, nofun⟩
      · rw [usage?_of_not_isUnused hunused, hvalues]
        have hentries : ∀ entry ∈ (Table.ofPairs counts).entries, entry.2.IsCount :=
          fun entry hentry => hcounts entry (Table.mem_of_mem_ofPairs hentry)
        obtain ⟨found, hfound, hsaved⟩ :=
          @Detection.IsTotalOn.exists_detect Document report.label.key prop (.ofPairs counts)
            (totalIn members) (.ofDocuments surrogates) _ (.ofDocuments surrogates) hentries htotal
        change ∃ labelled, (@Detection.detect Document (Except Fault) _ (.ofDocuments surrogates)
          report.label.key prop (.ofPairs counts) (totalIn members) >>= _) = _ ∧ _
        rw [hfound]
        refine ⟨_, rfl, fun labelled hlabelled => ?_⟩
        obtain ⟨detection, hdetection, rfl⟩ := Option.map_eq_some_iff.1 hlabelled
        obtain ⟨hcount, hsame⟩ := hsaved detection hdetection
        refine ⟨rfl, ?_⟩
        show detection.isShallow = true
        rw [Detection.isShallow, hsame, hcount.copying_fits, htotal.copying_fits]
        rfl

theorem detectProp_of_isMisshapen (surrogates : Surrogates) (report : StoredReport)
    {prop : String} {stored : Document} (hskipped : isSkipped prop = false)
    (h : IsMisshapen stored) :
    ∃ fault, detectProp surrogates report prop stored = .error fault := by
  unfold detectProp
  rw [hskipped, if_neg (by decide)]
  by_cases hobject : ∃ members, stored = .object members
  · obtain ⟨members, rfl⟩ := hobject
    obtain ⟨hused, hnone⟩ := h members rfl
    rw [usage?_of_not_isUnused hused]
    by_cases hcounts : ∃ counts, valuesIn members = .object counts
    · obtain ⟨counts, hcounts⟩ := hcounts
      obtain ⟨entry, hmem, -⟩ := hnone counts hcounts
      obtain ⟨fault, hfault⟩ := @Detection.detect_of_ranked_error Document report.label.key prop
        (.ofPairs counts) (totalIn members) (.ofDocuments surrogates) (List.ne_nil_of_mem hmem)
        (eq_false_of_ne_true fun hzero => hused (.inr hzero))
        (Detection.ranked_ofDocuments_error surrogates (hnone counts hcounts))
      rw [hcounts]
      change ∃ fault, (@Detection.detect Document (Except Fault) _ (.ofDocuments surrogates)
        report.label.key prop (.ofPairs counts) (totalIn members) >>= _) = _
      rw [hfault]
      exact ⟨fault, rfl⟩
    · rw [Document.members_of_ne_object (not_exists.1 hcounts)]
      exact ⟨_, rfl⟩
  · rw [usage?, Document.memberOr_of_ne_object (not_exists.1 hobject)]
    exact ⟨_, rfl⟩

/-! ## Detection in reports -/

/-- The props are an object, and each prop that is judged has counts. -/
def AreCounted (props : Document) : Prop :=
  ∃ members, props = .object members ∧
    ∀ prop ∈ members, isSkipped prop.1 = true ∨ HasCounts prop.2

/-- Values that are counted in integers which are not too large have counts. -/
theorem areCounted_of_integers {members : List (String × Document)}
    (h : ∀ prop ∈ members, ∃ stored counts total, prop.2 = .object stored ∧
      stored.lookup "values" = some (.object counts) ∧
      (∀ entry ∈ counts, ∃ n : Int, entry.2 = .int n ∧ n.natAbs < 2 ^ 1023) ∧
      stored.lookup "total_usages" = some (.int total) ∧ total.natAbs < 2 ^ 1023) :
    AreCounted (.object members) := by
  have hcount {n : Int} (hn : n.natAbs < 2 ^ 1023) : (Document.int n).IsCount := by
    refine ⟨.whole n, rfl, fun m hm => ?_⟩
    cases hm
    exact hn
  refine ⟨members, rfl, fun prop hprop => .inr ?_⟩
  obtain ⟨stored, counts, total, hstored, hvalues, hcounts, htotal, hmodest⟩ := h prop hprop
  refine ⟨stored, hstored, .inr ⟨?_, counts, ?_, fun entry hentry => ?_⟩⟩
  · rw [totalIn, htotal]
    exact hcount hmodest
  · rw [valuesIn, hvalues]
    rfl
  · obtain ⟨n, hn, hnmodest⟩ := hcounts entry hentry
    exact hn ▸ hcount hnmodest

/-- The props are no object, or a prop that is judged is misshapen. -/
def IsBroken (report : StoredReport) : Prop :=
  ∀ props, report.props = .object props →
    ∃ prop ∈ props, isSkipped prop.1 = false ∧ IsMisshapen prop.2

theorem detect_of_object (surrogates : Surrogates) {props : List (String × Document)}
    (h : report.props = .object props) :
    report.detect surrogates = (do
      let found ← props.mapM fun prop => detectProp surrogates report prop.1 prop.2
      return found.filterMap id) := by
  rw [detect, h]
  rfl

theorem exists_detect [Room] (surrogates : Surrogates) (h : AreCounted report.props) :
    ∃ found, report.detect surrogates = .ok found ∧
      ∀ labelled ∈ found, report.IsSaved labelled := by
  obtain ⟨props, hprops, hcounts⟩ := h
  obtain ⟨found, hfound, hsaved⟩ := exists_mapM_forall
    (f := fun prop : String × Document => detectProp surrogates report prop.1 prop.2)
    fun prop hprop => exists_detectProp report prop.1 (hcounts prop hprop)
  refine ⟨found.filterMap id, ?_, fun labelled hlabelled => ?_⟩
  · rw [detect_of_object surrogates hprops, hfound]
    rfl
  · obtain ⟨outcome, houtcome, hsome⟩ := List.mem_filterMap.1 hlabelled
    obtain ⟨prop, -, hall⟩ := hsaved outcome houtcome
    exact hall labelled hsome

theorem detect_of_isBroken (surrogates : Surrogates) (h : report.IsBroken) :
    ∃ fault, report.detect surrogates = .error fault := by
  by_cases hobject : ∃ props, report.props = .object props
  · obtain ⟨props, hprops⟩ := hobject
    obtain ⟨prop, hprop, hskipped, hmisshapen⟩ := h props hprops
    rw [detect_of_object surrogates hprops]
    exact exists_bind_error (exists_mapM_error
      ⟨prop, hprop, detectProp_of_isMisshapen surrogates report hskipped hmisshapen⟩)
  · rw [detect, Document.members_of_ne_object (not_exists.1 hobject)]
    exact ⟨_, rfl⟩

theorem perm_sort (found : List Labelled) : (sort found).Perm found := by
  unfold sort
  split
  · exact List.mergeSort_perm _ _
  · exact Sorting.perm_sort _ _

theorem isSortable_of_isName {found : List Labelled}
    (h : ∀ labelled ∈ found, labelled.1.isName = true) : isSortable found = true := by
  refine List.all_eq_true.2 fun a ha => List.all_eq_true.2 fun b hb => ?_
  have hcomparable : a.1.isComparable b.1 = true := by
    have hname := h a ha
    have hname' := h b hb
    cases ha : a.1 <;> cases hb : b.1 <;> simp_all [Label.isName, Label.isComparable]
  rw [hcomparable, Bool.or_true]

/-- In reports with counts, about components with a name, the defaults are detected without a fault;
they are all about components with a name and can be saved. -/
theorem exists_detectAll [Room] (surrogates : Surrogates)
    (h : ∀ report ∈ reports, AreCounted report.props ∧ report.label.isName = true) :
    ∃ found, detectAll surrogates reports = .ok found ∧
      ∀ labelled ∈ found, labelled.1.isName = true ∧ labelled.2.isShallow = true := by
  obtain ⟨found, hfound, hsaved⟩ := exists_mapM_forall fun report hreport =>
    exists_detect surrogates (h report hreport).1
  have hall : ∀ labelled ∈ found.flatten,
      labelled.1.isName = true ∧ labelled.2.isShallow = true := by
    intro labelled hlabelled
    obtain ⟨each, heach, hlabelled⟩ := List.mem_flatten.1 hlabelled
    obtain ⟨report, hreport, hsaved⟩ := hsaved each heach
    obtain ⟨hlabel, hshallow⟩ := hsaved labelled hlabelled
    exact ⟨hlabel ▸ (h report hreport).2, hshallow⟩
  refine ⟨sort found.flatten, ?_, fun labelled hlabelled =>
    hall labelled ((perm_sort found.flatten).mem_iff.1 hlabelled)⟩
  unfold detectAll
  rw [hfound]
  exact if_pos (isSortable_of_isName fun labelled hlabelled => (hall labelled hlabelled).1)

/-- A broken report is a fault for all. -/
theorem detectAll_of_isBroken (surrogates : Surrogates) (h : ∃ report ∈ reports, report.IsBroken) :
    ∃ fault, detectAll surrogates reports = .error fault := by
  obtain ⟨report, hreport, hbroken⟩ := h
  exact exists_bind_error
    (exists_mapM_error ⟨report, hreport, detect_of_isBroken surrogates hbroken⟩)

/-! ## One report for each component -/

/-- Reports that are added one by one: of those about one component, the last one in the place of
the first. -/
def ofEach (reports : List StoredReport) : List StoredReport :=
  reports.foldl (fun kept new => insert new kept) []

theorem forall_insert {shaped : Document → Prop} {named : Label → Prop} {new : StoredReport}
    (hnew : shaped new.props ∧ named new.label)
    (h : ∀ report ∈ reports, shaped report.props ∧ named report.label) :
    ∀ report ∈ insert new reports, shaped report.props ∧ named report.label := by
  induction reports with
  | nil => exact List.forall_mem_singleton.2 hnew
  | cons report reports ih =>
    obtain ⟨hreport, hreports⟩ := List.forall_mem_cons.1 h
    unfold insert
    split
    · exact List.forall_mem_cons.2 ⟨⟨hnew.1, hreport.2⟩, hreports⟩
    · exact List.forall_mem_cons.2 ⟨hreport, ih hreports⟩

/-- What holds of the props and of the label of every report holds of those that are kept. -/
theorem forall_ofEach (shaped : Document → Prop) (named : Label → Prop)
    (h : ∀ report ∈ reports, shaped report.props ∧ named report.label) :
    ∀ report ∈ ofEach reports, shaped report.props ∧ named report.label := by
  induction reports using List.reverseRecOn with
  | nil => exact nofun
  | append_singleton reports new ih =>
    obtain ⟨hreports, hnew⟩ := List.forall_mem_append.1 h
    rw [ofEach, List.foldl_append]
    exact forall_insert (hnew new List.mem_cons_self) (ih hreports)

end Defaults.StoredReport

end UsageCensus
