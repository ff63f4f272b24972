import UsageCensus.Defaults.Detection
import UsageCensus.Proofs.Document.RoundTrip
import UsageCensus.Proofs.Text.Order

/-!
# What saved documents are loaded as

A value of a report is loaded as data: a set of texts as the list of its members in order, a path
and a date as their texts, a record as an object of its fields, and what is inside of lists and
objects in the same way, in the same places (`LoadsAs`). Where there is room for the value it is
saved as just this data (`LoadsAs.savedTextWith_eq`), and so this is what its text is read as
(`LoadsAs.parseWith_renderFileWith`).
-/

namespace UsageCensus.Document

open UsageCensus.Files UsageCensus.Text

/-! ## Sets of texts -/

theorem eraseDupsBy_map_string (texts : List String) :
    (texts.map string).eraseDupsBy sameKey = texts.eraseDups.map string := by
  have hloop : ∀ seen : List String,
      List.eraseDupsBy.loop sameKey (texts.map string) (seen.map string)
        = (List.eraseDupsBy.loop (· == ·) texts seen).map string := by
    induction texts with
    | nil => exact fun seen => (List.map_reverse).symm
    | cons text texts ih =>
      intro seen
      have hany : (seen.map string).any (sameKey (.string text)) = seen.any (text == ·) :=
        List.any_map
      rw [List.map_cons, List.eraseDupsBy.loop, List.eraseDupsBy.loop, hany]
      cases seen.any (text == ·) with
      | true => exact ih seen
      | false => exact ih (text :: seen)
  exact hloop []

theorem areComparable_map_string (texts : List String) :
    areComparable (texts.map string) = true := by
  cases texts with
  | nil => rfl
  | cons first rest => cases rest <;> simp [areComparable, le?]

/-- A set of texts has them in order, each once. -/
theorem ofElements_map_string (surrogates : Surrogates) (texts : List String) :
    ofElements surrogates (texts.map string)
      = .ok (set ((sortedTexts surrogates texts).map string)) := by
  have hkeys : (texts.map string).all isKey = true := by
    rw [List.all_map]
    exact List.all_eq_true.2 fun text _ => rfl
  have hsort : (sortedTexts surrogates texts).map string
      = sortKeys surrogates (texts.eraseDups.map string) := by
    unfold sortKeys sortedTexts
    exact List.map_mergeSort fun a _ b _ => rfl
  rw [ofElements, if_pos hkeys, eraseDupsBy_map_string]
  dsimp only
  rw [if_pos (areComparable_map_string texts.eraseDups), hsort]

/-! ## Loaded values -/

/-- The fields of a detection by their names, with what stands for its counts. -/
def fieldsOf {α : Type} (detection : Detection α) (count total : Document) :
    List (String × Document) :=
  [("component", .string detection.component), ("prop", .string detection.prop),
    ("value", .string detection.value), ("confidence", .string detection.confidence.label),
    ("reason", .string detection.reason), ("count", count), ("total", total)]

/-- What a value of a report is loaded as that has been saved. -/
inductive LoadsAs (surrogates : Surrogates) : Document → Document → Prop
  | null : LoadsAs surrogates .null .null
  | bool (b : Bool) : LoadsAs surrogates (.bool b) (.bool b)
  | int {n : Int} (h : isWritable n = true) : LoadsAs surrogates (.int n) (.int n)
  | string (s : String) : LoadsAs surrogates (.string s) (.string s)
  | list {items : List (Document × Document)}
      (hitems : ∀ item ∈ items, LoadsAs surrogates item.1 item.2) :
      LoadsAs surrogates (.list (items.map Prod.fst)) (.list (items.map Prod.snd))
  | object {members : List (String × Document × Document)} (hkeys : (members.map Prod.fst).Nodup)
      (hmembers : ∀ member ∈ members, LoadsAs surrogates member.2.1 member.2.2) :
      LoadsAs surrogates (.object (members.map fun member => (member.1, member.2.1)))
        (.object (members.map fun member => (member.1, member.2.2)))
  | set {texts sorted : List String} {value : Document}
      (hvalue : ofElements surrogates (texts.map .string) = .ok value)
      (hsorted : sorted.Pairwise surrogates.Before)
      (hmem : ∀ text, text ∈ sorted ↔ text ∈ texts) : LoadsAs surrogates value (ofTexts sorted)
  | path (path : Path) : LoadsAs surrogates (.path path) (.string path.text)
  | date (date : Date) : LoadsAs surrogates (.date date) (.string date.text)
  | record {α : Type} {asDocument : α → Document} {detection : Detection α}
      {count total : Document} (hcount : LoadsAs surrogates (asDocument detection.count) count)
      (htotal : LoadsAs surrogates (asDocument detection.total) total) :
      LoadsAs surrogates (detection.record asDocument) (.object (fieldsOf detection count total))

theorem record_eq {α : Type} (asDocument : α → Document) (detection : Detection α) :
    detection.record asDocument = .record "DetectedDefault"
      (fieldsOf detection (asDocument detection.count) (asDocument detection.total)) := rfl

/-! ### Saving -/

section

variable {calls : Calls}

theorem savedOnlyAs_set (texts : List String) :
    SavedOnlyAs calls (.set (texts.map .string)) (ofTexts texts) := by
  intro room saved hsaved
  obtain ⟨_, -, hsaved⟩ := bind_eq_ok.1 hsaved
  dsimp only at hsaved
  rw [areComparable_map_string] at hsaved
  obtain ⟨_, -, hsaved⟩ := bind_eq_ok.1 hsaved
  obtain ⟨items, hitems, hsaved⟩ := bind_eq_ok.1 hsaved
  cases hsaved
  rw [savedItems_eq_map (fun text _ => SavedOnlyAs.string) hitems]
  rfl

theorem savedOnlyAs_record {α : Type} {detection : Detection α}
    {count count' total total' : Document} (hcount : SavedOnlyAs calls count count')
    (htotal : SavedOnlyAs calls total total') (kind : String) :
    SavedOnlyAs calls (.record kind (fieldsOf detection count total))
      (.object (fieldsOf detection count' total')) := by
  intro room saved hsaved
  obtain ⟨_, -, hsaved⟩ := bind_eq_ok.1 hsaved
  obtain ⟨_, -, hsaved⟩ := bind_eq_ok.1 hsaved
  obtain ⟨fields, hfields, hsaved⟩ := bind_eq_ok.1 hsaved
  cases hsaved
  -- each field with what it is and what it is saved as
  let both (text : String) : Document × Document := (.string text, .string text)
  let forms : List (String × Document × Document) :=
    [("component", both detection.component), ("prop", both detection.prop),
      ("value", both detection.value), ("confidence", both detection.confidence.label),
      ("reason", both detection.reason), ("count", count, count'), ("total", total, total')]
  have hforms : ∀ form ∈ forms, SavedOnlyAs calls form.2.1 form.2.2 := by
    simp only [forms, List.forall_mem_cons]
    exact ⟨.string, .string, .string, .string, .string, hcount, htotal,
      fun form hform => by cases hform⟩
  have hfields : savedMembers calls _ (forms.map fun form => (form.1, form.2.1)) = .ok fields :=
    hfields
  rw [savedMembers_eq_map hforms hfields]
  rfl

end

section

variable {surrogates : Surrogates} {value loaded : Document}

theorem LoadsAs.savedOnlyAs (h : LoadsAs surrogates value loaded) (calls : Calls) :
    SavedOnlyAs calls value loaded := by
  induction h with
  | int h => exact SavedOnlyAs.int
  | list _ ih => exact SavedOnlyAs.list ih
  | object _ _ ih => exact SavedOnlyAs.object ih
  | @set texts sorted value hvalue hsorted hmem =>
    obtain rfl := eq_sortedTexts_iff.2 ⟨hsorted, hmem⟩
    rw [ofElements_map_string] at hvalue
    cases hvalue
    exact savedOnlyAs_set _
  | record _ _ ihcount ihtotal =>
    rw [record_eq]
    exact savedOnlyAs_record ihcount ihtotal _
  | _ =>
    intro room saved hsaved
    obtain ⟨_, -, hsaved⟩ := bind_eq_ok.1 hsaved
    exact (Except.ok.inj hsaved).symm

/-- Such a value has a form, and so has what it is loaded as. -/
theorem LoadsAs.isSavable (h : LoadsAs surrogates value loaded) :
    value.isSavable = true ∧ loaded.isSavable = true := by
  induction h with
  | int h => exact ⟨h, h⟩
  | list _ ih =>
    simp only [isSavable_list, List.forall_mem_map]
    exact ⟨fun item hitem => (ih item hitem).1, fun item hitem => (ih item hitem).2⟩
  | object _ _ ih =>
    simp only [isSavable_object, List.forall_mem_map]
    exact ⟨fun member hmember => (ih member hmember).1, fun member hmember => (ih member hmember).2⟩
  | @set texts sorted value hvalue hsorted hmem =>
    rw [ofElements_map_string] at hvalue
    cases hvalue
    refine ⟨Bool.and_eq_true_iff.2 ⟨areComparable_map_string _, areSavable_iff.2 ?_⟩,
      isSavable_ofTexts sorted⟩
    exact List.forall_mem_map.2 fun text _ => isSavable_string text
  | @record α asDocument detection count total _ _ ihcount ihtotal =>
    rw [record_eq]
    constructor
    · refine areMembersSavable_iff.2 ?_
      simp only [fieldsOf, List.forall_mem_cons]
      exact ⟨rfl, rfl, rfl, rfl, rfl, ihcount.1, ihtotal.1, fun field hfield => by cases hfield⟩
    · refine areMembersSavable_iff.2 ?_
      simp only [fieldsOf, List.forall_mem_cons]
      exact ⟨rfl, rfl, rfl, rfl, rfl, ihcount.2, ihtotal.2, fun field hfield => by cases hfield⟩
  | _ => exact ⟨rfl, rfl⟩

/-- Where there is room for the value, its text is that of what it is loaded as. -/
theorem LoadsAs.savedTextWith_eq [Room] (h : LoadsAs surrogates value loaded)
    (hroom : Room.saving.fits value = true) (written : Surrogates) :
    value.savedTextWith written = .ok (loaded.renderFileWith written) := by
  obtain ⟨saved, hsaved⟩ :=
    (takesRoom_savedWithin h.isSavable.1 Room.saving.most).1 (of_decide_eq_true hroom)
  obtain rfl := h.savedOnlyAs _ _ saved hsaved
  exact bind_eq_ok.2 ⟨saved, hsaved, rfl⟩

theorem LoadsAs.savedTextWith_tooDeep [Room] (h : LoadsAs surrogates value loaded)
    (hroom : Room.saving.fits value = false) (written : Surrogates) :
    value.savedTextWith written = .error .tooDeep :=
  bind_eq_error.2 (.inl (saved_tooDeep h.isSavable.1 hroom))

/-! ### Reading -/

theorem isExact_ofTexts (texts : List String) : IsExact (ofTexts texts) :=
  .list (List.forall_mem_map.2 fun text _ => .string text)

/-- What is loaded is data whose numbers are integers. -/
theorem LoadsAs.isExact (h : LoadsAs surrogates value loaded) : IsExact loaded := by
  induction h with
  | null => exact .null
  | bool b => exact .bool b
  | @int n _ => exact .int n
  | string s => exact .string s
  | list _ ih => exact .list (List.forall_mem_map.2 ih)
  | @object members hkeys _ ih =>
    refine .object ?_ (List.forall_mem_map.2 ih)
    rw [List.map_map]
    exact hkeys
  | @set texts sorted value _ _ _ => exact isExact_ofTexts sorted
  | path path => exact .string path.text
  | date date => exact .string date.text
  | @record α asDocument detection count total _ _ ihcount ihtotal =>
    have hkeys : (fieldsOf detection count total).map Prod.fst = Detection.fieldNames := rfl
    refine .object (hkeys ▸ by decide) ?_
    simp only [fieldsOf, List.forall_mem_cons]
    exact ⟨.string _, .string _, .string _, .string _, .string _, ihcount, ihtotal,
      fun field hfield => by cases hfield⟩

/-- The text of what a value is loaded as is read as this, where there is room for its levels. -/
theorem LoadsAs.parseWith_renderFileWith [Room] (h : LoadsAs surrogates value loaded)
    (hdepth : loaded.depth ≤ Room.opened)
    (hapart : ∀ text ∈ loaded.texts, surrogates.IsApart text.toList) :
    parseWith surrogates (loaded.renderFileWith surrogates).toList = .ok loaded := by
  have hreads : ReadsBack surrogates surrogates Room.opened loaded :=
    readsBack_of_isData h.isExact.isData h.isSavable.2 hdepth fun text htext =>
      isReadable_self (hapart text htext)
  rw [Document.parseWith_renderFileWith hreads, h.isExact.reread_eq]

end

/-! ## Integers that are too large -/

section

variable [Room]

theorem savedTextWith_tooManyDigits {n : Nat} (h : Nat.pow 10 maxIntegerDigits ≤ n)
    (surrogates : Surrogates) :
    (ofNat n).savedTextWith surrogates = .error (.tooManyDigits none) := by
  have hlarge : isWritable n = false := decide_eq_false (Nat.not_lt.2 h)
  have hroom : Room.saving.own (.int n) ≤ Room.saving.most :=
    Room.saving.few (.int n) (Nat.zero_le _)
  have hsaved : (ofNat n).saved = .error (.tooManyDigits none) := by
    rw [ofNat, saved, savedWithin, hlarge, Calls.meet, if_pos hroom]
    rfl
  rw [savedTextWith, hsaved]
  rfl

theorem parseWith_tooManyDigits (surrogates : Surrogates) {digits : List Char}
    (h : IsWhole digits) (hlong : maxIntegerDigits < digits.length) :
    parseWith surrogates (digits ++ ['\n']) = .error (.tooManyDigits (some digits.length)) := by
  have hscalar := readScalar_signed h false ['\n']
  rw [readUnsigned_tooManyDigits h hlong false (.cons (by decide))] at hscalar
  obtain ⟨c, cs, rfl⟩ := List.exists_cons_of_ne_nil h.nonempty
  have hdigit : isAsciiDigit c = true := h.digit c List.mem_cons_self
  have hne {d : Char} (hd : isAsciiDigit d = false) : c ≠ d := by
    rintro rfl
    rw [hdigit] at hd
    cases hd
  have hspace : isSpace c = false := by
    simp only [isSpace, Bool.or_eq_false_iff, beq_eq_false_iff_ne]
    exact ⟨⟨⟨hne (by decide), hne (by decide)⟩, hne (by decide)⟩, hne (by decide)⟩
  rw [parseWith, List.cons_append, skipSpace_of_ends (.cons hspace),
    readValue_cons (hne (by decide)) (hne (by decide)) (hne (by decide))]
  exact congrArg (· >>= _) hscalar

end

end UsageCensus.Document
