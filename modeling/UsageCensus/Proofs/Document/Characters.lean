import UsageCensus.Proofs.Document.RoundTrip
import UsageCensus.Text.Utf8

/-!
# What documents are written with

A document is written with characters that stand for themselves and with escaped ones, so what
holds of a text also holds with a document in front of it, if it does with one such character
(`IsKeptInFront.write`). The text of a document is ASCII without a carriage return, so that it is
read from its bytes as it is (`decode?_renderFileWith`), and where no character stands for a
surrogate, no escape in it names one without its partner (`surrogatesIn_renderFile`).
-/

namespace UsageCensus.Document

open UsageCensus.Text

/-- The character stands for itself wherever it is written in a document. -/
def isUnescaped (c : Char) : Bool :=
  c == '\n' || (Nat.ble 32 c.toNat && Nat.ble c.toNat 126 && c != '\\')

theorem isUnescaped_iff {c : Char} :
    isUnescaped c = true ↔ c = '\n' ∨ (32 ≤ c.toNat ∧ c.toNat < 127) ∧ c ≠ '\\' := by
  simp only [isUnescaped, Bool.or_eq_true, Bool.and_eq_true, beq_iff_eq, bne_iff_ne, Nat.ble_eq,
    Nat.lt_succ_iff]

/-- What holds of a text still does with a character of a document in front of it. -/
structure IsKeptInFront (surrogates : Surrogates) (p : List Char → Prop) : Prop where
  unescaped : ∀ {c : Char} {text : List Char}, isUnescaped c = true → p text → p (c :: text)
  escaped : ∀ (c : Char) {text : List Char}, p text → p (escapeWith surrogates c ++ text)

namespace IsKeptInFront

variable {surrogates : Surrogates} {p : List Char → Prop} {text : List Char} {layout : Layout}
  {depth : Nat}

theorem append (h : IsKeptInFront surrogates p) (chars : List Char)
    (hchars : chars.all isUnescaped = true) (htext : p text) : p (chars ++ text) := by
  induction chars with
  | nil => exact htext
  | cons c chars ih =>
    obtain ⟨hc, hchars⟩ := Bool.and_eq_true_iff.1 hchars
    exact h.unescaped hc (ih hchars)

theorem quote (h : IsKeptInFront surrogates p) (t : String) (htext : p text) :
    p (quote surrogates t ++ text) := by
  have hchars : ∀ chars : List Char, p (chars.flatMap (escapeWith surrogates) ++ '"' :: text) := by
    intro chars
    induction chars with
    | nil => exact h.unescaped (by decide) htext
    | cons c chars ih =>
      rw [List.flatMap_cons, List.append_assoc]
      exact h.escaped c ih
  rw [quote_eq, List.cons_append, List.append_assoc]
  exact h.unescaped (by decide) (hchars t.toList)

theorem newline (h : IsKeptInFront surrogates p) (layout : Layout) (depth : Nat) (htext : p text) :
    p (layout.newline depth ++ text) := by
  apply h.append _ (List.all_eq_true.2 fun c hc => ?_) htext
  cases layout with
  | oneLine => cases hc
  | indented =>
    rcases List.mem_cons.1 hc with rfl | hc
    · decide
    · rw [List.eq_of_mem_replicate hc]
      decide

theorem separator (h : IsKeptInFront surrogates p) (layout : Layout) (depth : Nat)
    (htext : p text) : p (layout.separator depth ++ text) := by
  cases layout with
  | oneLine => exact h.append [',', ' '] (by decide) htext
  | indented => exact h.unescaped (by decide) (h.newline .indented depth htext)

theorem int (h : IsKeptInFront surrogates p) (n : Int) (htext : p text) :
    p ((toString n).toList ++ text) := by
  apply h.append _ (List.all_eq_true.2 fun c hc => ?_) htext
  rw [toList_toString_int, List.mem_append] at hc
  rcases hc with hc | hc
  · split at hc
    · rw [List.mem_singleton.1 hc]
      decide
    · cases hc
  · have hdigit := isAsciiDigit_of_mem_toDigits hc
    simp only [isAsciiDigit, Bool.and_eq_true, decide_eq_true_eq] at hdigit
    have hlow : 48 ≤ c.toNat := hdigit.1
    have hhigh : c.toNat ≤ 57 := hdigit.2
    refine isUnescaped_iff.2 (.inr ⟨by omega, ?_⟩)
    rintro rfl
    exact absurd hhigh (by decide)

theorem writeItems (h : IsKeptInFront surrogates p) {items : List Document}
    (hitems : ∀ item ∈ items, ∀ text, p text → p (write surrogates layout depth item text))
    (htext : p text) : p (writeItems surrogates layout depth items text) := by
  induction items with
  | nil =>
    rw [Document.writeItems]
    exact htext
  | cons item items ih =>
    obtain ⟨hitem, hitems⟩ := List.forall_mem_cons.1 hitems
    rw [Document.writeItems]
    exact h.separator layout depth (hitem _ (ih hitems))

theorem writeMembers (h : IsKeptInFront surrogates p) {members : List (String × Document)}
    (hmembers : ∀ member ∈ members, ∀ text, p text →
      p (write surrogates layout depth member.2 text))
    (htext : p text) : p (writeMembers surrogates layout depth members text) := by
  induction members with
  | nil =>
    rw [Document.writeMembers]
    exact htext
  | cons member members ih =>
    obtain ⟨key, value⟩ := member
    obtain ⟨hvalue, hmembers⟩ := List.forall_mem_cons.1 hmembers
    rw [Document.writeMembers]
    apply h.separator layout depth
    apply h.quote
    exact h.append [':', ' '] (by decide) (hvalue _ (ih hmembers))

theorem write (h : IsKeptInFront surrogates p) {value : Document} (hvalue : IsExact value)
    (layout : Layout) (depth : Nat) (htext : p text) : p (write surrogates layout depth value text) := by
  induction hvalue generalizing depth text with
  | null =>
    rw [Document.write]
    exact h.append _ (by decide) htext
  | bool b => cases b <;> rw [Document.write] <;> exact h.append _ (by decide) htext
  | int n =>
    rw [Document.write]
    exact h.int n htext
  | string s =>
    rw [Document.write]
    exact h.quote s htext
  | @list items _ ih =>
    cases items with
    | nil =>
      rw [Document.write]
      exact h.append ['[', ']'] (by decide) htext
    | cons item items =>
      obtain ⟨hitem, hitems⟩ := List.forall_mem_cons.1 ih
      have hclose := h.newline layout depth (h.unescaped (c := ']') (by decide) htext)
      have hrest := h.writeItems (fun item hmem text => hitems item hmem (depth + 1)) hclose
      rw [Document.write]
      exact h.unescaped (by decide) (h.newline layout (depth + 1) (hitem (depth + 1) hrest))
  | @object members _ _ ih =>
    cases members with
    | nil =>
      rw [Document.write]
      exact h.append ['\x7b', '\x7d'] (by decide) htext
    | cons member members =>
      obtain ⟨key, value⟩ := member
      obtain ⟨hvalue, hmembers⟩ := List.forall_mem_cons.1 ih
      have hclose := h.newline layout depth (h.unescaped (c := '\x7d') (by decide) htext)
      have hrest := h.writeMembers (fun m hmem text => hmembers m hmem (depth + 1)) hclose
      have hmember := h.append [':', ' '] (by decide) (hvalue (depth + 1) hrest)
      rw [Document.write]
      exact h.unescaped (by decide) (h.newline layout (depth + 1) (h.quote key hmember))

end IsKeptInFront

/-! ## The bytes -/

/-- All characters are line feeds or printable ASCII. -/
def IsPlainText (text : List Char) : Prop :=
  ∀ c ∈ text, c = '\n' ∨ (32 ≤ c.toNat ∧ c.toNat < 127)

theorem isKeptInFront_isPlainText (surrogates : Surrogates) :
    IsKeptInFront surrogates IsPlainText where
  unescaped hc htext := by
    exact List.forall_mem_cons.2 ⟨(isUnescaped_iff.1 hc).imp_right And.left, htext⟩
  escaped c text htext := by
    refine List.forall_mem_append.2 ⟨fun d hd => ?_, htext⟩
    exact .inr (printable_of_mem_escapeWith hd)

theorem isPlainText_renderFileWith (surrogates : Surrogates) {value : Document}
    (h : IsExact value) : IsPlainText (value.renderFileWith surrogates).toList := by
  rw [renderFileWith, String.toList_ofList]
  exact (isKeptInFront_isPlainText surrogates).write h .indented 0 (by simp [IsPlainText])

theorem unifyNewlines_of_not_mem {text : List Char} (h : '\r' ∉ text) :
    unifyNewlines text = text := by
  induction text with
  | nil => rw [unifyNewlines]
  | cons c text ih =>
    obtain ⟨hc, htext⟩ := not_or.1 (mt List.mem_cons.2 h)
    rw [unifyNewlines, ih htext]
    · rintro rest rfl
      exact absurd rfl hc
    · rintro rfl
      exact absurd rfl hc

/-- A text without carriage returns is read from its bytes as it is. -/
theorem decode?_toUTF8 {text : String} (h : '\r' ∉ text.toList) :
    decode? text.toUTF8 = some text := by
  have hread : String.fromUTF8? text.toUTF8 = some text := dif_pos text.isValidUTF8
  rw [decode?, hread, Option.map_some, unifyNewlines_of_not_mem h, String.ofList_toList]

theorem decode?_renderFileWith (surrogates : Surrogates) {value : Document} (h : IsExact value) :
    decode? (value.renderFileWith surrogates).toUTF8 = some (value.renderFileWith surrogates) := by
  apply decode?_toUTF8
  intro hreturn
  rcases isPlainText_renderFileWith surrogates h _ hreturn with h | h
  · exact absurd h (by decide)
  · exact absurd h.1 (by decide)

/-! ## Surrogates -/

theorem hasLoneSurrogate_cons {c : Char} (h : c ≠ '\\') (text : List Char) :
    hasLoneSurrogate 0 (c :: text) = hasLoneSurrogate 0 text := by
  rw [hasLoneSurrogate.eq_def]
  dsimp only
  rw [if_neg h]

theorem hasLoneSurrogate_skip (chars text : List Char) :
    hasLoneSurrogate chars.length (chars ++ text) = hasLoneSurrogate 0 text := by
  induction chars with
  | nil => rfl
  | cons c chars ih =>
    rw [List.length_cons, List.cons_append, hasLoneSurrogate]
    exact ih

/-- An escape that is read as a character names no surrogate without its partner. -/
theorem hasLoneSurrogate_unit {n : Nat} {chars text : List Char}
    (hread : readUnit? (chars ++ text) = some (n, text)) (hunit : isSurrogate n = false)
    (hlength : chars.length = if n < 65536 then 4 else 10) :
    hasLoneSurrogate 0 ('\\' :: 'u' :: (chars ++ text)) = hasLoneSurrogate 0 text := by
  have hskip : hasLoneSurrogate (chars.length + 1) ('u' :: (chars ++ text))
      = hasLoneSurrogate 0 text := hasLoneSurrogate_skip ('u' :: chars) text
  have hroom : (if n < 65536 then 5 else 11) = chars.length + 1 := by
    rw [hlength]
    split <;> rfl
  rw [hasLoneSurrogate.eq_def]
  dsimp only
  rw [if_pos rfl]
  simp only [hread, hunit, Bool.false_or, hroom, hskip]

theorem length_hex4 {n : Nat} (h : n < 65536) : (hex4 n).length = 4 := by
  rw [hex4_eq h]
  rfl

theorem hasLoneSurrogate_escapeChar (c : Char) (text : List Char) :
    hasLoneSurrogate 0 (escapeChar c ++ text) = hasLoneSurrogate 0 text := by
  rcases escapeChar_cases c with ⟨e, hshort, -, heq⟩ | ⟨-, hescape, -, heq⟩ | ⟨hbasic, heq⟩ |
    ⟨n, hn, hc, heq⟩ <;> rw [heq]
  · have he : e ≠ 'u' := by
      rintro rfl
      cases hshort
    show hasLoneSurrogate 0 ('\\' :: e :: text) = _
    rw [hasLoneSurrogate.eq_def]
    dsimp only
    rw [if_pos rfl]
    split
    · rename_i h
      exact absurd (List.cons.inj h).1 he
    · exact hasLoneSurrogate_skip [e] text
  · exact hasLoneSurrogate_cons hescape text
  · refine hasLoneSurrogate_unit (readUnit?_hex4 hbasic (not_isSurrogate c) text)
      (not_isSurrogate c) ?_
    rw [length_hex4 hbasic, if_pos hbasic]
  · have hchars : (hex4 (55296 + n / 1024) ++ escapeUnit (56320 + n % 1024)).length = 10 := by
      rw [escapeUnit, List.length_append, List.length_cons, List.length_cons,
        length_hex4 (by omega), length_hex4 (by omega)]
    have hread := readUnit?_pair hn text
    rw [← List.append_assoc, ← hc] at hread
    exact hasLoneSurrogate_unit hread (not_isSurrogate c) (hchars.trans (if_neg (by omega)).symm)

theorem isKeptInFront_hasLoneSurrogate :
    IsKeptInFront .none fun text => hasLoneSurrogate 0 text = false where
  unescaped {c text} hc htext := by
    have hescape : c ≠ '\\' := by
      rintro rfl
      exact absurd hc (by decide)
    exact (hasLoneSurrogate_cons hescape text).trans htext
  escaped c _ htext := by
    rw [escapeWith_of_not_unit? (unit?_none c), hasLoneSurrogate_escapeChar, htext]

/-- In the text of a document no character stands for a surrogate. -/
theorem surrogatesIn_renderFile {value : Document} (h : IsExact value) :
    surrogatesIn value.renderFile.toList = .none := by
  have hpaired : hasLoneSurrogate 0 value.renderFile.toList = false := by
    rw [renderFile, renderFileWith, String.toList_ofList]
    exact isKeptInFront_hasLoneSurrogate.write h .indented 0 rfl
  rw [surrogatesIn, hpaired]
  rfl

end UsageCensus.Document
