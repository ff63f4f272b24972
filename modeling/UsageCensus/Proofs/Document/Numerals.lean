import UsageCensus.Document.Printer
import UsageCensus.Document.Reader
import UsageCensus.Proofs.Text.Reading

/-!
# Numerals read back

An integer that can be written is read as itself (`readScalar_int`), whatever follows that does
not go on with a number. Its digits start with one other than zero, or are a single zero, so
none of them is left over.
-/

namespace UsageCensus.Document

open UsageCensus.Number UsageCensus.Text

/-- Characters that would go on with a number. -/
def continuesNumber (c : Char) : Bool := isAsciiDigit c || c == '.' || c == 'e' || c == 'E'

section

variable {rest : List Char}

theorem ends_isAsciiDigit (h : Ends continuesNumber rest) : Ends isAsciiDigit rest :=
  h.mono fun c hc => by simp [continuesNumber, hc]

theorem readPlaces?_of_ends (h : Ends continuesNumber rest) : readPlaces? rest = none := by
  unfold readPlaces?
  split
  · exact absurd h.head (by decide)
  · rfl

theorem readExponent?_of_ends (h : Ends continuesNumber rest) : readExponent? rest = none := by
  unfold readExponent?
  split
  · rename_i c text
    have hc := h.head
    simp only [continuesNumber, Bool.or_eq_false_iff, beq_eq_false_iff_ne] at hc
    rw [if_neg (by rintro (rfl | rfl); exacts [hc.1.2 rfl, hc.2 rfl])]
  · rfl

end

/-! ## Decimal digits -/

theorem isAsciiDigit_of_mem_toDigits {n : Nat} {c : Char} (h : c ∈ Nat.toDigits 10 n) :
    isAsciiDigit c = true := by
  have hc := Nat.isDigit_of_mem_toDigits (by decide) (by decide) h
  simp only [Char.isDigit, Bool.and_eq_true, decide_eq_true_eq] at hc
  simp only [isAsciiDigit, Bool.and_eq_true, decide_eq_true_eq]
  exact ⟨hc.1, hc.2⟩

theorem digitsValue_toDigits (n : Nat) : digitsValue (Nat.toDigits 10 n) = n := by
  have h : Nat.ofDigitChars 10 (Nat.toDigits 10 n) 0 = n := Nat.ofDigitChars_ten_toDigits
  rw [Nat.ofDigitChars_eq_foldl] at h
  exact h

/-- Only zero has a zero in front. -/
theorem head?_toDigits {n : Nat} (h : 0 < n) : (Nat.toDigits 10 n).head? ≠ some '0' := by
  induction n using Nat.strongRecOn with
  | _ n ih =>
    by_cases hlt : n < 10
    · rw [Nat.toDigits_of_lt_base hlt]
      intro e
      have hzero := Nat.digitChar_eq_zero.1 (Option.some.inj e)
      omega
    · have hne : Nat.toDigits 10 (n / 10) ≠ [] := Nat.toDigits_ne_nil
      obtain ⟨c, cs, hcons⟩ := List.exists_cons_of_ne_nil hne
      have hhead := ih (n / 10) (by omega) (by omega)
      rw [hcons] at hhead
      rw [Nat.toDigits_of_base_le (by decide) (by omega), hcons]
      exact hhead

/-- What stands before a point: a zero alone, or digits that do not start with one. -/
structure IsWhole (digits : List Char) : Prop where
  digit : ∀ c ∈ digits, isAsciiDigit c = true
  nonempty : digits ≠ []
  head : digits = ['0'] ∨ digits.head? ≠ some '0'

theorem isWhole_toDigits (n : Nat) : IsWhole (Nat.toDigits 10 n) where
  digit _ h := isAsciiDigit_of_mem_toDigits h
  nonempty := Nat.toDigits_ne_nil
  head := by
    rcases Nat.eq_zero_or_pos n with rfl | h
    · exact .inl (Nat.toDigits_zero 10)
    · exact .inr (head?_toDigits h)

theorem readWhole?_append {digits rest : List Char} (h : IsWhole digits)
    (hrest : Ends isAsciiDigit rest) : readWhole? (digits ++ rest) = some (digits, rest) := by
  rcases h.head with rfl | hhead
  · rfl
  · unfold readWhole?
    split
    · rename_i text e
      obtain ⟨c, cs, rfl⟩ := List.exists_cons_of_ne_nil h.nonempty
      rw [List.cons_append] at e
      exact absurd (congrArg some (List.cons.inj e).1) hhead
    · exact run1?_of_ends h.digit h.nonempty hrest

/-! ## Words and signs -/

/-- A digit in one of the first two places starts no word. -/
theorem findSome?_words {text : List Char} (h : ∃ c ∈ text.take 2, isAsciiDigit c = true) :
    words.findSome? (fun w => (after? w.1 text).map fun rest => (w.2, rest)) = none := by
  have hwords : ∀ w ∈ words, 2 ≤ w.1.length ∧ w.1.any isAsciiDigit = false := by decide
  rw [List.findSome?_eq_none_iff]
  intro w hw
  obtain ⟨hlength, hdigits⟩ := hwords w hw
  cases hafter : after? w.1 text with
  | none => rfl
  | some rest =>
    obtain ⟨c, hc, hdigit⟩ := h
    rw [after?_eq_some_iff.1 hafter, List.take_append_of_le_length hlength] at hc
    exact absurd hdigit (List.any_eq_false.1 hdigits c (List.mem_of_mem_take hc))

/-- A number starts with a digit, behind a minus sign if it is negative. -/
theorem readScalar_signed {digits : List Char} (h : IsWhole digits) (negative : Bool)
    (text : List Char) :
    readScalar ((if negative then ['-'] else []) ++ (digits ++ text))
      = readUnsigned negative (digits ++ text) := by
  obtain ⟨c, cs, rfl⟩ := List.exists_cons_of_ne_nil h.nonempty
  have hc : isAsciiDigit c = true := h.digit c (by simp)
  unfold readScalar
  cases negative with
  | true =>
    rw [findSome?_words ⟨c, by simp, hc⟩]
    rfl
  | false =>
    rw [findSome?_words ⟨c, by simp, hc⟩]
    dsimp only
    split
    · rename_i e
      rw [(List.cons.inj e).1] at hc
      cases hc
    · rfl

/-! ## Integers -/

theorem length_toDigits_le {n k : Nat} (hk : 0 < k) (h : n < Nat.pow 10 k) :
    (Nat.toDigits 10 n).length ≤ k :=
  (Nat.length_toDigits_le_iff (by decide) hk).2 h

theorem integerOf_toDigits {n : Nat} (negative : Bool)
    (h : (Nat.toDigits 10 n).length ≤ maxIntegerDigits) :
    integerOf negative (Nat.toDigits 10 n) = .ok (.int (if negative then -↑n else ↑n)) := by
  rw [integerOf, if_pos h, digitsValue_toDigits]
  rfl

/-- Too many digits are no integer. -/
theorem readUnsigned_tooManyDigits {digits rest : List Char} (h : IsWhole digits)
    (hlong : maxIntegerDigits < digits.length) (negative : Bool)
    (hrest : Ends continuesNumber rest) :
    readUnsigned negative (digits ++ rest) = .error (.tooManyDigits (some digits.length)) := by
  unfold readUnsigned
  rw [readWhole?_append h (ends_isAsciiDigit hrest)]
  simp only [readPlaces?_of_ends hrest, readExponent?_of_ends hrest, Bool.or_false,
    Bool.false_eq_true, if_false, integerOf, if_neg (Nat.not_le.2 hlong)]
  rfl

theorem readUnsigned_toDigits {n : Nat} (negative : Bool)
    (h : n < Nat.pow 10 maxIntegerDigits) {rest : List Char} (hrest : Ends continuesNumber rest) :
    readUnsigned negative (Nat.toDigits 10 n ++ rest)
      = .ok (.int (if negative then -↑n else ↑n), rest) := by
  have hlength := length_toDigits_le (by decide) h
  unfold readUnsigned
  rw [readWhole?_append (isWhole_toDigits n) (ends_isAsciiDigit hrest)]
  simp only [readPlaces?_of_ends hrest, readExponent?_of_ends hrest, Bool.or_false,
    Bool.false_eq_true, if_false, integerOf_toDigits negative hlength]
  rfl

/-- An integer is written with its digits, behind a minus sign if it is negative. -/
theorem toList_toString_int (n : Int) :
    (toString n).toList
      = (if n < 0 then ['-'] else []) ++ Nat.toDigits 10 n.natAbs := by
  cases n with
  | ofNat m => exact Nat.toList_repr
  | negSucc m =>
    show ("-" ++ (m + 1).repr).toList = _
    rw [String.toList_append, Nat.toList_repr, if_pos (Int.negSucc_lt_zero m)]
    rfl

/-- An integer that can be written is read as itself. -/
theorem readScalar_int {n : Int} (h : isWritable n = true) {rest : List Char}
    (hrest : Ends continuesNumber rest) :
    readScalar ((toString n).toList ++ rest) = .ok (.int n, rest) := by
  have hlt : n.natAbs < Nat.pow 10 maxIntegerDigits := of_decide_eq_true h
  have hread := readScalar_signed (isWhole_toDigits n.natAbs) (decide (n < 0)) rest
  rw [readUnsigned_toDigits _ hlt hrest] at hread
  rw [toList_toString_int, List.append_assoc]
  by_cases hn : n < 0
  · simp only [hn, decide_true, if_true] at hread ⊢
    rw [hread, Int.ofNat_natAbs_of_nonpos (by omega), Int.neg_neg]
  · simp only [hn, decide_false, if_false, Bool.false_eq_true] at hread ⊢
    rw [hread, Int.natAbs_of_nonneg (by omega)]

end UsageCensus.Document
