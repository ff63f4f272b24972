import UsageCensus.Proofs.Document.Numerals

/-!
# Decimals read back

The shortest notation of a number that is finite is a decimal with a point or an exponent
(`isDecimal_shortestMagnitude`), and such a decimal is read as a binary64 number, up to its end
(`readScalar_shortest`). Which number it is read as does not matter here.
-/

namespace UsageCensus.Document

open UsageCensus.Number UsageCensus.Text

/-! ## Decimals -/

/-- Digits, at least one. -/
structure IsDigits (digits : List Char) : Prop where
  digit : ∀ c ∈ digits, isAsciiDigit c = true
  nonempty : digits ≠ []

/-- The mark, the sign and the digits of an exponent. -/
inductive IsExponent : List Char → Prop
  | mk {sign : Char} {digits : List Char} (hsign : sign = '-' ∨ sign = '+')
      (hdigits : IsDigits digits) : IsExponent ('e' :: sign :: digits)

/-- A decimal with a point or an exponent. -/
inductive IsDecimal : List Char → Prop
  | placed {whole places : List Char} (hwhole : IsWhole whole) (hplaces : IsDigits places) :
      IsDecimal (whole ++ '.' :: places)
  | scaled {whole exponent : List Char} (hwhole : IsWhole whole)
      (hexponent : IsExponent exponent) : IsDecimal (whole ++ exponent)
  | both {whole places exponent : List Char} (hwhole : IsWhole whole) (hplaces : IsDigits places)
      (hexponent : IsExponent exponent) : IsDecimal (whole ++ '.' :: (places ++ exponent))

section

variable {rest : List Char}

theorem readPlaces?_append {places : List Char} (h : IsDigits places)
    (hrest : Ends isAsciiDigit rest) :
    readPlaces? ('.' :: (places ++ rest)) = some (places, rest) :=
  run1?_of_ends h.digit h.nonempty hrest

theorem readExponent?_append {exponent : List Char} (h : IsExponent exponent) :
    ∃ n, ∀ rest, Ends isAsciiDigit rest → readExponent? (exponent ++ rest) = some (n, rest) := by
  obtain ⟨hsign, hdigits⟩ := h
  rename_i sign digits
  have hrun : ∀ rest, Ends isAsciiDigit rest →
      run1? isAsciiDigit (digits ++ rest) = some (digits, rest) := fun rest hrest =>
    run1?_of_ends hdigits.digit hdigits.nonempty hrest
  rcases hsign with rfl | rfl
  · refine ⟨-Int.ofNat (digitsValue digits), fun rest hrest => ?_⟩
    show (run1? isAsciiDigit (digits ++ rest)).map _ = _
    rw [hrun rest hrest]
    rfl
  · refine ⟨Int.ofNat (digitsValue digits), fun rest hrest => ?_⟩
    show (run1? isAsciiDigit (digits ++ rest)).map _ = _
    rw [hrun rest hrest]
    rfl

theorem ends_exponent {exponent : List Char} (h : IsExponent exponent) :
    Ends isAsciiDigit (exponent ++ rest) := by
  obtain ⟨hsign, hdigits⟩ := h
  exact .cons (by decide)

theorem readPlaces?_exponent {exponent : List Char} (h : IsExponent exponent) :
    readPlaces? (exponent ++ rest) = none := by
  obtain ⟨hsign, hdigits⟩ := h
  rfl

end

/-- A decimal is read as some number, whatever follows. -/
theorem readScalar_decimal {text : List Char} (h : IsDecimal text) (negative : Bool) :
    ∃ x, ∀ rest, Ends continuesNumber rest →
      readScalar ((if negative then ['-'] else []) ++ (text ++ rest)) = .ok (.float x, rest) := by
  cases h with
  | @placed whole places hwhole hplaces =>
    refine ⟨.ofDecimal negative (digitsValue (whole ++ places)) (0 - Int.ofNat places.length),
      fun rest hrest => ?_⟩
    rw [List.append_assoc, List.cons_append, readScalar_signed hwhole, readUnsigned,
      readWhole?_append hwhole (.cons (by decide))]
    simp only [readPlaces?_append hplaces (ends_isAsciiDigit hrest), readExponent?_of_ends hrest,
      Bool.true_or, if_true]
  | @scaled whole exponent hwhole hexponent =>
    obtain ⟨n, hn⟩ := readExponent?_append hexponent
    refine ⟨.ofDecimal negative (digitsValue (whole ++ [])) (n - Int.ofNat 0),
      fun rest hrest => ?_⟩
    rw [List.append_assoc, readScalar_signed hwhole, readUnsigned,
      readWhole?_append hwhole (ends_exponent hexponent)]
    simp only [readPlaces?_exponent hexponent, hn rest (ends_isAsciiDigit hrest), Bool.or_true, if_true,
      List.length_nil]
  | @both whole places exponent hwhole hplaces hexponent =>
    obtain ⟨n, hn⟩ := readExponent?_append hexponent
    refine ⟨.ofDecimal negative (digitsValue (whole ++ places)) (n - Int.ofNat places.length),
      fun rest hrest => ?_⟩
    rw [List.append_assoc, List.cons_append, List.append_assoc, readScalar_signed hwhole,
      readUnsigned, readWhole?_append hwhole (.cons (by decide))]
    simp only [readPlaces?_append hplaces (ends_exponent hexponent), hn rest (ends_isAsciiDigit hrest),
      Bool.true_or, if_true]

/-! ## The shortest notation -/

theorem IsDigits.append {digits more : List Char} (h : IsDigits digits)
    (hmore : ∀ c ∈ more, isAsciiDigit c = true) : IsDigits (digits ++ more) where
  digit c hc := by
    rcases List.mem_append.1 hc with hc | hc
    · exact h.digit c hc
    · exact hmore c hc
  nonempty := by
    intro e
    exact h.nonempty (List.append_eq_nil_iff.1 e).1

theorem isAsciiDigit_of_mem_zeros {n : Nat} {c : Char} (h : c ∈ List.replicate n '0') :
    isAsciiDigit c = true := by
  rw [List.eq_of_mem_replicate h]
  rfl

theorem isDigits_padDigits (width n : Nat) : IsDigits (padDigits width n) where
  digit c hc := by
    rcases List.mem_append.1 hc with hc | hc
    · exact isAsciiDigit_of_mem_zeros hc
    · exact isAsciiDigit_of_mem_toDigits hc
  nonempty := by
    intro e
    exact Nat.toDigits_ne_nil (List.append_eq_nil_iff.1 e).2

/-- Digits that do not start with a zero, and any digits behind them. -/
theorem isWhole_append {digits : List Char} (h : IsDigits digits)
    (hhead : digits.head? ≠ some '0') {more : List Char}
    (hmore : ∀ c ∈ more, isAsciiDigit c = true) : IsWhole (digits ++ more) where
  digit := (h.append hmore).digit
  nonempty := (h.append hmore).nonempty
  head := by
    obtain ⟨c, cs, rfl⟩ := List.exists_cons_of_ne_nil h.nonempty
    exact .inr hhead

theorem isDecimal_layOut {digits : List Char} (h : IsDigits digits)
    (hhead : digits.head? ≠ some '0') (point : Int) :
    IsDecimal (Binary64.layOut digits point) := by
  have hzero : IsWhole ['0'] := ⟨forall_mem_of_all (by decide), by decide, .inl rfl⟩
  unfold Binary64.layOut
  by_cases hrange : -4 < point ∧ point ≤ 16
  · rw [if_pos hrange]
    by_cases hpoint : point ≤ 0
    · rw [if_pos hpoint]
      have hplaces : IsDigits (List.replicate (-point).toNat '0' ++ digits) := by
        refine ⟨fun c hc => ?_, fun e => h.nonempty (List.append_eq_nil_iff.1 e).2⟩
        rcases List.mem_append.1 hc with hc | hc
        · exact isAsciiDigit_of_mem_zeros hc
        · exact h.digit c hc
      exact .placed hzero hplaces
    · rw [if_neg hpoint]
      dsimp only
      split
      · have hwhole := isWhole_append h hhead
          fun c (hc : c ∈ List.replicate (point.toNat - digits.length) '0') =>
            isAsciiDigit_of_mem_zeros hc
        exact .placed hwhole ⟨forall_mem_of_all (by decide), by decide⟩
      · rename_i hlength
        have hplaces : IsDigits (digits.drop point.toNat) := by
          refine ⟨fun c hc => h.digit c (List.mem_of_mem_drop hc), fun e => ?_⟩
          exact hlength (List.drop_eq_nil_iff.1 e)
        have hwhole : IsWhole (digits.take point.toNat) := by
          obtain ⟨k, hk⟩ : ∃ k, point.toNat = k + 1 := ⟨point.toNat - 1, by omega⟩
          obtain ⟨c, cs, rfl⟩ := List.exists_cons_of_ne_nil h.nonempty
          rw [hk, List.take_succ_cons]
          refine ⟨fun d hd => h.digit d ?_, List.cons_ne_nil _ _, .inr hhead⟩
          rcases List.mem_cons.1 hd with rfl | hd
          · exact List.mem_cons_self
          · exact List.mem_cons_of_mem _ (List.mem_of_mem_take hd)
        exact .placed hwhole hplaces
  · rw [if_neg hrange]
    have hexponent : IsExponent ('e' :: (if point - 1 < 0 then '-' else '+')
        :: padDigits 2 (point - 1).natAbs) := by
      refine .mk ?_ (isDigits_padDigits 2 _)
      split
      · exact .inl rfl
      · exact .inr rfl
    match digits, h, hhead with
    | [], h, _ => exact absurd rfl h.nonempty
    | [c], h, hhead => exact .scaled ⟨h.digit, h.nonempty, .inr hhead⟩ hexponent
    | c :: d :: rest, h, hhead =>
      have hwhole : IsWhole [c] :=
        ⟨fun e he => h.digit e (by simp_all), by simp, .inr hhead⟩
      have hplaces : IsDigits (d :: rest) :=
        ⟨fun e he => h.digit e (List.mem_cons_of_mem _ he), by simp⟩
      exact .both hwhole hplaces hexponent

/-- Digits without the zeros at their end, if they do not start with one. -/
theorem stripZeros_digits {digits : List Char} (h : IsDigits digits)
    (hhead : digits.head? ≠ some '0') (power : Int) :
    IsDigits (Binary64.stripZeros digits power).1 ∧
      (Binary64.stripZeros digits power).1.head? ≠ some '0' := by
  obtain ⟨zeros, hzeros⟩ := List.dropWhile_suffix (l := digits.reverse) (· == '0')
  have hreverse := congrArg List.reverse hzeros
  rw [List.reverse_append, List.reverse_reverse] at hreverse
  have hsplit : (Binary64.stripZeros digits power).1 ++ zeros.reverse = digits := hreverse
  obtain ⟨c, cs, hcons⟩ := List.exists_cons_of_ne_nil h.nonempty
  cases hkept : (Binary64.stripZeros digits power).1 with
  | nil =>
    -- then there is nothing but zeros
    have hdrop : digits.reverse.dropWhile (· == '0') = [] := List.reverse_eq_nil_iff.1 hkept
    have hall := List.dropWhile_eq_nil_iff.1 hdrop
    have hc : c = '0' := by simpa using hall c (by rw [hcons]; simp)
    rw [hcons, hc] at hhead
    exact absurd rfl hhead
  | cons d kept =>
    rw [hkept, List.cons_append] at hsplit
    refine ⟨⟨fun e he => h.digit e ?_, List.cons_ne_nil _ _⟩, ?_⟩
    · rw [← hsplit, ← List.cons_append]
      exact List.mem_append_left _ he
    · rw [← hsplit] at hhead
      exact hhead

/-- Zero lies outside of the reals that are nearest to another number. -/
theorem not_has_zero {mantissa : Nat} (h : 0 < mantissa) (exponent power : Int) :
    (Binary64.neighbourhood mantissa exponent).has 0 power = false := by
  have hlow : 0 < (Binary64.neighbourhood mantissa exponent).low := by
    show 0 < 4 * mantissa - _
    split <;> omega
  have hpow : ∀ b n : Nat, 0 < b → 0 < Nat.pow b n := fun b n hb => Nat.pow_pos hb
  have hcommon : 0 < (Binary64.neighbourhood mantissa exponent).low
      * Nat.pow 2 (Binary64.neighbourhood mantissa exponent).exponent.toNat
      * Nat.pow 10 (-power).toNat :=
    Nat.mul_pos (Nat.mul_pos hlow (hpow 2 _ (by decide))) (hpow 10 _ (by decide))
  unfold Binary64.Neighbourhood.has Binary64.common
  simp only [Nat.zero_mul]
  split
  · rw [decide_eq_false (by omega), Bool.false_and]
  · rw [decide_eq_false (by omega), Bool.false_and]

theorem candidate?_pos {mantissa : Nat} (h : 0 < mantissa) {exponent : Int} {num den count : Nat}
    {point : Int} {found : Nat × Int}
    (hfound : Binary64.candidate? (Binary64.neighbourhood mantissa exponent) num den point count
      = some found) : 0 < found.1 := by
  unfold Binary64.candidate? at hfound
  dsimp only at hfound
  generalize num * Nat.pow 10 (-(point - Int.ofNat count)).toNat
    / (den * Nat.pow 10 (point - Int.ofNat count).toNat) = below at hfound
  have hbelow : (Binary64.neighbourhood mantissa exponent).has below (point - Int.ofNat count)
      = true → 0 < below := by
    intro hhas
    rcases Nat.eq_zero_or_pos below with rfl | hpos
    · rw [not_has_zero h] at hhas
      cases hhas
    · exact hpos
  split at hfound
  · rename_i hhas _
    split at hfound
    · cases hfound; exact hbelow hhas
    · cases hfound; exact Nat.succ_pos _
  · rename_i hhas _
    cases hfound
    exact hbelow hhas
  · cases hfound
    exact Nat.succ_pos _
  · cases hfound

theorem fewestDigits_pos {mantissa : Nat} (h : 0 < mantissa) (exponent : Int) :
    0 < (Binary64.fewestDigits mantissa exponent).1 := by
  unfold Binary64.fewestDigits
  dsimp only
  cases hfound : (List.range 17).findSome? _ with
  | some found =>
    obtain ⟨count, -, hcandidate⟩ := List.exists_of_findSome?_eq_some hfound
    exact candidate?_pos h hcandidate
  | none =>
    exact Nat.mul_pos (Nat.mul_pos h (Nat.pow_pos (by decide))) (Nat.pow_pos (by decide))

theorem isDecimal_shortestMagnitude (mantissa : Nat) (exponent : Int) :
    IsDecimal (Binary64.shortestMagnitude mantissa exponent) := by
  unfold Binary64.shortestMagnitude
  by_cases hzero : mantissa = 0
  · rw [if_pos hzero]
    exact @IsDecimal.placed ['0'] ['0'] ⟨forall_mem_of_all (by decide), by decide, .inl rfl⟩
      ⟨forall_mem_of_all (by decide), by decide⟩
  · rw [if_neg hzero]
    have hpos := fewestDigits_pos (Nat.pos_of_ne_zero hzero) exponent
    have hdigits : IsDigits (Nat.toDigits 10 (Binary64.fewestDigits mantissa exponent).1) :=
      ⟨fun c hc => isAsciiDigit_of_mem_toDigits hc, Nat.toDigits_ne_nil⟩
    obtain ⟨hkept, hhead⟩ := stripZeros_digits hdigits (head?_toDigits hpos)
      (Binary64.fewestDigits mantissa exponent).2
    exact isDecimal_layOut hkept hhead _

/-- A binary64 number that is written is read as one, up to its end. -/
theorem readScalar_shortest (x : Binary64) :
    ∃ y, ∀ rest, Ends continuesNumber rest →
      readScalar ((x.shortest specialNames).toList ++ rest) = .ok (.float y, rest) := by
  cases x with
  | finite negative mantissa exponent =>
    obtain ⟨y, hy⟩ := readScalar_decimal (isDecimal_shortestMagnitude mantissa exponent) negative
    refine ⟨y, fun rest hrest => ?_⟩
    rw [Binary64.shortest, String.toList_ofList, List.append_assoc]
    exact hy rest hrest
  | infinite negative =>
    cases negative with
    | true => exact ⟨.infinite true, fun rest _ => rfl⟩
    | false => exact ⟨.infinite false, fun rest _ => rfl⟩
  | nan => exact ⟨.nan, fun rest _ => rfl⟩

end UsageCensus.Document
