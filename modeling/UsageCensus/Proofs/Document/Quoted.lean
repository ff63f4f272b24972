import UsageCensus.Document.Printer
import UsageCensus.Document.Reader
import UsageCensus.Proofs.Text.Surrogates

/-!
# Quoted texts read back

A text in double quotes is read as the text it is: each character is escaped in a way that is
read as this character (`readQuoted?_escapeChar`), one above the basic plane as a pair of
surrogates. A character that stands for a surrogate is escaped as this one, and read as it was,
unless two of them next to each other are a pair (`readQuoted?_escapeWith`).
-/

namespace UsageCensus.Document

open UsageCensus.Text

/-! ## Four hexadecimal digits -/

theorem hexValue?_digitChar : ∀ n < 16, hexValue? n.digitChar = some n := by decide

theorem hex4_eq {n : Nat} (h : n < 65536) :
    hex4 n = [(n / 4096).digitChar, (n / 256 % 16).digitChar, (n / 16 % 16).digitChar,
      (n % 16).digitChar] := by
  have hzero : ∀ {m : Nat}, m = 0 → '0' = m.digitChar := by
    rintro m rfl
    rfl
  have hone : ∀ {m : Nat}, m < 16 → Nat.toDigits 16 m = [m.digitChar] := Nat.toDigits_of_lt_base
  have hmore : ∀ {m : Nat}, 16 ≤ m →
      Nat.toDigits 16 m = Nat.toDigits 16 (m / 16) ++ [(m % 16).digitChar] :=
    Nat.toDigits_of_base_le (by decide)
  have hdiv : n / 256 = n / 16 / 16 ∧ n / 4096 = n / 16 / 16 / 16 := by omega
  obtain ⟨h256, h4096⟩ := hdiv
  unfold hex4
  rw [h256, h4096]
  by_cases h1 : n < 16
  · rw [hone h1, ← hzero (m := n / 16 / 16 / 16) (by omega),
      ← hzero (m := n / 16 / 16 % 16) (by omega),
      ← hzero (m := n / 16 % 16) (by omega), Nat.mod_eq_of_lt h1]
    rfl
  · rw [hmore (by omega)]
    by_cases h2 : n / 16 < 16
    · rw [hone h2, ← hzero (m := n / 16 / 16 / 16) (by omega),
        ← hzero (m := n / 16 / 16 % 16) (by omega), Nat.mod_eq_of_lt h2]
      rfl
    · rw [hmore (m := n / 16) (by omega)]
      by_cases h3 : n / 16 / 16 < 16
      · rw [hone h3, ← hzero (m := n / 16 / 16 / 16) (by omega), Nat.mod_eq_of_lt h3]
        rfl
      · rw [hmore (m := n / 16 / 16) (by omega), hone (m := n / 16 / 16 / 16) (by omega)]
        rfl

theorem readHex4?_hex4 {n : Nat} (h : n < 65536) (rest : List Char) :
    readHex4? (hex4 n ++ rest) = some (n, rest) := by
  rw [hex4_eq h]
  have hvalue : ((n / 4096 * 16 + n / 256 % 16) * 16 + n / 16 % 16) * 16 + n % 16 = n := by omega
  simp only [List.cons_append, List.nil_append, readHex4?, Option.bind_eq_bind,
    hexValue?_digitChar (n / 4096) (by omega), hexValue?_digitChar (n / 256 % 16) (by omega),
    hexValue?_digitChar (n / 16 % 16) (by omega), hexValue?_digitChar (n % 16) (by omega),
    Option.bind_some, hvalue]
  rfl

/-! ## Code points -/

theorem escapeWith_of_unit? {surrogates : Surrogates} {c : Char} {unit : Nat}
    (h : surrogates.unit? c = some unit) : escapeWith surrogates c = escapeUnit unit := by
  rw [escapeWith, h]

theorem escapeWith_of_not_unit? {surrogates : Surrogates} {c : Char}
    (h : surrogates.unit? c = none) : escapeWith surrogates c = escapeChar c := by
  rw [escapeWith, h]

theorem characterFor_toNat (surrogates : Surrogates) (c : Char) :
    characterFor surrogates c.toNat = c := by
  rw [characterFor, not_isSurrogate, if_neg (by decide), Char.ofNat_toNat]

/-- What does not start with the escape of the second half of a pair. -/
def StartsNoHalf (text : List Char) : Prop :=
  ∀ tail low rest, text = '\\' :: 'u' :: tail → readHex4? tail = some (low, rest) →
    ¬ (56320 ≤ low ∧ low ≤ 57343)

/-- A unit is a code point by itself, unless it is a first half and a second one follows. -/
theorem readUnit?_alone {n : Nat} (h : n < 65536) {rest : List Char}
    (hrest : 55296 ≤ n → n < 56320 → StartsNoHalf rest) :
    readUnit? (hex4 n ++ rest) = some (n, rest) := by
  unfold readUnit?
  rw [readHex4?_hex4 h]
  simp only [Option.bind_eq_bind, Option.bind_some]
  split
  · rename_i low tail hpair
    split at hpair
    · rename_i behind
      have hnone : ¬ (55296 ≤ n ∧ n < 56320 ∧ 56320 ≤ low ∧ low ≤ 57343) := fun hhalves =>
        hrest hhalves.1 hhalves.2.1 behind low tail rfl hpair hhalves.2.2
      rw [if_neg hnone]
      rfl
    · cases hpair
  · rfl

theorem readUnit?_hex4 {n : Nat} (h : n < 65536) (hunit : isSurrogate n = false)
    (rest : List Char) : readUnit? (hex4 n ++ rest) = some (n, rest) := by
  refine readUnit?_alone h fun hlow hhigh => ?_
  simp only [isSurrogate, Bool.and_eq_false_iff, decide_eq_false_iff_not] at hunit
  omega

/-- Two units that are a pair of surrogates are one code point. -/
theorem readUnit?_pair {n : Nat} (h : n < 1048576) (rest : List Char) :
    readUnit? (hex4 (55296 + n / 1024) ++ (escapeUnit (56320 + n % 1024) ++ rest))
      = some (65536 + n, rest) := by
  have hlow : readHex4? (hex4 (56320 + n % 1024) ++ rest) = some (56320 + n % 1024, rest) :=
    readHex4?_hex4 (by omega) rest
  have hpair : 55296 ≤ 55296 + n / 1024 ∧ 55296 + n / 1024 < 56320 ∧ 56320 ≤ 56320 + n % 1024 ∧
      56320 + n % 1024 ≤ 57343 := by omega
  have hvalue : 65536 + (55296 + n / 1024 - 55296) * 1024 + (56320 + n % 1024 - 56320)
      = 65536 + n := by omega
  unfold readUnit?
  rw [readHex4?_hex4 (by omega)]
  simp only [Option.bind_eq_bind, Option.bind_some, escapeUnit, List.cons_append, hlow, hpair,
    and_self, if_true, hvalue]
  rfl

/-! ## Characters and texts -/

theorem readQuoted?_short {c e : Char} (h : shortEscape? e = some c)
    (surrogates : Surrogates) (fuel : Nat) (rest : List Char) :
    readQuoted? surrogates (fuel + 1) ('\\' :: e :: rest)
      = (readQuoted? surrogates fuel rest).map fun r => (c :: r.1, r.2) := by
  have he : e ≠ 'u' := by
    rintro rfl
    cases h
  rw [readQuoted?.eq_def]
  dsimp only
  rw [if_neg (by decide), if_pos rfl]
  split
  · rename_i e'
    exact absurd (List.cons.inj e').1 he
  · rename_i e'
    cases e'
    rw [h]
    cases readQuoted? surrogates fuel rest <;> rfl
  · rename_i e'
    cases e'

theorem readQuoted?_unit {unit n : Nat} {c : Char} {text rest : List Char}
    (h : readUnit? (hex4 unit ++ text) = some (n, rest)) (surrogates : Surrogates)
    (hc : characterFor surrogates n = c) (fuel : Nat) :
    readQuoted? surrogates (fuel + 1) (escapeUnit unit ++ text)
      = (readQuoted? surrogates fuel rest).map fun r => (c :: r.1, r.2) := by
  rw [escapeUnit, List.cons_append, List.cons_append, readQuoted?.eq_def]
  dsimp only
  rw [if_neg (by decide), if_pos rfl]
  simp only [h, Option.bind_eq_bind, Option.bind_some, hc]
  cases readQuoted? surrogates fuel rest <;> rfl

theorem readQuoted?_plain {c : Char} (hquote : c ≠ '"') (hescape : c ≠ '\\') (h : 32 ≤ c.toNat)
    (surrogates : Surrogates) (fuel : Nat) (rest : List Char) :
    readQuoted? surrogates (fuel + 1) (c :: rest)
      = (readQuoted? surrogates fuel rest).map fun r => (c :: r.1, r.2) := by
  rw [readQuoted?.eq_def]
  dsimp only
  rw [if_neg hquote, if_neg hescape, if_neg (by omega)]
  cases readQuoted? surrogates fuel rest <;> rfl

/-- A character is escaped by a letter, not at all, as one unit, or as two that are a pair. -/
theorem escapeChar_cases (c : Char) :
    (∃ e, shortEscape? e = some c ∧ (32 ≤ e.toNat ∧ e.toNat < 127) ∧ escapeChar c = ['\\', e]) ∨
      (c ≠ '"' ∧ c ≠ '\\' ∧ (32 ≤ c.toNat ∧ c.toNat < 127) ∧ escapeChar c = [c]) ∨
      (c.toNat < 65536 ∧ escapeChar c = escapeUnit c.toNat) ∨
      ∃ n, n < 1048576 ∧ c.toNat = 65536 + n ∧
        escapeChar c = escapeUnit (55296 + n / 1024) ++ escapeUnit (56320 + n % 1024) := by
  unfold escapeChar
  by_cases hquote : c = '"'
  · subst hquote; exact .inl ⟨'"', rfl, by decide, rfl⟩
  by_cases hescape : c = '\\'
  · subst hescape; exact .inl ⟨'\\', rfl, by decide, rfl⟩
  by_cases hline : c = '\n'
  · subst hline; exact .inl ⟨'n', rfl, by decide, rfl⟩
  by_cases hreturn : c = '\r'
  · subst hreturn; exact .inl ⟨'r', rfl, by decide, rfl⟩
  by_cases htab : c = '\t'
  · subst htab; exact .inl ⟨'t', rfl, by decide, rfl⟩
  by_cases hfeed : c = '\x0c'
  · subst hfeed; exact .inl ⟨'f', rfl, by decide, rfl⟩
  by_cases hback : c = '\x08'
  · subst hback; exact .inl ⟨'b', rfl, by decide, rfl⟩
  rw [if_neg hquote, if_neg hescape, if_neg hline, if_neg hreturn, if_neg htab, if_neg hfeed,
    if_neg hback]
  by_cases hplain : 32 ≤ c.toNat ∧ c.toNat < 127
  · rw [if_pos hplain]
    exact .inr (.inl ⟨hquote, hescape, hplain, rfl⟩)
  rw [if_neg hplain]
  by_cases hbasic : c.toNat < 65536
  · rw [if_pos hbasic]
    exact .inr (.inr (.inl ⟨hbasic, rfl⟩))
  · rw [if_neg hbasic]
    have hlast := toNat_lt c
    exact .inr (.inr (.inr ⟨c.toNat - 65536, by omega, by omega, rfl⟩))

/-- An escaped character is read as itself. -/
theorem readQuoted?_escapeChar (c : Char) (surrogates : Surrogates) (fuel : Nat)
    (rest : List Char) :
    readQuoted? surrogates (fuel + 1) (escapeChar c ++ rest)
      = (readQuoted? surrogates fuel rest).map fun r => (c :: r.1, r.2) := by
  rcases escapeChar_cases c with ⟨e, hshort, -, heq⟩ | ⟨hquote, hescape, hplain, heq⟩ |
    ⟨hbasic, heq⟩ | ⟨n, hn, hc, heq⟩ <;> rw [heq]
  · exact readQuoted?_short hshort surrogates fuel rest
  · exact readQuoted?_plain hquote hescape hplain.1 surrogates fuel rest
  · exact readQuoted?_unit (readUnit?_hex4 hbasic (not_isSurrogate c) rest) surrogates
      (characterFor_toNat surrogates c) fuel
  · rw [List.append_assoc]
    refine readQuoted?_unit (readUnit?_pair hn rest) surrogates ?_ fuel
    rw [← hc, characterFor_toNat]

/-! ## Halves of pairs -/

/-- What is written with some characters for surrogates is read with others as it was: those that
are in it are the same, and no two of them next to each other are a pair. -/
structure IsReadable (written read : Surrogates) (text : List Char) : Prop where
  same : ∀ c ∈ text, ∀ unit, written.unit? c = some unit → read.standIn unit = c
  apart : written.IsApart text

theorem isReadable_none (read : Surrogates) (text : List Char) : IsReadable .none read text where
  same c _ unit h := by
    rw [unit?_none] at h
    cases h
  apart := Surrogates.isApart_none text

theorem isReadable_self {surrogates : Surrogates} {text : List Char} (h : surrogates.IsApart text) :
    IsReadable surrogates surrogates text where
  same _ _ _ hunit := standIn_of_unit? hunit
  apart := h

theorem IsReadable.tail {written read : Surrogates} {c : Char} {text : List Char}
    (h : IsReadable written read (c :: text)) : IsReadable written read text where
  same d hd := h.same d (List.mem_cons_of_mem c hd)
  apart := h.apart.tail

theorem startsNoHalf_cons {c : Char} (h : c ≠ '\\') (text : List Char) :
    StartsNoHalf (c :: text) :=
  fun _ _ _ e _ _ => h (List.cons.inj e).1

theorem startsNoHalf_escapeUnit {n : Nat} (h : n < 65536) (hhalf : ¬ (56320 ≤ n ∧ n ≤ 57343))
    (text : List Char) : StartsNoHalf (escapeUnit n ++ text) := by
  intro tail low rest e hlow
  rw [escapeUnit, List.cons_append, List.cons_append] at e
  cases e
  rw [readHex4?_hex4 h] at hlow
  cases hlow
  exact hhalf

theorem startsNoHalf_escapeChar (c : Char) (text : List Char) :
    StartsNoHalf (escapeChar c ++ text) := by
  rcases escapeChar_cases c with ⟨e, hshort, -, heq⟩ | ⟨-, hescape, -, heq⟩ | ⟨hbasic, heq⟩ |
    ⟨n, hn, -, heq⟩ <;> rw [heq]
  · rintro tail low rest h -
    cases h
    cases hshort
  · exact startsNoHalf_cons hescape text
  · refine startsNoHalf_escapeUnit hbasic (fun hhalf => ?_) text
    have := not_isSurrogate c
    simp only [isSurrogate, Bool.and_eq_false_iff, decide_eq_false_iff_not] at this
    omega
  · rw [List.append_assoc]
    exact startsNoHalf_escapeUnit (by omega) (by omega) _

/-- No second half of a pair is written behind a first one. -/
theorem startsNoHalf_escaped {surrogates : Surrogates} {c : Char} {text : List Char} {high : Nat}
    (hc : surrogates.unit? c = some high) (hhigh : high < 56320)
    (h : surrogates.IsApart (c :: text)) (rest : List Char) :
    StartsNoHalf (text.flatMap (escapeWith surrogates) ++ '"' :: rest) := by
  cases text with
  | nil => exact startsNoHalf_cons (by decide) rest
  | cons d text =>
    rw [List.flatMap_cons, List.append_assoc]
    cases hd : surrogates.unit? d with
    | none =>
      rw [escapeWith_of_not_unit? hd]
      exact startsNoHalf_escapeChar d _
    | some low =>
      have hunit := isSurrogate_of_unit? hd
      simp only [isSurrogate, Bool.and_eq_true, decide_eq_true_eq] at hunit
      rw [escapeWith_of_unit? hd]
      refine startsNoHalf_escapeUnit (by omega) (fun hhalf => ?_) _
      exact (List.isChain_cons_cons.1 h).1 ⟨⟨high, hc, hhigh⟩, low, hd, hhalf.1⟩

/-! ## Quoted texts -/

theorem readQuoted?_escapeWith {written read : Surrogates} {text : List Char} {fuel : Nat}
    (h : IsReadable written read text) (hfuel : text.length < fuel) (rest : List Char) :
    readQuoted? read fuel (text.flatMap (escapeWith written) ++ '"' :: rest)
      = some (text, rest) := by
  induction text generalizing fuel with
  | nil =>
    obtain ⟨fuel, rfl⟩ : ∃ n, fuel = n + 1 := ⟨fuel - 1, by simp at hfuel; omega⟩
    rfl
  | cons c text ih =>
    obtain ⟨fuel, rfl⟩ : ∃ n, fuel = n + 1 := ⟨fuel - 1, by simp at hfuel; omega⟩
    have hlength : text.length < fuel := Nat.lt_of_succ_lt_succ hfuel
    have hrest := ih h.tail hlength
    rw [List.flatMap_cons, List.append_assoc]
    cases hc : written.unit? c with
    | none => rw [escapeWith_of_not_unit? hc, readQuoted?_escapeChar, hrest, Option.map_some]
    | some unit =>
      have hunit := isSurrogate_of_unit? hc
      have hbounds : 55296 ≤ unit ∧ unit ≤ 57343 := by simpa [isSurrogate] using hunit
      have hread := readUnit?_alone (by omega) fun _ hhigh =>
        startsNoHalf_escaped hc hhigh h.apart rest
      have hchar : characterFor read unit = c := by
        rw [characterFor, if_pos hunit]
        exact h.same c List.mem_cons_self unit hc
      rw [escapeWith_of_unit? hc, readQuoted?_unit hread read hchar, hrest, Option.map_some]

theorem escapeChar_ne_nil (c : Char) : escapeChar c ≠ [] := by
  unfold escapeChar
  repeat' split
  all_goals exact List.cons_ne_nil _ _

theorem escapeWith_ne_nil (surrogates : Surrogates) (c : Char) : escapeWith surrogates c ≠ [] := by
  unfold escapeWith
  split
  · exact List.cons_ne_nil _ _
  · exact escapeChar_ne_nil c

/-- No text is shorter than it was before its characters were escaped. -/
theorem length_le_escaped (surrogates : Surrogates) (text : List Char) :
    text.length ≤ (text.flatMap (escapeWith surrogates)).length := by
  induction text with
  | nil => exact Nat.le_refl _
  | cons c text ih =>
    have hc := List.length_pos_iff.2 (escapeWith_ne_nil surrogates c)
    rw [List.flatMap_cons, List.length_append, List.length_cons]
    omega

theorem quote_eq (surrogates : Surrogates) (text : String) :
    quote surrogates text = '"' :: (text.toList.flatMap (escapeWith surrogates) ++ ['"']) := rfl

theorem printable_of_mem_escapeUnit {n : Nat} (h : n < 65536) {d : Char} (hd : d ∈ escapeUnit n) :
    32 ≤ d.toNat ∧ d.toNat < 127 := by
  have hdigit : ∀ n < 16, 32 ≤ n.digitChar.toNat ∧ n.digitChar.toNat < 127 := by decide
  rw [escapeUnit, hex4_eq h] at hd
  simp only [List.mem_cons, List.not_mem_nil, or_false] at hd
  rcases hd with rfl | rfl | rfl | rfl | rfl | rfl
  · decide
  · decide
  · exact hdigit _ (by omega)
  · exact hdigit _ (by omega)
  · exact hdigit _ (by omega)
  · exact hdigit _ (by omega)

/-- Characters are escaped with printable ASCII. -/
theorem printable_of_mem_escapeChar {c d : Char} (h : d ∈ escapeChar c) :
    32 ≤ d.toNat ∧ d.toNat < 127 := by
  rcases escapeChar_cases c with ⟨e, -, hplain, heq⟩ | ⟨-, -, hplain, heq⟩ | ⟨hbasic, heq⟩ |
    ⟨n, hn, -, heq⟩ <;> rw [heq] at h
  · rcases List.mem_cons.1 h with rfl | h
    · decide
    · exact List.mem_singleton.1 h ▸ hplain
  · exact List.mem_singleton.1 h ▸ hplain
  · exact printable_of_mem_escapeUnit hbasic h
  · rcases List.mem_append.1 h with h | h
    · exact printable_of_mem_escapeUnit (by omega) h
    · exact printable_of_mem_escapeUnit (by omega) h

theorem printable_of_mem_escapeWith {surrogates : Surrogates} {c d : Char}
    (h : d ∈ escapeWith surrogates c) : 32 ≤ d.toNat ∧ d.toNat < 127 := by
  cases hc : surrogates.unit? c with
  | none => exact printable_of_mem_escapeChar (escapeWith_of_not_unit? hc ▸ h)
  | some unit =>
    have hunit := isSurrogate_of_unit? hc
    simp only [isSurrogate, Bool.and_eq_true, decide_eq_true_eq] at hunit
    exact printable_of_mem_escapeUnit (by omega) (escapeWith_of_unit? hc ▸ h)

theorem printable_of_mem_quote {surrogates : Surrogates} {text : String} {d : Char}
    (h : d ∈ quote surrogates text) : 32 ≤ d.toNat ∧ d.toNat < 127 := by
  rw [quote_eq, List.mem_cons, List.mem_append, List.mem_flatMap, List.mem_singleton] at h
  rcases h with rfl | ⟨c, -, h⟩ | rfl
  · decide
  · exact printable_of_mem_escapeWith h
  · decide

theorem newline_not_mem_quote (surrogates : Surrogates) (text : String) :
    '\n' ∉ quote surrogates text :=
  fun h => absurd (printable_of_mem_quote h).1 (by decide)

/-- A quoted text is read as the text. -/
theorem readText?_quote {written read : Surrogates} {text : String}
    (h : IsReadable written read text.toList) (rest : List Char) :
    readText? read (quote written text ++ rest) = some (text, rest) := by
  rw [quote_eq]
  simp only [List.cons_append, List.append_assoc, List.nil_append, readText?]
  rw [readQuoted?_escapeWith h]
  · simp only [Option.bind_eq_bind, Option.bind_some, String.ofList_toList]
    rfl
  · have := length_le_escaped written text.toList
    rw [List.length_append]
    omega

end UsageCensus.Document
