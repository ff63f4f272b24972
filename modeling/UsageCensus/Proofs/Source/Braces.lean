import UsageCensus.Source.Attribute
import UsageCensus.Source.Tag
import Mathlib.Data.List.Infix

/-!
# Balanced braces

A text is balanced if each of its braces has a partner. Both scanners that count braces go over
a balanced text in braces as a whole: the one that looks for the brace that closes a value
(`braceBody_balanced`), and the one that looks for the `>` that closes a tag (`Passed.braced`).
-/

namespace UsageCensus.Source

/-- Every brace that is closed was opened before, and every opened one is closed. -/
def IsBalanced (text : List Char) : Prop :=
  (∀ front, front <+: text → front.count '}' ≤ front.count '{') ∧ text.count '}' = text.count '{'

instance (text : List Char) : Decidable (IsBalanced text) :=
  decidable_of_iff ((∀ front ∈ text.inits, front.count '}' ≤ front.count '{') ∧
    text.count '}' = text.count '{') (by simp only [List.mem_inits, IsBalanced])

/-- A text that closes `opened` braces more than it opens. -/
def BalancedBehind (opened : Nat) (text : List Char) : Prop :=
  (∀ front, front <+: text → front.count '}' ≤ opened + front.count '{') ∧
    text.count '}' = opened + text.count '{'

theorem balancedBehind_zero {text : List Char} : BalancedBehind 0 text ↔ IsBalanced text := by
  simp only [BalancedBehind, IsBalanced, Nat.zero_add]

namespace BalancedBehind

variable {opened : Nat} {c : Char} {text : List Char}

theorem of_nil (h : BalancedBehind opened []) : opened = 0 := by simpa using h.2.symm

theorem of_open (h : BalancedBehind opened ('{' :: text)) : BalancedBehind (opened + 1) text := by
  constructor
  · intro front hfront
    have := h.1 ('{' :: front) (List.cons_prefix_cons.2 ⟨rfl, hfront⟩)
    simp only [List.count_cons, beq_self_eq_true, if_true, beq_iff_eq, Char.reduceEq,
      if_false] at this
    omega
  · have := h.2
    simp only [List.count_cons, beq_self_eq_true, if_true, beq_iff_eq, Char.reduceEq,
      if_false] at this
    omega

/-- A brace that is closed here was opened before. -/
theorem of_close (h : BalancedBehind opened ('}' :: text)) :
    ∃ before, opened = before + 1 ∧ BalancedBehind before text := by
  have hfirst := h.1 ['}'] (List.cons_prefix_cons.2 ⟨rfl, List.nil_prefix⟩)
  have hlast := h.2
  simp only [List.count_cons, List.count_nil, beq_self_eq_true, if_true, beq_iff_eq, Char.reduceEq,
    if_false] at hfirst hlast
  refine ⟨opened - 1, by omega, fun front hfront => ?_, by omega⟩
  have := h.1 ('}' :: front) (List.cons_prefix_cons.2 ⟨rfl, hfront⟩)
  simp only [List.count_cons, beq_self_eq_true, if_true, beq_iff_eq, Char.reduceEq,
      if_false] at this
  omega

theorem of_other (h : BalancedBehind opened (c :: text)) (h1 : c ≠ '{') (h2 : c ≠ '}') :
    BalancedBehind opened text := by
  constructor
  · intro front hfront
    have := h.1 (c :: front) (List.cons_prefix_cons.2 ⟨rfl, hfront⟩)
    simpa only [List.count_cons, beq_iff_eq, h1, h2, if_false, Nat.add_zero] using this
  · simpa only [List.count_cons, beq_iff_eq, h1, h2, if_false, Nat.add_zero] using h.2

theorem nil : BalancedBehind 0 [] := by simp [BalancedBehind]

/-- In front of a balanced text a brace that opens takes one more to be closed, and a brace that
closes one less. -/
theorem cons {behind : Nat} (h : BalancedBehind behind text)
    (hc : opened + (if c = '{' then 1 else 0) = behind + if c = '}' then 1 else 0) :
    BalancedBehind opened (c :: text) := by
  obtain ⟨hfront, htotal⟩ := h
  constructor
  · intro front hprefix
    rcases List.prefix_cons_iff.1 hprefix with rfl | ⟨front, rfl, htail⟩
    · simp
    · have := hfront front htail
      simp only [List.count_cons, beq_iff_eq]
      omega
  · simp only [List.count_cons, beq_iff_eq]
    omega

end BalancedBehind

/-! ## The brace that closes a value -/

/-- Where more braces are closed than opened, there is a first one that was not opened. -/
theorem exists_closing {opened : Nat} {text : List Char}
    (h : opened + text.count '{' < text.count '}') :
    ∃ inner rest, text = inner ++ '}' :: rest ∧ BalancedBehind opened inner := by
  induction text generalizing opened with
  | nil => simp at h
  | cons c text ih =>
    simp only [List.count_cons, beq_iff_eq] at h
    by_cases h1 : c = '{'
    · subst h1
      simp only [if_true, Char.reduceEq, if_false] at h
      have hmore : opened + 1 + text.count '{' < text.count '}' := by omega
      obtain ⟨inner, rest, rfl, hinner⟩ := ih hmore
      exact ⟨'{' :: inner, rest, rfl, hinner.cons rfl⟩
    · by_cases h2 : c = '}'
      · subst h2
        simp only [if_true, Char.reduceEq, if_false] at h
        cases opened with
        | zero => exact ⟨[], text, rfl, .nil⟩
        | succ opened =>
          have hmore : opened + text.count '{' < text.count '}' := by omega
          obtain ⟨inner, rest, rfl, hinner⟩ := ih hmore
          exact ⟨'}' :: inner, rest, rfl, hinner.cons rfl⟩
      · simp only [h1, h2, if_false, Nat.add_zero] at h
        obtain ⟨inner, rest, rfl, hinner⟩ := ih h
        exact ⟨c :: inner, rest, rfl, hinner.cons (by simp [h1, h2])⟩

theorem braceBody_behind {opened : Nat} {text : List Char} (h : BalancedBehind opened text)
    (rest : List Char) : Attribute.braceBody opened (text ++ '}' :: rest) = (text, rest) := by
  induction text generalizing opened with
  | nil => rw [h.of_nil]; rfl
  | cons c text ih =>
    by_cases h1 : c = '{'
    · subst h1
      simp only [List.cons_append, Attribute.braceBody, if_true, ih h.of_open]
    · by_cases h2 : c = '}'
      · subst h2
        obtain ⟨before, rfl, hbefore⟩ := h.of_close
        simp only [List.cons_append, Attribute.braceBody, Char.reduceEq, if_false, if_true,
          ih hbefore]
      · simp only [List.cons_append, Attribute.braceBody, h1, h2, if_false, ih (h.of_other h1 h2)]

theorem braceBody_balanced {text : List Char} (h : IsBalanced text) (rest : List Char) :
    Attribute.braceBody 0 (text ++ '}' :: rest) = (text, rest) :=
  braceBody_behind (balancedBehind_zero.2 h) rest

/-! ## The `>` that closes a tag -/

theorem closingAngle_behind {opened : Nat} {text : List Char} (h : BalancedBehind opened text)
    (at_ : Nat) (rest : List Char) :
    closingAngle (Int.ofNat opened + 1) at_ (text ++ rest)
      = closingAngle 1 (at_ + text.length) rest := by
  induction text generalizing opened at_ with
  | nil => rw [h.of_nil]; rfl
  | cons c text ih =>
    have hlength : at_ + (c :: text).length = at_ + 1 + text.length := by
      rw [List.length_cons]; omega
    rw [List.cons_append, hlength, closingAngle]
    by_cases h1 : c = '{'
    · subst h1
      rw [if_pos rfl]
      exact ih h.of_open (at_ + 1)
    · rw [if_neg h1]
      by_cases h2 : c = '}'
      · subst h2
        obtain ⟨before, rfl, hbefore⟩ := h.of_close
        rw [if_pos rfl, show Int.ofNat (before + 1) + 1 - 1 = Int.ofNat before + 1 from by
          simp only [Int.ofNat_eq_natCast]; omega]
        exact ih hbefore (at_ + 1)
      · have hinside : ¬ (c = '>' ∧ Int.ofNat opened + 1 = 0) := by
          simp only [Int.ofNat_eq_natCast]
          omega
        rw [if_neg h2, if_neg hinside]
        exact ih (h.of_other h1 h2) (at_ + 1)

/-- No `>` in the text closes a tag, and what follows is inside as many braces as the text is. -/
def Passed (text : List Char) : Prop :=
  ∀ at_ rest, closingAngle 0 at_ (text ++ rest) = closingAngle 0 (at_ + text.length) rest

namespace Passed

variable {text text' : List Char}

theorem nil : Passed [] := fun _ _ => rfl

theorem append (h : Passed text) (h' : Passed text') : Passed (text ++ text') := by
  intro at_ rest
  rw [List.append_assoc, h, h', List.length_append, Nat.add_assoc]

theorem cons {c : Char} (h1 : c ≠ '{') (h2 : c ≠ '}') (h3 : c ≠ '>') (h : Passed text) :
    Passed (c :: text) := by
  intro at_ rest
  rw [List.cons_append, closingAngle, if_neg h1, if_neg h2, if_neg (fun e => h3 e.1), h,
    List.length_cons, Nat.add_assoc, Nat.add_comm 1]

theorem of_forall (h : ∀ c ∈ text, c ≠ '{' ∧ c ≠ '}' ∧ c ≠ '>') : Passed text := by
  induction text with
  | nil => exact nil
  | cons c text ih =>
    obtain ⟨h1, h2, h3⟩ := h c (by simp)
    exact cons h1 h2 h3 (ih fun d hd => h d (by simp [hd]))

theorem braced (h : IsBalanced text) : Passed ('{' :: (text ++ ['}'])) := by
  intro at_ rest
  have hopen : closingAngle 0 at_ ('{' :: (text ++ ['}']) ++ rest)
      = closingAngle (Int.ofNat 0 + 1) (at_ + 1) (text ++ '}' :: rest) := by
    rw [List.cons_append, closingAngle, if_pos rfl, List.append_assoc]
    rfl
  have hclose : closingAngle 1 (at_ + 1 + text.length) ('}' :: rest)
      = closingAngle 0 (at_ + 1 + text.length + 1) rest := by
    rw [closingAngle, if_neg (by decide), if_pos rfl]
    rfl
  rw [hopen, closingAngle_behind (balancedBehind_zero.2 h), hclose]
  simp only [List.length_cons, List.length_append, List.length_nil]
  congr 1
  omega

end Passed

/-- The first `>` behind a text that is passed closes the tag. -/
theorem tagEnd?_of_passed {body : List Char} (h : Passed body) (before rest : List Char) :
    tagEnd? (before ++ (body ++ '>' :: rest)) before.length
      = some (before.length + body.length) := by
  rw [tagEnd?, List.drop_left, h, closingAngle, if_neg (by decide), if_neg (by decide),
    if_pos ⟨rfl, rfl⟩]

end UsageCensus.Source
