import Mathlib.Data.List.Basic
import UsageCensus.Glob.Braces
import UsageCensus.Proofs.Text.Reading

/-!
# What the alternatives of a pattern are

The first group of a pattern is expanded in place, and the text that comes out is searched again.
Each expansion takes one group away (`groupCount_expanded`), so there are no more rounds than groups
(`expandUpTo_eq`), and what is left has no group (`not_hasGroup_of_mem`).

An `Expression` is a pattern with its groups kept apart. Its alternatives are what comes of choosing
one option in every group (`alternatives_are_choices`): the options before a closing brace may be
expanded one by one, whatever stands around them (`mem_expandBraces_write`), although the choices
among the others are then made again for each of them.
-/

namespace UsageCensus.Glob

open UsageCensus.Text

/-! ## The first group -/

/-- No brace stands in the text. -/
def IsPlain (text : List Char) : Prop := ∀ c ∈ text, c ≠ '{' ∧ c ≠ '}'

/-- Somewhere a brace is opened and closed, with no brace between. -/
def HasGroup (text : List Char) : Prop :=
  ∃ head body tail, text = head ++ '{' :: (body ++ '}' :: tail) ∧ IsPlain body

/-- What `firstGroup?` takes for the text of a group. -/
def isInside (c : Char) : Bool := !(c == '{' || c == '}')

theorem isInside_iff {c : Char} : isInside c = true ↔ c ≠ '{' ∧ c ≠ '}' := by
  simp [isInside]

section

variable {c : Char} {head body tail pattern rest text : List Char}

theorem IsPlain.append {other : List Char} (h : IsPlain text) (hother : IsPlain other) :
    IsPlain (text ++ other) := by
  intro c hc
  rcases List.mem_append.1 hc with hc | hc
  · exact h c hc
  · exact hother c hc

theorem isPlain_comma (h : IsPlain text) : IsPlain (',' :: text) := by
  have hcomma : IsPlain [','] := by simp [IsPlain]
  exact hcomma.append h

theorem isPlain_of_mem_cutAt {option : List Char} (h : IsPlain body)
    (hoption : option ∈ cutAt ',' body) : IsPlain option :=
  fun c hc => h c ((cutAt_spec hoption).2 c hc)

theorem firstGroup?_cons_of_ne (h : c ≠ '{') (text : List Char) :
    firstGroup? (c :: text) = (firstGroup? text).map fun group => (c :: group.1, group.2) :=
  if_neg h

theorem firstGroup?_here (h : IsPlain body) (tail : List Char) :
    firstGroup? ('{' :: (body ++ '}' :: tail)) = some ([], body, tail) := by
  have hbody : ∀ c ∈ body, isInside c = true := fun c hc => isInside_iff.2 (h c hc)
  have hclose : Ends isInside ('}' :: tail) := .cons (by decide)
  have htake := takeWhile_append_of_ends hbody hclose
  have hdrop := dropWhile_append_of_ends hbody hclose
  unfold isInside at htake hdrop
  simp only [firstGroup?, if_true, htake, hdrop]

theorem firstGroup?_open (h : ∀ rest, text.dropWhile isInside ≠ '}' :: rest) :
    firstGroup? ('{' :: text) = (firstGroup? text).map fun group => ('{' :: group.1, group.2) := by
  unfold isInside at h
  rw [firstGroup?, if_pos rfl]
  dsimp only
  split
  · rename_i tail hdrop
    exact absurd hdrop (h tail)
  · rfl

/-- The first group starts here, or it is that of the rest of the text. -/
theorem firstGroup?_cons (c : Char) (text : List Char) :
    (∃ body tail, c :: text = '{' :: (body ++ '}' :: tail) ∧ IsPlain body ∧
      firstGroup? (c :: text) = some ([], body, tail)) ∨
    firstGroup? (c :: text) = (firstGroup? text).map fun group => (c :: group.1, group.2) := by
  by_cases hc : c = '{'
  · subst hc
    by_cases hhere : ∃ tail, text.dropWhile isInside = '}' :: tail
    · obtain ⟨tail, hdrop⟩ := hhere
      have htext := List.takeWhile_append_dropWhile (p := isInside) (l := text)
      have hbody : IsPlain (text.takeWhile isInside) :=
        fun c hc => isInside_iff.1 (List.mem_takeWhile_imp hc)
      rw [hdrop] at htext
      refine .inl ⟨_, tail, congrArg (List.cons '{') htext.symm, hbody, ?_⟩
      exact (congrArg (fun text => firstGroup? ('{' :: text)) htext).symm.trans
        (firstGroup?_here hbody tail)
    · exact .inr (firstGroup?_open fun tail hdrop => hhere ⟨tail, hdrop⟩)
  · exact .inr (firstGroup?_cons_of_ne hc text)

theorem eq_of_firstGroup? (h : firstGroup? pattern = some (head, body, tail)) :
    pattern = head ++ '{' :: (body ++ '}' :: tail) ∧ IsPlain body := by
  induction pattern generalizing head with
  | nil => cases h
  | cons c text ih =>
    rcases firstGroup?_cons c text with ⟨_, _, htext, hbody, hhere⟩ | hlater
    · rw [hhere] at h
      cases h
      exact ⟨htext, hbody⟩
    · rw [hlater] at h
      obtain ⟨⟨front, _, _⟩, hfront, heq⟩ := Option.map_eq_some_iff.1 h
      cases heq
      obtain ⟨htext, hbody⟩ := ih hfront
      exact ⟨congrArg (List.cons c) htext, hbody⟩

theorem hasGroup_iff : HasGroup pattern ↔ (firstGroup? pattern).isSome = true := by
  constructor
  · rintro ⟨head, body, tail, rfl, hbody⟩
    induction head with
    | nil => exact Option.isSome_of_eq_some (firstGroup?_here hbody tail)
    | cons c head ih =>
      rcases firstGroup?_cons c (head ++ '{' :: (body ++ '}' :: tail)) with
        ⟨_, _, -, -, hhere⟩ | hlater
      · exact Option.isSome_of_eq_some hhere
      · rw [List.cons_append, hlater, Option.isSome_map]
        exact ih
  · intro h
    obtain ⟨⟨head, body, tail⟩, hsome⟩ := Option.isSome_iff_exists.1 h
    obtain ⟨hpattern, hbody⟩ := eq_of_firstGroup? hsome
    exact ⟨head, body, tail, hpattern, hbody⟩

theorem dropWhile_isInside_ne (h : '}' ∉ head) (rest tail : List Char) :
    (head ++ '{' :: rest).dropWhile isInside ≠ '}' :: tail := by
  induction head with
  | nil => simp [isInside]
  | cons c head ih =>
    rw [List.mem_cons, not_or] at h
    rw [List.cons_append, List.dropWhile_cons]
    split
    · exact ih h.2
    · intro hcons
      exact h.1 (List.cons.inj hcons).1.symm

/-- Where no brace has been closed, the first group ends at the first brace that is. -/
theorem firstGroup?_of_not_mem (hhead : '}' ∉ head) (hbody : IsPlain body) (tail : List Char) :
    firstGroup? (head ++ '{' :: (body ++ '}' :: tail)) = some (head, body, tail) := by
  induction head with
  | nil => exact firstGroup?_here hbody tail
  | cons c head ih =>
    rw [List.mem_cons, not_or] at hhead
    have hlater := ih hhead.2
    rw [List.cons_append]
    by_cases hc : c = '{'
    · subst hc
      rw [firstGroup?_open (dropWhile_isInside_ne hhead.2 _), hlater]
      rfl
    · rw [firstGroup?_cons_of_ne hc, hlater]
      rfl

/-! ## Rounds of expansion -/

theorem groupCount_open (opened : Nat) (text : List Char) :
    groupCount opened ('{' :: text) = groupCount (opened + 1) text := rfl

theorem groupCount_close (opened : Nat) (text : List Char) :
    groupCount (opened + 1) ('}' :: text) = groupCount opened text + 1 := rfl

theorem groupCount_close_zero (text : List Char) :
    groupCount 0 ('}' :: text) = groupCount 0 text := rfl

theorem groupCount_other (hopen : c ≠ '{') (hclose : c ≠ '}') (opened : Nat) (text : List Char) :
    groupCount opened (c :: text) = groupCount opened text := by
  rw [groupCount.eq_def]
  exact (if_neg hopen).trans (if_neg hclose)

theorem groupCount_append (h : IsPlain text) (opened : Nat) (rest : List Char) :
    groupCount opened (text ++ rest) = groupCount opened rest := by
  induction text with
  | nil => rfl
  | cons c text ih =>
    obtain ⟨hopen, hclose⟩ := h c List.mem_cons_self
    rw [List.cons_append, groupCount_other hopen hclose]
    exact ih fun d hd => h d (List.mem_cons_of_mem c hd)

/-- Expanding a group leaves the other ones. -/
theorem groupCount_expanded {option : List Char} (hbody : IsPlain body) (hoption : IsPlain option)
    (opened : Nat) : groupCount opened (head ++ '{' :: (body ++ '}' :: tail))
      = groupCount opened (head ++ option ++ tail) + 1 := by
  induction head generalizing opened with
  | nil =>
    rw [List.nil_append, List.nil_append, groupCount_open, groupCount_append hbody,
      groupCount_close, groupCount_append hoption]
  | cons c head ih =>
    rw [List.cons_append, List.cons_append, List.cons_append]
    by_cases hopen : c = '{'
    · rw [hopen, groupCount_open, groupCount_open, ih]
    · by_cases hclose : c = '}'
      · subst hclose
        cases opened with
        | zero => rw [groupCount_close_zero, groupCount_close_zero, ih]
        | succ opened => rw [groupCount_close, groupCount_close, ih]
      · rw [groupCount_other hopen hclose, groupCount_other hopen hclose, ih]

theorem groupCount_le (opened : Nat) (text : List Char) :
    groupCount opened text ≤ opened + text.count '{' := by
  induction text generalizing opened with
  | nil => exact Nat.zero_le _
  | cons c text ih =>
    by_cases hopen : c = '{'
    · have := ih (opened + 1)
      rw [hopen, groupCount_open, List.count_cons_self]
      omega
    · rw [List.count_cons_of_ne hopen]
      by_cases hclose : c = '}'
      · subst hclose
        cases opened with
        | zero => exact ih 0
        | succ opened =>
          have := ih opened
          rw [groupCount_close]
          omega
      · rw [groupCount_other hopen hclose]
        exact ih opened

theorem groupCount_of_option {option : List Char}
    (h : firstGroup? pattern = some (head, body, tail))
    (hoption : option ∈ cutAt ',' body) :
    groupCount 0 pattern = groupCount 0 (head ++ option ++ tail) + 1 := by
  obtain ⟨rfl, hbody⟩ := eq_of_firstGroup? h
  exact groupCount_expanded hbody (isPlain_of_mem_cutAt hbody hoption) 0

theorem groupCount_pos (h : firstGroup? pattern = some (head, body, tail)) :
    0 < groupCount 0 pattern := by
  obtain ⟨option, hoption⟩ := List.exists_mem_of_ne_nil _ (cutAt_ne_nil ',' body)
  rw [groupCount_of_option h hoption]
  exact Nat.succ_pos _

theorem expandUpTo_of_none (h : firstGroup? pattern = none) (rounds : Nat) :
    expandUpTo rounds pattern = [pattern] := by
  cases rounds with
  | zero => rfl
  | succ rounds => rw [expandUpTo, h]

/-- With a round for each group, further rounds change nothing. -/
theorem expandUpTo_congr {rounds more : Nat} (h : groupCount 0 pattern ≤ rounds)
    (hmore : groupCount 0 pattern ≤ more) :
    expandUpTo rounds pattern = expandUpTo more pattern := by
  induction rounds generalizing pattern more with
  | zero =>
    cases hgroup : firstGroup? pattern with
    | none => rw [expandUpTo_of_none hgroup, expandUpTo_of_none hgroup]
    | some group => exact absurd (groupCount_pos hgroup) (by omega)
  | succ rounds ih =>
    cases hgroup : firstGroup? pattern with
    | none => rw [expandUpTo_of_none hgroup, expandUpTo_of_none hgroup]
    | some group =>
      have hpos := groupCount_pos hgroup
      obtain ⟨more, rfl⟩ := Nat.exists_eq_succ_of_ne_zero (Nat.ne_of_gt (by omega : 0 < more))
      rw [expandUpTo, expandUpTo, hgroup]
      refine List.flatMap_congr fun option hoption => ?_
      have hcount := groupCount_of_option hgroup hoption
      exact ih (by omega) (by omega)

theorem expandUpTo_eq {rounds : Nat} (h : groupCount 0 pattern ≤ rounds) :
    expandUpTo rounds pattern = expandBraces pattern :=
  expandUpTo_congr h (by simpa using groupCount_le 0 pattern)

/-- A group is replaced by each of its options, and what comes out is expanded. -/
theorem expandBraces_of_group (h : firstGroup? pattern = some (head, body, tail)) :
    expandBraces pattern
      = (cutAt ',' body).flatMap fun option => expandBraces (head ++ option ++ tail) := by
  rw [← expandUpTo_eq (Nat.le_succ (groupCount 0 pattern)), expandUpTo, h]
  refine List.flatMap_congr fun option hoption => ?_
  have := groupCount_of_option h hoption
  exact expandUpTo_eq (by omega)

theorem expandBraces_of_none (h : firstGroup? pattern = none) : expandBraces pattern = [pattern] :=
  expandUpTo_of_none h _

theorem expandBraces_of_isPlain (h : IsPlain text) : expandBraces text = [text] := by
  apply expandBraces_of_none
  cases hgroup : firstGroup? text with
  | none => rfl
  | some group =>
    obtain ⟨head, body, tail⟩ := group
    obtain ⟨htext, -⟩ := eq_of_firstGroup? hgroup
    have hopen : '{' ∈ text := by rw [htext]; simp
    exact absurd rfl (h '{' hopen).1

/-- Nothing is left to be expanded. -/
theorem not_hasGroup_of_mem (h : text ∈ expandBraces pattern) : ¬ HasGroup text := by
  induction hcount : groupCount 0 pattern using Nat.strongRecOn generalizing pattern with
  | ind count ih =>
    cases hgroup : firstGroup? pattern with
    | none =>
      rw [expandBraces_of_none hgroup, List.mem_singleton] at h
      rw [hasGroup_iff, h, hgroup]
      exact Bool.false_ne_true
    | some group =>
      obtain ⟨head, body, tail⟩ := group
      rw [expandBraces_of_group hgroup, List.mem_flatMap] at h
      obtain ⟨option, hoption, h⟩ := h
      have := groupCount_of_option hgroup hoption
      exact ih _ (by omega) h rfl

end

/-! ## Expressions -/

/-- A character that stands for itself: no brace, and in a group no comma. -/
def IsLiteral (inGroup : Bool) (c : Char) : Prop :=
  c ≠ '{' ∧ c ≠ '}' ∧ (inGroup = true → c ≠ ',')

/-- A pattern with its groups. A group has one option or more, and in each of them there may be
groups again. -/
inductive Expression : (inGroup : Bool) → Type where
  | literal {inGroup : Bool} (text : List Char) (h : ∀ c ∈ text, IsLiteral inGroup c) :
    Expression inGroup
  | append {inGroup : Bool} (left right : Expression inGroup) : Expression inGroup
  | group {inGroup : Bool} (first : Expression true) (others : List (Expression true)) :
    Expression inGroup

namespace Expression

mutual

/-- The pattern as it is written, in front of a text. -/
def write {inGroup : Bool} : Expression inGroup → List Char → List Char
  | literal text _, rest => text ++ rest
  | append left right, rest => left.write (right.write rest)
  | group first others, rest => '{' :: first.write (writeOptions others ('}' :: rest))

/-- The options behind the first one. -/
def writeOptions : List (Expression true) → List Char → List Char
  | [], rest => rest
  | option :: options, rest => ',' :: option.write (writeOptions options rest)

end

mutual

/-- How many groups there are. -/
def groups {inGroup : Bool} : Expression inGroup → Nat
  | literal _ _ => 0
  | append left right => left.groups + right.groups
  | group first others => first.groups + groupsOfOptions others + 1

def groupsOfOptions : List (Expression true) → Nat
  | [] => 0
  | option :: options => option.groups + groupsOfOptions options

end

/-- The text comes of choosing one option in every group. -/
inductive Chooses : {inGroup : Bool} → Expression inGroup → List Char → Prop where
  | literal {inGroup : Bool} {text : List Char} {h : ∀ c ∈ text, IsLiteral inGroup c} :
    Chooses (.literal text h) text
  | append {inGroup : Bool} {left right : Expression inGroup} {text other : List Char}
    (hleft : Chooses left text) (hright : Chooses right other) :
    Chooses (.append left right) (text ++ other)
  | group {inGroup : Bool} {first option : Expression true} {others : List (Expression true)}
    {text : List Char} (hmem : option ∈ first :: others) (hoption : Chooses option text) :
    Chooses (.group first others : Expression inGroup) text

theorem isPlain_of_isLiteral {inGroup : Bool} {text : List Char}
    (h : ∀ c ∈ text, IsLiteral inGroup c) : IsPlain text :=
  fun c hc => ⟨(h c hc).1, (h c hc).2.1⟩

namespace Chooses

variable {inGroup : Bool} {expression : Expression inGroup} {text : List Char}

theorem isLiteral (h : Chooses expression text) : ∀ c ∈ text, IsLiteral inGroup c := by
  induction h with
  | literal => assumption
  | append _ _ hleft hright =>
    intro c hc
    rcases List.mem_append.1 hc with hc | hc
    · exact hleft c hc
    · exact hright c hc
  | group _ _ hoption =>
    intro c hc
    obtain ⟨hopen, hclose, hcomma⟩ := hoption c hc
    exact ⟨hopen, hclose, fun _ => hcomma rfl⟩

theorem isPlain (h : Chooses expression text) : IsPlain text := isPlain_of_isLiteral h.isLiteral

theorem comma_not_mem {option : Expression true} (h : Chooses option text) : ',' ∉ text :=
  fun hc => (h.isLiteral ',' hc).2.2 rfl rfl

end Chooses

/-- In every group there is an option to choose. -/
theorem exists_chooses {inGroup : Bool} : ∀ expression : Expression inGroup,
    ∃ text, Chooses expression text
  | literal text _ => ⟨text, .literal⟩
  | append left right => by
    obtain ⟨text, hleft⟩ := exists_chooses left
    obtain ⟨other, hright⟩ := exists_chooses right
    exact ⟨text ++ other, .append hleft hright⟩
  | group first others => by
    obtain ⟨text, hfirst⟩ := exists_chooses first
    exact ⟨text, .group List.mem_cons_self hfirst⟩

/-! ## How many groups there are -/

mutual

theorem groupCount_write {inGroup : Bool} (expression : Expression inGroup) (opened : Nat)
    (rest : List Char) : groupCount opened (expression.write rest)
      = expression.groups + groupCount opened rest := by
  match expression with
  | literal text h =>
    rw [write, groups, groupCount_append (isPlain_of_isLiteral h), Nat.zero_add]
  | append left right =>
    rw [write, groups, groupCount_write left, groupCount_write right, Nat.add_assoc]
  | group first others =>
    rw [write, groups, groupCount_open, groupCount_write first, groupCount_writeOptions others,
      groupCount_close]
    omega

theorem groupCount_writeOptions (options : List (Expression true)) (opened : Nat)
    (rest : List Char) : groupCount opened (writeOptions options rest)
      = groupsOfOptions options + groupCount opened rest := by
  match options with
  | [] => rw [writeOptions, groupsOfOptions, Nat.zero_add]
  | option :: options =>
    rw [writeOptions, groupsOfOptions, groupCount_other (by decide) (by decide),
      groupCount_write option, groupCount_writeOptions options, Nat.add_assoc]

end

/-! ## Choosing and expanding -/

/-- The alternatives of a pattern in which one choice of the expression stands in its place. -/
def ComesOf {inGroup : Bool} (expression : Expression inGroup) (head tail text : List Char) :
    Prop :=
  ∃ chosen, Chooses expression chosen ∧ text ∈ expandBraces (head ++ (chosen ++ tail))

theorem comesOf_group {inGroup : Bool} {first : Expression true} {others : List (Expression true)}
    {head tail text : List Char} :
    ComesOf (.group first others : Expression inGroup) head tail text ↔
      ∃ option ∈ first :: others, ComesOf option head tail text := by
  constructor
  · rintro ⟨chosen, ⟨⟩, htext⟩
    rename_i option hoption hchosen
    exact ⟨option, hoption, chosen, hchosen, htext⟩
  · rintro ⟨option, hoption, chosen, hchosen, htext⟩
    exact ⟨chosen, .group hoption hchosen, htext⟩

/-- Whatever is chosen in one option, the other ones can be taken as well. -/
theorem exists_chosen_iff {option : Expression true} {head tail text : List Char}
    (before : List (List Char)) (behind : Prop) :
    (∃ chosen, Chooses option chosen ∧
      ((∃ choice ∈ before ++ [chosen], text ∈ expandBraces (head ++ (choice ++ tail))) ∨ behind)) ↔
    (∃ choice ∈ before, text ∈ expandBraces (head ++ (choice ++ tail))) ∨
      ComesOf option head tail text ∨ behind := by
  constructor
  · rintro ⟨chosen, hchosen, ⟨choice, hchoice, htext⟩ | hbehind⟩
    · rcases List.mem_append.1 hchoice with hchoice | hchoice
      · exact .inl ⟨choice, hchoice, htext⟩
      · obtain rfl := List.mem_singleton.1 hchoice
        exact .inr (.inl ⟨choice, hchosen, htext⟩)
    · exact .inr (.inr hbehind)
  · rintro (⟨choice, hchoice, htext⟩ | ⟨chosen, hchosen, htext⟩ | hbehind)
    · obtain ⟨chosen, hchosen⟩ := exists_chooses option
      exact ⟨chosen, hchosen, .inl ⟨choice, List.mem_append_left _ hchoice, htext⟩⟩
    · exact ⟨chosen, hchosen, .inl ⟨chosen, List.mem_append_right _ (by simp), htext⟩⟩
    · obtain ⟨chosen, hchosen⟩ := exists_chooses option
      exact ⟨chosen, hchosen, .inr hbehind⟩

mutual

/-- Behind a text in which nothing is closed, an expression can be expanded on its own. -/
theorem mem_expandBraces_write {inGroup : Bool} (expression : Expression inGroup)
    {head : List Char} (hhead : '}' ∉ head) (tail text : List Char) :
    text ∈ expandBraces (head ++ expression.write tail) ↔ ComesOf expression head tail text := by
  match expression with
  | literal chosen h =>
    rw [write]
    constructor
    · exact fun htext => ⟨chosen, .literal, htext⟩
    · rintro ⟨_, ⟨⟩, htext⟩
      exact htext
  | append left right =>
    rw [write, mem_expandBraces_write left hhead]
    have hright : ∀ {chosen}, Chooses left chosen →
        (text ∈ expandBraces (head ++ (chosen ++ right.write tail)) ↔
          ComesOf right (head ++ chosen) tail text) := by
      intro chosen hchosen
      rw [← List.append_assoc]
      refine mem_expandBraces_write right ?_ tail text
      rw [List.mem_append, not_or]
      exact ⟨hhead, fun hclose => (hchosen.isPlain '}' hclose).2 rfl⟩
    constructor
    · rintro ⟨chosen, hleft, htext⟩
      obtain ⟨other, hother, htext⟩ := (hright hleft).1 htext
      exact ⟨chosen ++ other, .append hleft hother, by simpa only [List.append_assoc] using htext⟩
    · rintro ⟨_, ⟨⟩, htext⟩
      rename_i chosen other hleft hother
      exact ⟨chosen, hleft, (hright hleft).2
        ⟨other, hother, by simpa only [List.append_assoc] using htext⟩⟩
  | group first others =>
    have hopen : '}' ∉ head ++ ['{'] := by simpa using hhead
    have hfirst := mem_expandBraces_write first hopen (writeOptions others ('}' :: tail)) text
    rw [List.append_assoc, List.singleton_append] at hfirst
    rw [write, hfirst, comesOf_group, List.exists_mem_cons_iff]
    refine (exists_congr fun chosen => and_congr_right fun hchosen => ?_).trans
      ((exists_chosen_iff [] _).trans (or_iff_right (by simp)))
    have hothers := mem_expandBraces_writeOptions others hhead hchosen.isPlain tail text
    rwa [cutAt_of_not_mem hchosen.comma_not_mem, ← List.singleton_append, ← List.append_assoc]
      at hothers

theorem mem_expandBraces_writeOptions (options : List (Expression true)) {head body : List Char}
    (hhead : '}' ∉ head) (hbody : IsPlain body) (tail text : List Char) :
    text ∈ expandBraces (head ++ '{' :: (body ++ writeOptions options ('}' :: tail))) ↔
      (∃ option ∈ cutAt ',' body, text ∈ expandBraces (head ++ (option ++ tail))) ∨
        ∃ option ∈ options, ComesOf option head tail text := by
  match options with
  | [] =>
    rw [writeOptions, expandBraces_of_group (firstGroup?_of_not_mem hhead hbody tail)]
    simp [List.append_assoc]
  | option :: options =>
    have hcomma : '}' ∉ head ++ '{' :: (body ++ [',']) := by
      simpa [hhead] using fun hclose => (hbody '}' hclose).2 rfl
    have hoption := mem_expandBraces_write option hcomma (writeOptions options ('}' :: tail)) text
    simp only [List.append_assoc, List.cons_append, List.nil_append] at hoption
    rw [writeOptions, hoption, List.exists_mem_cons_iff]
    refine (exists_congr fun chosen => and_congr_right fun hchosen => ?_).trans
      (exists_chosen_iff (cutAt ',' body) _)
    have hoptions := mem_expandBraces_writeOptions options hhead
      (hbody.append (isPlain_comma hchosen.isPlain)) tail text
    rw [cutAt_append_cons, cutAt_of_not_mem hchosen.comma_not_mem] at hoptions
    simpa only [List.append_assoc, List.cons_append, List.nil_append] using hoptions

end

theorem mem_expandBraces_iff (expression : Expression false) (text : List Char) :
    text ∈ expandBraces (expression.write []) ↔ Chooses expression text := by
  have hhead : '}' ∉ ([] : List Char) := List.not_mem_nil
  have h := mem_expandBraces_write expression hhead [] text
  rw [List.nil_append] at h
  rw [h]
  constructor
  · rintro ⟨chosen, hchosen, htext⟩
    rw [List.nil_append, List.append_nil, expandBraces_of_isPlain hchosen.isPlain,
      List.mem_singleton] at htext
    exact htext ▸ hchosen
  · intro hchosen
    refine ⟨text, hchosen, ?_⟩
    rw [List.nil_append, List.append_nil, expandBraces_of_isPlain hchosen.isPlain]
    exact List.mem_singleton_self text

theorem isShallow_write {inGroup : Bool} (room : Nat) (expression : Expression inGroup) :
    isShallow room (expression.write []) = decide (expression.groups ≤ room) := by
  have hcount := groupCount_write expression 0 []
  rw [groupCount, Nat.add_zero] at hcount
  rw [isShallow, hcount]

theorem alternatives_of_lt {inGroup : Bool} {room : Nat} {expression : Expression inGroup}
    (h : room < expression.groups) :
    alternatives room (expression.write []) = .error .tooDeep := by
  rw [alternatives, isShallow_write, if_neg (by simpa using h)]

end Expression

/-! ## The alternatives -/

/-- The alternatives of an expression are the texts that come of choosing one option in every
group, wherever there is room for its groups; nowhere else are there any. Those of any text have no
group left in them; the rounds that they take are at most as many as the groups that the text has.
-/
theorem alternatives_are_choices (room : Nat) :
    (∀ expression : Expression false,
      (expression.groups ≤ room → ∃ texts, alternatives room (expression.write []) = .ok texts ∧
        ∀ text, text ∈ texts ↔ expression.Chooses text) ∧
      (room < expression.groups →
        alternatives room (expression.write []) = .error .tooDeep)) ∧
    (∀ pattern,
      (∃ texts, alternatives room pattern = .ok texts ∧ ∀ text ∈ texts, ¬ HasGroup text) ∨
      (alternatives room pattern = .error .tooDeep ∧ room < groupCount 0 pattern)) ∧
    ∀ pattern more, expandUpTo (groupCount 0 pattern + more) pattern = expandBraces pattern := by
  refine ⟨fun expression => ⟨fun h => ?_, Expression.alternatives_of_lt⟩, fun pattern => ?_,
    fun pattern more => expandUpTo_eq (Nat.le_add_right _ more)⟩
  · refine ⟨_, ?_, expression.mem_expandBraces_iff⟩
    rw [alternatives, Expression.isShallow_write, if_pos (by simpa using h)]
  · unfold alternatives
    by_cases hshallow : isShallow room pattern
    · exact .inl ⟨_, if_pos hshallow, fun text => not_hasGroup_of_mem⟩
    · refine .inr ⟨if_neg hshallow, ?_⟩
      simpa [isShallow] using hshallow

/-- Groups of one option, one behind the other. -/
def manyGroups : Nat → Expression false
  | 0 => .literal [] (by simp)
  | n + 1 => .append (.group (.literal ['a'] (by simp [IsLiteral])) []) (manyGroups n)

theorem groups_manyGroups (n : Nat) : (manyGroups n).groups = n := by
  induction n with
  | zero => rfl
  | succ n ih =>
    show 0 + 0 + 1 + (manyGroups n).groups = n + 1
    omega

theorem chooses_manyGroups (n : Nat) : (manyGroups n).Chooses (List.replicate n 'a') := by
  induction n with
  | zero => exact .literal
  | succ n ih => exact .append (.group List.mem_cons_self .literal) ih

/-- There is a text to choose, but no room for the groups that it is chosen in. -/
theorem alternatives_manyGroups : (manyGroups 1100).Chooses (List.replicate 1100 'a') ∧
    alternatives 1000 ((manyGroups 1100).write []) = .error .tooDeep := by
  refine ⟨chooses_manyGroups 1100, Expression.alternatives_of_lt ?_⟩
  rw [groups_manyGroups]
  decide

/-- An option with a group in it. -/
example : expandBraces "a\x7b,b\x7bc,d\x7d\x7d".toList
    = ["a".toList, "abc".toList, "a".toList, "abd".toList] := by decide

end UsageCensus.Glob
