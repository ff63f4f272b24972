import UsageCensus.Proofs.Source.WrapperHeads
import Mathlib.Data.List.Nodup

/-!
# Documents of styled wrappers

A document is written as wrappers, one behind the other, each with a template or a call behind its
head. They are found once each, templates first, with what is written in them and with the line on
which they begin (`styledUsages_written`): a wrapper is read where its head begins, and neither the
other form nor the text of a template or of a call is taken for one.
-/

namespace UsageCensus.Source

open UsageCensus.Text

/-- The usage that a wrapper behind a text is. -/
def StyledUsage.behind (before : List Char) (target : Styled.Target) (inner : List Char) :
    StyledUsage where
  target := target
  content := String.ofList (trim inner)
  properties := templateProperties (String.ofList (trim inner))
  line := before.count '\n' + 1

theorem StyledUsage.ofFound_behind (before rest : List Char) (stop : Nat) (target : Styled.Target)
    (inner : List Char) :
    StyledUsage.ofFound (.ofText (before ++ rest)) ⟨before.length, stop, (target, inner)⟩
      = .behind before target inner := by
  rw [ofFound, behind, LineIndex.lineAt_ofText, lineNumber, Int.toNat_natCast, List.take_left]

namespace Styled

/-! ## Balanced parentheses -/

/-- Every parenthesis that is closed was opened before, and every opened one is closed. -/
def IsNested (text : List Char) : Prop :=
  (∀ front, front <+: text → front.count ')' ≤ front.count '(') ∧ text.count ')' = text.count '('

instance (text : List Char) : Decidable (IsNested text) :=
  decidable_of_iff ((∀ front ∈ text.inits, front.count ')' ≤ front.count '(') ∧
    text.count ')' = text.count '(') (by simp only [List.mem_inits, IsNested])

theorem parenBody_open (depth : Nat) (text : List Char) :
    parenBody depth ('(' :: text) = '(' :: parenBody (depth + 1) text := by
  cases depth <;> rfl

theorem parenBody_close (depth : Nat) (text : List Char) :
    parenBody (depth + 1) (')' :: text) = ')' :: parenBody depth text := rfl

theorem parenBody_other {c : Char} (hopen : c ≠ '(') (hclose : c ≠ ')') (depth : Nat)
    (text : List Char) : parenBody depth (c :: text) = c :: parenBody depth text := by
  cases depth <;> simp only [parenBody, if_neg hopen, if_neg hclose]

/-- Where no parenthesis is closed that was not opened, the body goes on. -/
theorem parenBody_append {opened : Nat} {text : List Char}
    (h : ∀ front, front <+: text → front.count ')' ≤ opened + front.count '(') (rest : List Char) :
    parenBody opened (text ++ rest)
      = text ++ parenBody (opened + text.count '(' - text.count ')') rest := by
  induction text generalizing opened with
  | nil => rfl
  | cons c text ih =>
    have hfront : ∀ front, front <+: text →
        (c :: front).count ')' ≤ opened + (c :: front).count '(' :=
      fun front hfront => h (c :: front) (List.cons_prefix_cons.2 ⟨rfl, hfront⟩)
    by_cases hopen : c = '('
    · subst hopen
      simp only [List.count_cons, beq_self_eq_true, if_true, beq_iff_eq, Char.reduceEq, if_false,
        Nat.add_zero] at hfront ⊢
      have hmore : parenBody (opened + 1) (text ++ rest)
          = text ++ parenBody (opened + 1 + text.count '(' - text.count ')') rest :=
        ih fun front hf => by have := hfront front hf; omega
      rw [List.cons_append, parenBody_open, hmore, Nat.add_right_comm, Nat.add_assoc]
      rfl
    · by_cases hclose : c = ')'
      · subst hclose
        simp only [List.count_cons, beq_self_eq_true, if_true, beq_iff_eq, Char.reduceEq, if_false,
          Nat.add_zero] at hfront ⊢
        have hfirst := hfront [] List.nil_prefix
        simp only [List.count_nil, Nat.zero_add, Nat.add_zero] at hfirst
        obtain ⟨before, rfl⟩ := Nat.exists_eq_add_of_le' hfirst
        have hless : parenBody before (text ++ rest)
            = text ++ parenBody (before + text.count '(' - text.count ')') rest :=
          ih fun front hf => by have := hfront front hf; omega
        have hopened : before + 1 + text.count '(' - (text.count ')' + 1)
            = before + text.count '(' - text.count ')' := by omega
        rw [List.cons_append, parenBody_close, hless, hopened]
        rfl
      · simp only [List.count_cons, beq_iff_eq, hopen, hclose, if_false, Nat.add_zero] at hfront ⊢
        rw [List.cons_append, parenBody_other hopen hclose, ih hfront]
        rfl

theorem parenBody_nested {text : List Char} (h : IsNested text) (rest : List Char) :
    parenBody 0 (text ++ ')' :: rest) = text := by
  have hfront : ∀ front, front <+: text → front.count ')' ≤ 0 + front.count '(' := by
    simpa only [Nat.zero_add] using h.1
  rw [parenBody_append hfront, h.2, Nat.zero_add, Nat.sub_self]
  exact List.append_nil text

/-! ## Looks as they are written -/

/-- The two forms of a look. -/
inductive LookForm where
  | template
  | call
  deriving Repr, DecidableEq

namespace LookForm

def read? : LookForm → List Char → Option (List Char × List Char)
  | template => readTemplate?
  | call => readCall?

def opener : LookForm → Char
  | template => '\x60'
  | call => '('

def closer : LookForm → Char
  | template => '\x60'
  | call => ')'

/-- The text can stand in a look of the form. -/
def Fits : LookForm → List Char → Prop
  | template, text => '\x60' ∉ text
  | call, text => IsNested text

instance (form : LookForm) (text : List Char) : Decidable (form.Fits text) :=
  match form with
  | template => inferInstanceAs (Decidable ('\x60' ∉ text))
  | call => inferInstanceAs (Decidable (IsNested text))

theorem isMark_closer (form : LookForm) : IsMark form.closer := by cases form <;> decide

theorem opener_ne (form : LookForm) : form.opener ≠ 's' := by cases form <;> decide

/-- A look is not read as one of the other form. -/
theorem read?_of_ne {form other : LookForm} (h : form ≠ other) (text : List Char) :
    other.read? (form.opener :: text) = none := by
  cases form <;> cases other <;> first | rfl | exact absurd rfl h

theorem lookBehind_opener (form : LookForm) (text : List Char) :
    lookBehind (form.opener :: text) = form.opener :: text := by
  cases form <;> rfl

end LookForm

theorem readTemplate?_text {css : List Char} (h : '\x60' ∉ css) (rest : List Char) :
    readTemplate? ('\x60' :: (css ++ '\x60' :: rest)) = some (css, rest) := by
  rw [readTemplate?]
  simp only [one?, beq_self_eq_true, if_true, Option.bind_eq_bind, Option.bind_some,
    takeWhile_ne_append h, dropWhile_ne_append h]
  rfl

/-- A look: what stands between two backticks, or in parentheses. No wrapper begins in it. -/
structure WrittenLook where
  form : LookForm
  inner : List Char
  fits : form.Fits inner
  plain : ¬ opening <:+: inner

namespace WrittenLook

def text (look : WrittenLook) : List Char := look.form.opener :: (look.inner ++ [look.form.closer])

theorem lookBehind_text (look : WrittenLook) (rest : List Char) :
    lookBehind (look.text ++ rest) = look.text ++ rest :=
  look.form.lookBehind_opener _

/-- No wrapper is read in a look. -/
theorem silent_text (look : WrittenLook) (names : List String)
    (look? : List Char → Option (List Char × List Char)) (rest : List Char) :
    Silent (Styled.read? names look?) look.text rest := by
  have hplain : ¬ opening <:+: look.form.opener :: look.inner := by
    intro hinfix
    rcases List.infix_cons_iff.1 hinfix with hprefix | hinfix
    · exact look.form.opener_ne (List.cons_prefix_cons.1 hprefix).1.symm
    · exact look.plain hinfix
  exact silent_of_no_opening look.form.isMark_closer hplain

theorem text_append (look : WrittenLook) (rest : List Char) :
    look.text ++ rest = look.form.opener :: (look.inner ++ look.form.closer :: rest) := by
  simp [text]

/-- A look is read as one of its form. Of a call the text in the parentheses is left. -/
theorem exists_read?_text (look : WrittenLook) : ∃ front back, look.text = front ++ back ∧
    ∀ rest, look.form.read? (look.text ++ rest) = some (look.inner, back ++ rest) := by
  obtain ⟨form, inner, fits, plain⟩ := look
  cases form with
  | template =>
    refine ⟨_, [], (List.append_nil _).symm, fun rest => ?_⟩
    rw [text_append]
    exact readTemplate?_text fits rest
  | call =>
    refine ⟨['('], inner ++ [')'], rfl, fun rest => ?_⟩
    rw [text_append]
    show some (parenBody 0 (inner ++ ')' :: rest), inner ++ ')' :: rest) = _
    rw [parenBody_nested fits, List.append_assoc]
    rfl

end WrittenLook

/-! ## Documents -/

/-- Blanks and semicolons, as they stand between statements. -/
structure Spacing where
  chars : List Char
  spacing : ∀ c ∈ chars, isBlank c = true ∨ c = ';'

def Spacing.none : Spacing := ⟨[], by simp⟩

theorem Spacing.silent (space : Spacing) (names : List String)
    (look? : List Char → Option (List Char × List Char)) (rest : List Char) :
    Silent (read? names look?) space.chars rest := by
  apply silent_of_forall
  intro c hc
  apply read?_cons_eq_none
  rintro hfirst
  simp only [firsts, List.mem_cons, List.not_mem_nil, or_false] at hfirst
  rcases space.spacing c hc with hblank | rfl
  · rcases hfirst with rfl | rfl | rfl | rfl | rfl <;> exact absurd hblank (by decide)
  · exact absurd hfirst (by decide)

/-- A wrapper of one of the components, behind some space. -/
structure Statement (components : List String) where
  space : Spacing
  head : WrittenHead components
  look : WrittenLook

namespace Statement

variable {components : List String}

def text (statement : Statement components) : List Char :=
  statement.space.chars ++ (statement.head.text ++ statement.look.text)

/-- The usage that the statement is behind a text. -/
def usageBehind (before : List Char) (statement : Statement components) : StyledUsage :=
  .behind (before ++ statement.space.chars) statement.head.target statement.look.inner

/-- The document that is written as the statements, with some space at its end. -/
def document (statements : List (Statement components)) (ending : Spacing) : List Char :=
  statements.flatMap text ++ ending.chars

/-- The usages that the statements with looks of the form are behind a text. -/
def usages (form : LookForm) (before : List Char) : List (Statement components) → List StyledUsage
  | [] => []
  | statement :: statements =>
    (if statement.look.form = form then [statement.usageBehind before] else [])
      ++ usages form (before ++ statement.text) statements

section

variable (hnames : ∀ name ∈ components, IsTagName name)

include hnames

/-- Behind its space a statement is found as one of the form of its look. -/
theorem exists_found_text (statement : Statement components) (at_ : Nat) (rest : List Char) :
    ∃ stop, found (read? (searchOrder components) statement.look.form.read?) at_
        (statement.text ++ rest)
      = ⟨at_ + statement.space.chars.length, stop, statement.head.target, statement.look.inner⟩
        :: found (read? (searchOrder components) statement.look.form.read?)
          (at_ + statement.text.length) rest := by
  obtain ⟨space, head, look⟩ := statement
  obtain ⟨front, back, htext, hread⟩ := look.exists_read?_text
  have hlook : look.form.read? (lookBehind (front ++ (back ++ rest)))
      = some (look.inner, back ++ rest) := by
    rw [← List.append_assoc, ← htext, look.lookBehind_text, hread]
  have hback : Silent (read? (searchOrder components) look.form.read?) back rest := by
    have hsilent := look.silent_text (searchOrder components) look.form.read? rest
    rw [htext] at hsilent
    exact hsilent.behind
  have hsplit : space.chars ++ (head.text ++ look.text) ++ rest
      = space.chars ++ (head.text ++ (front ++ (back ++ rest))) := by
    simp only [htext, List.append_assoc]
  have hlength : at_ + space.chars.length + (head.text ++ front).length + back.length
      = at_ + (space.chars ++ (head.text ++ look.text)).length := by
    simp only [htext, List.length_append]
    omega
  refine ⟨at_ + space.chars.length + (head.text ++ front).length, ?_⟩
  show found _ at_ (space.chars ++ (head.text ++ look.text) ++ rest) = _
  rw [hsplit, found_of_silent (space.silent _ _ _), head.found_text hnames hlook,
    found_of_silent hback, hlength]
  rfl

/-- As one of the other form it is not found. -/
theorem found_text_of_ne {form : LookForm} {statement : Statement components}
    (h : statement.look.form ≠ form) (at_ : Nat) (rest : List Char) :
    found (read? (searchOrder components) form.read?) at_ (statement.text ++ rest)
      = found (read? (searchOrder components) form.read?) (at_ + statement.text.length) rest := by
  obtain ⟨space, head, look⟩ := statement
  have hread : form.read? (lookBehind (look.text ++ rest)) = none := by
    rw [look.lookBehind_text]
    exact LookForm.read?_of_ne h _
  have hsplit : space.chars ++ (head.text ++ look.text) ++ rest
      = space.chars ++ (head.text ++ (look.text ++ rest)) := by
    simp only [List.append_assoc]
  show found _ at_ (space.chars ++ (head.text ++ look.text) ++ rest) = _
  rw [hsplit, found_of_silent (space.silent _ _ _), head.found_text_of_none hnames hread,
    found_of_silent (look.silent_text _ _ rest)]
  simp only [text, List.length_append, Nat.add_assoc]

/-- Behind a text, a document is found statement by statement. -/
theorem found_document (form : LookForm) (before : List Char)
    (statements : List (Statement components)) (ending : Spacing) :
    (found (read? (searchOrder components) form.read?) before.length
        (document statements ending)).map
        (StyledUsage.ofFound (.ofText (before ++ document statements ending)))
      = usages form before statements := by
  induction statements generalizing before with
  | nil =>
    have hending : found (read? (searchOrder components) form.read?) before.length ending.chars
        = [] := found_of_silent_nil (ending.silent _ _ [])
    show (found _ _ ending.chars).map _ = []
    rw [hending]
    rfl
  | cons statement statements ih =>
    have hdocument : document (statement :: statements) ending
        = statement.text ++ document statements ending := List.append_assoc _ _ _
    have hlater := ih (before ++ statement.text)
    rw [List.length_append, List.append_assoc] at hlater
    rw [hdocument, usages]
    by_cases hform : statement.look.form = form
    · subst hform
      obtain ⟨stop, hfound⟩ := statement.exists_found_text hnames before.length
        (document statements ending)
      have hcontent : before ++ (statement.text ++ document statements ending)
          = (before ++ statement.space.chars)
            ++ ((statement.head.text ++ statement.look.text) ++ document statements ending) := by
        simp only [text, List.append_assoc]
      have husage := StyledUsage.ofFound_behind (before ++ statement.space.chars)
        ((statement.head.text ++ statement.look.text) ++ document statements ending) stop
        statement.head.target statement.look.inner
      rw [← hcontent, List.length_append] at husage
      rw [hfound, if_pos rfl, List.map_cons, hlater, husage]
      rfl
    · rw [found_text_of_ne hnames hform, if_neg hform]
      exact hlater

end

theorem exists_of_mem_usages {form : LookForm} {before : List Char}
    {statements : List (Statement components)} {usage : StyledUsage}
    (h : usage ∈ usages form before statements) :
    ∃ statement ∈ statements,
      statement.look.form = form ∧ usage.target = statement.head.target := by
  induction statements generalizing before with
  | nil => cases h
  | cons statement statements ih =>
    rcases List.mem_append.1 h with h | h
    · split at h
      · rename_i hform
        rw [List.mem_singleton.1 h]
        exact ⟨statement, List.mem_cons_self, hform, rfl⟩
      · cases h
    · obtain ⟨other, hother, hspec⟩ := ih h
      exact ⟨other, List.mem_cons_of_mem statement hother, hspec⟩

/-- A call is not taken for a template that was found: their names differ. -/
theorem target_not_mem_templates {statements : List (Statement components)}
    (hdistinct : (statements.map fun statement => statement.head.name.chars).Nodup)
    {before : List Char} {usage : StyledUsage} (h : usage ∈ usages .call before statements) :
    usage.target ∉ (usages .template before statements).map StyledUsage.target := by
  intro hmem
  obtain ⟨seen, hseen, htarget⟩ := List.mem_map.1 hmem
  obtain ⟨call, hcall, hform, husage⟩ := exists_of_mem_usages h
  obtain ⟨template, htemplate, hform', hseen⟩ := exists_of_mem_usages hseen
  rw [hseen, husage] at htarget
  have hname : template.head.name.chars = call.head.name.chars :=
    String.ofList_injective (Option.some.inj (congrArg Target.variableName htarget))
  rw [List.inj_on_of_nodup_map hdistinct htemplate hcall hname, hform] at hform'
  cases hform'

/-- Wrappers with different names are all found, once each: those with a template, then those with a
call, each with its component, its name, the trimmed text of its look and the line it begins on. -/
theorem styledUsages_written {components : List String}
    (hnames : ∀ name ∈ components, IsTagName name) (statements : List (Statement components))
    (hdistinct : (statements.map fun statement => statement.head.name.chars).Nodup)
    (ending : Spacing) :
    styledUsages components (document statements ending)
      = usages .template [] statements ++ usages .call [] statements := by
  have hform : ∀ form : LookForm, usagesBy form.read? components (document statements ending)
      = usages form [] statements := fun form => found_document hnames form [] statements ending
  have hcalls : (usages .call [] statements).filter (fun usage =>
      !((usages .template [] statements).map StyledUsage.target).contains usage.target)
        = usages .call [] statements := by
    apply List.filter_eq_self.2
    intro usage husage
    have hnew := target_not_mem_templates hdistinct husage
    simpa only [Bool.not_eq_true', List.contains_eq_mem, decide_eq_false_iff_not] using hnew
  rcases eq_or_ne components [] with rfl | hne
  · cases statements with
    | nil => simp [styledUsages, searchOrder, usages]
    | cons statement statements => cases statement.head.known
  · rw [styledUsages_eq hne hnames, ← hcalls, ← hform .template, ← hform .call]
    rfl

/-- A call with parentheses and backticks in it, and a template behind it. -/
def rowStatements : List (Statement ["Card"]) :=
  [{ space := .none
     head := .spaced false ['l', 'e', 't'] (by decide)
      ⟨['R', 'o', 'w'], forall_mem_of_all (by decide), by decide⟩ "Card" (by decide)
     look := ⟨.call, "p => (f(`a`))".toList, by decide, by decide⟩ },
   { space := ⟨['\n'], forall_mem_of_all (by decide)⟩
     head := .spaced true ['v', 'a', 'r'] (by decide)
      ⟨['B', 'i', 'g'], forall_mem_of_all (by decide), by decide⟩ "Card" (by decide)
     look := ⟨.template, "\n  color: red;\n".toList, by decide, by decide⟩ }]

theorem styledUsages_rowStatements :
    (∀ name ∈ ["Card"], IsTagName name) ∧
      (rowStatements.map fun statement => statement.head.name.chars).Nodup ∧
      String.ofList (document rowStatements .none) =
        "let Row = styled(Card)(p => (f(`a`)))\nexport var Big = styled(Card)`\n  color: red;\n`" ∧
      styledUsages ["Card"] (document rowStatements .none)
        = [⟨⟨"Card", some "Big"⟩, "color: red;", ["color"], 2⟩,
          ⟨⟨"Card", some "Row"⟩, "p => (f(`a`))", [], 1⟩] := by
  have hnames : ∀ name ∈ ["Card"], IsTagName name := by decide
  have hdistinct : (rowStatements.map fun statement => statement.head.name.chars).Nodup := by decide
  refine ⟨hnames, hdistinct, by decide +kernel, ?_⟩
  rw [styledUsages_written hnames rowStatements hdistinct .none]
  decide +kernel

end Statement

end Styled

end UsageCensus.Source
