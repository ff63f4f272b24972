import UsageCensus.Proofs.Source.TagNames
import UsageCensus.Proofs.Text.Lines
import UsageCensus.Source.Styled

/-!
# Heads of styled wrappers

A wrapper begins with the assignment to its name and `styled(` with its component. It is read where
this head begins if a look of the sought form follows (`WrittenHead.read?_text`), and otherwise
nothing is read anywhere in the head (`WrittenHead.silent_text`). Nothing is read either in a text
without `styled(` (`silent_of_no_opening`): in front of the `styled(` that is read there are only
characters of an assignment, so it begins in the text where the reading begins.
-/

namespace UsageCensus.Source.Styled

open UsageCensus.Text

/-! ## Usages of the two forms -/

/-- The usages with looks that are read. -/
def usagesBy (look? : List Char → Option (List Char × List Char)) (components : List String)
    (content : List Char) : List StyledUsage :=
  (search (forward (read? (searchOrder components) look?)) content).map
    (StyledUsage.ofFound (.ofText content))

/-- Where there are components, the usages are the templates and the calls that are not among
them. -/
theorem styledUsages_eq {components : List String} (hne : components ≠ [])
    (hnames : ∀ name ∈ components, IsTagName name) (content : List Char) :
    styledUsages components content = usagesBy readTemplate? components content
      ++ (usagesBy readCall? components content).filter fun usage =>
        !((usagesBy readTemplate? components content).map StyledUsage.target).contains
          usage.target := by
  have hsought : ¬ (searchOrder components = [] ∨ searchOrder components = [""]) := by
    obtain ⟨component, hcomponent⟩ := List.exists_mem_of_ne_nil components hne
    have hmem := mem_searchOrder.2 hcomponent
    rintro (hnone | hnone) <;> rw [hnone] at hmem
    · cases hmem
    · exact (hnames component hcomponent).1 (by rw [List.mem_singleton.1 hmem]; rfl)
  exact if_neg hsought

/-! ## In front of what is wrapped -/

/-- The word in front of the parenthesis in which the component stands. -/
def openingWord : List Char := ['s', 't', 'y', 'l', 'e', 'd']

/-- What stands in front of a wrapped component. -/
def opening : List Char := openingWord ++ ['(']

/-- A character that may stand in an assignment. -/
def isAssignmentChar (c : Char) : Bool := isWord c || isBlank c || c == '='

/-- The words with which a declaration begins. -/
def declarationWords : List (List Char) :=
  [['c', 'o', 'n', 's', 't'], ['l', 'e', 't'], ['v', 'a', 'r']]

/-- What follows an `export`, if there is one. -/
def skipExport? (text : List Char) : Option (List Char) :=
  match after? ['e', 'x', 'p', 'o', 'r', 't'] text with
  | some rest => blanks1? rest
  | none => some text

/-- The name that a declaration without `export` assigns to, and what follows the equals sign. -/
def readDeclared? (text : List Char) : Option (String × List Char) := do
  let text ← blanks1? (← declarationWord? text)
  let (name, text) ← run1? isWord text
  let text ← one? (· == '=') (skipBlanks text)
  return (String.ofList name, skipBlanks text)

theorem readAssignment?_eq (text : List Char) :
    readAssignment? text = (skipExport? text).bind readDeclared? := by
  unfold readAssignment? skipExport?
  cases after? ['e', 'x', 'p', 'o', 'r', 't'] text <;> rfl

/-- Reading has gone on from a text to an end of it, past characters of an assignment. -/
def Passes (text rest : List Char) : Prop :=
  ∃ pre, text = pre ++ rest ∧ ∀ c ∈ pre, isAssignmentChar c = true

namespace Passes

variable {text mid rest word : List Char}

theorem refl (text : List Char) : Passes text text := ⟨[], rfl, by simp⟩

theorem trans (h : Passes text mid) (h' : Passes mid rest) : Passes text rest := by
  obtain ⟨pre, rfl, hpre⟩ := h
  obtain ⟨pre', rfl, hpre'⟩ := h'
  exact ⟨pre ++ pre', (List.append_assoc _ _ _).symm, List.forall_mem_append.2 ⟨hpre, hpre'⟩⟩

theorem of_after? (hword : ∀ c ∈ word, isAssignmentChar c = true)
    (h : after? word text = some rest) : Passes text rest := ⟨word, after?_eq_some_iff.1 h, hword⟩

theorem of_run1? {p : Char → Bool} {taken : List Char}
    (hp : ∀ c, p c = true → isAssignmentChar c = true) (h : run1? p text = some (taken, rest)) :
    Passes text rest :=
  ⟨taken, (run1?_eq_some h).1, fun c hc => hp c (forall_of_run1? h c hc)⟩

theorem of_blanks1? (h : blanks1? text = some rest) : Passes text rest := by
  obtain ⟨⟨blanks, _⟩, hrun, rfl⟩ := Option.map_eq_some_iff.1 h
  exact of_run1? (fun c hc => by simp [isAssignmentChar, hc]) hrun

theorem of_skipBlanks (text : List Char) : Passes text (skipBlanks text) :=
  ⟨text.takeWhile isBlank, List.takeWhile_append_dropWhile.symm, fun c hc => by
    simp [isAssignmentChar, List.mem_takeWhile_imp hc]⟩

theorem of_equals (h : one? (· == '=') text = some rest) : Passes text rest := by
  obtain ⟨c, hc, rfl⟩ := one?_eq_some h
  exact ⟨[c], rfl, by simpa [isAssignmentChar] using Or.inr hc⟩

theorem of_declarationWord? (h : declarationWord? text = some rest) : Passes text rest := by
  obtain ⟨word, hword, h⟩ := List.exists_of_findSome?_eq_some h
  have hwords : declarationWords.all (fun word => word.all isAssignmentChar) = true := by decide
  exact of_after? (List.all_eq_true.1 (List.all_eq_true.1 hwords word hword)) h

theorem of_skipExport? (h : skipExport? text = some rest) : Passes text rest := by
  unfold skipExport? at h
  split at h
  · rename_i behind hbehind
    exact (of_after? (forall_mem_of_all (by decide)) hbehind).trans (of_blanks1? h)
  · cases h
    exact refl text

theorem of_readDeclared? {variableName : String}
    (h : readDeclared? text = some (variableName, rest)) : Passes text rest := by
  unfold readDeclared? at h
  obtain ⟨behindWord, hword, h⟩ := Option.bind_eq_some_iff.1 h
  obtain ⟨name, hgap, h⟩ := Option.bind_eq_some_iff.1 h
  obtain ⟨⟨taken, behindName⟩, hname, h⟩ := Option.bind_eq_some_iff.1 h
  obtain ⟨behindEquals, hequals, h⟩ := Option.bind_eq_some_iff.1 h
  cases h
  have hdeclared : Passes text name := (of_declarationWord? hword).trans (of_blanks1? hgap)
  have hassigned : Passes name behindName :=
    of_run1? (fun c hc => by simp [isAssignmentChar, hc]) hname
  have hbehind : Passes behindName (skipBlanks behindEquals) :=
    (of_skipBlanks behindName).trans ((of_equals hequals).trans (of_skipBlanks behindEquals))
  exact hdeclared.trans (hassigned.trans hbehind)

theorem of_readAssignment? {variableName : String}
    (h : readAssignment? text = some (variableName, rest)) : Passes text rest := by
  rw [readAssignment?_eq] at h
  obtain ⟨declared, hexport, h⟩ := Option.bind_eq_some_iff.1 h
  exact (of_skipExport? hexport).trans (of_readDeclared? h)

end Passes

/-! ## Where nothing is read -/

section

variable {names : List String} {look? : List Char → Option (List Char × List Char)}
  {text rest inner : List Char}

theorem exists_opening_of_readWrapped? {taken : (String × List Char) × List Char}
    (h : readWrapped? names look? text = some taken) :
    ∃ tail, text = opening ++ tail ∧ readWrapped? names look? (opening ++ tail) ≠ none := by
  obtain ⟨tail, htail, -⟩ := Option.bind_eq_some_iff.1 h
  have htext : text = opening ++ tail := after?_eq_some_iff.1 htail
  rw [htext] at h
  exact ⟨tail, htext, Option.ne_none_iff_exists'.2 ⟨taken, h⟩⟩

/-- What is read begins with characters of an assignment, and `styled(` behind them. -/
theorem exists_opening_of_read? {taken : (Target × List Char) × List Char}
    (h : read? names look? text = some taken) :
    ∃ pre tail, text = pre ++ (opening ++ tail) ∧ (∀ c ∈ pre, isAssignmentChar c = true) ∧
      readWrapped? names look? (opening ++ tail) ≠ none := by
  unfold read? at h
  split at h
  · rename_i variableName behind hassigned
    obtain ⟨wrapped, hwrapped, -⟩ := Option.map_eq_some_iff.1 h
    obtain ⟨pre, rfl, hpre⟩ := Passes.of_readAssignment? hassigned
    obtain ⟨tail, rfl, hne⟩ := exists_opening_of_readWrapped? hwrapped
    exact ⟨pre, tail, rfl, hpre, hne⟩
  · obtain ⟨wrapped, hwrapped, -⟩ := Option.map_eq_some_iff.1 h
    obtain ⟨tail, rfl, hne⟩ := exists_opening_of_readWrapped? hwrapped
    exact ⟨[], tail, rfl, by simp, hne⟩

/-- The characters with which a wrapper can begin: those of `export`, of a declaration and of
`styled`. -/
def firsts : List Char := ['e', 'c', 'l', 'v', 's']

theorem read?_cons_eq_none {c : Char} (hc : c ∉ firsts) (text : List Char) :
    read? names look? (c :: text) = none := by
  simp only [firsts, List.mem_cons, List.not_mem_nil, or_false, not_or] at hc
  obtain ⟨he, hconst, hlet, hvar, hstyled⟩ := hc
  have hassigned : readAssignment? (c :: text) = none := by
    rw [readAssignment?_eq, skipExport?, after?_cons_ne (Ne.symm he), Option.bind_some,
      readDeclared?]
    simp only [declarationWord?, List.findSome?, after?_cons_ne (Ne.symm hconst),
      after?_cons_ne (Ne.symm hlet), after?_cons_ne (Ne.symm hvar)]
    rfl
  rw [read?, hassigned]
  dsimp only
  rw [readWrapped?, after?_cons_ne (Ne.symm hstyled)]
  rfl

/-- A mark behind which no `styled(` goes on that began in front of it. -/
def IsMark (c : Char) : Prop := isAssignmentChar c = false ∧ c ∉ opening

instance (c : Char) : Decidable (IsMark c) := by unfold IsMark; infer_instance

/-- No `styled(` begins in a text that has none and ends with a mark. -/
theorem silent_of_no_opening {mark : Char} (hmark : IsMark mark) (h : ¬ opening <:+: inner) :
    Silent (read? names look?) (inner ++ [mark]) rest := by
  have hnone : ∀ {inner}, ¬ opening <:+: inner →
      read? names look? (inner ++ [mark] ++ rest) = none := by
    intro inner h
    refine Option.eq_none_iff_forall_ne_some.2 fun taken hread => h ?_
    obtain ⟨pre, tail, htext, hpre, -⟩ := exists_opening_of_read? hread
    have hfree : mark ∉ pre ++ opening := by
      intro hmem
      rcases List.mem_append.1 hmem with hmem | hmem
      · exact absurd (hpre mark hmem) (Bool.eq_false_iff.1 hmark.1)
      · exact hmark.2 hmem
    rw [List.append_assoc, List.singleton_append, ← List.append_assoc] at htext
    have hprefix : pre ++ opening <+: inner := prefix_of_append_cons hfree htext
    exact (List.suffix_append pre opening).isInfix.trans hprefix.isInfix
  induction inner with
  | nil => exact ⟨hnone h, trivial⟩
  | cons c inner ih =>
    exact ⟨hnone h, ih fun hinner => h (hinner.trans (List.suffix_cons c inner).isInfix)⟩

/-- In front of the parenthesis of a `styled(` that is not read, nothing is read. -/
theorem silent_of_readWrapped? {before : List Char} (hbefore : '(' ∉ before)
    (h : readWrapped? names look? (opening ++ rest) = none) :
    Silent (read? names look?) (before ++ ['(']) rest := by
  have hnone : ∀ {before}, '(' ∉ before → read? names look? (before ++ ['('] ++ rest) = none := by
    intro before hbefore
    refine Option.eq_none_iff_forall_ne_some.2 fun taken hread => ?_
    obtain ⟨pre, tail, htext, hpre, hwrapped⟩ := exists_opening_of_read? hread
    have hfree : '(' ∉ pre ++ openingWord := by
      intro hmem
      rcases List.mem_append.1 hmem with hmem | hmem
      · exact absurd (hpre _ hmem) (by decide)
      · exact absurd hmem (by decide)
    have hsplit : before ++ '(' :: rest = (pre ++ openingWord) ++ '(' :: tail := by
      simpa only [opening, List.append_assoc, List.singleton_append] using htext
    obtain ⟨-, rfl⟩ := append_cons_inj hbefore hfree hsplit
    exact hwrapped h
  induction before with
  | nil => exact ⟨hnone hbefore, trivial⟩
  | cons c before ih =>
    exact ⟨hnone hbefore, ih fun hmem => hbefore (List.mem_cons_of_mem c hmem)⟩

end

/-! ## Heads as they are written -/

/-- The head of a wrapper: the assignment to its name, and the component that is wrapped. -/
structure WrittenHead (components : List String) where
  exported : Option Gap
  keyword : List Char
  declares : keyword ∈ declarationWords
  gap : Gap
  name : Word
  before : Blanks
  behind : Blanks
  component : String
  known : component ∈ components

/-- An `export`, if there is one. -/
def exportText : Option Gap → List Char
  | none => []
  | some gap => ['e', 'x', 'p', 'o', 'r', 't'] ++ gap.chars

/-- Where the look is sought. -/
def lookBehind (text : List Char) : List Char :=
  skipTypeArguments (skipAttrs (skipTypeArguments text))

namespace WrittenHead

variable {components : List String}

/-- The declaration up to the equals sign and the blanks behind it. -/
def declaration (head : WrittenHead components) : List Char :=
  head.keyword ++ (head.gap.chars ++ (head.name.chars
    ++ (head.before.chars ++ '=' :: head.behind.chars)))

def assignment (head : WrittenHead components) : List Char :=
  exportText head.exported ++ head.declaration

/-- What stands in the parentheses, with the closing one. -/
def closing (head : WrittenHead components) : List Char := head.component.toList ++ [')']

def text (head : WrittenHead components) : List Char :=
  (head.assignment ++ openingWord ++ ['(']) ++ head.closing

def target (head : WrittenHead components) : Target :=
  ⟨head.component, some (String.ofList head.name.chars)⟩

/-- A head with single blanks. -/
def spaced (exported : Bool) (keyword : List Char) (declares : keyword ∈ declarationWords)
    (name : Word) (component : String) (known : component ∈ components) :
    WrittenHead components where
  exported := if exported then some .single else none
  keyword := keyword
  declares := declares
  gap := .single
  name := name
  before := Gap.single.toBlanks
  behind := Gap.single.toBlanks
  component := component
  known := known

theorem declarationWord?_append {word : List Char} (h : word ∈ declarationWords)
    (rest : List Char) : declarationWord? (word ++ rest) = some rest := by
  simp only [declarationWords, List.mem_cons, List.not_mem_nil, or_false] at h
  rcases h with rfl | rfl | rfl <;> simp [declarationWord?, after?]

theorem ends_isBlank_declarationWord {word : List Char} (h : word ∈ declarationWords)
    (rest : List Char) : Ends isBlank (word ++ rest) := by
  simp only [declarationWords, List.mem_cons, List.not_mem_nil, or_false] at h
  rcases h with rfl | rfl | rfl <;> exact .cons (by decide)

theorem skipExport?_text {word : List Char} (h : word ∈ declarationWords) (exported : Option Gap)
    (rest : List Char) :
    skipExport? (exportText exported ++ (word ++ rest)) = some (word ++ rest) := by
  cases exported with
  | none =>
    simp only [declarationWords, List.mem_cons, List.not_mem_nil, or_false] at h
    rcases h with rfl | rfl | rfl <;> rfl
  | some gap =>
    rw [skipExport?, exportText, List.append_assoc, after?_append]
    exact gap.blanks1?_append (ends_isBlank_declarationWord h rest)

theorem readAssignment?_text (head : WrittenHead components) {rest : List Char}
    (hrest : Ends isBlank rest) :
    readAssignment? (head.assignment ++ rest) = some (String.ofList head.name.chars, rest) := by
  have hname : Ends isWord (head.before.chars ++ ('=' :: (head.behind.chars ++ rest))) :=
    head.before.ends_isWord (.cons (by decide))
  have hequals : Ends isBlank ('=' :: (head.behind.chars ++ rest)) := .cons (by decide)
  rw [readAssignment?_eq, assignment, declaration]
  simp only [List.append_assoc, List.cons_append]
  rw [skipExport?_text head.declares, Option.bind_some, readDeclared?,
    declarationWord?_append head.declares]
  simp only [Option.bind_eq_bind, Option.bind_some]
  rw [head.gap.blanks1?_append (head.name.ends_isBlank _), Option.bind_some,
    run1?_of_ends head.name.word head.name.nonempty hname, Option.bind_some]
  simp only
  rw [head.before.skipBlanks_append_of_ends hequals]
  simp only [one?, beq_self_eq_true, if_true, Option.bind_some,
    head.behind.skipBlanks_append_of_ends hrest]
  rfl

theorem isAssignmentChar_of_mem (head : WrittenHead components) :
    ∀ c ∈ head.assignment, isAssignmentChar c = true := by
  obtain ⟨pre, hpre, hchars⟩ := Passes.of_readAssignment? (head.readAssignment?_text Ends.nil)
  rw [List.append_cancel_right hpre]
  exact hchars

/-- What follows a name and the closing parenthesis. -/
def afterName? (name : String) (text : List Char) : Option (List Char) :=
  (after? name.toList text).bind (one? (· == ')'))

theorem readWrapped?_opening (names : List String)
    (look? : List Char → Option (List Char × List Char)) (text : List Char) :
    readWrapped? names look? (opening ++ text) = names.findSome? fun name =>
      (afterName? name text).bind fun rest =>
        (look? (lookBehind rest)).map fun (look, rest) => ((name, look), rest) := by
  have hopening : after? ['s', 't', 'y', 'l', 'e', 'd', '('] (opening ++ text) = some text :=
    after?_append opening text
  rw [readWrapped?, hopening]
  refine congrArg (fun f => names.findSome? f) (funext fun name => ?_)
  rw [afterName?, Option.bind_assoc]
  simp only [Option.map_eq_bind]
  rfl

/-- Of names without parentheses only the one that stands there is read. -/
theorem afterName?_eq {name component : String} (hname : IsTagName name)
    (hcomponent : IsTagName component) (rest : List Char) :
    afterName? name (component.toList ++ ')' :: rest)
      = if name = component then some rest else none := by
  have hfree : ∀ {name : String}, IsTagName name → ')' ∉ name.toList :=
    fun h hmem => absurd (h.2 _ hmem) (by decide)
  split
  case isTrue h =>
    rw [h, afterName?, after?_append]
    rfl
  case isFalse h =>
    refine Option.eq_none_iff_forall_ne_some.2 fun tail htail => h ?_
    obtain ⟨behind, hafter, hclosing⟩ := Option.bind_eq_some_iff.1 htail
    have htext := after?_eq_some_iff.1 hafter
    cases behind with
    | nil => cases hclosing
    | cons c behind =>
      have hc : c = ')' := by
        by_contra hc
        simp [one?, hc] at hclosing
      subst hc
      exact String.toList_inj.1 (append_cons_inj (hfree hcomponent) (hfree hname) htext).1.symm

theorem readWrapped?_text {names : List String} (hnames : ∀ name ∈ names, IsTagName name)
    {component : String} (hknown : component ∈ names)
    (look? : List Char → Option (List Char × List Char)) (rest : List Char) :
    readWrapped? names look? (opening ++ (component.toList ++ ')' :: rest))
      = (look? (lookBehind rest)).map fun (look, rest) => ((component, look), rest) := by
  have hread : ∀ name ∈ names, afterName? name (component.toList ++ ')' :: rest)
      = if name = component then some rest else none :=
    fun name hname => afterName?_eq (hnames name hname) (hnames component hknown) rest
  rw [readWrapped?_opening]
  cases hlook : look? (lookBehind rest) with
  | none =>
    apply List.findSome?_eq_none_iff.2
    intro name hname
    rw [hread name hname]
    split
    · rw [Option.bind_some, hlook]
      rfl
    · rfl
  | some taken =>
    refine findSome?_eq_of_unique hknown ?_ ?_
    · rw [hread component hknown, if_pos rfl, Option.bind_some, hlook]
      rfl
    · intro name hname found hfound
      rw [hread name hname] at hfound
      split at hfound
      · rename_i h
        rw [Option.bind_some, hlook, h] at hfound
        exact (Option.some.inj hfound).symm
      · cases hfound

variable (hnames : ∀ name ∈ components, IsTagName name)
  {look? : List Char → Option (List Char × List Char)}

include hnames

theorem readWrapped?_closing (head : WrittenHead components)
    (look? : List Char → Option (List Char × List Char)) (rest : List Char) :
    readWrapped? (searchOrder components) look? (opening ++ (head.closing ++ rest))
      = (look? (lookBehind rest)).map fun (look, rest) => ((head.component, look), rest) := by
  rw [closing, List.append_assoc]
  exact readWrapped?_text (fun name hname => hnames name (mem_searchOrder.1 hname))
    (mem_searchOrder.2 head.known) look? rest

/-- At a written head the look is read that follows it. -/
theorem read?_text (head : WrittenHead components)
    (look? : List Char → Option (List Char × List Char)) (rest : List Char) :
    read? (searchOrder components) look? (head.text ++ rest)
      = (look? (lookBehind rest)).map fun (look, rest) => ((head.target, look), rest) := by
  have htext : head.text ++ rest = head.assignment ++ (opening ++ (head.closing ++ rest)) := by
    simp only [text, opening, List.append_assoc]
  have hopening : Ends isBlank (opening ++ (head.closing ++ rest)) := .cons (by decide)
  rw [read?, htext, head.readAssignment?_text hopening]
  dsimp only
  rw [readWrapped?_closing hnames, Option.map_map]
  rfl

/-- In front of another look nothing is read in a head. -/
theorem silent_text (head : WrittenHead components) {rest : List Char}
    (h : look? (lookBehind rest) = none) :
    Silent (read? (searchOrder components) look?) head.text rest := by
  have hfree : '(' ∉ head.assignment ++ openingWord := by
    intro hmem
    rcases List.mem_append.1 hmem with hmem | hmem
    · exact absurd (head.isAssignmentChar_of_mem _ hmem) (by decide)
    · exact absurd hmem (by decide)
  have hopening : Silent (read? (searchOrder components) look?)
      (head.assignment ++ openingWord ++ ['(']) (head.closing ++ rest) := by
    apply silent_of_readWrapped? hfree
    rw [readWrapped?_closing hnames, h]
    rfl
  have hclosing : Silent (read? (searchOrder components) look?) head.closing rest := by
    apply silent_of_no_opening (by decide)
    intro hinfix
    have hmem : '(' ∈ head.component.toList := hinfix.subset (by decide)
    exact absurd ((hnames _ head.known).2 _ hmem) (by decide)
  exact silent_append hopening hclosing

/-- A head is found with the look behind it. -/
theorem found_text (head : WrittenHead components) {front rest inner : List Char}
    (h : look? (lookBehind (front ++ rest)) = some (inner, rest)) (at_ : Nat) :
    found (read? (searchOrder components) look?) at_ (head.text ++ (front ++ rest))
      = ⟨at_, at_ + (head.text ++ front).length, head.target, inner⟩
        :: found (read? (searchOrder components) look?) (at_ + (head.text ++ front).length)
          rest := by
  have hread := head.read?_text hnames look? (front ++ rest)
  have hne : head.text ++ front ≠ [] := by simp [text, closing]
  rw [h, Option.map_some, ← List.append_assoc] at hread
  rw [← List.append_assoc]
  exact found_of_read hread hne

/-- In front of another look a head is not found. -/
theorem found_text_of_none (head : WrittenHead components) {rest : List Char}
    (h : look? (lookBehind rest) = none) (at_ : Nat) :
    found (read? (searchOrder components) look?) at_ (head.text ++ rest)
      = found (read? (searchOrder components) look?) (at_ + head.text.length) rest :=
  found_of_silent (head.silent_text hnames h)

end WrittenHead

end UsageCensus.Source.Styled
