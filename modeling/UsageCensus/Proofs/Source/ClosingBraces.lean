import UsageCensus.Proofs.Source.AttributeSteps
import UsageCensus.Proofs.Source.Traceable

/-!
# Closing braces in the attributes of a tag

A tag ends outside of all braces, counted from its name on, while the tokenizer of its attributes
starts to count at each brace that opens a spread or a value (`SeeksBrace`). Where the attribute
text closes no brace that it has not opened, each of these finds its partner in the text
(`matchesBrace_of_seeks`), so what is in braces is never cut off where the tag ends
(`closingBrace_inside`).
-/

namespace UsageCensus.Source

open UsageCensus.Text

/-- The text between the name of a tag and its closing `>`. -/
def TagSpan.body (span : TagSpan) (content : List Char) : List Char :=
  content.extract span.bodyStart span.stop

namespace Attribute

/-- The offset of the brace that the tokenizer finds for the one at `opens`, or the length of the
text where it finds none. -/
def closingBrace (text : List Char) (opens : Nat) : Nat :=
  opens + 1 + (braceBody 0 (text.drop (opens + 1))).1.length

/-- The brace at `closes` is the partner of the one at `opens`. -/
structure MatchesBrace (text : List Char) (opens closes : Nat) : Prop where
  order : opens < closes
  opening : text[opens]? = some '{'
  closing : text[closes]? = some '}'
  balanced : IsBalanced (text.extract (opens + 1) closes)

/-- On its way through `body` the tokenizer looks for the brace that closes the one at an offset: that
of a spread, or that of the value of an attribute. -/
inductive SeeksBrace (body : List Char) : Option AttributeName → Nat → Prop where
  | spread {text inner : List Char} (h : Reaches body text) (hopen : skipBlanks text = '{' :: inner) :
    SeeksBrace body none (body.length - ('{' :: inner).length)
  | value {text inner : List Char} (name : AttributeName) (before behind : Blanks)
    (h : Reaches body text)
    (hopen : skipBlanks text = name.chars ++ (before.chars ++ '=' :: (behind.chars ++ '{' :: inner))) :
    SeeksBrace body (some name) (body.length - ('{' :: inner).length)

/-- What the value of an attribute of `body` is taken from. -/
inductive IsTakenFrom (body : List Char) : Attribute → Prop where
  | alone (name : AttributeName) : IsTakenFrom body ⟨String.ofList name.chars, "true"⟩
  | quoted (name : AttributeName) {text : List Char} (h : text <:+: body) :
    IsTakenFrom body ⟨String.ofList name.chars, String.ofList ('\'' :: text ++ ['\''])⟩
  /-- An expression: the trimmed text between its braces. -/
  | braced {name : AttributeName} {opens : Nat} (h : SeeksBrace body (some name) opens) :
    IsTakenFrom body ⟨String.ofList name.chars,
      String.ofList (trim (body.extract (opens + 1) (closingBrace body opens)))⟩
  | bare (name : AttributeName) {text : List Char} (h : text <:+: body)
    (hbare : ∀ c ∈ text, isBare c = true) (hfirst : ∀ c ∈ text.head?, isQuote c = false ∧ c ≠ '{') :
    IsTakenFrom body ⟨String.ofList name.chars, String.ofList text⟩

/-! ## The partner of an opened brace -/

section

variable {body front inner : List Char} {name? : Option AttributeName} {opens : Nat}

theorem drop_behind (front inner : List Char) (c : Char) :
    (front ++ c :: inner).drop (front.length + 1) = inner := by
  rw [List.append_cons, List.drop_left' (by simp)]

theorem closingBrace_append (front inner : List Char) :
    closingBrace (front ++ '{' :: inner) front.length
      = front.length + 1 + (braceBody 0 inner).1.length := by
  rw [closingBrace, drop_behind]

/-- Between the braces stands what the search went through. -/
theorem extract_closingBrace (front inner : List Char) :
    (front ++ '{' :: inner).extract (front.length + 1)
        (closingBrace (front ++ '{' :: inner) front.length)
      = (braceBody 0 inner).1 := by
  rw [closingBrace_append, List.extract_eq_take_drop, drop_behind, Nat.add_sub_cancel_left]
  exact (List.prefix_iff_eq_take.1 (braceBody_isPrefix 0 inner)).symm

/-- In a balanced text the brace that closes an opened one stands behind it. -/
theorem matchesBrace_of_balanced (h : IsBalanced (front ++ '{' :: inner)) :
    MatchesBrace (front ++ '{' :: inner) front.length
      (closingBrace (front ++ '{' :: inner) front.length) := by
  obtain ⟨hfronts, htotal⟩ := h
  -- the text in front has not closed more than it opened, so the rest closes more than it opens
  have hfront : front.count '}' ≤ front.count '{' := hfronts front (List.prefix_append _ _)
  simp only [List.count_append, List.count_cons, beq_self_eq_true, if_true, beq_iff_eq,
    Char.reduceEq, if_false] at htotal
  have hmore : 0 + inner.count '{' < inner.count '}' := by omega
  obtain ⟨value, rest, rfl, hvalue⟩ := exists_closing hmore
  have hfound : braceBody 0 (value ++ '}' :: rest) = (value, rest) := braceBody_behind hvalue rest
  have hcloses := closingBrace_append front (value ++ '}' :: rest)
  have hbetween := extract_closingBrace front (value ++ '}' :: rest)
  rw [hfound] at hcloses hbetween
  constructor
  case order => omega
  case opening => simp
  case closing =>
    rw [hcloses, ← List.getElem?_drop, drop_behind]
    simp
  case balanced =>
    rw [hbetween]
    exact balancedBehind_zero.1 hvalue

/-- A value is the end of the text that its attribute starts. -/
theorem value_isSuffix (name : AttributeName) (before behind : Blanks) (value : List Char) :
    value <:+ name.chars ++ (before.chars ++ '=' :: (behind.chars ++ value)) :=
  ((List.suffix_append _ _).trans (List.suffix_cons '=' _)).trans
    ((List.suffix_append _ _).trans (List.suffix_append _ _))

/-- A brace behind the blanks of a text that the steps come to stands in the whole text. -/
theorem exists_open_of_reaches {text : List Char} (hreach : Reaches body text)
    (h : '{' :: inner <:+ skipBlanks text) :
    ∃ front, body = front ++ '{' :: inner ∧
      body.length - ('{' :: inner).length = front.length := by
  obtain ⟨front, rfl⟩ := h.trans ((List.dropWhile_suffix _).trans hreach.isSuffix)
  exact ⟨front, rfl, by rw [List.length_append, Nat.add_sub_cancel]⟩

theorem SeeksBrace.exists_open (h : SeeksBrace body name? opens) :
    ∃ front inner, body = front ++ '{' :: inner ∧ opens = front.length := by
  cases h with
  | @spread text inner hreach hskip =>
    have hsuffix : '{' :: inner <:+ skipBlanks text := hskip ▸ List.suffix_rfl
    obtain ⟨front, hfront⟩ := exists_open_of_reaches hreach hsuffix
    exact ⟨front, inner, hfront⟩
  | @value _ inner name before behind hreach hskip =>
    obtain ⟨front, hfront⟩ := exists_open_of_reaches hreach
      (hskip ▸ value_isSuffix name before behind _)
    exact ⟨front, inner, hfront⟩

/-- Each brace that the tokenizer looks for in a balanced text is there. -/
theorem matchesBrace_of_seeks (hbody : IsBalanced body) (h : SeeksBrace body name? opens) :
    MatchesBrace body opens (closingBrace body opens) := by
  obtain ⟨front, inner, rfl, rfl⟩ := h.exists_open
  exact matchesBrace_of_balanced hbody

/-! ## Values between braces -/

theorem readValue_brace (behind : Blanks) (inner : List Char) :
    readValue (behind.chars ++ '{' :: inner)
      = (trim (braceBody 0 inner).1, (braceBody 0 inner).2) := by
  unfold readValue
  rw [behind.skipBlanks_append_of_ends (.cons (by decide))]
  rfl

/-- Where the tokenizer looks for the brace that closes a value, the attribute has the trimmed text
up to it. -/
theorem mem_parse_of_seeks {name : AttributeName} (h : SeeksBrace body (some name) opens) :
    ⟨String.ofList name.chars,
      String.ofList (trim (body.extract (opens + 1) (closingBrace body opens)))⟩ ∈ parse body := by
  cases h with
  | @value text inner _ before behind hreach hskip =>
    obtain ⟨front, rfl, hopens⟩ := exists_open_of_reaches hreach
      (hskip ▸ value_isSuffix name before behind _)
    rw [hopens, extract_closingBrace]
    refine mem_parse_iff.2 ⟨text, (braceBody 0 inner).2, hreach, ?_⟩
    rw [← blanksBefore_append text, step?_blanks, hskip, step?_valued, readValue_brace]

/-- Whatever the text is, what is kept of an expression stands between the brace that opens it and
the one that the search finds. -/
theorem isTakenFrom_of_mem {a : Attribute} (h : a ∈ parse body) : IsTakenFrom body a := by
  obtain ⟨text, rest, hreach, hstep⟩ := mem_parse_iff.1 h
  have hread := reads_of_step? hstep
  have hsuffix : skipBlanks text <:+ body := (List.dropWhile_suffix _).trans hreach.isSuffix
  generalize hskip : skipBlanks text = behind at hread hsuffix
  cases hread with
  | flag name => exact .alone name
  | @valued name before after value kept _ hvalue =>
    have hvalueSuffix : value <:+ body := (value_isSuffix name before after value).trans hsuffix
    cases hvalue with
    | missing => exact .alone name
    | @quoted quote _ tail =>
      refine .quoted name ?_
      exact ((List.takeWhile_prefix _).isInfix.trans (List.suffix_cons quote tail).isInfix).trans
        hvalueSuffix.isInfix
    | braced inner =>
      obtain ⟨front, rfl, hopens⟩ := exists_open_of_reaches hreach
        (hskip ▸ value_isSuffix name before after _)
      have hseeks := SeeksBrace.value name before after hreach hskip
      rw [hopens] at hseeks
      rw [← extract_closingBrace front inner]
      exact .braced hseeks
    | @bare first hfirst tail =>
      refine .bare name ((List.takeWhile_prefix _).isInfix.trans hvalueSuffix.isInfix)
        (fun c hc => List.mem_takeWhile_imp hc) ?_
      intro c hc
      rw [List.head?_takeWhile, Option.mem_def, Option.filter_eq_some_iff] at hc
      obtain ⟨hc, -⟩ := hc
      cases hc
      exact hfirst

end

/-- Where the attributes of a tag that is found close no brace before they open it, each closing brace
that the tokenizer looks for is found before the end of the tag, as the partner of the opened one.
So a value in braces is the trimmed text between two partners, and none is cut off. -/
theorem closingBrace_inside {names : List String} {content : List Char}
    {components : Table String String} {span : TagSpan}
    (hspan : span ∈ tagSpans names content components)
    (hbraces : ∀ front, front <+: span.body content → front.count '}' ≤ front.count '{') :
    (∀ name? opens, SeeksBrace (span.body content) name? opens →
      closingBrace (span.body content) opens < (span.body content).length ∧
      MatchesBrace (span.body content) opens (closingBrace (span.body content) opens)) ∧
    (∀ name opens, SeeksBrace (span.body content) (some name) opens →
      ⟨String.ofList name.chars, String.ofList (trim ((span.body content).extract (opens + 1)
        (closingBrace (span.body content) opens)))⟩ ∈ parse (span.body content)) ∧
    ∀ a ∈ parse (span.body content), IsTakenFrom (span.body content) a := by
  obtain ⟨-, -, -, -, hcloses⟩ := span_written hspan
  have hbody : IsBalanced (span.body content) := ⟨hbraces, hcloses.balanced.symm⟩
  refine ⟨fun name? opens hseeks => ?_, fun name opens => mem_parse_of_seeks,
    fun a => isTakenFrom_of_mem⟩
  have hmatches := matchesBrace_of_seeks hbody hseeks
  exact ⟨(List.getElem?_eq_some_iff.1 hmatches.closing).1, hmatches⟩

/-- A spread, a value in two braces, and braces in quotes. -/
def bracedCard : List Char := "<C \x7b...p\x7d as=\x7b \x7bx\x7d \x7d b=\"\x7b\x7d\"/>".toList

def bracedSpan : TagSpan := ⟨"C", "C", 0, 2, 28⟩

def bracedBody : List Char := bracedSpan.body bracedCard

def asName : AttributeName := ⟨'a', ['s'], by decide, forall_mem_of_all (by decide)⟩

theorem closingBrace_bracedCard :
    bracedSpan ∈ tagSpans ["C"] bracedCard .empty ∧
      (∀ front, front <+: bracedBody → front.count '}' ≤ front.count '{') ∧
      MatchesBrace bracedBody 1 6 ∧ MatchesBrace bracedBody 11 17 ∧
      ⟨"as", "\x7bx\x7d"⟩ ∈ parse bracedBody ∧ IsTakenFrom bracedBody ⟨"as", "\x7bx\x7d"⟩ := by
  have hspan : bracedSpan ∈ tagSpans ["C"] bracedCard .empty := by
    refine (mem_tagSpans_iff (by decide)).2 ?_
    exact ⟨by decide, by decide, by decide, rfl, rfl, tagEnd?_eq_some_iff.1 (by decide)⟩
  have hbalanced : IsBalanced bracedBody := by decide +kernel
  obtain ⟨hfound, hkept, htaken⟩ := closingBrace_inside hspan hbalanced.1
  have hopen : skipBlanks bracedBody = '{' :: bracedBody.drop 2 := by decide +kernel
  have hspread : SeeksBrace bracedBody none 1 := .spread .start hopen
  have hbehind : Reaches bracedBody (bracedBody.drop 7) := by
    refine .step (a := none) .start ?_
    decide +kernel
  have hvalueOpen : skipBlanks (bracedBody.drop 7)
      = asName.chars ++ ([] ++ '=' :: ([] ++ '{' :: bracedBody.drop 12)) := by decide +kernel
  have hvalue : SeeksBrace bracedBody (some asName) 11 :=
    .value asName .none .none hbehind hvalueOpen
  have hattribute : (⟨String.ofList asName.chars, String.ofList (trim (bracedBody.extract 12
      (closingBrace bracedBody 11)))⟩ : Attribute) = ⟨"as", "\x7bx\x7d"⟩ := by decide +kernel
  have hmem : ⟨"as", "\x7bx\x7d"⟩ ∈ parse bracedBody := hattribute ▸ hkept asName 11 hvalue
  exact ⟨hspan, hbalanced.1, (hfound none 1 hspread).2, (hfound _ 11 hvalue).2, hmem,
    htaken _ hmem⟩

end Attribute

end UsageCensus.Source
