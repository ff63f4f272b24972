import UsageCensus.Proofs.Source.TagNames
import UsageCensus.Proofs.Source.WrittenAttributes
import UsageCensus.Proofs.Text.Lines
import UsageCensus.Source.Scan

/-!
# Documents as they are written

A document is written as pieces of text and opening tags, in any order. Scanning it for the
names of its tags gives back the tags: one instance for each, in order, with its component, its
attributes, its line and its boundaries (`scanInstances_written`). Every brace and every angle
bracket that could mislead the search for the end of a tag stands inside balanced braces
(`IsContained`).
-/

namespace UsageCensus.Source

open UsageCensus.Text

/-- No brace and no angle bracket. -/
def IsQuiet (text : List Char) : Prop := ∀ c ∈ text, c ≠ '{' ∧ c ≠ '}' ∧ c ≠ '<' ∧ c ≠ '>'

/-- The value neither ends its tag nor opens another one. -/
def WrittenValue.IsContained : WrittenValue → Prop
  | quoted _ text _ _ => IsQuiet text
  | braced text _ => '<' ∉ text
  | bare first others _ _ => IsQuiet (first :: others)

/-- The attribute neither ends its tag nor opens another one. -/
def WrittenAttribute.IsContained : WrittenAttribute → Prop
  | flag _ => True
  | valued _ _ _ value => value.IsContained
  | spread text _ => '<' ∉ text

/-- An opening tag as it is written, of one of the names. -/
structure WrittenTag (names : List String) where
  name : String
  known : name ∈ names
  attributes : List (Gap × WrittenAttribute)
  contained : ∀ a ∈ attributes, a.2.IsContained
  trailing : Blanks
  selfClosing : Bool

namespace WrittenTag

variable {names : List String}

/-- What stands between the name and the closing `>`. -/
def body (tag : WrittenTag names) : List Char :=
  WrittenAttribute.textOf tag.attributes
    ++ (tag.trailing.chars ++ if tag.selfClosing then ['/'] else [])

def text (tag : WrittenTag names) : List Char := '<' :: (tag.name.toList ++ (tag.body ++ ['>']))

/-- The instance that a tag is behind a text. -/
def instanceBehind (imports : Table String String) (before : List Char) (tag : WrittenTag names) :
    Instance where
  component := imports.getD tag.name ""
  attributes := tag.attributes.filterMap fun a => a.2.attribute?
  line := before.count '\n' + 1
  start := before.length
  bodyStart := before.length + 1 + tag.name.length
  stop := before.length + 1 + tag.name.length + tag.body.length

end WrittenTag

/-- A piece of a document. -/
inductive Piece (names : List String) where
  | text (chars : List Char) (untagged : '<' ∉ chars)
  | tag (tag : WrittenTag names)

namespace Piece

variable {names : List String}

def chars : Piece names → List Char
  | .text chars _ => chars
  | .tag t => t.text

/-- The document that is written as the pieces. -/
def document (pieces : List (Piece names)) : List Char := pieces.flatMap chars

/-- The instances that the tags among the pieces are behind a text. -/
def instances (imports : Table String String) (before : List Char) :
    List (Piece names) → List Instance
  | [] => []
  | .text chars _ :: pieces => instances imports (before ++ chars) pieces
  | .tag t :: pieces =>
    t.instanceBehind imports before :: instances imports (before ++ t.text) pieces

end Piece

/-! ## The body of a tag is gone over as a whole -/

/-- The search for the closing `>` goes over the text, and no tag opens in it. -/
structure Crossed (text : List Char) : Prop where
  passed : Passed text
  untagged : '<' ∉ text

namespace Crossed

variable {text text' : List Char}

theorem nil : Crossed [] := ⟨.nil, by simp⟩

theorem append (h : Crossed text) (h' : Crossed text') : Crossed (text ++ text') :=
  ⟨h.passed.append h'.passed, by simp [h.untagged, h'.untagged]⟩

theorem of_isQuiet (h : IsQuiet text) : Crossed text := by
  refine ⟨.of_forall fun c hc => ?_, fun hc => (h '<' hc).2.2.1 rfl⟩
  obtain ⟨h1, h2, -, h4⟩ := h c hc
  exact ⟨h1, h2, h4⟩

theorem braced (h : IsBalanced text) (hopen : '<' ∉ text) : Crossed ('{' :: (text ++ ['}'])) :=
  ⟨.braced h, by simp [hopen]⟩

theorem ofBlanks (blanks : Blanks) : Crossed blanks.chars :=
  of_isQuiet fun c hc => by
    have hb := blanks.blank c hc
    refine ⟨?_, ?_, ?_, ?_⟩ <;> (rintro rfl; exact absurd hb (by decide))

theorem ofName (name : AttributeName) : Crossed name.chars :=
  of_isQuiet fun c hc => by
    have hn : Attribute.continuesName c = true := by
      rcases List.mem_cons.1 hc with rfl | hc
      · exact Attribute.continuesName_of_startsName name.starts
      · exact name.continues c hc
    refine ⟨?_, ?_, ?_, ?_⟩ <;> (rintro rfl; exact absurd hn (by decide))

theorem ofValue (value : WrittenValue) (h : value.IsContained) : Crossed value.text := by
  cases value with
  | quoted quote text hquote hinner =>
    have hq : IsQuiet [quote] := by
      simp only [isQuote, Bool.or_eq_true, beq_iff_eq] at hquote
      rcases hquote with rfl | rfl <;> simp [IsQuiet]
    exact (of_isQuiet hq).append ((of_isQuiet h).append (of_isQuiet hq))
  | braced text balanced => exact braced balanced h
  | bare first others hfirst hbare => exact of_isQuiet h

theorem ofAttribute (a : WrittenAttribute) (h : a.IsContained) : Crossed a.text := by
  cases a with
  | flag name => exact ofName name
  | valued name before behind value =>
    have hequals : Crossed ['='] := of_isQuiet (by simp [IsQuiet])
    exact (ofName name).append
      ((ofBlanks before).append (hequals.append ((ofBlanks behind).append (ofValue value h))))
  | spread text balanced => exact braced balanced h

theorem ofAttributes {attributes : List (Gap × WrittenAttribute)}
    (h : ∀ a ∈ attributes, a.2.IsContained) : Crossed (WrittenAttribute.textOf attributes) := by
  induction attributes with
  | nil => exact nil
  | cons a attributes ih =>
    rw [WrittenAttribute.textOf_cons]
    exact (ofBlanks a.1.toBlanks).append
      ((ofAttribute a.2 (h a (by simp))).append (ih fun b hb => h b (by simp [hb])))

theorem ofBody {names : List String} (tag : WrittenTag names) : Crossed tag.body := by
  have hslash : Crossed (if tag.selfClosing then ['/'] else []) := by
    split
    · exact of_isQuiet (by simp [IsQuiet])
    · exact nil
  exact (ofAttributes tag.contained).append ((ofBlanks tag.trailing).append hslash)

end Crossed

namespace WrittenTag

variable {names : List String}

theorem parse_body (tag : WrittenTag names) :
    Attribute.parse tag.body = tag.attributes.filterMap fun a => a.2.attribute? := by
  refine parse_textOf tag.attributes tag.trailing ?_
  split
  · exact .slash []
  · exact .nil

/-- The name ends where the body of the tag begins. -/
theorem ends_body (tag : WrittenTag names) (rest : List Char) :
    Ends isWord (tag.body ++ '>' :: rest) := by
  have htrailing : Ends isWord
      ((tag.trailing.chars ++ if tag.selfClosing then ['/'] else []) ++ '>' :: rest) := by
    rw [List.append_assoc]
    refine tag.trailing.ends_isWord ?_
    split
    · exact .cons (by decide)
    · exact .cons (by decide)
  unfold body
  cases tag.attributes with
  | nil => exact htrailing
  | cons a attributes =>
    rw [WrittenAttribute.textOf_cons, List.append_assoc, List.append_assoc]
    exact a.1.ends_isWord _

/-- The name of a written tag is read behind its `<`. -/
theorem tagName?_text (hnames : ∀ name ∈ names, IsTagName name) (tag : WrittenTag names)
    (rest : List Char) :
    tagName? ((searchOrder names).map String.toList)
        ('<' :: (tag.name.toList ++ (tag.body ++ '>' :: rest)))
      = some (tag.name, tag.body ++ '>' :: rest) := by
  have hword := (hnames tag.name tag.known).2
  rw [tagName?_eq hnames, takeWhile_append_of_ends hword (tag.ends_body rest),
    dropWhile_append_of_ends hword (tag.ends_body rest), String.ofList_toList, if_pos tag.known]

end WrittenTag

/-! ## Scanning a document -/

/-- A table has a value at each of its keys. -/
theorem getD_of_mem_keys {ν : Type} {table : Table String ν} {key : String}
    (h : key ∈ table.keys) (a b : ν) : table.getD key a = table.getD key b := by
  unfold Table.getD Table.get?
  cases hfound : table.entries.lookup key with
  | some value => rfl
  | none =>
    obtain ⟨⟨k, v⟩, hentry, rfl⟩ := List.mem_map.1 h
    rw [List.lookup_eq_none_iff] at hfound
    simpa using hfound (k, v) hentry

/-- The instances of the tags that are found in a part of a text. -/
def instancesAt (content : List Char) (imports : Table String String)
    (found : List (Found String)) :
    List Instance :=
  (found.filterMap fun f => (tagEnd? content f.stop).map fun stop =>
      (⟨imports.getD f.value f.value, f.value, f.start, f.stop, stop⟩ : TagSpan)).map
    (Instance.ofSpan content (.ofText content))

theorem scanInstances_eq (content : List Char) (imports : Table String String) :
    scanInstances content imports = instancesAt content imports
      (found (tagName? ((searchOrder imports.keys).map String.toList)) 0 content) := rfl

/-- The instance of a tag whose boundaries have been found. -/
theorem ofSpan_written {imports : Table String String} (before rest : List Char)
    (tag : WrittenTag imports.keys) :
    Instance.ofSpan (before ++ (tag.text ++ rest)) (.ofText (before ++ (tag.text ++ rest)))
        ⟨imports.getD tag.name tag.name, tag.name, before.length,
          before.length + 1 + tag.name.length,
          before.length + 1 + tag.name.length + tag.body.length⟩
      = tag.instanceBehind imports before := by
  have hcontent : before ++ (tag.text ++ rest)
      = (before ++ '<' :: tag.name.toList) ++ (tag.body ++ '>' :: rest) := by
    simp only [WrittenTag.text, List.append_assoc, List.cons_append, List.nil_append]
  have hlength : (before ++ '<' :: tag.name.toList).length
      = before.length + 1 + tag.name.length := by
    simp only [List.length_append, List.length_cons, String.length_toList]
    omega
  have hbody : ((before ++ (tag.text ++ rest)).drop (before.length + 1 + tag.name.length)).take
      tag.body.length = tag.body := by
    rw [hcontent, ← hlength, List.drop_left, List.take_left]
  have hline : (LineIndex.ofText (before ++ (tag.text ++ rest))).lineAt before.length
      = before.count '\n' + 1 := by
    rw [LineIndex.lineAt_ofText, lineNumber, Int.toNat_natCast, List.take_left]
  simp only [Instance.ofSpan, WrittenTag.instanceBehind, TagSpan.bodyLength,
    Nat.add_sub_cancel_left, hbody, hline, tag.parse_body, getD_of_mem_keys tag.known tag.name ""]

theorem instancesAt_document {imports : Table String String}
    (hnames : ∀ name ∈ imports.keys, IsTagName name) (before : List Char)
    (pieces : List (Piece imports.keys)) :
    instancesAt (before ++ Piece.document pieces) imports
        (found (tagName? ((searchOrder imports.keys).map String.toList)) before.length
          (Piece.document pieces))
      = Piece.instances imports before pieces := by
  induction pieces generalizing before with
  | nil => rfl
  | cons piece pieces ih =>
    have hdocument : Piece.document (piece :: pieces) = piece.chars ++ Piece.document pieces := rfl
    cases piece with
    | text chars untagged =>
      have htext := ih (before ++ chars)
      rw [List.append_assoc, List.length_append] at htext
      rw [hdocument, Piece.chars, found_of_silent (silent_tagName? untagged _), htext]
      rfl
    | tag tag =>
      have hrest := ih (before ++ tag.text)
      rw [List.append_assoc, List.length_append] at hrest
      have hsplit : tag.text ++ Piece.document pieces
          = ('<' :: tag.name.toList) ++ ((tag.body ++ ['>']) ++ Piece.document pieces) := by
        simp only [WrittenTag.text, List.append_assoc, List.cons_append]
      have hbody : '<' ∉ tag.body ++ ['>'] := by
        simp [(Crossed.ofBody tag).untagged]
      have hread : tagName? ((searchOrder imports.keys).map String.toList)
          (('<' :: tag.name.toList) ++ ((tag.body ++ ['>']) ++ Piece.document pieces))
            = some (tag.name, (tag.body ++ ['>']) ++ Piece.document pieces) := by
        have := tag.tagName?_text hnames (Piece.document pieces)
        simpa only [List.append_assoc, List.cons_append, List.nil_append] using this
      have hstop : before.length + ('<' :: tag.name.toList).length
          = before.length + 1 + tag.name.length := by
        rw [List.length_cons, String.length_toList]
        omega
      have hend : tagEnd? (before ++ (tag.text ++ Piece.document pieces))
          (before.length + 1 + tag.name.length)
            = some (before.length + 1 + tag.name.length + tag.body.length) := by
        have := tagEnd?_of_passed (Crossed.ofBody tag).passed (before ++ '<' :: tag.name.toList)
          (Piece.document pieces)
        rw [List.length_append, hstop] at this
        simpa only [WrittenTag.text, List.append_assoc, List.cons_append, List.nil_append]
          using this
      have htotal : before.length + 1 + tag.name.length + (tag.body ++ ['>']).length
          = before.length + tag.text.length := by
        simp only [WrittenTag.text, List.length_cons, List.length_append, String.length_toList]
        omega
      have hfound : found (tagName? ((searchOrder imports.keys).map String.toList)) before.length
          (tag.text ++ Piece.document pieces)
            = ⟨before.length, before.length + 1 + tag.name.length, tag.name⟩
              :: found (tagName? ((searchOrder imports.keys).map String.toList))
                (before.length + tag.text.length) (Piece.document pieces) := by
        rw [hsplit, found_of_read hread (by simp), hstop,
          found_of_silent (silent_tagName? hbody _), htotal]
      rw [hdocument, Piece.chars, hfound, instancesAt, List.filterMap_cons, hend]
      simp only [Option.map_some, List.map_cons, ofSpan_written]
      exact congrArg _ hrest

/-- Scanning a written document gives its tags back. -/
theorem scanInstances_written (imports : Table String String)
    (hnames : ∀ name ∈ imports.keys, IsTagName name) (pieces : List (Piece imports.keys)) :
    scanInstances (Piece.document pieces) imports = Piece.instances imports [] pieces := by
  rw [scanInstances_eq]
  exact instancesAt_document hnames [] pieces

/-- Two imported names, one of which begins with the other. -/
def cardImports : Table String String := .ofPairs [("C", "Card"), ("Ca", "CardAction")]

/-- A document with an arrow and nested braces in its attributes. -/
def cardPieces : List (Piece cardImports.keys) :=
  let name (first : Char) (others : List Char) (hs : Attribute.startsName first = true)
    (hc : ∀ c ∈ others, Attribute.continuesName c = true) : AttributeName := ⟨first, others, hs, hc⟩
  [.text ['x', '\n'] (by decide),
    .tag {
      name := "Ca"
      known := by decide
      attributes :=
        [(.single, .valued (name 'f' [] (by decide) (by simp)) .none .none
            (.braced ['a', '=', '>', '{', 'b', '}', ' '] (by decide))),
          (.single, .flag (name 'o' ['n'] (by decide) (forall_mem_of_all (by decide)))),
          (.single, .spread ['.', '.', '.', 'p'] (by decide))]
      contained := by simp [WrittenAttribute.IsContained, WrittenValue.IsContained]
      trailing := .none
      selfClosing := true },
    .text ['\n', '}', '>'] (by decide),
    .tag {
      name := "C"
      known := by decide
      attributes := [(.single, .valued (name 'k' [] (by decide) (by simp)) .none .none
        (.quoted '"' ['v', '\''] (by decide) (by decide)))]
      contained := by simp [WrittenAttribute.IsContained, WrittenValue.IsContained, IsQuiet]
      trailing := .none
      selfClosing := false }]

theorem scanInstances_cards :
    (∀ name ∈ cardImports.keys, IsTagName name) ∧
      Piece.document cardPieces
        = "x\n<Ca f=\x7ba=>\x7bb\x7d \x7d on \x7b...p\x7d/>\n\x7d><C k=\"v'\">".toList ∧
      scanInstances (Piece.document cardPieces) cardImports =
        [⟨"CardAction", [⟨"f", "a=>\x7bb\x7d"⟩, ⟨"on", "true"⟩], 2, 2, 5, 28⟩,
          ⟨"Card", [⟨"k", "'v''"⟩], 3, 32, 34, 41⟩] := by
  refine ⟨by decide, by decide, ?_⟩
  rw [scanInstances_written cardImports (by decide) cardPieces]
  decide

end UsageCensus.Source
