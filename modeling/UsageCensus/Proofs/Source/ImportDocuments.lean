import UsageCensus.Proofs.Source.ImportReaders

/-!
# Import statements one per line

Over statements that are written one per line, the two readings of import statements find each
statement at its place, so the names of a file and the lines of its imports both follow from the
list of its statements (`imports_document`).
-/

namespace UsageCensus.Source

open UsageCensus.Text

/-! ## Extents -/

theorem extentClause?_braces {names : WrittenNames} (rest : List Char) :
    extentClause? ('{' :: (names.text ++ '}' :: rest)) = some rest := by
  unfold extentClause?
  rw [braced?_append (brace_not_mem_names names)]

theorem extentClause?_word (word : Word) {rest : List Char} (h : Ends isWord rest) :
    extentClause? (word.chars ++ rest) = some rest := by
  unfold extentClause?
  rw [braced?_word, run1?_of_ends word.word word.nonempty h]
  rfl

theorem secondClause?_of_ne {text : List Char} (h : Ends (· == ',') (skipBlanks text)) :
    secondClause? text = some text := by
  unfold secondClause?
  split
  · rename_i e
    rw [e] at h
    exact absurd h.head (by decide)
  · rfl

/-- The word `from` is no comma. -/
theorem secondClause?_fromText (statement : WrittenImport) (rest : List Char) :
    secondClause? (statement.fromText ++ rest) = some (statement.fromText ++ rest) := by
  refine secondClause?_of_ne ?_
  rw [WrittenImport.fromText, List.append_assoc, statement.beforeFrom.skipBlanks_append_of_ends]
  · exact .cons (by decide)
  · exact .cons (by decide)

/-- What follows an import, up to what stands before the source, is its clause. -/
theorem importExtent?_clause (statement : WrittenImport) (rest : List Char) :
    (extentClause? (statement.clause.text ++ (statement.fromText ++ rest))).bind secondClause?
      = some (statement.fromText ++ rest) := by
  cases statement.clause with
  | named names =>
    rw [WrittenClause.text, List.cons_append, List.append_assoc, List.singleton_append,
      extentClause?_braces, Option.bind_some, secondClause?_fromText]
  | defaultName name =>
    rw [WrittenClause.text, extentClause?_word name (ends_fromText statement rest),
      Option.bind_some, secondClause?_fromText]
  | both name before behind names =>
    have htext : (WrittenClause.both name before behind names).text ++ (statement.fromText ++ rest)
        = name.chars ++ (before.chars ++ (',' :: (behind.chars ++
          ('{' :: (names.text ++ '}' :: (statement.fromText ++ rest)))))) := by
      simp only [WrittenClause.text, List.append_assoc, List.cons_append, List.nil_append]
    rw [htext, extentClause?_word name (before.ends_isWord (.cons (by decide))), Option.bind_some]
    unfold secondClause?
    rw [before.skipBlanks_append_of_ends (.cons (by decide))]
    show extentClause? (skipBlanks (behind.chars ++
      ('{' :: (names.text ++ '}' :: (statement.fromText ++ rest))))) = _
    rw [behind.skipBlanks_append_of_ends (.cons (by decide)), extentClause?_braces]

theorem ends_clause (statement : WrittenImport) (rest : List Char) :
    Ends isBlank (statement.clause.text ++ rest) := by
  cases statement.clause with
  | named names => exact .cons (by decide)
  | defaultName name => exact name.ends_isBlank rest
  | both name before behind names =>
    rw [WrittenClause.text, List.append_assoc]
    exact name.ends_isBlank _

theorem skipSemicolon_text (statement : WrittenImport) {rest : List Char}
    (h : Ends (· == ';') (skipBlanks rest)) :
    skipSemicolon ((if statement.semicolon then [';'] else []) ++ rest) = rest := by
  cases statement.semicolon with
  | true => rfl
  | false =>
    unfold skipSemicolon
    split
    · rename_i e
      have hrest : skipBlanks rest = ';' :: _ := e
      rw [hrest] at h
      exact absurd h.head (by decide)
    · rfl

theorem importExtent?_text (statement : WrittenImport) {rest : List Char}
    (h : Ends (· == ';') (skipBlanks rest)) :
    importExtent? (statement.text ++ rest) = some (String.ofList statement.source, rest) := by
  have htext : statement.text ++ rest = ['i', 'm', 'p', 'o', 'r', 't'] ++
      (statement.beforeClause.chars ++ (statement.clause.text ++ (statement.fromText ++
        ((if statement.semicolon then [';'] else []) ++ rest)))) := by
    simp only [WrittenImport.text, WrittenImport.head, List.append_assoc]
  have hclause := importExtent?_clause statement
    ((if statement.semicolon then [';'] else []) ++ rest)
  unfold importExtent?
  rw [htext, importWord?_append _ (ends_clause statement _)]
  obtain ⟨text, hfirst, hsecond⟩ := Option.bind_eq_some_iff.1 hclause
  simp only [Option.bind_eq_bind, Option.bind_some, hfirst, hsecond, fromSource?_fromText,
    skipSemicolon_text statement h]
  rfl

/-! ## What the statements of a document say -/

/-- What stands behind the first statement of a document. -/
def following (statements : List WrittenImport) : List Char :=
  statements.flatMap fun statement => '\n' :: statement.text

theorem document_cons (statement : WrittenImport) (others : List WrittenImport) :
    WrittenImport.document (statement :: others) = statement.text ++ following others := by
  induction others generalizing statement with
  | nil => simp [WrittenImport.document, following, List.intercalate]
  | cons next others ih =>
    have hnext := ih next
    unfold WrittenImport.document at hnext ⊢
    rw [List.map_cons, List.map_cons, List.intercalate_cons_cons, ← List.map_cons, hnext,
      List.append_assoc]
    rfl

theorem text_ne_nil (statement : WrittenImport) : statement.text ≠ [] := by
  simp [WrittenImport.text, WrittenImport.head]

/-- A line break is no semicolon, and neither is the start of the next statement. -/
theorem ends_following (statements : List WrittenImport) :
    Ends (· == ';') (skipBlanks (following statements)) := by
  cases statements with
  | nil => exact .nil
  | cons statement others => exact .cons (by decide)

theorem values_text (statement : WrittenImport) (at_ : Nat) (rest : List Char) :
    (found Import.read? at_ (statement.text ++ rest)).map Found.value
      = statement.reading?.toList
        ++ (found Import.read? (at_ + statement.text.length) rest).map Found.value := by
  have htext : statement.text ++ rest
      = statement.head ++ ((if statement.semicolon then [';'] else []) ++ rest) := by
    rw [WrittenImport.text, List.append_assoc]
  have hlength : statement.text.length
      = statement.head.length + (if statement.semicolon then [';'] else []).length := by
    rw [WrittenImport.text, List.length_append]
  rw [hlength, ← Nat.add_assoc, htext]
  cases hr : statement.reading? with
  | some reading =>
    have hne : statement.head ≠ [] := by simp [WrittenImport.head]
    rw [found_of_read (read?_head hr _) hne, found_of_silent (silent_semicolon statement rest)]
    rfl
  | none =>
    rw [found_of_silent (silent_both hr _), found_of_silent (silent_semicolon statement rest)]
    rfl

theorem values_following (statements : List WrittenImport) (at_ : Nat) :
    (found Import.read? at_ (following statements)).map Found.value
      = statements.filterMap WrittenImport.reading? := by
  induction statements generalizing at_ with
  | nil => rfl
  | cons statement others ih =>
    have hbreak : Import.read? ('\n' :: (statement.text ++ following others)) = none :=
      read?_of_ne (by decide) _
    have hfollowing : following (statement :: others)
        = '\n' :: (statement.text ++ following others) := rfl
    rw [hfollowing, found_cons_of_none hbreak, values_text, ih, List.filterMap_cons]
    cases statement.reading? <;> rfl

/-- What is read from a document: one reading for each statement that has one, in order. -/
theorem values_document (statements : List WrittenImport) :
    (search (forward Import.read?) (WrittenImport.document statements)).map Found.value
      = statements.filterMap WrittenImport.reading? := by
  rw [search_forward]
  cases statements with
  | nil => rfl
  | cons statement others =>
    rw [document_cons, values_text, values_following, List.filterMap_cons]
    cases statement.reading? <;> rfl

/-! ## Names and spans -/

variable (tracked : Tracked)

/-- The names after a statement: a list of names from a tracked source enters each local name
whose exported name is a component, in order, and any other statement enters nothing. -/
def WrittenImport.bind (names : Table String String) (statement : WrittenImport) :
    Table String String :=
  match statement.clause with
  | .named list =>
    if tracked.hasSource (String.ofList statement.source) then
      (list.items.filterMap fun item => item.entry.binding?).foldl (fun names binding =>
        if tracked.hasComponent binding.exported then
          names.insert binding.localName binding.exported
        else names) names
    else names
  | .defaultName _ => names
  | .both .. => names

/-- First and last offset of each statement with a tracked source, where the first statement
starts at offset `at_` and each other one behind a line break. -/
def WrittenImport.spansFrom (at_ : Nat) : List WrittenImport → List (Nat × Nat)
  | [] => []
  | statement :: others =>
    let behind := spansFrom (at_ + statement.text.length + 1) others
    if tracked.hasSource (String.ofList statement.source) then
      (at_, at_ + statement.text.length - 1) :: behind
    else behind

/-- What a reading adds to the names. -/
def bindReading (names : Table String String) (reading : ImportClause × String) :
    Table String String :=
  match reading.1 with
  | .defaultName _ => names
  | .named list =>
    if tracked.hasSource reading.2 then
      (Binding.ofNames list).foldl (fun names binding =>
        if tracked.hasComponent binding.exported then
          names.insert binding.localName binding.exported
        else names) names
    else names

theorem resolveImports_eq_foldl (content : List Char) :
    resolveImports content tracked
      = ((search (forward Import.read?) content).map Found.value).foldl (bindReading tracked)
        .empty := by
  rw [resolveImports, Import.all, List.foldl_map, List.foldl_map]
  rfl

theorem bindReading_reading? (names : Table String String) (statement : WrittenImport) :
    (match statement.reading? with
      | some reading => bindReading tracked names reading
      | none => names) = statement.bind tracked names := by
  unfold WrittenImport.reading? WrittenImport.bind
  cases statement.clause with
  | named list => simp only [bindReading, ofNames_text]
  | defaultName name => rfl
  | both name before behind list => rfl

theorem spans_text (statement : WrittenImport) (at_ : Nat) {rest : List Char}
    (h : Ends (· == ';') (skipBlanks rest)) :
    found importExtent? at_ (statement.text ++ rest)
      = ⟨at_, at_ + statement.text.length, String.ofList statement.source⟩
        :: found importExtent? (at_ + statement.text.length) rest :=
  found_of_read (importExtent?_text statement h) (text_ne_nil statement)

/-- The tracked ones among extents, by their first and last offsets. -/
def trackedSpans (extents : List (Found String)) : List (Nat × Nat) :=
  extents.filterMap fun found =>
    if tracked.hasSource found.value then some (found.start, found.stop - 1) else none

theorem trackedSpans_text (statement : WrittenImport) (others : List WrittenImport) (at_ : Nat) :
    trackedSpans tracked (found importExtent? at_ (statement.text ++ following others))
      = WrittenImport.spansFrom tracked at_ (statement :: others) := by
  induction others generalizing statement at_ with
  | nil =>
    rw [spans_text statement at_ (ends_following [])]
    simp only [trackedSpans, WrittenImport.spansFrom, List.filterMap_cons]
    split <;> simp_all [following, found_nil]
  | cons next others ih =>
    have hbreak : importExtent? ('\n' :: (next.text ++ following others)) = none := rfl
    have hfollowing : following (next :: others) = '\n' :: (next.text ++ following others) := rfl
    have hbehind := ih next (at_ + statement.text.length + 1)
    rw [spans_text statement at_ (ends_following _), hfollowing, found_cons_of_none hbreak,
      WrittenImport.spansFrom, ← hbehind]
    simp only [trackedSpans, List.filterMap_cons]
    split <;> simp_all

/-- Over statements that are written one per line, the names of the file are those that the lists
of names enter, in order, and the tracked imports are the statements with a tracked source. -/
theorem imports_document (statements : List WrittenImport) :
    resolveImports (WrittenImport.document statements) tracked
        = statements.foldl (WrittenImport.bind tracked) .empty ∧
      trackedImportSpans (WrittenImport.document statements) tracked
        = WrittenImport.spansFrom tracked 0 statements := by
  constructor
  · rw [resolveImports_eq_foldl, values_document, List.foldl_filterMap]
    congr 1
    funext names statement
    rw [← bindReading_reading?]
    cases statement.reading? <;> rfl
  · cases statements with
    | nil => rfl
    | cons statement others =>
      rw [document_cons]
      exact trackedSpans_text tracked statement others 0

end UsageCensus.Source
