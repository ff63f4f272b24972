import UsageCensus.Proofs.Source.WrittenImports
import UsageCensus.Proofs.Text.Searching
import UsageCensus.Source.Scan

/-!
# Reading a written statement

The reading that names are resolved from reads a statement up to its closing quote
(`read?_head`), unless it has a default name and names in braces behind it: in such a statement
nothing is read at any place (`silent_both`). What keeps a statement from being found inside of
another one: up to its source or to its braces a statement has word characters and blanks only
(`exists_mark_of_read?`).
-/

namespace UsageCensus.Source

open UsageCensus.Text

/-! ## Reading the parts of a statement -/

theorem importWord?_append (gap : Gap) {rest : List Char} (h : Ends isBlank rest) :
    importWord? (['i', 'm', 'p', 'o', 'r', 't'] ++ (gap.chars ++ rest)) = some rest := by
  unfold importWord?
  rw [after?_append]
  exact gap.blanks1?_append h

theorem braced?_append {inner : List Char} (h : '}' ∉ inner) (rest : List Char) :
    braced? ('{' :: (inner ++ '}' :: rest)) = some (inner, rest) := by
  have hinner : ∀ c ∈ inner, (c != '}') = true := by
    intro c hc
    have hne : c ≠ '}' := fun e => h (e ▸ hc)
    simpa using hne
  have hrun : run (· != '}') (inner ++ '}' :: rest) = (inner, '}' :: rest) :=
    run_of_ends hinner (.cons (by decide))
  simp only [braced?, hrun]

theorem braced?_word (word : Word) (rest : List Char) : braced? (word.chars ++ rest) = none := by
  obtain ⟨chars, hword, hne⟩ := word
  cases chars with
  | nil => exact absurd rfl hne
  | cons c chars =>
    have hc : c ≠ '{' := by
      rintro rfl
      exact absurd (hword '{' (by simp)) (by decide)
    unfold braced?
    split
    · rename_i e
      exact absurd (List.cons.inj e).1 hc
    · rfl

theorem brace_not_mem_names (names : WrittenNames) : '}' ∉ names.text := by
  have hbrace : ∀ {text : List Char}, IsWordy text → '}' ∉ text := fun h =>
    h.not_mem (by decide) (by decide)
  rw [WrittenNames.text, List.mem_append, List.mem_flatMap]
  rintro (h | ⟨piece, hpiece, h⟩)
  · exact hbrace (isWordy_item names.first) h
  · rcases List.mem_cons.1 h with h | h
    · cases h
    · exact hbrace (isWordy_behindCommas names piece hpiece) h

theorem names_text_ne_nil (names : WrittenNames) : names.text ≠ [] := by
  simp [WrittenNames.text, WrittenItem.text, (entry_facts names.first.entry).1]

theorem clause?_named (names : WrittenNames) (rest : List Char) :
    clause? ('{' :: (names.text ++ '}' :: rest))
      = some (.named (String.ofList names.text), rest) := by
  unfold clause?
  rw [braced?_append (brace_not_mem_names names)]
  cases h : names.text with
  | nil => exact absurd h (names_text_ne_nil names)
  | cons c text => rfl

theorem clause?_word (word : Word) {rest : List Char} (h : Ends isWord rest) :
    clause? (word.chars ++ rest) = some (.defaultName (String.ofList word.chars), rest) := by
  unfold clause?
  rw [braced?_word, run1?_of_ends word.word word.nonempty h]
  rfl

theorem isWord_of_isQuote {c : Char} (h : isQuote c = true) :
    isWord c = false ∧ isBlank c = false := by
  simp only [isQuote, Bool.or_eq_true, beq_iff_eq] at h
  rcases h with rfl | rfl <;> decide

/-- The word `from` and a quoted source are read as a whole. -/
theorem fromSource?_append (before behind : Gap) {quote : Char} {source : List Char}
    (hquote : isQuote quote = true) (hne : source ≠ [])
    (hsource : ∀ c ∈ source, isQuote c = false) (rest : List Char) :
    fromSource? (before.chars ++ (['f', 'r', 'o', 'm'] ++ (behind.chars ++
      quote :: (source ++ quote :: rest)))) = some (source, rest) := by
  have hfrom : Ends isBlank (['f', 'r', 'o', 'm'] ++ (behind.chars ++
      (quote :: (source ++ quote :: rest)))) := .cons (by decide)
  have hbehind : Ends isBlank (quote :: (source ++ quote :: rest)) :=
    .cons (isWord_of_isQuote hquote).2
  have hrun : run1? (fun c => !isQuote c) (source ++ quote :: rest)
      = some (source, quote :: rest) := by
    refine run1?_of_ends (fun c hc => ?_) hne (.cons ?_)
    · rw [hsource c hc]; rfl
    · rw [hquote]; rfl
  unfold fromSource?
  rw [before.blanks1?_append hfrom]
  simp only [Option.bind_eq_bind, Option.bind_some, after?_append, behind.blanks1?_append hbehind,
    one?, hquote, if_true, hrun]
  rfl

theorem fromSource?_fromText (statement : WrittenImport) (rest : List Char) :
    fromSource? (statement.fromText ++ rest) = some (statement.source, rest) := by
  have htext : statement.fromText ++ rest = statement.beforeFrom.chars ++ (['f', 'r', 'o', 'm'] ++
      (statement.beforeSource.chars ++ (statement.quote ::
        (statement.source ++ statement.quote :: rest)))) := by
    simp only [WrittenImport.fromText, List.append_assoc, List.cons_append, List.nil_append]
  rw [htext]
  exact fromSource?_append statement.beforeFrom statement.beforeSource statement.quote_isQuote
    statement.source_ne_nil (fun c hc => (statement.source_plain c hc).1) rest

/-- What follows a clause is no part of it. -/
theorem ends_fromText (statement : WrittenImport) (rest : List Char) :
    Ends isWord (statement.fromText ++ rest) := by
  rw [WrittenImport.fromText, List.append_assoc]
  exact statement.beforeFrom.ends_isWord _

/-! ## What names are resolved from -/

/-- How a statement is read, if it is read. -/
def WrittenImport.reading? (statement : WrittenImport) : Option (ImportClause × String) :=
  match statement.clause with
  | .named names => some (.named (String.ofList names.text), String.ofList statement.source)
  | .defaultName name =>
    some (.defaultName (String.ofList name.chars), String.ofList statement.source)
  | .both .. => none

theorem read?_head {statement : WrittenImport} {reading : ImportClause × String}
    (h : statement.reading? = some reading) (rest : List Char) :
    Import.read? (statement.head ++ rest) = some (reading, rest) := by
  have hhead : statement.head ++ rest = ['i', 'm', 'p', 'o', 'r', 't'] ++
      (statement.beforeClause.chars ++
        (statement.clause.text ++ (statement.fromText ++ rest))) := by
    simp only [WrittenImport.head, List.append_assoc]
  unfold WrittenImport.reading? at h
  unfold Import.read?
  rw [hhead]
  cases hc : statement.clause with
  | named names =>
    rw [hc] at h
    have htext : (WrittenClause.named names).text ++ (statement.fromText ++ rest)
        = '{' :: (names.text ++ '}' :: (statement.fromText ++ rest)) := by
      simp only [WrittenClause.text, List.append_assoc, List.cons_append, List.nil_append]
    rw [htext, importWord?_append _ (.cons (by decide))]
    simp only [Option.bind_eq_bind, Option.bind_some, clause?_named, fromSource?_fromText]
    cases h
    rfl
  | defaultName name =>
    rw [hc] at h
    rw [WrittenClause.text, importWord?_append _ (name.ends_isBlank _)]
    simp only [Option.bind_eq_bind, Option.bind_some,
      clause?_word name (ends_fromText statement rest), fromSource?_fromText]
    cases h
    rfl
  | both name before behind names =>
    rw [hc] at h
    cases h

/-! ## Where no statement starts -/

theorem exists_wordy_of_run1? {p : Char → Bool} {text w rest : List Char}
    (hp : ∀ c, p c = true → isWord c = true ∨ isBlank c = true)
    (h : run1? p text = some (w, rest)) :
    text = w ++ rest ∧ IsWordy w :=
  ⟨(run1?_eq_some h).1, fun c hc => hp c (forall_of_run1? h c hc)⟩

theorem exists_wordy_of_blanks1? {text rest : List Char} (h : blanks1? text = some rest) :
    ∃ w, text = w ++ rest ∧ IsWordy w := by
  obtain ⟨⟨w, rest'⟩, hrun, rfl⟩ := Option.map_eq_some_iff.1 h
  exact ⟨w, exists_wordy_of_run1? (fun _ => .inr) hrun⟩

/-- Up to its braces or its source, a statement has word characters and blanks only. -/
theorem exists_mark_of_read? {text rest : List Char} {reading : ImportClause × String}
    (h : Import.read? text = some (reading, rest)) :
    ∃ front mark tail, text = front ++ mark :: tail ∧ IsWordy front ∧
      (mark = '{' ∨ isQuote mark = true) := by
  have himport : IsWordy ['i', 'm', 'p', 'o', 'r', 't'] := by simp [IsWordy]; decide
  have hfrom : IsWordy ['f', 'r', 'o', 'm'] := by simp [IsWordy]; decide
  simp only [Import.read?, importWord?, Option.bind_eq_bind, Option.bind_eq_some_iff] at h
  obtain ⟨text1, ⟨text0, h0, h1⟩, ⟨clause, text2⟩, h2, ⟨source, text3⟩, h3, -⟩ := h
  obtain ⟨gap1, rfl, hgap1⟩ := exists_wordy_of_blanks1? h1
  rw [after?_eq_some_iff.1 h0]
  unfold clause? at h2
  cases hb : braced? text1 with
  | some p =>
    -- the first character that is neither is the brace
    unfold braced? at hb
    split at hb
    · rename_i tail
      exact ⟨_, '{', tail, (List.append_assoc ..).symm, himport.append hgap1, .inl rfl⟩
    · cases hb
  | none =>
    -- it is the quote before the source
    rw [hb] at h2
    obtain ⟨⟨word, text2'⟩, hword, e⟩ := Option.map_eq_some_iff.1 h2
    cases e
    obtain ⟨rfl, hwordy⟩ := exists_wordy_of_run1? (fun _ => .inl) hword
    simp only [fromSource?, Option.bind_eq_bind, Option.bind_eq_some_iff] at h3
    obtain ⟨text4, h4, text5, h5, text6, h6, text7, h7, -⟩ := h3
    obtain ⟨gap2, rfl, hgap2⟩ := exists_wordy_of_blanks1? h4
    obtain ⟨gap3, rfl, hgap3⟩ := exists_wordy_of_blanks1? h6
    rw [after?_eq_some_iff.1 h5]
    unfold one? at h7
    split at h7
    · rename_i c tail
      split at h7
      · rename_i hc
        refine ⟨['i', 'm', 'p', 'o', 'r', 't'] ++
          (gap1 ++ (word ++ (gap2 ++ (['f', 'r', 'o', 'm'] ++ gap3)))),
          c, tail, by simp only [List.append_assoc], ?_, .inr hc⟩
        exact himport.append (hgap1.append (hwordy.append (hgap2.append (hfrom.append hgap3))))
      · cases h7
    · cases h7

/-- The first character that is neither a word character nor a blank is determined. -/
theorem mark_unique {front front' : List Char} {mark mark' : Char} {tail tail' : List Char}
    (hfront : IsWordy front) (hfront' : IsWordy front')
    (hmark : isWord mark = false ∧ isBlank mark = false)
    (hmark' : isWord mark' = false ∧ isBlank mark' = false)
    (h : front ++ mark :: tail = front' ++ mark' :: tail') : mark = mark' := by
  induction front generalizing front' with
  | nil =>
    cases front' with
    | nil => exact (List.cons.inj h).1
    | cons c front' =>
      have hc := hfront' c (by simp)
      rw [← (List.cons.inj h).1, hmark.1, hmark.2] at hc
      simp at hc
  | cons c front ih =>
    cases front' with
    | nil =>
      have hc := hfront c (by simp)
      rw [(List.cons.inj h).1, hmark'.1, hmark'.2] at hc
      simp at hc
    | cons c' front' =>
      exact ih (fun d hd => hfront d (by simp [hd])) (fun d hd => hfront' d (by simp [hd]))
        (List.cons.inj h).2

/-- No statement starts before another mark than a brace that opens or a quote. -/
theorem silent_of_mark {front : List Char} {mark : Char} (hfront : IsWordy front)
    (hmark : isWord mark = false ∧ isBlank mark = false) (hbrace : mark ≠ '{')
    (hquote : isQuote mark = false) (tail : List Char) :
    Silent Import.read? front (mark :: tail) := by
  induction front with
  | nil => trivial
  | cons c front ih =>
    refine ⟨?_, ih fun d hd => hfront d (by simp [hd])⟩
    cases hread : Import.read? (c :: (front ++ mark :: tail)) with
    | none => rfl
    | some p =>
      obtain ⟨front', mark', tail', htext, hfront', hmark'⟩ := exists_mark_of_read? hread
      have hneither : isWord mark' = false ∧ isBlank mark' = false := by
        rcases hmark' with rfl | h
        · decide
        · exact isWord_of_isQuote h
      have hsame := mark_unique hfront hfront' hmark hneither
        (show (c :: front) ++ mark :: tail = front' ++ mark' :: tail' from htext)
      subst hsame
      rcases hmark' with rfl | h
      · exact absurd rfl hbrace
      · rw [hquote] at h; cases h

theorem read?_of_ne {c : Char} (h : c ≠ 'i') (text : List Char) :
    Import.read? (c :: text) = none := by
  simp only [Import.read?, importWord?, after?_cons_ne (Ne.symm h), Option.bind_eq_bind,
    Option.bind_none]

/-- No statement starts at another character than its first one. -/
theorem silent_of_ne {pre : List Char} (h : ∀ c ∈ pre, c ≠ 'i') (rest : List Char) :
    Silent Import.read? pre rest :=
  silent_of_forall fun c hc text => read?_of_ne (h c hc) text

theorem ne_i_of_isBlank {c : Char} (h : isBlank c = true) : c ≠ 'i' := by
  rintro rfl
  exact absurd h (by decide)

/-- The word `import` is not read from a source, behind which there is no blank. -/
theorem importWord?_source {source : List Char} (h : ∀ c ∈ source, isBlank c = false) {quote : Char}
    (hquote : isQuote quote = true) (rest : List Char) :
    importWord? (source ++ quote :: rest) = none := by
  cases hword : importWord? (source ++ quote :: rest) with
  | none => rfl
  | some tail =>
    simp only [importWord?, Option.bind_eq_bind, Option.bind_eq_some_iff] at hword
    obtain ⟨text, htext, hblanks⟩ := hword
    obtain ⟨taken, hrun, -⟩ := Option.map_eq_some_iff.1 hblanks
    have hends : Ends (fun c => !isBlank c) text := ends_not_of_run1? hrun
    have hleft : quote ∈ (source ++ quote :: rest).takeWhile fun c => !isBlank c := by
      have hsource : ∀ c ∈ source ++ [quote], (!isBlank c) = true := by
        intro c hc
        rcases List.mem_append.1 hc with hc | hc
        · rw [h c hc]; rfl
        · rw [List.mem_singleton.1 hc, (isWord_of_isQuote hquote).2]; rfl
      rw [show source ++ quote :: rest = (source ++ [quote]) ++ rest by simp,
        List.takeWhile_append_of_pos hsource]
      simp
    rw [after?_eq_some_iff.1 htext,
      takeWhile_append_of_ends (forall_mem_of_all (by decide)) hends] at hleft
    have hquoteWord : ∀ c ∈ ['i', 'm', 'p', 'o', 'r', 't'], isQuote c = false :=
      forall_mem_of_all (by decide)
    rw [hquoteWord quote hleft] at hquote
    cases hquote

theorem silent_source {source : List Char} (h : ∀ c ∈ source, isBlank c = false) {quote : Char}
    (hquote : isQuote quote = true) (rest : List Char) :
    Silent Import.read? (source ++ [quote]) rest := by
  induction source with
  | nil =>
    refine silent_of_ne (fun c hc => ?_) rest
    rw [List.mem_singleton.1 hc]
    rintro rfl
    exact absurd hquote (by decide)
  | cons c source ih =>
    refine ⟨?_, ih fun d hd => h d (by simp [hd])⟩
    have hword := importWord?_source h hquote rest
    have htext : c :: (source ++ [quote] ++ rest) = (c :: source) ++ quote :: rest := by simp
    rw [List.append_eq, htext, Import.read?, hword]
    rfl

theorem silent_pieces {piece : List Char} {pieces : List (List Char)} (h : IsWordy piece)
    (hall : ∀ p ∈ pieces, IsWordy p) (tail : List Char) :
    Silent Import.read? (piece ++ pieces.flatMap fun p => ',' :: p) ('}' :: tail) := by
  induction pieces generalizing piece with
  | nil =>
    rw [List.flatMap_nil, List.append_nil]
    exact silent_of_mark h (by decide) (by decide) (by decide) tail
  | cons p pieces ih =>
    refine silent_append ?_ ⟨read?_of_ne (by decide) _, ?_⟩
    · exact silent_of_mark h (by decide) (by decide) (by decide) _
    · exact ih (hall p (by simp)) fun q hq => hall q (by simp [hq])

theorem silent_fromText (statement : WrittenImport) (rest : List Char) :
    Silent Import.read? statement.fromText rest := by
  have hblank : ∀ c ∈ statement.source, isBlank c = false := fun c hc =>
    (statement.source_plain c hc).2
  have hquote : statement.quote ≠ 'i' := by
    intro e
    have := statement.quote_isQuote
    rw [e] at this
    exact absurd this (by decide)
  have hsplit : statement.fromText = (statement.beforeFrom.chars ++ (['f', 'r', 'o', 'm'] ++
      (statement.beforeSource.chars ++ [statement.quote])))
        ++ (statement.source ++ [statement.quote]) := by
    simp only [WrittenImport.fromText, List.append_assoc, List.cons_append, List.nil_append]
  rw [hsplit]
  refine silent_append (silent_of_ne (fun c hc => ?_) _)
    (silent_source hblank statement.quote_isQuote rest)
  simp only [List.mem_append, List.mem_singleton] at hc
  rcases hc with hc | hc | hc | rfl
  · exact ne_i_of_isBlank (statement.beforeFrom.blank c hc)
  · have hfrom : ∀ d ∈ ['f', 'r', 'o', 'm'], d ≠ 'i' := forall_mem_of_all (by decide)
    exact hfrom c hc
  · exact ne_i_of_isBlank (statement.beforeSource.blank c hc)
  · exact hquote

/-- No statement starts in one that has a default name and names in braces. -/
theorem silent_both {statement : WrittenImport} (h : statement.reading? = none) (rest : List Char) :
    Silent Import.read? statement.head rest := by
  unfold WrittenImport.reading? at h
  split at h
  · cases h
  · cases h
  · rename_i name before behind names hc
    have himport : IsWordy ['i', 'm', 'p', 'o', 'r', 't'] := by simp [IsWordy]; decide
    have hsplit : statement.head =
        (['i', 'm', 'p', 'o', 'r', 't'] ++
          (statement.beforeClause.chars ++ (name.chars ++ before.chars)))
            ++ ((',' :: (behind.chars ++ ['{']))
              ++ (names.text ++ (['}'] ++ statement.fromText))) := by
      simp only [WrittenImport.head, hc, WrittenClause.text, List.append_assoc, List.cons_append,
        List.nil_append]
    rw [hsplit]
    refine silent_append ?_ (silent_append ?_ (silent_append ?_ (silent_append ?_ ?_)))
    · refine silent_of_mark ?_ (by decide) (by decide) (by decide) _
      exact himport.append ((isWordy_blanks statement.beforeClause.toBlanks).append
        ((isWordy_word name).append (isWordy_blanks before)))
    · refine silent_of_ne (fun c hc => ?_) _
      simp only [List.mem_cons, List.mem_append, List.not_mem_nil, or_false] at hc
      rcases hc with rfl | hc | rfl
      · decide
      · exact ne_i_of_isBlank (behind.blank c hc)
      · decide
    · exact silent_pieces (isWordy_item names.first) (isWordy_behindCommas names) _
    · exact silent_of_ne (forall_mem_of_all (by decide)) _
    · exact silent_fromText statement rest

/-- No statement starts in what stands behind one. -/
theorem silent_semicolon (statement : WrittenImport) (rest : List Char) :
    Silent Import.read? (if statement.semicolon then [';'] else []) rest := by
  refine silent_of_ne (fun c hc => ?_) rest
  split at hc
  · rw [List.mem_singleton.1 hc]; decide
  · cases hc

end UsageCensus.Source
