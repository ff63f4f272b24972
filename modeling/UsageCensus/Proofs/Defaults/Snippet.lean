import UsageCensus.Defaults.Listing
import UsageCensus.Proofs.Document.RoundTrip
import UsageCensus.Proofs.Text.Reading

/-!
# The piece of configuration

The sure detections are listed as a piece of configuration, one component a line, with commas
between the lines. Names and values are quoted, so no line of it is broken and none looks like the
one that opens it (`snippet_listing`): the piece is found in the text, whatever stands in the tables
before it. Put between braces it is read as the detections that it was made of, if their texts are
read back from their quotes (`parseWith_snippet`).
-/

namespace UsageCensus.Detection

open UsageCensus.Document UsageCensus.Text

/-- A component and the values of its props. -/
abbrev Entry := String × Table String String

abbrev Entry.props (entry : Entry) : Document := .ofTable .string entry.2

/-- The texts of the entry are read back that have been written. -/
structure Entry.IsReadable (written read : Surrogates) (entry : Entry) : Prop where
  key : Document.IsReadable written read entry.1.toList
  props : ∀ text ∈ entry.props.texts, Document.IsReadable written read text.toList

theorem isExact_props (entry : Entry) : IsExact entry.props := by
  refine .object (entry.2.mapValues Document.string).nodup_keys fun member hmem => ?_
  obtain ⟨prop, -, rfl⟩ := List.mem_map.1 hmem
  exact .string _

theorem readsBack_props {written read : Surrogates} {entry : Entry}
    (h : entry.IsReadable written read) (room : Nat) :
    ReadsBack written read (room + 1) entry.props := by
  have hsavable : entry.props.isSavable = true := by simp
  have hdepth : entry.props.depth ≤ room + 1 := by simp
  exact readsBack_of_isData (isExact_props entry).isData hsavable hdepth h.props

/-! ## Lines -/

/-- A component as it is written, in front of a text. -/
def Entry.text (written : Surrogates) (entry : Entry) (text : List Char) : List Char :=
  quote written entry.1 ++ ':' :: ' ' :: write written .oneLine 0 entry.props text

/-- What every line of a component starts with. -/
def indent : List Char := [' ', ' ', ' ', ' ']

/-- The lines of the components, with a comma behind every one but the last. -/
def entryLines (written : Surrogates) : List Entry → List (List Char)
  | [] => []
  | [entry] => [indent ++ entry.text written []]
  | entry :: next :: entries =>
    (indent ++ entry.text written [',']) :: entryLines written (next :: entries)

section

variable {written : Surrogates}

theorem text_append (entry : Entry) (text : List Char) :
    entry.text written text = entry.text written [] ++ text := by
  unfold Entry.text
  rw [write_append (isExact_props entry).isData, List.append_assoc]
  rfl

theorem toList_snippetLine (entry : Entry) :
    (snippetLine written entry.1 entry.2).toList = indent ++ entry.text written [] := by
  unfold snippetLine renderWith Entry.text
  simp only [String.toList_append, String.toList_ofList, List.append_assoc, write, List.append_nil]
  rfl

theorem toList_snippetLines (entries : List Entry) :
    (List.zipWith (fun entry comma => snippetLine written entry.1 entry.2 ++ comma) entries
      (List.replicate (entries.length - 1) "," ++ [""])).map String.toList
        = entryLines written entries := by
  induction entries with
  | nil => rfl
  | cons entry entries ih =>
    cases entries with
    | nil =>
      show [(snippetLine written entry.1 entry.2 ++ "").toList] = _
      rw [String.append_empty, toList_snippetLine]
      rfl
    | cons next entries =>
      rw [List.length_cons, Nat.add_sub_cancel, List.length_cons, List.replicate_succ]
      show (snippetLine written entry.1 entry.2 ++ ",").toList :: _ = _
      rw [String.toList_append, toList_snippetLine, List.append_assoc, entryLines, ← ih,
        text_append entry [',']]
      rfl

theorem newline_not_mem_writeMembers (members : List (String × String)) :
    '\n' ∉ writeMembers written .oneLine 1 (members.map fun m => (m.1, Document.string m.2))
      ['\x7d'] := by
  induction members with
  | nil =>
    rw [List.map_nil, writeMembers]
    decide
  | cons m members ih =>
    rw [List.map_cons, writeMembers, write]
    simp only [List.mem_append, List.mem_cons, newline_not_mem_quote, false_or, not_or]
    exact ⟨by decide, by decide, by decide, ih⟩

theorem newline_not_mem_text {entry : Entry} : '\n' ∉ entry.text written [] := by
  have hprops : '\n' ∉ write written .oneLine 0 entry.props [] := by
    show '\n' ∉ write written .oneLine 0
      (.object (entry.2.entries.map fun m => (m.1, Document.string m.2))) []
    cases entry.2.entries with
    | nil =>
      rw [List.map_nil, write]
      decide
    | cons m members =>
      rw [List.map_cons, write, write]
      simp only [List.mem_append, List.mem_cons, newline_not_mem_quote, false_or, not_or]
      exact ⟨by decide, by decide, by decide, by decide, newline_not_mem_writeMembers members⟩
  unfold Entry.text
  simp only [List.mem_append, List.mem_cons, newline_not_mem_quote, false_or, not_or]
  exact ⟨by decide, by decide, hprops⟩

/-- No line of a component is broken, and each starts with its indent. -/
theorem of_mem_entryLines {entries : List Entry} {line : List Char}
    (h : line ∈ entryLines written entries) : '\n' ∉ line ∧ ∃ rest, line = indent ++ rest := by
  induction entries with
  | nil => cases h
  | cons entry entries ih =>
    cases entries with
    | nil =>
      obtain rfl := List.mem_singleton.1 h
      refine ⟨fun hmem => ?_, _, rfl⟩
      rcases List.mem_append.1 hmem with hmem | hmem
      · exact absurd hmem (by decide)
      · exact newline_not_mem_text hmem
    | cons next entries =>
      rcases List.mem_cons.1 h with rfl | h
      · refine ⟨fun hmem => ?_, _, rfl⟩
        rw [text_append] at hmem
        rcases List.mem_append.1 hmem with hmem | hmem
        · exact absurd hmem (by decide)
        · rcases List.mem_append.1 hmem with hmem | hmem
          · exact newline_not_mem_text hmem
          · exact absurd hmem (by decide)
      · exact ih h

end

/-! ## The piece in the text -/

def openingLine : List Char := "  \"propDefaults\": \x7b".toList

def innerLines (written : Surrogates) (entries : List Entry) : List (List Char) :=
  entryLines written entries ++ [[' ', ' ', '\x7d'], []]

/-- The part of a text from the last line on that opens it. -/
def IsFromLast (opens : List Char → Bool) (text part : List Char) : Prop :=
  ∃ before line after, cutAt '\n' text = before ++ line :: after ∧ opens line = true ∧
    (∀ other ∈ after, opens other = false) ∧ part = ['\n'].intercalate (line :: after)

theorem IsFromLast.unique {opens : List Char → Bool} {text part part' : List Char}
    (h : IsFromLast opens text part) (h' : IsFromLast opens text part') : part = part' := by
  obtain ⟨before, line, after, hcut, hline, hlast, rfl⟩ := h
  obtain ⟨before', line', after', hcut', hline', hlast', rfl⟩ := h'
  -- from the end on, what comes before a line that opens is what is behind the last one
  have hbehind : ∀ (before : List (List Char)) {after line}, opens line = true →
      (∀ other ∈ after, opens other = false) →
      (before ++ line :: after).reverse.takeWhile (!opens ·) = after.reverse ∧
        (before ++ line :: after).reverse.dropWhile (!opens ·) = line :: before.reverse := by
    intro before after line hline hafter
    have hreverse : ∀ other ∈ after.reverse, (!opens other) = true := by
      intro other hother
      rw [hafter other (List.mem_reverse.1 hother)]
      rfl
    rw [List.reverse_append, List.reverse_cons, List.append_assoc, List.singleton_append,
      List.takeWhile_append_of_pos hreverse, List.dropWhile_append_of_pos hreverse,
      List.takeWhile_cons_of_neg (by simp [hline]), List.dropWhile_cons_of_neg (by simp [hline]),
      List.append_nil]
    exact ⟨rfl, rfl⟩
  obtain ⟨hafter, hfrom⟩ := hbehind before hline hlast
  obtain ⟨hafter', hfrom'⟩ := hbehind before' hline' hlast'
  rw [← hcut] at hafter hfrom
  rw [← hcut'] at hafter' hfrom'
  rw [(List.cons.inj (hfrom.symm.trans hfrom')).1, List.reverse_inj.1 (hafter.symm.trans hafter')]

section

variable {written : Surrogates}

theorem openingLine_not_mem (entries : List Entry) :
    openingLine ∉ innerLines written entries := by
  intro hmem
  rcases List.mem_append.1 hmem with hmem | hmem
  · obtain ⟨-, rest, hline⟩ := of_mem_entryLines hmem
    have hthird : openingLine[2]? = some ' ' := hline ▸ rfl
    exact absurd hthird (by decide)
  · exact absurd hmem (by decide)

theorem newline_not_mem_innerLines {entries : List Entry} {line : List Char}
    (h : line ∈ innerLines written entries) : '\n' ∉ line := by
  rcases List.mem_append.1 h with h | h
  · exact (of_mem_entryLines h).1
  · have hclosing : ∀ line ∈ [[' ', ' ', '\x7d'], []], '\n' ∉ line := by decide
    exact hclosing line h

variable {α : Type}

def sortedEntries (surrogates : Surrogates) (detections : List (Detection α)) : List Entry :=
  (sureValues detections).entries.mergeSort fun a b => surrogates.textLe a.1 b.1

def tables (count : α → String) (detections : List (Detection α)) : List String :=
  [thickRule, "  DETECTED PROP DEFAULTS", thickRule, "",
    "  Props that are explicitly set to what is likely the component's",
    "  built-in default, i.e. redundant usage.", "",
    "  Total detected:      " ++ toString detections.length]
  ++ (countByConfidence detections).map (fun (level, n) =>
    "    " ++ alignLeft 19 (levelTitle level ++ " confidence:") ++ toString n)
  ++ [""]
  ++ Defaults.Confidence.levels.flatMap (levelLines count detections)
  ++ [thickRule, "  CONFIG-READY SNIPPET (high + medium confidence only)", thickRule, ""]

theorem toList_listing (count : α → String) (detections : List (Detection α)) :
    (listing written count detections).toList = ['\n'].intercalate
      ((tables count detections).map String.toList
        ++ openingLine :: innerLines written (sortedEntries written detections)) := by
  have hlines : listing written count detections = "\n".intercalate (tables count detections
      ++ "  \"propDefaults\": \x7b" :: (snippetLines written detections ++ ["  \x7d", ""])) := by
    unfold listing tables
    simp only [List.append_assoc, List.cons_append, List.nil_append]
  rw [hlines, String.toList_intercalate, List.map_append, List.map_cons, List.map_append,
    snippetLines, toList_snippetLines]
  rfl

/-- The lines of the text: what the tables are cut into, and behind them those of the piece. -/
theorem cutAt_listing (written : Surrogates) (count : α → String)
    (detections : List (Detection α)) :
    cutAt '\n' (listing written count detections).toList
      = ((tables count detections).map String.toList).flatMap (cutAt '\n')
        ++ openingLine :: innerLines written (sortedEntries written detections) := by
  have hlines : ∀ line ∈ openingLine :: innerLines written (sortedEntries written detections),
      '\n' ∉ line := by
    intro line hline
    rcases List.mem_cons.1 hline with rfl | hline
    · decide
    · exact newline_not_mem_innerLines hline
  rw [toList_listing, cutAt_intercalate (by simp), List.flatMap_append, flatMap_cutAt hlines]

/-- The piece of configuration is found in the text, whatever stands in the tables before. -/
theorem snippet_listing (count : α → String) (detections : List (Detection α)) :
    IsFromLast (· == openingLine) (listing written count detections).toList
      (['\n'].intercalate
        (openingLine :: innerLines written (sortedEntries written detections))) := by
  have hlast : ∀ line ∈ innerLines written (sortedEntries written detections),
      (line == openingLine) = false := by
    intro line hline
    rw [beq_eq_false_iff_ne]
    rintro rfl
    exact openingLine_not_mem _ hline
  exact ⟨_, _, _, cutAt_listing written count detections, beq_self_eq_true _, hlast, rfl⟩

/-! ## The piece read back -/

/-- The lines behind the opening one, in front of a text. -/
def innerText (written : Surrogates) (entries : List Entry) (text : List Char) : List Char :=
  ['\n'].intercalate (innerLines written entries) ++ text

theorem innerText_nil (text : List Char) :
    innerText written [] text = [' ', ' ', '\x7d', '\n'] ++ text := rfl

theorem innerText_singleton (entry : Entry) (text : List Char) :
    innerText written [entry] text
      = indent ++ entry.text written ('\n' :: innerText written [] text) := by
  rw [text_append, innerText_nil, innerText, innerLines, entryLines, List.singleton_append,
    List.intercalate_cons_cons]
  simp only [List.append_assoc]
  rfl

theorem exists_cons_innerLines (written : Surrogates) (entries : List Entry) :
    ∃ line lines, innerLines written entries = line :: lines := by
  match entries with
  | [] => exact ⟨_, _, rfl⟩
  | [entry] => exact ⟨_, _, rfl⟩
  | entry :: next :: entries => exact ⟨_, _, rfl⟩

theorem innerText_cons (entry next : Entry) (entries : List Entry) (text : List Char) :
    innerText written (entry :: next :: entries) text
      = indent ++ entry.text written (',' :: '\n' :: innerText written (next :: entries) text) := by
  obtain ⟨line, lines, hlines⟩ := exists_cons_innerLines written (next :: entries)
  have hinner : innerLines written (entry :: next :: entries)
      = (indent ++ entry.text written [',']) :: innerLines written (next :: entries) := rfl
  rw [text_append, innerText, innerText, hinner, hlines, List.intercalate_cons_cons,
    text_append entry [',']]
  simp only [List.append_assoc]
  rfl

theorem ends_text (entry : Entry) (text : List Char) :
    Ends isSpace (entry.text written text) := by
  rw [Entry.text, quote_eq]
  exact .cons (by decide)

theorem skipSpace_indent (entry : Entry) (text : List Char) :
    skipSpace (indent ++ entry.text written text) = entry.text written text :=
  dropWhile_append_of_ends (forall_mem_of_all (by decide)) (ends_text entry text)

variable {read : Surrogates} {room : Nat}

theorem readValue_props {entry : Entry} (h : entry.IsReadable written read) {fuel : Nat}
    (hfuel : (entry.text written []).length ≤ fuel + 1) {text : List Char}
    (htext : Ends continuesNumber text) :
    readValue read fuel (room + 1) (write written .oneLine 0 entry.props text)
      = .ok (entry.props, text) := by
  have hlength : (write written .oneLine 0 entry.props []).length ≤ fuel := by
    unfold Entry.text at hfuel
    simp only [List.length_append, List.length_cons] at hfuel
    omega
  have hread := (readsBack_props h room).read .oneLine 0 fuel text hlength htext
  rwa [(isExact_props entry).reread_eq] at hread

/-- The components are read one after the other, up to the brace behind the last one. -/
theorem readMembers_innerText {entry : Entry} {entries : List Entry}
    (h : ∀ e ∈ entry :: entries, e.IsReadable written read) {fuel : Nat}
    (hfuel : (innerText written (entry :: entries) []).length ≤ fuel) (text : List Char) :
    readMembers read fuel (room + 1) (skipSpace (innerText written (entry :: entries) text))
      = .ok ((entry :: entries).map fun entry => (entry.1, entry.props), '\n' :: text) := by
  induction entries generalizing entry fuel with
  | nil =>
    have hentry := List.forall_mem_singleton.1 h
    rw [innerText_singleton, text_append] at hfuel
    simp only [List.length_append, List.length_cons] at hfuel
    obtain ⟨fuel, rfl⟩ : ∃ n, fuel = n + 1 := ⟨fuel - 1, by omega⟩
    have hvalue : readValue read fuel (room + 1)
        (write written .oneLine 0 entry.props ('\n' :: innerText written [] text)) = _ :=
      readValue_props hentry (by omega) (.cons (by decide))
    rw [innerText_singleton, skipSpace_indent, Entry.text]
    exact readMembers_last hentry.key hvalue ((readsBack_props hentry room).starts _ _ _) rfl
  | cons next entries ih =>
    obtain ⟨hentry, hentries⟩ := List.forall_mem_cons.1 h
    rw [innerText_cons, text_append] at hfuel
    simp only [List.length_append, List.length_cons] at hfuel
    obtain ⟨fuel, rfl⟩ : ∃ n, fuel = n + 1 := ⟨fuel - 1, by omega⟩
    have hvalue : readValue read fuel (room + 1) (write written .oneLine 0 entry.props
        (',' :: '\n' :: innerText written (next :: entries) text)) = _ :=
      readValue_props hentry (by omega) (.cons (by decide))
    rw [innerText_cons, skipSpace_indent, Entry.text]
    exact readMembers_more hentry.key hvalue ((readsBack_props hentry room).starts _ _ _) rfl
      (ih hentries (by omega))

theorem exists_cons_innerText (written : Surrogates) (entry : Entry) (entries : List Entry)
    (text : List Char) :
    ∃ rest, skipSpace (innerText written (entry :: entries) text) = '"' :: rest := by
  cases entries with
  | nil =>
    rw [innerText_singleton, skipSpace_indent, Entry.text, quote_eq]
    exact ⟨_, rfl⟩
  | cons next entries =>
    rw [innerText_cons, skipSpace_indent, Entry.text, quote_eq]
    exact ⟨_, rfl⟩

theorem readValue_innerText {entries : List Entry} (hkeys : (entries.map Prod.fst).Nodup)
    (h : ∀ entry ∈ entries, entry.IsReadable written read) {fuel : Nat}
    (hfuel : (innerText written entries []).length < fuel) (text : List Char) :
    readValue read fuel (room + 2) ('\x7b' :: '\n' :: innerText written entries text)
      = .ok (.object (entries.map fun entry => (entry.1, entry.props)), '\n' :: text) := by
  obtain ⟨fuel, rfl⟩ : ∃ n, fuel = n + 1 := ⟨fuel - 1, by omega⟩
  rw [readValue, if_neg (by omega)]
  cases entries with
  | nil => rfl
  | cons entry entries =>
    have hmembers : readMembers read fuel (room + 1)
        (skipSpace ('\n' :: innerText written (entry :: entries) text)) = _ :=
      readMembers_innerText h (Nat.le_of_lt_succ hfuel) text
    have hdistinct : (((entry :: entries).map fun entry : Entry =>
        (entry.1, entry.props)).map Prod.fst).Nodup := by
      rw [List.map_map]
      exact hkeys
    obtain ⟨rest, hrest⟩ := exists_cons_innerText written entry entries text
    split
    · rename_i e
      cases (List.cons.inj (hrest.symm.trans e)).1
    · show (readMembers read fuel (room + 1) _).map _ = _
      rw [hmembers]
      show Except.ok (Document.object (Table.ofPairs _).entries, '\n' :: text) = _
      rw [Table.entries_ofPairs hdistinct]

theorem skipSpace_openingLine (text : List Char) :
    skipSpace (openingLine ++ text)
      = quote .none "propDefaults" ++ ':' :: ' ' :: '\x7b' :: text := by
  rw [quote_eq]
  rfl

/-- The only member of the object is read, with all components in it. -/
theorem readMembers_openingLine {entries : List Entry} (hkeys : (entries.map Prod.fst).Nodup)
    (h : ∀ entry ∈ entries, entry.IsReadable written read) {fuel : Nat}
    (hfuel : (innerText written entries []).length < fuel) (text : List Char) :
    readMembers read (fuel + 1) (room + 2)
        (skipSpace (openingLine ++ '\n' :: innerText written entries ('\x7d' :: text)))
      = .ok ([("propDefaults", .object (entries.map fun entry => (entry.1, entry.props)))],
          text) := by
  rw [skipSpace_openingLine]
  exact readMembers_last (isReadable_none read _) (readValue_innerText hkeys h hfuel _)
    (.cons (by decide)) rfl

theorem braced_snippet (entries : List Entry) :
    '\x7b' :: ['\n'].intercalate (openingLine :: innerLines written entries) ++ ['\x7d']
      = '\x7b' :: (openingLine ++ '\n' :: innerText written entries ['\x7d']) := by
  obtain ⟨line, lines, hlines⟩ := exists_cons_innerLines written entries
  rw [innerText, hlines, List.intercalate_cons_cons]
  simp only [List.append_assoc, List.cons_append, List.nil_append]

/-- Between braces, the piece of configuration is read as the components that it was made of. -/
theorem parseWith_snippet [Room] {entries : List Entry} (hkeys : (entries.map Prod.fst).Nodup)
    (h : ∀ entry ∈ entries, entry.IsReadable written read) :
    parseWith read
        ('\x7b' :: ['\n'].intercalate (openingLine :: innerLines written entries) ++ ['\x7d'])
      = .ok (.object [("propDefaults",
        .object (entries.map fun entry => (entry.1, entry.props)))]) := by
  rw [braced_snippet]
  obtain ⟨fuel, hlength, hfuel⟩ : ∃ fuel, 2 * ('\x7b' ::
      (openingLine ++ '\n' :: innerText written entries ['\x7d'])).length + 2 = fuel + 2 ∧
        (innerText written entries []).length < fuel := by
    refine ⟨_, rfl, ?_⟩
    simp only [innerText, List.length_append, List.length_cons, List.length_nil]
    omega
  -- the components, their object and the whole are open inside of each other
  obtain ⟨room, hroom⟩ : ∃ room, Room.opened = room + 3 :=
    ⟨Room.opened - 3, by have := Room.opened_few; unfold fewLevels at this; omega⟩
  have hmembers : readMembers read (fuel + 1) (room + 2)
      (skipSpace (openingLine ++ '\n' :: innerText written entries ['\x7d'])) = _ :=
    readMembers_openingLine hkeys h hfuel []
  have hvalue : readValue read (fuel + 2) (room + 3)
      ('\x7b' :: (openingLine ++ '\n' :: innerText written entries ['\x7d']))
        = .ok (.object [("propDefaults",
          .object (entries.map fun entry => (entry.1, entry.props)))], []) := by
    rw [readValue, if_neg (by omega), skipSpace_openingLine, quote_eq]
    rw [skipSpace_openingLine, quote_eq] at hmembers
    exact (congrArg (Except.map fun read => (ofMembers read.1, read.2)) hmembers).trans rfl
  show (readValue read _ Room.opened ('\x7b' :: _) >>= _) = _
  rw [hlength, hroom, hvalue]
  rfl

end

end UsageCensus.Detection
