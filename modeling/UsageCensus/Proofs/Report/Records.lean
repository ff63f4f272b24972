import UsageCensus.Report.Csv

/-!
# Records read back

How comma-separated values are read: a comma ends a field and a line feed a record, unless they
stand in quotes, where a quote is written twice. Records that were written are read as what they
are, whatever their fields hold (`read?_render`).
-/

namespace UsageCensus.Report.Csv

/-! ## A reader -/

/-- What has been read of a field. -/
inductive PartialField where
  | bare (text : List Char)
  /-- The field is in quotes, which have not been closed. -/
  | quoted (text : List Char)
  /-- Behind a quote in quotes, which closes the field unless another one follows. -/
  | closed (text : List Char)

def PartialField.text : PartialField → List Char
  | bare text | quoted text | closed text => text

/-- What has been read of a text: the records that have ended, and the fields of the next one, the
last of which has not ended. -/
structure Reading where
  records : List (List String)
  fields : List String
  last : PartialField

namespace Reading

/-- Nothing has been read behind the records. -/
def behind (records : List (List String)) : Reading := ⟨records, [], .bare []⟩

/-- The record that ends here; an empty line has no fields. -/
def record (reading : Reading) : List String :=
  match reading.fields, reading.last with
  | [], .bare [] => []
  | fields, last => fields ++ [String.ofList last.text]

/-- A field goes on. -/
def goOn (reading : Reading) (last : PartialField) : Reading := { reading with last := last }

/-- The character ends a field or a record, or neither. -/
def separate? (reading : Reading) (c : Char) : Option Reading :=
  if c = ',' then
    some { reading with
      fields := reading.fields ++ [String.ofList reading.last.text], last := .bare [] }
  else if c = '\n' then some (behind (reading.records ++ [reading.record]))
  else none

/-- One more character, if it can stand here. -/
def step? (reading : Reading) (c : Char) : Option Reading :=
  match reading.last with
  | .quoted text =>
    some (reading.goOn (if c = '"' then .closed text else .quoted (text ++ [c])))
  | .closed text =>
    if c = '"' then some (reading.goOn (.quoted (text ++ [c]))) else reading.separate? c
  | .bare text =>
    if c = '"' then if text = [] then some (reading.goOn (.quoted [])) else none
    else (reading.separate? c).or (some (reading.goOn (.bare (text ++ [c]))))

/-- One character after the other. -/
def run? (reading : Reading) (text : List Char) : Option Reading := text.foldlM step? reading

/-- The records at the end of a text. The last one need not have a line end, but its quotes must be
closed. -/
def finish? (reading : Reading) : Option (List (List String)) :=
  match reading.fields, reading.last with
  | _, .quoted _ => none
  | [], .bare [] => some reading.records
  | _, _ => some (reading.records ++ [reading.record])

end Reading

/-- The records of a text. -/
def read? (text : List Char) : Option (List (List String)) :=
  ((Reading.behind []).run? text).bind Reading.finish?

/-! ## Fields -/

namespace Reading

variable {reading : Reading} {text rest : List Char}

theorem run?_append (reading : Reading) (text rest : List Char) :
    reading.run? (text ++ rest) = (reading.run? text).bind fun reading => reading.run? rest :=
  List.foldlM_append

theorem run?_cons (reading : Reading) (c : Char) (text : List Char) :
    reading.run? (c :: text) = (reading.step? c).bind fun reading => reading.run? text :=
  List.foldlM_cons

theorem not_special {c : Char} (h : isSpecial c = false) : c ≠ ',' ∧ c ≠ '"' ∧ c ≠ '\n' := by
  simpa [isSpecial, and_assoc] using h

theorem run?_bare (reading : Reading) (read : List Char) (h : ∀ c ∈ text, isSpecial c = false) :
    (reading.goOn (.bare read)).run? text = some (reading.goOn (.bare (read ++ text))) := by
  induction text generalizing read with
  | nil => rw [List.append_nil]; rfl
  | cons c text ih =>
    obtain ⟨hc, htext⟩ := List.forall_mem_cons.1 h
    obtain ⟨hcomma, hquote, hline⟩ := not_special hc
    have hstep : (reading.goOn (.bare read)).step? c
        = some (reading.goOn (.bare (read ++ [c]))) := by
      simp [step?, goOn, separate?, hcomma, hquote, hline]
    rw [run?_cons, hstep, Option.bind_some, ih _ htext, List.append_assoc, List.singleton_append]

theorem run?_quoted (reading : Reading) (read text : List Char) :
    (reading.goOn (.quoted read)).run? (text.flatMap fun c => if c = '"' then ['"', '"'] else [c])
      = some (reading.goOn (.quoted (read ++ text))) := by
  induction text generalizing read with
  | nil => rw [List.append_nil]; rfl
  | cons c text ih =>
    have hstep : (reading.goOn (.quoted read)).run? (if c = '"' then ['"', '"'] else [c])
        = some (reading.goOn (.quoted (read ++ [c]))) := by
      by_cases hc : c = '"'
      · subst hc
        rfl
      · simp [run?, step?, goOn, hc]
    rw [List.flatMap_cons, run?_append, hstep, Option.bind_some, ih, List.append_assoc,
      List.singleton_append]

theorem run?_quote (reading : Reading) (text : List Char) :
    (reading.goOn (.bare [])).run? (quote text) = some (reading.goOn (.closed text)) := by
  have hclose : (reading.goOn (.quoted text)).run? ['"'] = some (reading.goOn (.closed text)) := rfl
  rw [quote, List.cons_append, run?_cons]
  show (reading.goOn (.quoted [])).run? _ = _
  rw [run?_append, run?_quoted, Option.bind_some, List.nil_append, hclose]

/-- What has been read at the end of a field that was written. -/
def ended (text : List Char) : PartialField :=
  if text.any isSpecial then .closed text else .bare text

theorem text_ended (text : List Char) : (ended text).text = text := by
  unfold ended
  split <;> rfl

theorem ended_ne_quoted (text read : List Char) : ended text ≠ .quoted read := by
  unfold ended
  split <;> exact PartialField.noConfusion

theorem run?_field (reading : Reading) (text : List Char) :
    (reading.goOn (.bare [])).run? (field text) = some (reading.goOn (ended text)) := by
  unfold field ended
  by_cases h : text.any isSpecial = true
  · rw [if_pos h, if_pos h, run?_quote]
  · have hbare : ∀ c ∈ text, isSpecial c = false := by simpa using h
    rw [if_neg h, if_neg h, run?_bare reading [] hbare, List.nil_append]

/-! ## Records -/

/-- Outside of quotes a separator ends what it separates. -/
theorem step?_separator (h : ∀ read, reading.last ≠ .quoted read) {c : Char}
    (hc : c = ',' ∨ c = '\n') : reading.step? c = reading.separate? c := by
  obtain ⟨records, fields, last⟩ := reading
  cases last with
  | quoted text => exact absurd rfl (h text)
  | bare text => rcases hc with rfl | rfl <;> rfl
  | closed text => rcases hc with rfl | rfl <;> rfl

theorem record_eq (h : reading.fields ≠ [] ∨ reading.last ≠ .bare []) :
    reading.record = reading.fields ++ [String.ofList reading.last.text] := by
  unfold record
  split
  · rename_i hfields hlast
    rcases h with h | h
    · exact absurd hfields h
    · exact absurd hlast h
  · rfl

section

variable (records : List (List String)) {fields : List String}

/-- A field that was written, with a separator behind it. -/
theorem run?_field_separator (fields : List String) (text : String) {c : Char}
    (hc : c = ',' ∨ c = '\n') (rest : List Char) :
    (Reading.mk records fields (.bare [])).run? (field text.toList ++ c :: rest)
      = ((Reading.mk records fields (ended text.toList)).separate? c).bind
        fun reading => reading.run? rest := by
  have hfield : (Reading.mk records fields (.bare [])).run? (field text.toList)
      = some (Reading.mk records fields (ended text.toList)) :=
    run?_field ⟨records, fields, .bare []⟩ text.toList
  rw [run?_append, hfield, Option.bind_some, run?_cons, step?_separator (ended_ne_quoted _) hc]

theorem run?_field_comma (fields : List String) (text : String) (rest : List Char) :
    (Reading.mk records fields (.bare [])).run? (field text.toList ++ ',' :: rest)
      = (Reading.mk records (fields ++ [text]) (.bare [])).run? rest := by
  rw [run?_field_separator records fields text (.inl rfl)]
  show (Reading.mk records (fields ++ [String.ofList (ended text.toList).text]) (.bare [])).run? rest
    = _
  rw [text_ended, String.ofList_toList]

theorem run?_field_line {text : String} (h : fields ≠ [] ∨ text ≠ "") :
    (Reading.mk records fields (.bare [])).run? (field text.toList ++ ['\n'])
      = some (behind (records ++ [fields ++ [text]])) := by
  have hrecord : (Reading.mk records fields (ended text.toList)).record = fields ++ [text] := by
    rw [record_eq, text_ended, String.ofList_toList]
    refine h.imp id fun htext hended => htext ?_
    have hnil : (ended text.toList).text = [] := congrArg PartialField.text hended
    rwa [text_ended, String.toList_eq_nil_iff] at hnil
  rw [run?_field_separator records fields text (.inr rfl)]
  show some (behind (records ++ [(Reading.mk records fields (ended text.toList)).record])) = _
  rw [hrecord]

/-- The last fields of a record. -/
theorem run?_fields (h : fields ≠ []) (text : String) (texts : List String) :
    (Reading.mk records fields (.bare [])).run?
        ([','].intercalate ((text :: texts).map fun text => field text.toList) ++ ['\n'])
      = some (behind (records ++ [fields ++ text :: texts])) := by
  induction texts generalizing fields text with
  | nil =>
    rw [List.map_singleton, List.intercalate_singleton]
    exact run?_field_line records (.inl h)
  | cons next texts ih =>
    rw [List.map_cons, List.map_cons, List.intercalate_cons_cons, List.append_assoc,
      List.append_assoc, List.singleton_append, run?_field_comma,
      ← List.map_cons (f := fun text : String => field text.toList), ih (by simp),
      List.append_assoc, List.singleton_append]

theorem run?_record (fields : List String) :
    (behind records).run? (Csv.record fields ++ ['\n']) = some (behind (records ++ [fields])) := by
  unfold Csv.record
  split
  · rename_i text
    split
    · rename_i hempty
      obtain rfl : text = "" := by simpa using hempty
      have hquote : (behind records).run? (quote []) = some ⟨records, [], .closed []⟩ :=
        run?_quote (behind records) []
      rw [run?_append, hquote]
      rfl
    · rename_i hempty
      exact run?_field_line records (.inr (by simpa using hempty))
  · rename_i hone
    cases fields with
    | nil => rfl
    | cons first fields =>
      cases fields with
      | nil => exact absurd rfl (hone first)
      | cons second fields =>
        rw [List.map_cons, List.map_cons, List.intercalate_cons_cons, List.append_assoc,
          List.append_assoc, List.singleton_append, behind, run?_field_comma,
          ← List.map_cons (f := fun text : String => field text.toList)]
        exact run?_fields records (by simp) second fields

theorem run?_records (more : List (List String)) :
    (behind records).run? (more.flatMap fun fields => Csv.record fields ++ ['\n'])
      = some (behind (records ++ more)) := by
  induction more generalizing records with
  | nil => rw [List.append_nil]; rfl
  | cons fields more ih =>
    rw [List.flatMap_cons, run?_append, run?_record, Option.bind_some, ih, List.append_assoc,
      List.singleton_append]

end

end Reading

/-- Records that were written are read as what they are. -/
theorem read?_render (records : List (List String)) :
    read? (render records).toList = some records := by
  rw [render, String.toList_ofList, read?, Reading.run?_records]
  rfl

/-- A comma and a quote in a field, an empty field alone in its record, and an empty line. -/
example : read? "\"a,\"\"\",b\n\"\"\n\n".toList = some [["a,\"", "b"], [""], []] := by decide

end UsageCensus.Report.Csv
