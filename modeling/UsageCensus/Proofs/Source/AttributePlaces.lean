import UsageCensus.Proofs.Source.AttributeSteps

/-!
# The places of attributes in any text

The tokenizer comes to an end on any attribute text, one with quotes and braces that are never closed
included, and it makes nothing up. An `Occurrence` is an attribute by the pieces of the text that it
is taken from. A `Turn` goes from one index to the next and reads at most one occurrence in between,
and a run (`IsRun`) puts turns behind each other until the text or its attributes are over. Each text
has a run that goes forward at every turn, and what it finds, in the order of the text and without
overlaps, are the attributes (`parse_occurrences`).
-/

namespace UsageCensus.Source.Attribute

open UsageCensus.Text

/-! ## Pieces of a text -/

structure Piece (body : List Char) where
  start : Nat
  stop : Nat
  order : start ≤ stop
  inside : stop ≤ body.length

def Piece.chars {body : List Char} (piece : Piece body) : List Char :=
  body.extract piece.start piece.stop

section

variable {body front inner rest : List Char} {c : Char} {i : Nat}

theorem drop_add_length (h : body.drop i = front ++ rest) : body.drop (i + front.length) = rest := by
  rw [← List.drop_drop, h, List.drop_left]

theorem drop_succ_of_drop (h : body.drop i = c :: rest) : body.drop (i + 1) = rest := by
  rw [← List.drop_drop, h, List.drop_one, List.tail_cons]

theorem lt_length_of_drop (h : body.drop i = c :: rest) : i < body.length := by
  have hlength := congrArg List.length h
  rw [List.length_drop, List.length_cons] at hlength
  omega

theorem add_length_le_of_drop (hi : i ≤ body.length) (h : body.drop i = front ++ rest) :
    i + front.length ≤ body.length := by
  have hlength := congrArg List.length h
  rw [List.length_drop, List.length_append] at hlength
  omega

theorem exists_piece (hi : i ≤ body.length) (h : body.drop i = front ++ rest) :
    ∃ piece : Piece body, piece.chars = front ∧ piece.start = i ∧ piece.stop = i + front.length := by
  refine ⟨⟨i, i + front.length, Nat.le_add_right i _, add_length_le_of_drop hi h⟩, ?_, rfl, rfl⟩
  rw [Piece.chars, List.extract_eq_take_drop, Nat.add_sub_cancel_left, h, List.take_left]

/-- What stands behind the character at an offset is a piece. Where another character closes it, the
text goes on behind that one. -/
theorem exists_piece_behind (h : body.drop i = c :: (inner ++ rest)) :
    ∃ piece : Piece body, piece.chars = inner ∧ i < piece.start ∧
      body.drop (piece.stop + 1) = rest.drop 1 := by
  have hbehind := drop_succ_of_drop h
  obtain ⟨piece, hchars, hstart, hstop⟩ := exists_piece (lt_length_of_drop h) hbehind
  refine ⟨piece, hchars, by omega, ?_⟩
  rw [hstop, ← List.drop_drop, drop_add_length hbehind]

end

/-! ## Attributes in a text -/

/-- A value by the piece of the text that it is taken from. -/
inductive PlacedValue (body : List Char) where
  /-- There is no value. -/
  | alone
  | asWritten (piece : Piece body)
  | trimmed (piece : Piece body)
  | requoted (piece : Piece body)

namespace PlacedValue

variable {body : List Char} {value : PlacedValue body} {piece : Piece body} {start stop : Nat}

def piece? : PlacedValue body → Option (Piece body)
  | alone => none
  | asWritten piece | trimmed piece | requoted piece => some piece

def text : PlacedValue body → String
  | alone => "true"
  | asWritten piece => String.ofList piece.chars
  | trimmed piece => String.ofList (trim piece.chars)
  | requoted piece => String.ofList ('\'' :: piece.chars ++ ['\''])

structure IsBetween (value : PlacedValue body) (start stop : Nat) : Prop where
  order : start ≤ stop
  behind : ∀ piece ∈ value.piece?, start ≤ piece.start
  ends : ∀ piece ∈ value.piece?, piece.stop ≤ stop

theorem isBetween_of_piece? (h : value.piece? = some piece) (hstart : start ≤ piece.start)
    (hstop : piece.stop ≤ stop) : value.IsBetween start stop := by
  have heq : ∀ other ∈ value.piece?, piece = other :=
    fun other hother => Option.some.inj (h.symm.trans hother)
  constructor
  case order => exact hstart.trans (piece.order.trans hstop)
  case behind => exact fun other hother => heq other hother ▸ hstart
  case ends => exact fun other hother => heq other hother ▸ hstop

end PlacedValue

/-- An attribute by the pieces of the text that it is taken from: a name, and a value behind it if
there is one. -/
structure Occurrence (body : List Char) where
  name : Piece body
  isName : ∃ written : AttributeName, name.chars = written.chars
  value : PlacedValue body
  behind : ∀ piece ∈ value.piece?, name.stop ≤ piece.start

namespace Occurrence

variable {body : List Char}

def toAttribute (o : Occurrence body) : Attribute := ⟨String.ofList o.name.chars, o.value.text⟩

structure EndsBy (o : Occurrence body) (index : Nat) : Prop where
  name : o.name.stop ≤ index
  value : ∀ piece ∈ o.value.piece?, piece.stop ≤ index

theorem EndsBy.mono {o : Occurrence body} {index later : Nat} (h : o.EndsBy index)
    (hle : index ≤ later) : o.EndsBy later :=
  ⟨h.name.trans hle, fun piece hpiece => (h.value piece hpiece).trans hle⟩

end Occurrence

/-! ## One turn -/

/-- A turn of the tokenizer: the index at which it starts, the one at which it stops, and what it
reads in between. -/
structure Turn (body : List Char) where
  start : Nat
  stop : Nat
  occurrence? : Option (Occurrence body)
  reads : step? (body.drop start) = some (occurrence?.map Occurrence.toAttribute, body.drop stop)
  inside : ∀ o ∈ occurrence?, start ≤ o.name.start ∧ o.EndsBy stop

section

variable {body text value rest : List Char} {a : Option Attribute} {i : Nat}

/-- Every turn goes forward, and none starts at the end of the text. -/
theorem Turn.forward (turn : Turn body) : turn.start < turn.stop ∧ turn.start < body.length := by
  have hlength := step?_length_lt turn.reads
  rw [List.length_drop, List.length_drop] at hlength
  omega

/-- A value that is read at an index is taken from the text between there and where the reading
stops. Behind a quote or brace that is never closed it stops behind the end of the text. -/
theorem ReadsValue.exists_placed (h : ReadsValue text value rest) (hi : i ≤ body.length)
    (htext : body.drop i = text) :
    ∃ (placed : PlacedValue body) (stop : Nat), String.ofList value = placed.text ∧
      body.drop stop = rest ∧ placed.IsBetween i stop := by
  cases h with
  | missing => exact ⟨.alone, i, rfl, htext, Nat.le_refl i, nofun, nofun⟩
  | @quoted quote _ text =>
    have hsplit : text.takeWhile (· != quote) ++ text.dropWhile (· != quote) = text :=
      List.takeWhile_append_dropWhile
    obtain ⟨piece, hchars, hstart, hdrop⟩ :=
      exists_piece_behind (htext.trans (congrArg (quote :: ·) hsplit.symm))
    refine ⟨.requoted piece, piece.stop + 1, ?_, hdrop,
      PlacedValue.isBetween_of_piece? rfl hstart.le (Nat.le_succ _)⟩
    rw [PlacedValue.text, hchars]
    rfl
  | braced text =>
    obtain ⟨tail, hsplit, hrest⟩ := braceBody_split 0 text
    obtain ⟨piece, hchars, hstart, hdrop⟩ :=
      exists_piece_behind (htext.trans (congrArg ('{' :: ·) hsplit.symm))
    refine ⟨.trimmed piece, piece.stop + 1, ?_, hdrop.trans hrest.symm,
      PlacedValue.isBetween_of_piece? rfl hstart.le (Nat.le_succ _)⟩
    rw [PlacedValue.text, hchars]
  | @bare first _ text =>
    have hsplit := htext.trans (List.takeWhile_append_dropWhile (p := isBare)).symm
    obtain ⟨piece, hchars, hstart, hstop⟩ := exists_piece hi hsplit
    refine ⟨.asWritten piece, piece.stop, ?_, ?_,
      PlacedValue.isBetween_of_piece? rfl hstart.ge (Nat.le_refl _)⟩
    · rw [PlacedValue.text, hchars]
    · rw [hstop]
      exact drop_add_length hsplit

/-- A name that is read at an index is the start of an occurrence, with any value that is taken from
the text behind it. -/
theorem exists_occurrence (name : AttributeName) (htext : body.drop i = name.chars ++ rest)
    {placed : PlacedValue body} {start stop : Nat} (hstart : i + name.chars.length ≤ start)
    (hplaced : placed.IsBetween start stop) :
    ∃ o : Occurrence body, o.toAttribute = ⟨String.ofList name.chars, placed.text⟩ ∧
      i ≤ o.name.start ∧ o.EndsBy stop := by
  obtain ⟨piece, hchars, hpiece, hstop⟩ := exists_piece (lt_length_of_drop htext).le htext
  refine ⟨⟨piece, ⟨name, hchars⟩, placed, fun value hvalue => ?_⟩, ?_, hpiece.ge, ?_, hplaced.ends⟩
  · exact (hstop.trans_le hstart).trans (hplaced.behind value hvalue)
  · exact congrArg (fun chars => (⟨String.ofList chars, placed.text⟩ : Attribute)) hchars
  · exact (hstop.trans_le hstart).trans hplaced.order

theorem Reads.exists_placed (h : Reads text a rest) (htext : body.drop i = text) :
    ∃ (o? : Option (Occurrence body)) (stop : Nat), o?.map Occurrence.toAttribute = a ∧
      body.drop stop = rest ∧ ∀ o ∈ o?, i ≤ o.name.start ∧ o.EndsBy stop := by
  cases h with
  | @passed c _ text =>
    exact ⟨none, i + 1, rfl, drop_succ_of_drop htext, nofun⟩
  | spread text =>
    obtain ⟨tail, hsplit, hrest⟩ := braceBody_split 0 text
    obtain ⟨piece, -, -, hdrop⟩ :=
      exists_piece_behind (htext.trans (congrArg ('{' :: ·) hsplit.symm))
    exact ⟨none, piece.stop + 1, rfl, hdrop.trans hrest.symm, nofun⟩
  | @flag name text =>
    have hbehind := drop_add_length htext
    rw [← blanksBefore_append text] at hbehind
    have hplaced : (PlacedValue.alone : PlacedValue body).IsBetween (i + name.chars.length)
        (i + name.chars.length + (blanksBefore text).chars.length) :=
      ⟨Nat.le_add_right _ _, nofun, nofun⟩
    obtain ⟨o, hattribute, ho⟩ := exists_occurrence name htext (Nat.le_refl _) hplaced
    refine ⟨some o, _, congrArg some hattribute, drop_add_length hbehind, ?_⟩
    rintro _ ⟨⟩
    exact ho
  | @valued name before behind text value _ hvalue =>
    -- over the name and its blanks, the equals sign and the blanks of the value
    have hequals := drop_add_length (drop_add_length htext)
    have hblanks := drop_succ_of_drop hequals
    have hinside := add_length_le_of_drop (lt_length_of_drop hequals) hblanks
    obtain ⟨placed, stop, hkept, hdrop, hplaced⟩ :=
      hvalue.exists_placed hinside (drop_add_length hblanks)
    obtain ⟨o, hattribute, ho⟩ := exists_occurrence name htext (by omega) hplaced
    refine ⟨some o, stop, ?_, hdrop, ?_⟩
    · rw [Option.map_some, hattribute, hkept]
    · rintro _ ⟨⟩
      exact ho

theorem exists_turn (h : step? (body.drop i) = some (a, rest)) :
    ∃ turn : Turn body, turn.start = i := by
  have hsplit := (blanksBefore_append (body.drop i)).symm
  obtain ⟨o?, stop, rfl, rfl, ho⟩ := (reads_of_step? h).exists_placed (drop_add_length hsplit)
  refine ⟨⟨i, stop, o?, h, fun o hmem => ?_⟩, rfl⟩
  exact ⟨(Nat.le_add_right i _).trans (ho o hmem).1, (ho o hmem).2⟩

end

/-! ## Runs -/

/-- Turns from an index on, each from where the one before it stops. There are no more of them where
only blanks are left, or a slash comes behind the blanks. -/
inductive IsRun {body : List Char} : Nat → List (Turn body) → Prop where
  | ends {index : Nat} (h : EndsAttributes (skipBlanks (body.drop index))) : IsRun index []
  | goesOn (turn : Turn body) {later : List (Turn body)} (h : IsRun turn.stop later) :
    IsRun turn.start (turn :: later)

theorem endsAttributes_of_step?_none {text : List Char} (h : step? text = none) :
    EndsAttributes (skipBlanks text) := by
  unfold step? at h
  split at h
  · rename_i hskip
    rw [hskip]
    exact .nil
  · rename_i c rest hskip
    by_cases hslash : c = '/'
    · rw [hskip, hslash]
      exact .slash rest
    · rw [if_neg hslash] at h
      split at h
      · cases h
      · split at h
        · simp only at h
          split at h <;> cases h
        · cases h

def occurrences {body : List Char} (turns : List (Turn body)) : List (Occurrence body) :=
  turns.filterMap Turn.occurrence?

theorem exists_run (body : List Char) (index : Nat) :
    ∃ turns : List (Turn body), IsRun index turns := by
  cases h : step? (body.drop index) with
  | none => exact ⟨[], .ends (endsAttributes_of_step?_none h)⟩
  | some read =>
    obtain ⟨turn, rfl⟩ := exists_turn h
    -- less of the text is left where the turn stops
    obtain ⟨hforward, hinside⟩ := turn.forward
    obtain ⟨later, hlater⟩ := exists_run body turn.stop
    exact ⟨turn :: later, .goesOn turn hlater⟩
termination_by body.length - index

namespace IsRun

variable {body : List Char} {index : Nat} {turns : List (Turn body)}

theorem parse_eq (h : IsRun index turns) :
    parse (body.drop index) = (occurrences turns).map Occurrence.toAttribute := by
  induction h with
  | ends h => rw [← parse_skipBlanks, h.parse_eq]; rfl
  | goesOn turn _ ih =>
    rw [parse_of_step?_some turn.reads, ih, occurrences, occurrences, List.filterMap_cons]
    cases turn.occurrence? <;> rfl

theorem index_le (h : IsRun index turns) : ∀ turn ∈ turns, index ≤ turn.start := by
  induction h with
  | ends => nofun
  | goesOn turn _ ih =>
    refine List.forall_mem_cons.2 ⟨Nat.le_refl _, fun later hlater => ?_⟩
    exact turn.forward.1.le.trans (ih later hlater)

theorem pairwise (h : IsRun index turns) :
    turns.Pairwise fun turn later => turn.stop ≤ later.start := by
  induction h with
  | ends => exact .nil
  | goesOn turn hlater ih => exact .cons hlater.index_le ih

theorem length_le (h : IsRun index turns) : turns.length ≤ body.length - index := by
  induction h with
  | ends => exact Nat.zero_le _
  | goesOn turn _ ih =>
    obtain ⟨hforward, hinside⟩ := turn.forward
    rw [List.length_cons]
    omega

theorem pairwise_occurrences (h : IsRun index turns) :
    (occurrences turns).Pairwise fun o later => o.EndsBy later.name.start := by
  refine h.pairwise.filterMap _ fun turn next hle o ho later hlater => ?_
  exact (turn.inside o ho).2.mono (hle.trans (next.inside later hlater).1)

end IsRun

/-- On any text the tokenizer comes to an end in at most as many turns as there are characters, with
an index that each turn increases. The name of each attribute is a piece of the text and keeps the
rules of names. Its value is `true`, or a piece behind the name as it is written, trimmed or put in
single quotes. All of this stands before the next name. -/
theorem parse_occurrences (body : List Char) :
    ∃ turns : List (Turn body), IsRun 0 turns ∧ turns.length ≤ body.length ∧
      (∀ turn ∈ turns, turn.start < turn.stop) ∧
      (turns.Pairwise fun turn later => turn.stop ≤ later.start) ∧
      parse body = (occurrences turns).map Occurrence.toAttribute ∧
      (occurrences turns).Pairwise fun o later => o.EndsBy later.name.start := by
  obtain ⟨turns, hrun⟩ := exists_run body 0
  exact ⟨turns, hrun, hrun.length_le, fun turn _ => turn.forward.1, hrun.pairwise, hrun.parse_eq,
    hrun.pairwise_occurrences⟩

/-- A value of no characters, and one in a quote that is never closed. -/
example : parse "a=> b='x".toList = [⟨"a", ""⟩, ⟨"b", "'x'"⟩] := by cbv

end UsageCensus.Source.Attribute
