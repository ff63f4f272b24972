/-!
# Wildcards

A pattern without braces: `*` stands for any characters, slashes included, `?` for any one
character, and a bracket expression for one character of a set. A set is written as characters
and ranges and is negated by a `!` before it. A bracket that is never closed stands for itself.

`fits` says what it is to fit, by all ways to cut the text; `fitsByRows` finds it out in as many
steps as there are pairs of a piece and a character, and agrees with it (`fitsByRows_eq`). Before
the first `*` there is one way only, and `fitsBySteps` goes along it (`fitsBySteps_eq`).
-/

namespace UsageCensus.Glob

/-! ## Bracket expressions -/

/-- The text of a bracket expression: a character, or the hyphen between the ends of a range. -/
inductive BracketToken where
  | literal (c : Char)
  | through
  deriving Repr, DecidableEq

/-- Tells the hyphens that make a range from those that are meant. The first `wait` characters
and a last one make no range, and neither do the two characters behind a range's hyphen. -/
def bracketTokens : (wait : Nat) → List Char → List BracketToken
  | _, [] => []
  | wait + 1, c :: text => .literal c :: bracketTokens wait text
  | 0, [c] => [.literal c]
  | 0, c :: text =>
    if c = '-' then .through :: bracketTokens 2 text else .literal c :: bracketTokens 0 text

/-- Drops the ranges that hold nothing, from a character through a lower one. -/
def dropEmptyRanges : List BracketToken → List BracketToken
  | .literal a :: .through :: .literal b :: tokens =>
    if b < a then dropEmptyRanges tokens
    else .literal a :: .through :: .literal b :: dropEmptyRanges tokens
  | token :: tokens => token :: dropEmptyRanges tokens
  | [] => []

/-- The ranges of characters that the tokens stand for. -/
def tokenRanges : List BracketToken → List (Char × Char)
  | .literal a :: .through :: .literal b :: tokens => (a, b) :: tokenRanges tokens
  | .literal a :: tokens => (a, a) :: tokenRanges tokens
  | .through :: tokens => ('-', '-') :: tokenRanges tokens
  | [] => []

/-- A set of characters: the ranges, or all characters outside of them. -/
structure CharSet where
  negated : Bool
  ranges : List (Char × Char)
  deriving Repr, DecidableEq

def CharSet.has (set : CharSet) (c : Char) : Bool :=
  set.negated != set.ranges.any fun r => decide (r.1 ≤ c) && decide (c ≤ r.2)

/-- Every character. -/
def CharSet.full : CharSet := ⟨true, []⟩

/-- The set between two brackets. A `!` negates the set, also one that comes first only because
the ranges before it hold nothing. -/
def CharSet.ofBracket (text : List Char) : CharSet :=
  let wait := if text.head? = some '!' then 2 else 1
  match dropEmptyRanges (bracketTokens wait text) with
  | .literal '!' :: tokens => ⟨true, tokenRanges tokens⟩
  | tokens => ⟨false, tokenRanges tokens⟩

/-! ## Patterns -/

inductive Piece where
  /-- Any characters. -/
  | anything
  /-- One character of a set. -/
  | one (set : CharSet)
  deriving Repr, DecidableEq

/-- The set of one character. -/
def CharSet.single (c : Char) : CharSet := ⟨false, [(c, c)]⟩

/-- The text of a bracket expression behind its opening bracket, and what follows the closing
one. A bracket that closes comes second or later, and behind a `!` third or later. -/
def bracketText? (text : List Char) : Option (List Char × List Char) :=
  let (mark, text) := match text with
    | '!' :: rest => (['!'], rest)
    | _ => ([], text)
  match text with
  | [] => none
  | first :: rest =>
    match rest.dropWhile (· != ']') with
    | ']' :: tail => some (mark ++ first :: rest.takeWhile (· != ']'), tail)
    | _ => none

theorem length_of_bracketText? {text body rest : List Char}
    (h : bracketText? text = some (body, rest)) : rest.length < text.length := by
  have key : ∀ {l tail : List Char}, l.dropWhile (· != ']') = ']' :: tail → tail.length < l.length := by
    intro l tail e
    have := (List.dropWhile_suffix (l := l) (· != ']')).length_le
    rw [e] at this
    simp only [List.length_cons] at this
    omega
  unfold bracketText? at h
  split at h
  · rename_i mark rest' e
    split at e
    · simp only [Prod.mk.injEq] at e
      obtain ⟨_, rfl⟩ := e
      split at h
      · simp at h
      · split at h
        · rename_i tail e
          simp only [Option.some.injEq, Prod.mk.injEq] at h
          obtain ⟨_, rfl⟩ := h
          have := key e
          simp only [List.length_cons]
          omega
        · simp at h
    · simp only [Prod.mk.injEq] at e
      obtain ⟨_, rfl⟩ := e
      split at h
      · simp at h
      · split at h
        · rename_i tail e
          simp only [Option.some.injEq, Prod.mk.injEq] at h
          obtain ⟨_, rfl⟩ := h
          have := key e
          simp only [List.length_cons]
          omega
        · simp at h

/-- A `*` before the pieces. Next to another one it adds nothing. -/
def starBefore : List Piece → List Piece
  | .anything :: rest => .anything :: rest
  | rest => .anything :: rest

/-- The pieces of a pattern. -/
def pieces : List Char → List Piece
  | [] => []
  | c :: text =>
    if c = '*' then starBefore (pieces text)
    else if c = '?' then .one .full :: pieces text
    else if c = '[' then
      match _h : bracketText? text with
      | some (body, rest) => .one (.ofBracket body) :: pieces rest
      | none => .one (.single c) :: pieces text
    else .one (.single c) :: pieces text
termination_by text => text.length
decreasing_by
  all_goals simp only [List.length_cons]
  · omega
  · omega
  · have := length_of_bracketText? _h
    omega
  · omega
  · omega

/-- Some rest of the text, the whole text and the empty one included, satisfies `p`. -/
def anyRest (p : List Char → Bool) : List Char → Bool
  | [] => p []
  | c :: text => p (c :: text) || anyRest p text

/-- The whole text can be cut so that each piece stands for its part. -/
def fits : List Piece → List Char → Bool
  | [], text => text.isEmpty
  | .anything :: rest, text => anyRest (fits rest) text
  | .one set :: rest, text =>
    match text with
    | [] => false
    | c :: text => set.has c && fits rest text

theorem anyRest_iff {p : List Char → Bool} {text : List Char} :
    anyRest p text = true ↔ ∃ rest, rest <:+ text ∧ p rest = true := by
  induction text with
  | nil => simp [anyRest]
  | cons c text ih =>
    rw [anyRest, Bool.or_eq_true, ih]
    constructor
    · rintro (h | ⟨rest, hr, h⟩)
      · exact ⟨_, List.suffix_refl _, h⟩
      · exact ⟨rest, hr.trans (List.suffix_cons _ _), h⟩
    · rintro ⟨rest, hr, h⟩
      rcases List.suffix_cons_iff.1 hr with rfl | hr
      · exact .inl h
      · exact .inr ⟨rest, hr, h⟩

/-! ## Fitting all rests at once -/

/-- Whether some row entry from here on holds, for each entry of a row. -/
def anyBehind : List Bool → List Bool
  | [] => []
  | b :: row =>
    let later := anyBehind row
    (b || later.headD false) :: later

/-- Whether a character of the set comes first and the row's entry behind it holds, for each rest
of the text. -/
def oneBefore (set : CharSet) : List Char → List Bool → List Bool
  | [], _ => [false]
  | c :: text, row => (set.has c && row.tail.headD false) :: oneBefore set text row.tail

/-- Whether the pieces fit, for each rest of the text from the whole text to the empty one. -/
def fitRow (text : List Char) : List Piece → List Bool
  | [] => text.map (fun _ => false) ++ [true]
  | .anything :: rest => anyBehind (fitRow text rest)
  | .one set :: rest => oneBefore set text (fitRow text rest)

theorem fitRow_nil (pieces : List Piece) : fitRow [] pieces = [fits pieces []] := by
  induction pieces with
  | nil => rfl
  | cons piece rest ih =>
    cases piece with
    | anything => simp [fitRow, ih, anyBehind, fits, anyRest]
    | one set => simp [fitRow, oneBefore, fits]

theorem fitRow_cons (pieces : List Piece) (c : Char) (text : List Char) :
    fitRow (c :: text) pieces = fits pieces (c :: text) :: fitRow text pieces := by
  induction pieces generalizing c text with
  | nil => simp [fitRow, fits]
  | cons piece rest ih =>
    have head : ∀ text, (fitRow text rest).headD false = fits rest text := by
      rintro (_ | ⟨c, text⟩)
      · simp [fitRow_nil]
      · simp [ih]
    cases piece with
    | anything =>
      have any : ∀ text, (anyBehind (fitRow text rest)).headD false = anyRest (fits rest) text := by
        intro text
        induction text with
        | nil => simp [fitRow_nil, anyBehind, anyRest]
        | cons c text ih' => simp [ih, anyBehind, anyRest, ← ih']
      rw [fitRow, fitRow, ih, anyBehind, fits, anyRest, any]
    | one set => rw [fitRow, fitRow, ih, oneBefore, fits, List.tail_cons, head]

/-- `fits`, by a row for each piece. -/
def fitsByRows (pieces : List Piece) (text : List Char) : Bool := (fitRow text pieces).headD false

theorem fitsByRows_eq (pieces : List Piece) (text : List Char) :
    fitsByRows pieces text = fits pieces text := by
  cases text with
  | nil => simp [fitsByRows, fitRow_nil]
  | cons c text => simp [fitsByRows, fitRow_cons]

/-- `fits`, piece by piece up to the first `*`, and by rows from there on. -/
def fitsBySteps : List Piece → List Char → Bool
  | .one _ :: _, [] => false
  | .one set :: rest, c :: text => set.has c && fitsBySteps rest text
  | pieces, text => fitsByRows pieces text

theorem fitsBySteps_eq (pieces : List Piece) (text : List Char) :
    fitsBySteps pieces text = fits pieces text := by
  fun_induction fitsBySteps pieces text with
  | case1 => rfl
  | case2 set rest c text ih => rw [fits, ih]
  | case3 pieces text => exact fitsByRows_eq pieces text

/-! ## Runs of stars -/

theorem fits_starBefore (rest : List Piece) (text : List Char) :
    fits (starBefore rest) text = fits (.anything :: rest) text := by
  unfold starBefore
  split
  · rw [Bool.eq_iff_iff, fits, fits, anyRest_iff, anyRest_iff]
    simp only [fits, anyRest_iff]
    constructor
    · rintro ⟨tail, ht, h⟩
      exact ⟨text, List.suffix_refl _, tail, ht, h⟩
    · rintro ⟨_, hs, tail, ht, h⟩
      exact ⟨tail, ht.trans hs, h⟩
  · rfl

end UsageCensus.Glob
