import UsageCensus.Proofs.Source.WrittenAttributes

/-!
# Steps through any attribute text

`Reads` lists the ways in which one step reads a text whose blanks have gone by, whatever the text
is (`reads_of_step?`), and `Reaches` says where the steps come to. What is left by a step is the
end of the text (`Reaches.isSuffix`), and the attributes of a text are those that its steps read
(`mem_parse_iff`).
-/

namespace UsageCensus.Source.Attribute

open UsageCensus.Text

/-- The blanks at the start of a text. -/
def blanksBefore (text : List Char) : Blanks :=
  ⟨text.takeWhile isBlank, fun _ h => List.mem_takeWhile_imp h⟩

theorem blanksBefore_append (text : List Char) :
    (blanksBefore text).chars ++ skipBlanks text = text :=
  List.takeWhile_append_dropWhile

/-! ## What a step reads -/

/-- How a value is read whose blanks have gone by: its text as it is kept, and what follows. -/
inductive ReadsValue : List Char → List Char → List Char → Prop where
  | missing : ReadsValue [] ['t', 'r', 'u', 'e'] []
  | quoted {quote : Char} (hquote : isQuote quote = true) (text : List Char) :
    ReadsValue (quote :: text) ('\'' :: (quoteBody quote text).1 ++ ['\'']) (quoteBody quote text).2
  | braced (text : List Char) :
    ReadsValue ('{' :: text) (trim (braceBody 0 text).1) (braceBody 0 text).2
  | bare {first : Char} (hfirst : isQuote first = false ∧ first ≠ '{') (text : List Char) :
    ReadsValue (first :: text) ((first :: text).takeWhile isBare) ((first :: text).dropWhile isBare)

/-- How a text is read in one step, once the blanks before it have gone by. -/
inductive Reads : List Char → Option Attribute → List Char → Prop where
  | passed {c : Char} (hc : c ≠ '/' ∧ c ≠ '{' ∧ startsName c = false) (text : List Char) :
    Reads (c :: text) none text
  | spread (text : List Char) : Reads ('{' :: text) none (braceBody 0 text).2
  | flag (name : AttributeName) {text : List Char} (hname : Ends continuesName text)
    (hvalue : ∀ tail, skipBlanks text ≠ '=' :: tail) :
    Reads (name.chars ++ text) (some ⟨String.ofList name.chars, "true"⟩) (skipBlanks text)
  | valued (name : AttributeName) (before behind : Blanks) {text value rest : List Char}
    (h : ReadsValue text value rest) :
    Reads (name.chars ++ (before.chars ++ '=' :: (behind.chars ++ text)))
      (some ⟨String.ofList name.chars, String.ofList value⟩) rest

section

variable {text rest body : List Char} {a : Option Attribute}

theorem readsValue (text : List Char) :
    ReadsValue (skipBlanks text) (readValue text).1 (readValue text).2 := by
  unfold readValue
  cases skipBlanks text with
  | nil => exact .missing
  | cons c rest =>
    by_cases hquote : isQuote c = true
    · simp only [hquote, if_true]
      exact .quoted hquote rest
    · rw [Bool.not_eq_true] at hquote
      by_cases hbrace : c = '{'
      · subst hbrace
        simp only [hquote, Bool.false_eq_true, if_false, if_true]
        exact .braced rest
      · simp only [hquote, hbrace, Bool.false_eq_true, if_false]
        exact .bare ⟨hquote, hbrace⟩ rest

/-- A step on a text that starts with a character of a name. -/
theorem reads_name {c : Char} (hc : startsName c = true) (h : step? (c :: text) = some (a, rest)) :
    Reads (c :: text) a rest := by
  obtain ⟨name, htext⟩ : ∃ name : AttributeName,
      c :: text = name.chars ++ text.dropWhile continuesName :=
    ⟨⟨c, text.takeWhile continuesName, hc, fun _ hd => List.mem_takeWhile_imp hd⟩,
      congrArg (c :: ·) List.takeWhile_append_dropWhile.symm⟩
  have hname : Ends continuesName (text.dropWhile continuesName) := ends_dropWhile _ _
  rw [htext, step?_name name hname] at h
  rw [htext]
  generalize text.dropWhile continuesName = behind at h hname
  split at h
  · rename_i tail hskip
    cases h
    rw [← blanksBefore_append behind, hskip, ← blanksBefore_append tail]
    exact .valued name (blanksBefore behind) (blanksBefore tail) (by
      rw [blanksBefore_append]
      exact readsValue tail)
  · rename_i hvalue
    cases h
    exact .flag name hname hvalue

theorem reads_of_step? (h : step? text = some (a, rest)) : Reads (skipBlanks text) a rest := by
  rw [← blanksBefore_append text, step?_blanks] at h
  have hends : Ends isBlank (skipBlanks text) := ends_dropWhile _ _
  generalize skipBlanks text = text at h hends
  cases text with
  | nil => cases h
  | cons c text =>
    by_cases hname : startsName c = true
    · exact reads_name hname h
    · have hskip : skipBlanks (c :: text) = c :: text := dropWhile_of_ends hends
      unfold step? at h
      rw [hskip] at h
      simp only [hname, Bool.false_eq_true, if_false] at h
      by_cases hslash : c = '/'
      · simp [hslash] at h
      · rw [if_neg hslash] at h
        by_cases hbrace : c = '{'
        · subst hbrace
          cases h
          exact .spread text
        · rw [if_neg hbrace] at h
          cases h
          exact .passed ⟨hslash, hbrace, Bool.not_eq_true _ ▸ hname⟩ rest

/-! ## Steps go on in the text -/

/-- The search for a closing brace leaves what is behind the first character that it does not go
through. -/
theorem braceBody_split (depth : Nat) (text : List Char) :
    ∃ tail, (braceBody depth text).1 ++ tail = text ∧ (braceBody depth text).2 = tail.drop 1 := by
  induction text generalizing depth with
  | nil => exact ⟨[], rfl, rfl⟩
  | cons c text ih =>
    simp only [braceBody]
    split
    · exact (ih (depth + 1)).imp fun _ h => ⟨congrArg (c :: ·) h.1, h.2⟩
    · split
      · cases depth with
        | zero => exact ⟨c :: text, rfl, rfl⟩
        | succ depth => exact (ih depth).imp fun _ h => ⟨congrArg (c :: ·) h.1, h.2⟩
      · exact (ih depth).imp fun _ h => ⟨congrArg (c :: ·) h.1, h.2⟩

/-- What the search for a closing brace goes through and what it leaves are the two ends of the
text. -/
theorem braceBody_append (depth : Nat) (text : List Char) :
    ∃ found, (braceBody depth text).1 ++ (found ++ (braceBody depth text).2) = text := by
  obtain ⟨tail, hsplit, hrest⟩ := braceBody_split depth text
  exact ⟨tail.take 1, by rw [hrest, List.take_append_drop, hsplit]⟩

theorem braceBody_isPrefix (depth : Nat) (text : List Char) : (braceBody depth text).1 <+: text := by
  obtain ⟨found, h⟩ := braceBody_append depth text
  exact ⟨found ++ (braceBody depth text).2, h⟩

theorem braceBody_isSuffix (depth : Nat) (text : List Char) : (braceBody depth text).2 <:+ text := by
  obtain ⟨found, h⟩ := braceBody_append depth text
  exact ⟨(braceBody depth text).1 ++ found, by rw [List.append_assoc, h]⟩

theorem ReadsValue.isSuffix {value : List Char} (h : ReadsValue text value rest) :
    rest <:+ text := by
  cases h with
  | missing => exact List.suffix_rfl
  | quoted _ text =>
    exact ((List.drop_suffix 1 _).trans (List.dropWhile_suffix _)).trans (List.suffix_cons _ text)
  | braced text => exact (braceBody_isSuffix 0 text).trans (List.suffix_cons _ text)
  | bare => exact List.dropWhile_suffix _

theorem Reads.isSuffix (h : Reads text a rest) : rest <:+ text := by
  cases h with
  | passed => exact List.suffix_cons _ _
  | spread text => exact (braceBody_isSuffix 0 text).trans (List.suffix_cons _ text)
  | flag name => exact (List.dropWhile_suffix _).trans (List.suffix_append _ _)
  | valued name before behind h =>
    refine h.isSuffix.trans ((List.suffix_append behind.chars _).trans ?_)
    exact (List.suffix_cons '=' _).trans
      ((List.suffix_append before.chars _).trans (List.suffix_append name.chars _))

/-! ## Where the steps come to -/

/-- The steps through `body` come to a text. -/
inductive Reaches (body : List Char) : List Char → Prop where
  | start : Reaches body body
  | step {text rest : List Char} {a : Option Attribute} (h : Reaches body text)
    (hstep : step? text = some (a, rest)) : Reaches body rest

theorem Reaches.isSuffix (h : Reaches body text) : text <:+ body := by
  induction h with
  | start => exact List.suffix_rfl
  | step _ hstep ih =>
    exact (reads_of_step? hstep).isSuffix.trans ((List.dropWhile_suffix _).trans ih)

/-- What the first step comes to is come to on the way through the whole text. -/
theorem Reaches.behind (hstep : step? body = some (a, rest)) (h : Reaches rest text) :
    Reaches body text := by
  induction h with
  | start => exact .step .start hstep
  | step _ hlater ih => exact .step ih hlater

/-- The attributes of a text are those that the steps through it read. -/
theorem mem_parse_iff {a : Attribute} :
    a ∈ parse body ↔ ∃ text rest, Reaches body text ∧ step? text = some (some a, rest) := by
  constructor
  · intro h
    fun_induction parse body with
    | case1 => cases h
    | case2 body b rest hstep _ ih =>
      rcases List.mem_cons.1 h with rfl | h
      · exact ⟨body, rest, .start, hstep⟩
      · obtain ⟨text, rest', hreach, hread⟩ := ih h
        exact ⟨text, rest', hreach.behind hstep, hread⟩
    | case3 body rest hstep _ ih =>
      obtain ⟨text, rest', hreach, hread⟩ := ih h
      exact ⟨text, rest', hreach.behind hstep, hread⟩
  · rintro ⟨text, rest, hreach, hread⟩
    have hsub : parse text ⊆ parse body := by
      clear hread
      induction hreach with
      | start => exact List.Subset.refl _
      | step _ hstep ih =>
        rw [parse_of_step?_some hstep] at ih
        exact List.Subset.trans (List.subset_append_right _ _) ih
    apply hsub
    rw [parse_of_step?_some hread]
    exact List.mem_append_left _ (by simp)

end

end UsageCensus.Source.Attribute
