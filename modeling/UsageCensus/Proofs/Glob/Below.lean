import UsageCensus.Glob

/-!
# What is below an ignored directory

An alternative that ends in `*` and covers a directory's path with a slash behind it covers every
path that goes on from there: its last piece stands for any characters (`getLast?_pieces`), in
both forms (`getLast?_dropDirectories`), and pieces of which the last one stands for any
characters fit each longer text too (`fits_append`). So nothing that is below a directory that
need not be entered is left (`ignores_below`).
-/

namespace UsageCensus.Glob

/-! ## Longer texts -/

theorem fits_append {pieces : List Piece} (hlast : pieces.getLast? = some .anything)
    {text : List Char} (h : fits pieces text = true) (more : List Char) :
    fits pieces (text ++ more) = true := by
  induction pieces generalizing text with
  | nil => cases hlast
  | cons piece rest ih =>
    cases rest with
    | nil =>
      -- the last piece takes what is left, whatever it is
      obtain rfl : piece = .anything := by simpa using hlast
      exact anyRest_iff.2 ⟨[], List.nil_suffix, rfl⟩
    | cons next rest =>
      rw [List.getLast?_cons_cons] at hlast
      cases piece with
      | anything =>
        obtain ⟨tail, ⟨front, rfl⟩, htail⟩ := anyRest_iff.1 h
        refine anyRest_iff.2 ⟨tail ++ more, ⟨front, ?_⟩, ih hlast htail⟩
        rw [List.append_assoc]
      | one set =>
        cases text with
        | nil => cases h
        | cons c text =>
          obtain ⟨hset, hrest⟩ := Bool.and_eq_true_iff.1 h
          show (set.has c && fits (next :: rest) (text ++ more)) = true
          rw [hset, ih hlast hrest]
          rfl

/-! ## The last piece -/

/-- A character before a text that ends in `*` leaves the end as it is. -/
theorem getLast?_of_cons {c d : Char} {text : List Char} (h : (c :: text).getLast? = some d)
    (hne : c ≠ d) : text.getLast? = some d := by
  cases text with
  | nil => exact absurd (Option.some.inj h) hne
  | cons e text => rwa [List.getLast?_cons_cons] at h

theorem getLast?_cons_of {α : Type} {a b : α} {rest : List α} (h : rest.getLast? = some b) :
    (a :: rest).getLast? = some b := by
  rw [List.getLast?_cons, h]
  rfl

/-- What stands between two brackets ends with the closing one. -/
theorem append_of_bracketText? {text body rest : List Char}
    (h : bracketText? text = some (body, rest)) : ∃ front, text = front ++ ']' :: rest := by
  have hcut : ∀ {cs tail : List Char}, cs.dropWhile (· != ']') = ']' :: tail →
      cs = cs.takeWhile (· != ']') ++ ']' :: tail := by
    intro cs tail e
    rw [← e, List.takeWhile_append_dropWhile]
  unfold bracketText? at h
  split at h
  rename_i mark text' e
  have hmark : text = text' ∨ text = '!' :: text' := by
    split at e
    · cases e
      exact .inr rfl
    · cases e
      exact .inl rfl
  split at h
  · cases h
  · rename_i first inner
    split at h
    · rename_i tail htail
      cases h
      have hinner : first :: inner = first :: inner.takeWhile (· != ']') ++ ']' :: rest :=
        congrArg (List.cons first) (hcut htail)
      rcases hmark with rfl | rfl
      · exact ⟨first :: inner.takeWhile (· != ']'), hinner⟩
      · exact ⟨'!' :: first :: inner.takeWhile (· != ']'), congrArg (List.cons '!') hinner⟩
    · cases h

theorem getLast?_starBefore {rest : List Piece} (h : rest = [] ∨ rest.getLast? = some .anything) :
    (starBefore rest).getLast? = some .anything := by
  unfold starBefore
  split
  · rcases h with h | h
    · cases h
    · exact h
  · rcases h with rfl | h
    · rfl
    · exact getLast?_cons_of h

/-- A `*` at the end of a pattern is a piece of its own: no bracket that is closed holds it. -/
theorem getLast?_pieces {pattern : List Char} (h : pattern.getLast? = some '*') :
    (pieces pattern).getLast? = some .anything := by
  fun_induction pieces pattern with
  | case1 => cases h
  | case2 text ih =>
    refine getLast?_starBefore ?_
    cases text with
    | nil => exact .inl (by simp [pieces])
    | cons c text =>
      rw [List.getLast?_cons_cons] at h
      exact .inr (ih h)
  | case3 text _ ih => exact getLast?_cons_of (ih (getLast?_of_cons h (by decide)))
  | case4 text body rest hbody _ _ ih =>
    obtain ⟨front, rfl⟩ := append_of_bracketText? hbody
    have htext : (']' :: rest).getLast? = some '*' := by
      have hlast := getLast?_of_cons h (by decide)
      rwa [List.getLast?_append, List.getLast?_cons, Option.some_or, ← List.getLast?_cons] at hlast
    exact getLast?_cons_of (ih (getLast?_of_cons htext (by decide)))
  | case5 text hbody _ _ ih => exact getLast?_cons_of (ih (getLast?_of_cons h (by decide)))
  | case6 c text hstar hany hopen ih =>
    exact getLast?_cons_of (ih (getLast?_of_cons h hstar))

/-- Directory wildcards end in a slash. -/
theorem getLast?_dropDirectories {alternative : List Char}
    (h : alternative.getLast? = some '*') : (dropDirectories alternative).getLast? = some '*' := by
  fun_induction dropDirectories alternative with
  | case1 text ih =>
    cases text with
    | nil => cases h
    | cons c text => exact ih h
  | case2 c text hnot ih =>
    cases text with
    | nil => exact h
    | cons d text =>
      rw [List.getLast?_cons_cons] at h
      exact getLast?_cons_of (ih h)
  | case3 => cases h

/-! ## Below a directory -/

variable {directory : List Char}

theorem alternativeCovers_below {alternative : List Char}
    (h : coversBelow alternative directory = true) (rest : List Char) :
    alternativeCovers alternative (directory ++ '/' :: rest) = true := by
  obtain ⟨hlast, hcovers⟩ := Bool.and_eq_true_iff.1 h
  have hstar : alternative.getLast? = some '*' := by simpa using hlast
  obtain ⟨form, hform, hfits⟩ := List.any_eq_true.1 hcovers
  have hform' : form.getLast? = some '*' := by
    rcases List.mem_cons.1 hform with rfl | hform
    · exact hstar
    · rw [List.mem_singleton.1 hform]
      exact getLast?_dropDirectories hstar
  refine List.any_eq_true.2 ⟨form, hform, ?_⟩
  rw [fitsBySteps_eq] at hfits ⊢
  have := fits_append (getLast?_pieces hform') hfits rest
  rwa [List.append_assoc] at this

theorem covers_below {pattern : List Char} (h : patternCoversBelow pattern directory = true)
    (rest : List Char) : covers pattern (directory ++ '/' :: rest) = true := by
  obtain ⟨alternative, hmem, hbelow⟩ := List.any_eq_true.1 h
  exact List.any_eq_true.2 ⟨alternative, hmem, alternativeCovers_below hbelow rest⟩

/-- Below a directory that need not be entered every path is ignored. -/
theorem ignores_below {ignored : List String} {room : Nat}
    (h : tryIgnoresBelow room ignored directory = .ok true) (rest : List Char) :
    ignores ignored (directory ++ '/' :: rest) = true := by
  unfold tryIgnoresBelow at h
  unfold ignores
  induction ignored with
  | nil => cases h
  | cons pattern ignored ih =>
    rw [List.anyM] at h
    rw [List.any_cons]
    by_cases hshallow : isShallow room pattern.toList
    · rw [if_pos hshallow] at h
      cases hbelow : patternCoversBelow pattern.toList directory with
      | true => rw [covers_below hbelow rest, Bool.true_or]
      | false =>
        rw [hbelow] at h
        rw [ih h, Bool.or_true]
    · rw [if_neg hshallow] at h
      cases h

/-! ## Globs that there is no room for -/

theorem tryCovers_cases (room : Nat) (pattern path : List Char) :
    tryCovers room pattern path = .ok (covers pattern path) ∨
      (tryCovers room pattern path = .error .tooDeep ∧ room < groupCount 0 pattern) := by
  unfold tryCovers
  by_cases hshallow : isShallow room pattern
  · exact .inl (if_pos hshallow)
  · exact .inr ⟨if_neg hshallow, by simpa [isShallow] using hshallow⟩

theorem tryIgnores_cases (room : Nat) (ignored : List String) (path : List Char) :
    tryIgnores room ignored path = .ok (ignores ignored path) ∨
      (tryIgnores room ignored path = .error .tooDeep ∧
        ∃ glob ∈ ignored, room < groupCount 0 glob.toList) := by
  unfold tryIgnores ignores
  induction ignored with
  | nil => exact .inl rfl
  | cons pattern ignored ih =>
    rw [List.anyM, List.any_cons]
    rcases tryCovers_cases room pattern.toList path with h | ⟨h, hdeep⟩
    · rw [h]
      cases covers pattern.toList path with
      | true => exact .inl rfl
      | false =>
        rcases ih with ih | ⟨ih, glob, hglob, hdeep⟩
        · exact .inl ih
        · exact .inr ⟨ih, glob, List.mem_cons_of_mem _ hglob, hdeep⟩
    · rw [h]
      exact .inr ⟨rfl, pattern, List.mem_cons_self, hdeep⟩

theorem tryIgnoresBelow_error {ignored : List String} {fault : Fault} {room : Nat}
    (h : tryIgnoresBelow room ignored directory = .error fault) :
    fault = .tooDeep ∧ ∃ glob ∈ ignored, room < groupCount 0 glob.toList := by
  unfold tryIgnoresBelow at h
  induction ignored with
  | nil => cases h
  | cons pattern ignored ih =>
    rw [List.anyM] at h
    by_cases hshallow : isShallow room pattern.toList
    · rw [if_pos hshallow] at h
      cases hbelow : patternCoversBelow pattern.toList directory with
      | true => rw [hbelow] at h; cases h
      | false =>
        rw [hbelow] at h
        obtain ⟨rfl, glob, hglob, hdeep⟩ := ih h
        exact ⟨rfl, glob, List.mem_cons_of_mem _ hglob, hdeep⟩
    · rw [if_neg hshallow] at h
      cases h
      exact ⟨rfl, pattern, List.mem_cons_self, by simpa [isShallow] using hshallow⟩

end UsageCensus.Glob
