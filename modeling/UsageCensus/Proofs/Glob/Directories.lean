import UsageCensus.Glob
import UsageCensus.Proofs.Glob.Alternatives
import UsageCensus.Proofs.Glob.Below

/-!
# Directory wildcards that stand for nothing

Each directory wildcard of a pattern may stand for no directory at all, so a pattern should cover
what it covers with any of them left out (`Thinned`). Only two of these forms are tried: the pattern
as it is, and without all of them. Both are thinned forms (`thinned_dropDirectories`), and they are
the only ones of a pattern with one directory wildcard (`eq_of_thinned`). They are enough also where
a `*` follows each directory wildcard: leaving one out then takes nothing away (`fits_thinned`).
With two directory wildcards and a name between them they are not (`tryCovers_sources`).
-/

namespace UsageCensus.Glob

/-- The pattern with some of its directory wildcards left out. -/
inductive Thinned : List Char → List Char → Prop where
  | nil : Thinned [] []
  | keep {pattern thin : List Char} (c : Char) (h : Thinned pattern thin) :
    Thinned (c :: pattern) (c :: thin)
  | leave {pattern thin : List Char} (h : Thinned pattern thin) :
    Thinned ('*' :: '*' :: '/' :: pattern) thin

/-- How many directory wildcards a pattern has. -/
def directoryCount : List Char → Nat
  | '*' :: '*' :: '/' :: pattern => directoryCount pattern + 1
  | _ :: pattern => directoryCount pattern
  | [] => 0

section

variable {c : Char} {path pattern rest text thin : List Char}

theorem cons_ne_wildcard (h : ∀ rest, c = '*' → pattern = '*' :: '/' :: rest → False)
    (rest : List Char) : c :: pattern ≠ '*' :: '*' :: '/' :: rest :=
  fun e => h rest (List.cons.inj e).1 (List.cons.inj e).2

theorem dropDirectories_wildcard (pattern : List Char) :
    dropDirectories ('*' :: '*' :: '/' :: pattern) = dropDirectories pattern := by
  rw [dropDirectories]

theorem dropDirectories_cons (h : ∀ rest, c :: pattern ≠ '*' :: '*' :: '/' :: rest) :
    dropDirectories (c :: pattern) = c :: dropDirectories pattern := by
  rw [dropDirectories]
  rintro rest rfl rfl
  exact h rest rfl

/-- Where a directory wildcard is not left out, it is kept whole. -/
theorem Thinned.cases_wildcard (h : Thinned ('*' :: '*' :: '/' :: pattern) text) :
    Thinned pattern text ∨ ∃ thin, text = '*' :: '*' :: '/' :: thin ∧ Thinned pattern thin := by
  cases h with
  | leave h => exact .inl h
  | keep _ h =>
    cases h with
    | keep _ h =>
      cases h with
      | keep _ h => exact .inr ⟨_, rfl, h⟩

theorem Thinned.cases_cons (hc : ∀ rest, c :: pattern ≠ '*' :: '*' :: '/' :: rest)
    (h : Thinned (c :: pattern) text) : ∃ thin, text = c :: thin ∧ Thinned pattern thin := by
  cases h with
  | keep _ h => exact ⟨_, rfl, h⟩
  | leave h => exact absurd rfl (hc _)

theorem Thinned.refl (pattern : List Char) : Thinned pattern pattern := by
  induction pattern with
  | nil => exact .nil
  | cons c pattern ih => exact .keep c ih

theorem thinned_dropDirectories (pattern : List Char) :
    Thinned pattern (dropDirectories pattern) := by
  fun_induction dropDirectories pattern with
  | case1 pattern ih => exact .leave ih
  | case2 c pattern _ ih => exact .keep c ih
  | case3 => exact .nil

theorem eq_of_thinned_of_zero (h : Thinned pattern thin) (hcount : directoryCount pattern = 0) :
    thin = pattern := by
  fun_induction directoryCount pattern generalizing thin with
  | case1 => omega
  | case2 c pattern hc ih =>
    have hcons := cons_ne_wildcard hc
    obtain ⟨thin, rfl, hthin⟩ := h.cases_cons hcons
    rw [ih hthin hcount]
  | case3 =>
    cases h
    rfl

/-- One directory wildcard is left out or not. -/
theorem eq_of_thinned (h : Thinned pattern thin) (hcount : directoryCount pattern ≤ 1) :
    thin = pattern ∨ thin = dropDirectories pattern := by
  fun_induction directoryCount pattern generalizing thin with
  | case1 pattern ih =>
    have hzero : directoryCount pattern = 0 := by omega
    rw [dropDirectories_wildcard,
      eq_of_thinned_of_zero (thinned_dropDirectories pattern) hzero]
    rcases h.cases_wildcard with hthin | ⟨thin, rfl, hthin⟩
    · exact .inr (eq_of_thinned_of_zero hthin hzero)
    · rw [eq_of_thinned_of_zero hthin hzero]
      exact .inl rfl
  | case2 c pattern hc ih =>
    have hcons := cons_ne_wildcard hc
    obtain ⟨thin, rfl, hthin⟩ := h.cases_cons hcons
    rw [dropDirectories_cons hcons]
    exact (ih hthin hcount).imp (congrArg (List.cons c)) (congrArg (List.cons c))
  | case3 =>
    cases h
    exact .inl rfl

/-! ## What thinned forms fit -/

theorem fits_star_iff : fits (pieces ('*' :: pattern)) path = true ↔
    ∃ rest, rest <:+ path ∧ fits (pieces pattern) rest = true := by
  rw [pieces, if_pos rfl, fits_starBefore, fits, anyRest_iff]

/-- What fits a pattern that starts with `*` may have more in front of it. -/
theorem fits_star_of_suffix (hsuffix : rest <:+ path)
    (h : fits (pieces ('*' :: pattern)) rest = true) :
    fits (pieces ('*' :: pattern)) path = true := by
  obtain ⟨tail, htail, h⟩ := fits_star_iff.1 h
  exact fits_star_iff.2 ⟨tail, htail.trans hsuffix, h⟩

/-- Outside of brackets each character is a piece of its own. -/
theorem exists_pieces_cons (hc : c ≠ '[') (hstar : c ≠ '*') :
    ∃ set, ∀ pattern, pieces (c :: pattern) = .one set :: pieces pattern := by
  by_cases hany : c = '?'
  · refine ⟨.full, fun pattern => ?_⟩
    rw [pieces, if_neg hstar, if_pos hany]
  · refine ⟨.single c, fun pattern => ?_⟩
    rw [pieces, if_neg hstar, if_neg hany, if_neg hc]

theorem fits_one_iff {set : CharSet} {rest : List Piece} :
    fits (.one set :: rest) path = true ↔
      ∃ c text, path = c :: text ∧ set.has c = true ∧ fits rest text = true := by
  cases path with
  | nil => simp [fits]
  | cons c text => simp [fits]

/-- A pattern that fits more goes on to fit more behind one more character. -/
theorem fits_cons_mono {wider : List Char} (hc : c ≠ '[')
    (h : ∀ path, fits (pieces pattern) path = true → fits (pieces wider) path = true)
    (hfits : fits (pieces (c :: pattern)) path = true) :
    fits (pieces (c :: wider)) path = true := by
  by_cases hstar : c = '*'
  · subst hstar
    obtain ⟨rest, hsuffix, hrest⟩ := fits_star_iff.1 hfits
    exact fits_star_iff.2 ⟨rest, hsuffix, h rest hrest⟩
  · obtain ⟨set, hset⟩ := exists_pieces_cons hc hstar
    rw [hset, fits_one_iff] at hfits ⊢
    obtain ⟨d, text, hpath, hd, hrest⟩ := hfits
    exact ⟨d, text, hpath, hd, h text hrest⟩

/-- A directory wildcard takes up a part of the path. -/
theorem exists_of_fits_wildcard (h : fits (pieces ('*' :: '*' :: '/' :: pattern)) path = true) :
    ∃ rest, rest <:+ path ∧ fits (pieces pattern) rest = true := by
  obtain ⟨first, hfirst, h⟩ := fits_star_iff.1 h
  obtain ⟨second, hsecond, h⟩ := fits_star_iff.1 h
  obtain ⟨set, hset⟩ := exists_pieces_cons (c := '/') (by decide) (by decide)
  rw [hset, fits_one_iff] at h
  obtain ⟨c, text, rfl, -, hrest⟩ := h
  exact ⟨text, (List.suffix_cons c text).trans (hsecond.trans hfirst), hrest⟩

/-- A `*` follows each directory wildcard. -/
def HasStars (pattern : List Char) : Prop :=
  ∀ front rest, pattern = front ++ '*' :: '*' :: '/' :: rest → rest.head? = some '*'

theorem HasStars.tail (h : HasStars (c :: pattern)) : HasStars pattern :=
  fun front rest e => h (c :: front) rest (congrArg (List.cons c) e)

theorem head?_dropDirectories (hstars : HasStars pattern) (hhead : pattern.head? = some '*') :
    (dropDirectories pattern).head? = some '*' := by
  fun_induction dropDirectories pattern with
  | case1 pattern ih => exact ih hstars.tail.tail.tail (hstars [] pattern rfl)
  | case2 => exact hhead
  | case3 => exact hhead

/-- Where a `*` follows each directory wildcard, the pattern without all of them fits the most. -/
theorem fits_thinned (hbracket : '[' ∉ pattern) (hstars : HasStars pattern)
    (h : Thinned pattern thin) (hfits : fits (pieces thin) path = true) :
    fits (pieces (dropDirectories pattern)) path = true := by
  fun_induction dropDirectories pattern generalizing thin path with
  | case1 pattern ih =>
    have hbracket : '[' ∉ pattern := by simpa using hbracket
    have hlater := hstars.tail.tail.tail
    rcases h.cases_wildcard with hthin | ⟨thin, rfl, hthin⟩
    · exact ih hbracket hlater hthin hfits
    · obtain ⟨rest, hsuffix, hrest⟩ := exists_of_fits_wildcard hfits
      have hwide := ih hbracket hlater hthin hrest
      obtain ⟨more, hmore⟩ : ∃ more, dropDirectories pattern = '*' :: more :=
        List.head?_eq_some_iff.1 (head?_dropDirectories hlater (hstars [] pattern rfl))
      rw [hmore] at hwide ⊢
      exact fits_star_of_suffix hsuffix hwide
  | case2 c pattern hc ih =>
    rw [List.mem_cons, not_or] at hbracket
    have hcons := cons_ne_wildcard hc
    obtain ⟨thin, rfl, hthin⟩ := h.cases_cons hcons
    exact fits_cons_mono (Ne.symm hbracket.1)
      (fun path => ih hbracket.2 hstars.tail hthin) hfits
  | case3 =>
    cases h
    exact hfits

/-! ## What patterns cover -/

/-- Some form of the pattern with directory wildcards left out fits the path. -/
def ThinlyFits (pattern path : List Char) : Prop :=
  ∃ thin, Thinned pattern thin ∧ fits (pieces thin) path = true

theorem groupCount_of_not_mem (hbrace : '{' ∉ pattern) : groupCount 0 pattern = 0 := by
  have hcount := groupCount_le 0 pattern
  rw [List.count_eq_zero.2 hbrace] at hcount
  omega

theorem covers_iff (hbrace : '{' ∉ pattern) : covers pattern path = true ↔
    fits (pieces pattern) path = true ∨ fits (pieces (dropDirectories pattern)) path = true := by
  have hexpand : expandBraces pattern = [pattern] :=
    (expandUpTo_eq (groupCount_of_not_mem hbrace).le).symm
  simp [covers, hexpand, alternativeCovers, forms, fitsBySteps_eq]

theorem tryCovers_of_not_mem (room : Nat) (hbrace : '{' ∉ pattern) (path : List Char) :
    tryCovers room pattern path = .ok (covers pattern path) := by
  have hshallow : isShallow room pattern = true := by
    rw [isShallow, groupCount_of_not_mem hbrace]
    exact decide_eq_true (Nat.zero_le room)
  rw [tryCovers, if_pos hshallow]

theorem thinlyFits_of_covers (hbrace : '{' ∉ pattern) (h : covers pattern path = true) :
    ThinlyFits pattern path := by
  rcases (covers_iff hbrace).1 h with h | h
  · exact ⟨pattern, .refl pattern, h⟩
  · exact ⟨dropDirectories pattern, thinned_dropDirectories pattern, h⟩

theorem covers_of_thinlyFits (hbrace : '{' ∉ pattern)
    (hforms : directoryCount pattern ≤ 1 ∨ '[' ∉ pattern ∧ HasStars pattern)
    (h : ThinlyFits pattern path) : covers pattern path = true := by
  obtain ⟨thin, hthin, hfits⟩ := h
  rw [covers_iff hbrace]
  rcases hforms with hcount | ⟨hbracket, hstars⟩
  · rcases eq_of_thinned hthin hcount with rfl | rfl
    · exact .inl hfits
    · exact .inr hfits
  · exact .inr (fits_thinned hbracket hstars hthin hfits)

end

/-- A pattern without braces covers what it fits as it is or without all of its directory wildcards.
So some of them can be left out wherever it covers a path; and it covers every path that it fits
with some of them left out, if it has one at most, or if a `*` follows each. -/
theorem tryCovers_thinned (room : Nat) {pattern : List Char} (hbrace : '{' ∉ pattern)
    (path : List Char) :
    ∃ answer, tryCovers room pattern path = .ok answer ∧
      (answer = true ↔ fits (pieces pattern) path = true ∨
        fits (pieces (dropDirectories pattern)) path = true) ∧
      (answer = true → ThinlyFits pattern path) ∧
      (directoryCount pattern ≤ 1 ∨ '[' ∉ pattern ∧ HasStars pattern →
        (answer = true ↔ ThinlyFits pattern path)) := by
  refine ⟨covers pattern path, tryCovers_of_not_mem room hbrace path, covers_iff hbrace,
    thinlyFits_of_covers hbrace, fun hforms => ?_⟩
  exact ⟨thinlyFits_of_covers hbrace, covers_of_thinlyFits hbrace hforms⟩

/-- A file right in a directory. -/
theorem tryCovers_script : '{' ∉ "src/**/*.ts".toList ∧
    ∃ answer, tryCovers 1000 "src/**/*.ts".toList "src/a.ts".toList = .ok answer ∧
      answer = true := by
  have hbrace : '{' ∉ "src/**/*.ts".toList := by decide +kernel
  have hcount : directoryCount "src/**/*.ts".toList ≤ 1 := by decide +kernel
  obtain ⟨answer, hanswer, -, -, hforms⟩ := tryCovers_thinned 1000 hbrace "src/a.ts".toList
  refine ⟨hbrace, answer, hanswer, (hforms (.inl hcount)).2 ?_⟩
  refine ⟨_, thinned_dropDirectories _, ?_⟩
  decide +kernel

/-- The first directory wildcard stands for a directory and the second one for none. -/
theorem tryCovers_sources :
    ThinlyFits "**/src/**/*.ts".toList "app/src/a.ts".toList ∧
      tryCovers 1000 "**/src/**/*.ts".toList "app/src/a.ts".toList = .ok false := by
  constructor
  · refine ⟨"**/src/".toList ++ dropDirectories "**/*.ts".toList, ?_, by decide +kernel⟩
    have hthin := thinned_dropDirectories "**/*.ts".toList
    exact .keep '*' (.keep '*' (.keep '/' (.keep 's' (.keep 'r' (.keep 'c' (.keep '/' hthin))))))
  · have hcovers : covers "**/src/**/*.ts".toList "app/src/a.ts".toList = false := by
      decide +kernel
    rw [tryCovers_of_not_mem 1000 (by decide +kernel), hcovers]

end UsageCensus.Glob
