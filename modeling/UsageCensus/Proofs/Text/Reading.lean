import UsageCensus.Text.Reader
import UsageCensus.Text.Trim
import Mathlib.Data.List.TakeWhile

/-!
# What readers take

A run of a class is taken as a whole where the text behind it goes on with a character outside
of the class (`Ends`). Blanks and word characters exclude each other, so a word ends where a
blank follows, and the other way around. `Blanks`, `Gap` and `Word` are the texts that these
runs are.
-/

namespace UsageCensus.Text

/-- What holds of each character of a text that is given, by checking them. -/
theorem forall_mem_of_all {p : Char → Prop} [DecidablePred p] {text : List Char}
    (h : (text.all fun c => decide (p c)) = true) : ∀ c ∈ text, p c :=
  fun c hc => of_decide_eq_true (List.all_eq_true.1 h c hc)

/-- The text does not go on with a character of the class. -/
def Ends (p : Char → Bool) (text : List Char) : Prop := ∀ c ∈ text.head?, p c = false

section

variable {p q : Char → Bool} {c : Char} {w text rest : List Char}

theorem Ends.nil : Ends p [] := by simp [Ends]

theorem Ends.cons (h : p c = false) : Ends p (c :: text) := by simpa [Ends] using h

theorem Ends.head (h : Ends p (c :: text)) : p c = false := h c rfl

/-- What ends one class ends each smaller one. -/
theorem Ends.mono (h : Ends q text) (hpq : ∀ c, p c = true → q c = true) : Ends p text := by
  intro c hc
  cases hp : p c with
  | false => rfl
  | true => rw [← h c hc, hpq c hp]

/-- What comes first decides, if anything comes first. -/
theorem Ends.append (h : Ends p w) (hw : w ≠ []) : Ends p (w ++ rest) := by
  cases w with
  | nil => exact absurd rfl hw
  | cons c w => exact .cons h.head

theorem takeWhile_of_ends (h : Ends p text) : text.takeWhile p = [] := by
  cases text with
  | nil => rfl
  | cons c text => rw [List.takeWhile_cons, h.head]; rfl

theorem dropWhile_of_ends (h : Ends p text) : text.dropWhile p = text := by
  cases text with
  | nil => rfl
  | cons c text => rw [List.dropWhile_cons, h.head]; rfl

theorem takeWhile_append_of_ends (hw : ∀ c ∈ w, p c = true) (h : Ends p rest) :
    (w ++ rest).takeWhile p = w := by
  rw [List.takeWhile_append_of_pos hw, takeWhile_of_ends h, List.append_nil]

theorem dropWhile_append_of_ends (hw : ∀ c ∈ w, p c = true) (h : Ends p rest) :
    (w ++ rest).dropWhile p = rest := by
  rw [List.dropWhile_append_of_pos hw, dropWhile_of_ends h]

theorem ends_dropWhile (p : Char → Bool) (text : List Char) : Ends p (text.dropWhile p) := by
  induction text with
  | nil => exact .nil
  | cons c text ih =>
    rw [List.dropWhile_cons]
    split
    · exact ih
    · rename_i h
      exact .cons (by simpa using h)

/-! ## Runs -/

theorem run_of_ends (hw : ∀ c ∈ w, p c = true) (h : Ends p rest) :
    run p (w ++ rest) = (w, rest) := by
  rw [run, takeWhile_append_of_ends hw h, dropWhile_append_of_ends hw h]

theorem run1?_of_ends (hw : ∀ c ∈ w, p c = true) (hne : w ≠ []) (h : Ends p rest) :
    run1? p (w ++ rest) = some (w, rest) := by
  unfold run1?
  rw [takeWhile_append_of_ends hw h, dropWhile_append_of_ends hw h]
  cases w with
  | nil => exact absurd rfl hne
  | cons c w => rfl

theorem run1?_eq_none (h : Ends p text) : run1? p text = none := by
  rw [run1?, takeWhile_of_ends h]

/-- A run has characters of its class only. -/
theorem forall_of_run1? {taken rest : List Char} (h : run1? p text = some (taken, rest)) :
    ∀ c ∈ taken, p c = true := by
  unfold run1? at h
  split at h
  · cases h
  · rename_i d ds htake
    cases h
    rw [← htake]
    exact fun _ => List.mem_takeWhile_imp

/-- A run starts with a character of its class. -/
theorem ends_not_of_run1? {taken : List Char × List Char} (h : run1? p text = some taken) :
    Ends (fun c => !p c) text := by
  cases text with
  | nil => exact .nil
  | cons c text =>
    refine .cons ?_
    cases hc : p c with
    | true => rfl
    | false => rw [run1?_eq_none (.cons hc)] at h; cases h

/-- A word that is taken off a text starts with the text's first character. -/
theorem after?_cons_ne {d : Char} (h : d ≠ c) : after? (d :: w) (c :: text) = none := if_neg h

end

/-! ## What is left is the end of the text -/

section

variable {p : Char → Bool} {word taken text rest : List Char}

theorem isSuffix_of_after? (h : after? word text = some rest) : rest <:+ text :=
  ⟨word, (after?_eq_some_iff.1 h).symm⟩

theorem isSuffix_of_run1? (h : run1? p text = some (taken, rest)) : rest <:+ text :=
  ⟨taken, (run1?_eq_some h).1.symm⟩

theorem isSuffix_of_blanks1? (h : blanks1? text = some rest) : rest <:+ text := by
  obtain ⟨⟨blanks, _⟩, hrun, rfl⟩ := Option.map_eq_some_iff.1 h
  exact isSuffix_of_run1? hrun

theorem one?_eq_some (h : one? p text = some rest) : ∃ c, p c = true ∧ text = c :: rest := by
  unfold one? at h
  split at h
  · split at h
    · rename_i c _ hc
      cases h
      exact ⟨c, hc, rfl⟩
    · cases h
  · cases h

theorem isSuffix_of_one? (h : one? p text = some rest) : rest <:+ text := by
  obtain ⟨c, -, rfl⟩ := one?_eq_some h
  exact List.suffix_cons c rest

end

/-! ## Blanks and words -/

/-- A blank is no word character, nor the other way around. -/
theorem isBlank_of_isWord {c : Char} (h : isWord c = true) : isBlank c = false := by
  cases hb : isBlank c with
  | false => rfl
  | true => rw [isWord_of_isBlank hb] at h; cases h

/-- Blanks only, maybe none. -/
structure Blanks where
  chars : List Char
  blank : ∀ c ∈ chars, isBlank c = true

/-- One or more blanks. -/
structure Gap extends Blanks where
  nonempty : chars ≠ []

/-- One or more word characters. -/
structure Word where
  chars : List Char
  word : ∀ c ∈ chars, isWord c = true
  nonempty : chars ≠ []

namespace Blanks

def none : Blanks := ⟨[], by simp⟩

theorem ends_isWord (b : Blanks) {rest : List Char} (h : Ends isWord rest) :
    Ends isWord (b.chars ++ rest) := by
  obtain ⟨chars, blank⟩ := b
  cases chars with
  | nil => exact h
  | cons c chars => exact .cons (isWord_of_isBlank (blank c (by simp)))

theorem skipBlanks_append (b : Blanks) (rest : List Char) :
    skipBlanks (b.chars ++ rest) = skipBlanks rest :=
  List.dropWhile_append_of_pos b.blank

theorem skipBlanks_append_of_ends (b : Blanks) {rest : List Char} (h : Ends isBlank rest) :
    skipBlanks (b.chars ++ rest) = rest :=
  dropWhile_append_of_ends b.blank h

end Blanks

namespace Gap

def single : Gap := ⟨⟨[' '], forall_mem_of_all (by decide)⟩, by decide⟩

theorem ends (p : Char → Bool) (hp : ∀ c, isBlank c = true → p c = false) (g : Gap)
    (rest : List Char) : Ends p (g.chars ++ rest) := by
  obtain ⟨⟨chars, blank⟩, nonempty⟩ := g
  cases chars with
  | nil => exact absurd rfl nonempty
  | cons c chars => exact .cons (hp c (blank c (by simp)))

theorem ends_isWord (g : Gap) (rest : List Char) : Ends isWord (g.chars ++ rest) :=
  g.ends isWord (fun _ => isWord_of_isBlank) rest

theorem blanks1?_append (g : Gap) {rest : List Char} (h : Ends isBlank rest) :
    blanks1? (g.chars ++ rest) = some rest := by
  rw [blanks1?, run1?_of_ends g.blank g.nonempty h]
  rfl

end Gap

namespace Word

theorem ends_isBlank (w : Word) (rest : List Char) : Ends isBlank (w.chars ++ rest) := by
  obtain ⟨chars, word, nonempty⟩ := w
  cases chars with
  | nil => exact absurd rfl nonempty
  | cons c chars => exact .cons (isBlank_of_isWord (word c (by simp)))

end Word

/-! ## The first separator -/

section

variable {sep : Char} {front front' rest rest' text : List Char}

/-- What has no separator ends in front of each one. -/
theorem prefix_of_append_cons (hfront : sep ∉ front) (h : text ++ sep :: rest = front ++ rest') :
    front <+: text := by
  rcases List.append_eq_append_iff.1 h with ⟨others, rfl, hothers⟩ | ⟨others, rfl, -⟩
  · cases others with
    | nil => simp
    | cons c others =>
      obtain ⟨rfl, -⟩ := List.cons.inj hothers
      simp at hfront
  · exact List.prefix_append front others

theorem takeWhile_ne_append (hfront : sep ∉ front) (rest : List Char) :
    (front ++ sep :: rest).takeWhile (· != sep) = front :=
  takeWhile_append_of_ends (fun _ hc => bne_iff_ne.2 fun e => hfront (e ▸ hc)) (.cons (by simp))

theorem dropWhile_ne_append (hfront : sep ∉ front) (rest : List Char) :
    (front ++ sep :: rest).dropWhile (· != sep) = sep :: rest :=
  dropWhile_append_of_ends (fun _ hc => bne_iff_ne.2 fun e => hfront (e ▸ hc)) (.cons (by simp))

/-- A text is divided in one way by its first separator. -/
theorem append_cons_inj (hfront : sep ∉ front) (hfront' : sep ∉ front')
    (h : front ++ sep :: rest = front' ++ sep :: rest') : front = front' ∧ rest = rest' := by
  have hprefix := prefix_of_append_cons hfront h.symm
  have hprefix' := prefix_of_append_cons hfront' h
  obtain rfl := hprefix.eq_of_length_le hprefix'.length_le
  exact ⟨rfl, (List.cons.inj (List.append_cancel_left h)).2⟩

end

/-! ## Pieces between separators -/

theorem cutAt_of_not_mem {sep : Char} {piece : List Char} (h : sep ∉ piece) :
    cutAt sep piece = [piece] := by
  induction piece with
  | nil => rfl
  | cons c piece ih =>
    have hc : c ≠ sep := fun e => h (e ▸ List.mem_cons_self)
    rw [cutAt, if_neg hc, ih fun hm => h (List.mem_cons_of_mem _ hm)]

/-- A text is cut at each separator, whatever stands on both sides of it. -/
theorem cutAt_append_cons (sep : Char) (text rest : List Char) :
    cutAt sep (text ++ sep :: rest) = cutAt sep text ++ cutAt sep rest := by
  induction text with
  | nil => exact if_pos rfl
  | cons c text ih =>
    rw [List.cons_append, cutAt, cutAt, ih]
    split
    · rfl
    · cases hcut : cutAt sep text with
      | nil => exact absurd hcut (cutAt_ne_nil sep text)
      | cons piece pieces => rfl

theorem cutAt_append {sep : Char} {piece : List Char} (h : sep ∉ piece) (rest : List Char) :
    cutAt sep (piece ++ sep :: rest) = piece :: cutAt sep rest := by
  rw [cutAt_append_cons, cutAt_of_not_mem h]
  rfl

/-- Cutting at separators undoes putting separators between. -/
theorem cutAt_pieces {sep : Char} {piece : List Char} {pieces : List (List Char)}
    (h : sep ∉ piece) (hall : ∀ p ∈ pieces, sep ∉ p) :
    cutAt sep (piece ++ pieces.flatMap fun p => sep :: p) = piece :: pieces := by
  induction pieces generalizing piece with
  | nil => rw [List.flatMap_nil, List.append_nil, cutAt_of_not_mem h]
  | cons p pieces ih =>
    rw [List.flatMap_cons, List.cons_append, cutAt_append h,
      ih (hall p (by simp)) fun q hq => hall q (by simp [hq])]

/-- What is put together with separators is taken apart at these, and at those inside of pieces. -/
theorem cutAt_intercalate {sep : Char} {pieces : List (List Char)} (hne : pieces ≠ []) :
    cutAt sep ([sep].intercalate pieces) = pieces.flatMap (cutAt sep) := by
  induction pieces with
  | nil => exact absurd rfl hne
  | cons piece pieces ih =>
    cases pieces with
    | nil => rw [List.intercalate_singleton, List.flatMap_singleton]
    | cons next pieces =>
      rw [List.intercalate_cons_cons, List.append_assoc, List.singleton_append,
        cutAt_append_cons, ih (List.cons_ne_nil _ _)]
      rfl

theorem flatMap_cutAt {sep : Char} {pieces : List (List Char)} (h : ∀ piece ∈ pieces, sep ∉ piece) :
    pieces.flatMap (cutAt sep) = pieces := by
  induction pieces with
  | nil => rfl
  | cons piece pieces ih =>
    obtain ⟨hpiece, hpieces⟩ := List.forall_mem_cons.1 h
    rw [List.flatMap_cons, cutAt_of_not_mem hpiece, ih hpieces, List.singleton_append]

/-- A piece has no separator and only characters of the text. -/
theorem cutAt_spec {sep : Char} {text piece : List Char} (h : piece ∈ cutAt sep text) :
    sep ∉ piece ∧ ∀ c ∈ piece, c ∈ text := by
  induction text generalizing piece with
  | nil =>
    obtain rfl := List.mem_singleton.1 h
    exact ⟨List.not_mem_nil, fun _ hc => hc⟩
  | cons d text ih =>
    have hlater : ∀ {piece}, piece ∈ cutAt sep text → sep ∉ piece ∧ ∀ c ∈ piece, c ∈ d :: text :=
      fun h => ⟨(ih h).1, fun c hc => List.mem_cons_of_mem d ((ih h).2 c hc)⟩
    rw [cutAt] at h
    split at h
    · rcases List.mem_cons.1 h with rfl | h
      · exact ⟨List.not_mem_nil, fun _ hc => by cases hc⟩
      · exact hlater h
    · rename_i hd
      cases hcut : cutAt sep text with
      | nil => exact absurd hcut (cutAt_ne_nil sep text)
      | cons first pieces =>
        rw [hcut] at h hlater
        rcases List.mem_cons.1 h with rfl | h
        · obtain ⟨hsep, hfirst⟩ := hlater (List.mem_cons_self (a := first))
          refine ⟨?_, fun c hc => ?_⟩
          · rw [List.mem_cons, not_or]
            exact ⟨Ne.symm hd, hsep⟩
          · rcases List.mem_cons.1 hc with rfl | hc
            · exact List.mem_cons_self
            · exact hfirst c hc
        · exact hlater (List.mem_cons_of_mem first h)

end UsageCensus.Text
