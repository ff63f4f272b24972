import Mathlib.Data.List.GetD
import UsageCensus.Proofs.Text.Lines

/-!
# The index of lines

The starts of lines are in ascending order, so that a place among them can be found by halving
(`countByHalving_eq`). The line that is looked up in this way is the one that counting line feeds
gives, for every offset, and the lines between two offsets are those of the offsets from one to the
other (`lineIndex_agrees`).
-/

namespace UsageCensus.Text

/-! ## Starts in order -/

theorem lt_of_mem_startsBehind {text : List Char} {at_ start : Nat}
    (h : start ∈ startsBehind at_ text) : at_ < start := by
  induction text generalizing at_ with
  | nil => cases h
  | cons c text ih =>
    rw [startsBehind] at h
    split at h
    · rcases List.mem_cons.1 h with rfl | h
      · exact Nat.lt_succ_self at_
      · exact Nat.lt_of_succ_lt (ih h)
    · exact Nat.lt_of_succ_lt (ih h)

theorem pairwise_startsBehind (text : List Char) (at_ : Nat) :
    (startsBehind at_ text).Pairwise (· < ·) := by
  induction text generalizing at_ with
  | nil => exact .nil
  | cons c text ih =>
    rw [startsBehind]
    split
    · exact .cons (fun start hstart => lt_of_mem_startsBehind hstart) (ih (at_ + 1))
    · exact ih (at_ + 1)

theorem pairwise_starts (text : List Char) : (LineIndex.ofText text).starts.Pairwise (· < ·) :=
  .cons (fun _ hstart => lt_of_mem_startsBehind hstart) (pairwise_startsBehind text 0)

/-! ## Halving -/

/-- How many items of an ascending list are at most the key. The answer is sought from `low` to
`high`, by looking at the item in the middle. -/
def countByHalving (items : List Nat) (key low high : Nat) : Nat :=
  if low < high then
    let middle := (low + high) / 2
    if key < items.getD middle 0 then countByHalving items key low middle
    else countByHalving items key (middle + 1) high
  else low
termination_by high - low

/-- Items up to a position are taken where all of them belong to the class and the next one, if
there is one, does not. -/
theorem length_takeWhile_of_bound {p : Nat → Bool} {items : List Nat} {n : Nat}
    (hn : n ≤ items.length) (hbefore : ∀ item ∈ items.take n, p item = true)
    (hbehind : ∀ item ∈ items.drop n, p item = false) : (items.takeWhile p).length = n := by
  have hsplit : items.takeWhile p = items.take n ++ (items.drop n).takeWhile p := by
    rw [← List.takeWhile_append_of_pos hbefore, List.take_append_drop]
  have hnone : (items.drop n).takeWhile p = [] := by
    cases hdrop : items.drop n with
    | nil => rfl
    | cons item rest =>
      rw [hdrop] at hbehind
      exact List.takeWhile_cons_of_neg (by rw [hbehind item List.mem_cons_self]; decide)
  rw [hsplit, hnone, List.append_nil, List.length_take, Nat.min_eq_left hn]

/-- In an ascending list, what is at most the key goes up to the item in the middle or ends
before it. -/
theorem countByHalving_eq {items : List Nat} (hsorted : items.Pairwise (· < ·)) {key low high : Nat}
    (hle : low ≤ high) (hhigh : high ≤ items.length)
    (hbefore : ∀ item ∈ items.take low, item ≤ key)
    (hbehind : ∀ item ∈ items.drop high, key < item) :
    countByHalving items key low high
      = (items.takeWhile fun item => decide (item ≤ key)).length := by
  fun_induction countByHalving items key low high with
  | case1 low high hlt middle hkey ih =>
    have hmiddle : middle < items.length := by omega
    rw [List.getD_eq_getElem _ _ hmiddle] at hkey
    refine ih (by omega) (by omega) hbefore fun item hitem => ?_
    rw [List.drop_eq_getElem_cons hmiddle] at hitem
    rcases List.mem_cons.1 hitem with rfl | hitem
    · exact hkey
    · have hdrop : (items.drop middle).Pairwise (· < ·) := hsorted.sublist (List.drop_sublist _ _)
      rw [List.drop_eq_getElem_cons hmiddle] at hdrop
      exact Nat.lt_trans hkey (List.rel_of_pairwise_cons hdrop hitem)
  | case2 low high hlt middle hkey ih =>
    have hmiddle : middle < items.length := by omega
    rw [List.getD_eq_getElem _ _ hmiddle, Nat.not_lt] at hkey
    refine ih (by omega) hhigh (fun item hitem => ?_) hbehind
    rw [List.take_succ_eq_append_getElem hmiddle] at hitem
    rcases List.mem_append.1 hitem with hitem | hitem
    · have htake : (items.take (middle + 1)).Pairwise (· < ·) :=
        hsorted.sublist (List.take_sublist _ _)
      rw [List.take_succ_eq_append_getElem hmiddle, List.pairwise_append] at htake
      exact Nat.le_trans (Nat.le_of_lt (htake.2.2 item hitem _ List.mem_cons_self)) hkey
    · rw [List.mem_singleton.1 hitem]
      exact hkey
  | case3 low high hge =>
    obtain rfl : low = high := by omega
    refine (length_takeWhile_of_bound hhigh (fun item hitem => ?_) fun item hitem => ?_).symm
    · exact decide_eq_true (hbefore item hitem)
    · exact decide_eq_false (Nat.not_le.2 (hbehind item hitem))

/-- Behind the first character, halving finds the line of an offset. -/
theorem LineIndex.countByHalving_starts (text : List Char) {offset : Nat} (h : 0 < offset) :
    countByHalving (LineIndex.ofText text).starts offset 0 (LineIndex.ofText text).starts.length
      = (LineIndex.ofText text).lineAt offset := by
  have hpositive : ¬ (offset : Int) ≤ 0 := by omega
  rw [countByHalving_eq (pairwise_starts text) (Nat.zero_le _) (Nat.le_refl _) (by simp) (by simp),
    lineAt, if_neg hpositive]
  congr 2
  funext start
  exact decide_eq_decide.2 Int.ofNat_le.symm

/-! ## Agreement -/

/-- The index of a text gives the line of every offset, those before and behind the text included:
it is the line that counting gives and that halving finds. Lines ascend with their offsets from 1 to
the number of lines, and those between two offsets are the lines of the offsets from one to the
other, each once and in order. -/
theorem lineIndex_agrees (text : List Char) :
    (∀ offset : Int, (LineIndex.ofText text).lineAt offset = lineNumber text offset ∧
        1 ≤ lineNumber text offset ∧ lineNumber text offset ≤ max 1 (lineCount text)) ∧
      (∀ offset : Nat, 0 < offset → lineNumber text offset
        = countByHalving (LineIndex.ofText text).starts offset 0
            (LineIndex.ofText text).starts.length) ∧
      ∀ start stop : Int, start ≤ stop →
        lineNumber text start ≤ lineNumber text stop ∧
        ((LineIndex.ofText text).linesBetween start stop).Pairwise (· < ·) ∧
        ∀ line, line ∈ (LineIndex.ofText text).linesBetween start stop
          ↔ ∃ offset, start ≤ offset ∧ offset ≤ stop ∧ lineNumber text offset = line := by
  refine ⟨fun offset => ⟨LineIndex.lineAt_ofText text offset, lineNumber_pos text offset, ?_⟩,
    fun offset hoffset => ?_, fun start stop hle =>
      ⟨lineNumber_mono text hle, ?_, fun line => LineIndex.mem_linesBetween_iff_exists hle⟩⟩
  · by_cases htext : text = []
    · subst htext
      have hone : lineNumber [] offset = 1 := by rw [lineNumber, List.take_nil, List.count_nil]
      rw [hone]
      exact Nat.le_max_left _ _
    · exact Nat.le_trans (lineNumber_le_lineCount htext offset) (Nat.le_max_right _ _)
  · rw [LineIndex.countByHalving_starts text hoffset, LineIndex.lineAt_ofText]
  · exact List.pairwise_lt_range'

/-- A text with an empty line in it, that ends with a line feed. -/
def spacedLines : List Char := "a\n\nbc\n".toList

theorem lineIndex_agrees_spacedLines :
    (-1 : Int) ≤ 9 ∧ 0 < 3 ∧
      lineNumber spacedLines 3 = countByHalving [0, 2, 3, 6] 3 0 4 ∧
      lineNumber spacedLines (-1) ≤ lineNumber spacedLines 9 ∧
      ((LineIndex.ofText spacedLines).linesBetween (-1) 9).Pairwise (· < ·) ∧
      4 ∈ (LineIndex.ofText spacedLines).linesBetween (-1) 9 := by
  obtain ⟨-, hhalving, hlines⟩ := lineIndex_agrees spacedLines
  obtain ⟨hmono, hpairwise, hmem⟩ := hlines (-1) 9 (by decide)
  exact ⟨by decide, by decide, hhalving 3 (by decide), hmono, hpairwise,
    (hmem 4).2 ⟨6, by decide, by decide, by decide⟩⟩

end UsageCensus.Text
