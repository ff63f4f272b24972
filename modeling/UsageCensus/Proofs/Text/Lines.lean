import UsageCensus.Text.Line
import Mathlib.Data.List.Infix

/-!
# Lines by index and by count

Looking a line up in the index of a text gives the same as counting the line feeds before the
offset (`LineIndex.lineAt_ofText`). So the lines that are touched between two offsets are those from
the line of one to the line of the other (`LineIndex.mem_linesBetween`), and they are lines of the
text (`lineNumber_le_lineCount`). No line is left out from one offset to the next, so they are also
the lines of the offsets between the two (`LineIndex.mem_linesBetween_iff_exists`).
-/

namespace UsageCensus.Text

/-- A text has as many starts behind line feeds, up to an offset, as line feeds before it. -/
theorem length_takeWhile_startsBehind (text : List Char) (at_ offset : Nat) :
    ((startsBehind at_ text).takeWhile fun start =>
        decide (Int.ofNat start ≤ Int.ofNat offset)).length
      = (text.take (offset - at_)).count '\n' := by
  induction text generalizing at_ with
  | nil => simp [startsBehind]
  | cons c text ih =>
    have htake : at_ + 1 ≤ offset →
        (c :: text).take (offset - at_) = c :: text.take (offset - (at_ + 1)) := by
      intro h
      rw [show offset - at_ = offset - (at_ + 1) + 1 by omega, List.take_succ_cons]
    have hnone : ¬ at_ + 1 ≤ offset → offset - at_ = 0 ∧ offset - (at_ + 1) = 0 := by omega
    simp only [startsBehind]
    by_cases h : at_ + 1 ≤ offset
    · rw [htake h, List.count_cons]
      split
      · rename_i hc
        have hle : (Int.ofNat (at_ + 1) ≤ Int.ofNat offset) := Int.ofNat_le.2 h
        rw [List.takeWhile_cons, decide_eq_true hle, if_pos rfl, List.length_cons, ih]
        simp [hc]
      · rename_i hc
        rw [ih]
        simp [hc]
    · obtain ⟨h1, h2⟩ := hnone h
      rw [h1, List.take_zero, List.count_nil]
      split
      · have hle : ¬ (Int.ofNat (at_ + 1) ≤ Int.ofNat offset) := fun e => h (Int.ofNat_le.1 e)
        rw [List.takeWhile_cons, decide_eq_false hle]
        rfl
      · rw [ih, h2, List.take_zero, List.count_nil]

theorem LineIndex.lineAt_ofText (text : List Char) (offset : Int) :
    (LineIndex.ofText text).lineAt offset = lineNumber text offset := by
  unfold LineIndex.lineAt lineNumber
  split
  · rename_i h
    rw [show offset.toNat = 0 by omega]
    simp
  · rename_i h
    obtain ⟨n, rfl⟩ : ∃ n : Nat, offset = Int.ofNat n := ⟨offset.toNat, by simp; omega⟩
    have h0 : (Int.ofNat 0 ≤ Int.ofNat n) := Int.ofNat_le.2 (Nat.zero_le n)
    rw [LineIndex.ofText, List.takeWhile_cons, decide_eq_true h0, if_pos rfl, List.length_cons,
      length_takeWhile_startsBehind]
    rfl

theorem LineIndex.mem_linesBetween {text : List Char} {start stop : Int} {line : Nat} :
    line ∈ (LineIndex.ofText text).linesBetween start stop
      ↔ lineNumber text start ≤ line ∧ line ≤ lineNumber text stop := by
  unfold linesBetween
  dsimp only
  rw [List.mem_range'_1, lineAt_ofText, lineAt_ofText]
  omega

/-! ## Offsets of a line -/

theorem lineNumber_mono (text : List Char) {offset later : Int} (h : offset ≤ later) :
    lineNumber text offset ≤ lineNumber text later := by
  have htake : text.take offset.toNat <+: text.take later.toNat :=
    List.take_prefix_take_left (by omega)
  exact Nat.succ_le_succ (htake.count_le '\n')

/-- From one offset to the next at most one line goes by. -/
theorem lineNumber_succ_le (text : List Char) (offset : Int) :
    lineNumber text (offset + 1) ≤ lineNumber text offset + 1 := by
  unfold lineNumber
  rcases Int.lt_or_le offset 0 with hneg | hpos
  · rw [show (offset + 1).toNat = offset.toNat by omega]
    omega
  · rw [show (offset + 1).toNat = offset.toNat + 1 by omega, List.take_add_one, List.count_append]
    have hone : text[offset.toNat]?.toList.count '\n' ≤ 1 := by
      cases text[offset.toNat]? with
      | none => exact Nat.zero_le 1
      | some c => exact List.count_le_length
    omega

/-- Every line between those of two offsets is that of an offset between them. -/
theorem exists_lineNumber_eq {text : List Char} {start : Int} {n line : Nat}
    (hfirst : lineNumber text start ≤ line) (hlast : line ≤ lineNumber text (start + n)) :
    ∃ offset, start ≤ offset ∧ offset ≤ start + n ∧ lineNumber text offset = line := by
  induction n with
  | zero =>
    rw [Int.natCast_zero, Int.add_zero] at hlast
    exact ⟨start, by omega, by omega, by omega⟩
  | succ n ih =>
    have hstep := lineNumber_succ_le text (start + n)
    rw [show start + ↑(n + 1) = start + n + 1 by omega] at hlast ⊢
    rcases Nat.lt_or_ge (lineNumber text (start + n)) line with hlt | hge
    · exact ⟨start + n + 1, by omega, by omega, by omega⟩
    · obtain ⟨offset, hstart, hstop, hline⟩ := ih hge
      exact ⟨offset, hstart, by omega, hline⟩

/-- The lines between two offsets are the lines of the offsets from one to the other. -/
theorem LineIndex.mem_linesBetween_iff_exists {text : List Char} {start stop : Int} {line : Nat}
    (h : start ≤ stop) :
    line ∈ (LineIndex.ofText text).linesBetween start stop
      ↔ ∃ offset, start ≤ offset ∧ offset ≤ stop ∧ lineNumber text offset = line := by
  rw [mem_linesBetween]
  constructor
  · rintro ⟨hfirst, hlast⟩
    obtain ⟨n, rfl⟩ : ∃ n : Nat, stop = start + n := ⟨(stop - start).toNat, by omega⟩
    exact exists_lineNumber_eq hfirst hlast
  · rintro ⟨offset, hstart, hstop, rfl⟩
    exact ⟨lineNumber_mono text hstart, lineNumber_mono text hstop⟩

theorem lineNumber_pos (text : List Char) (offset : Int) : 0 < lineNumber text offset :=
  Nat.succ_pos _

theorem lineNumber_le_lineCount {text : List Char} (h : text ≠ []) (offset : Int) :
    lineNumber text offset ≤ lineCount text := by
  have hempty : ¬text.isEmpty = true := by rwa [List.isEmpty_iff]
  rw [lineCount, if_neg hempty]
  exact Nat.succ_le_succ ((List.take_sublist _ _).count_le '\n')

end UsageCensus.Text
