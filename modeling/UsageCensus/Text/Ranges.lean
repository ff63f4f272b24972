/-!
# Ranges of code points

A character class beyond ASCII is a list of closed ranges of code points, ascending.
-/

namespace UsageCensus.Text

/-- Closed ranges of code points. -/
abbrev Ranges := List (Nat × Nat)

/-- The character's code point lies in one of the ranges. -/
def Ranges.has (r : Ranges) (c : Char) : Bool :=
  r.any fun p => Nat.ble p.1 c.toNat && Nat.ble c.toNat p.2

theorem Ranges.has_iff {r : Ranges} {c : Char} :
    r.has c = true ↔ ∃ p ∈ r, p.1 ≤ c.toNat ∧ c.toNat ≤ p.2 := by
  simp [Ranges.has, List.any_eq_true, Nat.ble_eq]

end UsageCensus.Text
