/-!
# Searching a text from left to right

`search read?` runs a reader at every position. Where it reads something, the occurrence is
reported and the search goes on right behind it, so occurrences never overlap; elsewhere the
search moves on by one character. A reader is also told the character before its position.
-/

namespace UsageCensus.Text

/-- An occurrence: the offsets of its first character and of the first one behind it. -/
structure Found (α : Type) where
  start : Nat
  stop : Nat
  value : α
  deriving Repr, DecidableEq

/-- A reader that is told the character before the text. -/
abbrev SearchReader (α : Type) := Option Char → List Char → Option (α × List Char)

/-- Occurrences from offset `at_` on, once `skip` more characters have gone by. -/
def searchFrom {α : Type} (read? : SearchReader α) :
    (skip : Nat) → (before : Option Char) → (at_ : Nat) → List Char → List (Found α)
  | _, _, _, [] => []
  | skip + 1, _, at_, c :: text => searchFrom read? skip (some c) (at_ + 1) text
  | 0, before, at_, c :: text =>
    match read? before (c :: text) with
    | some (a, rest) =>
      let length := (c :: text).length - rest.length
      ⟨at_, at_ + length, a⟩ :: searchFrom read? (length - 1) (some c) (at_ + 1) text
    | none => searchFrom read? 0 (some c) (at_ + 1) text

/-- Every occurrence in a text, first one first. -/
def search {α : Type} (read? : SearchReader α) (text : List Char) : List (Found α) :=
  searchFrom read? 0 none 0 text

/-- A reader that does not look back. -/
def forward {α : Type} (read? : List Char → Option (α × List Char)) : SearchReader α :=
  fun _ text => read? text

end UsageCensus.Text
