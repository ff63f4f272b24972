/-!
# Surrogates in text

An escape can name a surrogate without its partner, which is no character. A text with such
escapes is read with stand-ins: the surrogates are replaced by the characters of a block for
which the text has no other use (`Surrogates.unusedBy`). Where a text is written with escapes, a
stand-in is written as its surrogate again; without escapes it cannot be written at all.
-/

namespace UsageCensus.Text

/-- The code point is half of a pair that stands for a character. -/
def isSurrogate (n : Nat) : Bool := decide (55296 ≤ n) && decide (n ≤ 57343)

/-- A surrogate that stands for a byte which is no text, in the name of a file. -/
def isByteSurrogate (n : Nat) : Bool := decide (56448 ≤ n) && decide (n ≤ 56575)

/-- The block of characters that stand for the surrogates, in their order: where it starts. -/
structure Surrogates where
  first : Nat
  deriving Repr, DecidableEq

namespace Surrogates

/-- No character stands for a surrogate. -/
def none : Surrogates := ⟨1114112⟩

/-- The code point is in the block. -/
def contains (surrogates : Surrogates) (n : Nat) : Bool :=
  decide (surrogates.first ≤ n) && decide (n < surrogates.first + 2048)

/-- The character that stands for a surrogate. -/
def standIn (surrogates : Surrogates) (unit : Nat) : Char :=
  Char.ofNat (surrogates.first + (unit - 55296))

/-- The surrogate that a character stands for, if it does. -/
def unit? (surrogates : Surrogates) (c : Char) : Option Nat :=
  if surrogates.contains c.toNat then some (55296 + (c.toNat - surrogates.first)) else Option.none

/-- The code point that a character stands for: a surrogate, or its own. -/
def codePoint (surrogates : Surrogates) (c : Char) : Nat := (surrogates.unit? c).getD c.toNat

/-- The first text is not behind the second one in the order of their code points. -/
def textLe (surrogates : Surrogates) (s t : String) : Bool :=
  !List.lex (t.toList.map surrogates.codePoint) (s.toList.map surrogates.codePoint)
    fun m n => decide (m < n)

/-- A surrogate is in the text. -/
def occurIn (surrogates : Surrogates) (text : List Char) : Bool :=
  text.any fun c => surrogates.contains c.toNat

/-- Where the characters start that are behind the surrogates. -/
def firstBehind : Nat := 57344

/-- The blocks that can be used: those for private use. The first one is right behind the
surrogates, so that its characters stand where these do among all others. -/
def blocks : List Surrogates :=
  [⟨firstBehind⟩, ⟨59392⟩, ⟨61440⟩] ++ (List.range 64).map fun k => ⟨983040 + 2048 * k⟩

/-- The first block that has none of the code points. -/
def unusedBy (codePoints : List Nat) : Surrogates :=
  let isUnused (block : Surrogates) : Bool := codePoints.all fun n => !block.contains n
  (blocks.find? isUnused).getD ⟨firstBehind⟩

end Surrogates

end UsageCensus.Text
