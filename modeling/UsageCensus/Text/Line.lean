/-!
# Lines

Line numbers start at 1 and a line ends with its line feed. `lineNumber` counts the line feeds
before an offset; `LineIndex` keeps the offsets at which lines start and looks a number up in
them. Offsets before the text are on line 1, offsets behind it on the last line.
-/

namespace UsageCensus.Text

/-- The line of an offset, by counting the line feeds before it. -/
def lineNumber (text : List Char) (offset : Int) : Nat :=
  (text.take offset.toNat).count '\n' + 1

/-- Lines in a text; the empty text has none. -/
def lineCount (text : List Char) : Nat :=
  if text.isEmpty then 0 else text.count '\n' + 1

/-- Offsets right behind the line feeds of a text that begins at offset `at_`. -/
def startsBehind (at_ : Nat) : List Char → List Nat
  | [] => []
  | c :: text => if c = '\n' then (at_ + 1) :: startsBehind (at_ + 1) text
    else startsBehind (at_ + 1) text

/-- The offsets at which the lines of a text start, in ascending order. -/
structure LineIndex where
  starts : List Nat
  deriving Repr, DecidableEq

def LineIndex.ofText (text : List Char) : LineIndex := ⟨0 :: startsBehind 0 text⟩

/-- The line of an offset: how many lines have started by then. -/
def LineIndex.lineAt (index : LineIndex) (offset : Int) : Nat :=
  if offset ≤ 0 then 1
  else (index.starts.takeWhile fun start => decide (Int.ofNat start ≤ offset)).length

/-- Every line that the offsets from `start` to `stop`, both included, touch. -/
def LineIndex.linesBetween (index : LineIndex) (start stop : Int) : List Nat :=
  let first := index.lineAt start
  List.range' first (index.lineAt stop + 1 - first)

end UsageCensus.Text
