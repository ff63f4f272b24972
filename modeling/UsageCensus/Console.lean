import UsageCensus.Fault
import UsageCensus.Document.Display
import UsageCensus.Text.Align
import UsageCensus.Text.Class
import UsageCensus.Text.Reader

/-!
# The console

What is shown to a user: styled lines, tables and boxes. Styles are shown on a terminal only,
and not where colours are unwanted. Rules and boxes are drawn with characters that some
consoles lack, so these lines have a plain form as well.
-/

namespace UsageCensus

open UsageCensus.Text

inductive Style where
  | reset
  | bold
  | dim
  | red
  | green
  | yellow
  deriving Repr, DecidableEq

namespace Style

def code : Style → String
  | reset => "\x1b[0m"
  | bold => "\x1b[1m"
  | dim => "\x1b[2m"
  | red => "\x1b[31m"
  | green => "\x1b[32m"
  | yellow => "\x1b[33m"

def ofName? (name : String) : Option Style :=
  [("reset", reset), ("bold", bold), ("dim", dim), ("red", red), ("green", green),
   ("yellow", yellow)].lookup name

end Style

/-- What a console can show. -/
structure Console where
  isTerminal : Bool
  /-- The user wants no colours. -/
  noColor : Bool
  /-- Only ASCII characters can be shown. -/
  asciiOnly : Bool
  deriving Repr, DecidableEq

namespace Console

/-- The text in a style; one that is not known only ends a style. -/
def paint (console : Console) (style : Option Style) (text : String) : String :=
  if console.isTerminal && !console.noColor then
    ((style.map Style.code).getD "") ++ text ++ Style.reset.code
  else text

/-- The console has every character of the text. -/
def canShow (console : Console) (text : String) : Bool :=
  !console.asciiOnly || text.toList.all isAscii

end Console

/-- A line for the console. -/
structure Line where
  text : String
  /-- What is shown where the text cannot be. -/
  plain : Option String
  style : Option Style
  deriving Repr, DecidableEq

namespace Line

def ofText (text : String) : Line := ⟨text, none, none⟩

def styled (style : Style) (text : String) : Line := ⟨text, none, some style⟩

/-- The text in the line's style, if it has one. -/
def paint (console : Console) (line : Line) (text : String) : String :=
  match line.style with
  | some style => console.paint (some style) text
  | none => text

/-- What the console shows, if it can show the line. -/
def shown? (console : Console) (line : Line) : Option String :=
  let forms := line.text :: line.plain.toList
  (forms.map (line.paint console)).find? console.canShow

end Line

/-! ## Widths -/

/-- The largest width that is understood. -/
def largestWidth : Int := 9223372036854775807

/-- The most characters that there is room for in a text. -/
def mostCharacters : Int := 4294967296

/-- How many characters a width is, which is none below zero. -/
def charactersIn (width : Int) : Except Fault Nat :=
  if largestWidth < width ∨ width < -largestWidth - 1 then .error .tooLarge
  else if mostCharacters < width then .error .noRoom
  else .ok width.toNat

/-- A horizontal rule, with its plain form. -/
def ruleTexts (width : Int) : Except Fault (String × String) := do
  let width ← charactersIn width
  return (rule '─' width, rule '-' width)

/-! ## Tables -/

/-- A count, a ratio or a percentage. -/
def isNumericCell (text : String) : Bool :=
  let unsigned := match text.toList with
    | '-' :: rest => rest
    | chars => chars
  match run1? isDigit unsigned with
  | none => false
  | some (_, rest) =>
    let rest := match rest with
      | c :: tail =>
        if c = '.' ∨ c = '/' then ((run1? isDigit tail).map Prod.snd).getD rest else rest
      | [] => []
    rest == [] || rest == ['%']

namespace ConsoleTable

/-- A row's text in a column. -/
def cellAt (column : Nat) (row : List Document) : Except Fault String :=
  match row[column]? with
  | some cell => .ok cell.display
  | none => .error .outside

/-- Every row has a number in the column. Rows behind one that has none are not looked at. -/
def isNumericColumn (column : Nat) : List (List Document) → Except Fault Bool
  | [] => .ok true
  | row :: rows => do
    let cell ← cellAt column row
    if isNumericCell cell then isNumericColumn column rows else return false

/-- The widest text of a column. -/
def columnWidth (rows : List (List Document)) (header : Document) (column : Nat) :
    Except Fault Nat := do
  let cells ← rows.mapM (cellAt column)
  return (cells.map String.length).foldl max header.display.length

/-- A column's width, and whether its texts are aligned to the right. -/
structure Column where
  width : Int
  isNumeric : Bool
  deriving Repr, DecidableEq

def formatCell (column : Column) (cell : Document) : Except Fault String := do
  let width ← charactersIn column.width
  return if column.isNumeric then alignRight width cell.display else alignLeft width cell.display

def formatRow (columns : List Column) (cells : List Document) : Except Fault String := do
  return "  ".intercalate (← (columns.zip cells).mapM fun (column, cell) => formatCell column cell)

/-- The rule below the headers, across all columns. -/
def headerRule (widths : List Int) : Except Fault Line := do
  let (text, plain) ← ruleTexts (widths.foldl (· + ·) 0 + 2 * (Int.ofNat widths.length - 1))
  return ⟨text, some plain, some .dim⟩

/-- A table with its headers over a rule: each line, or why it cannot be drawn. Without widths,
or with none, each column is as wide as its widest text; a table without rows is not shown. -/
def lines (headers : List Document) (rows : List (List Document)) (widths : List Int) :
    Except Fault (List (Except Fault Line)) := do
  if rows.isEmpty then return []
  let widths ←
    if widths.isEmpty then
      headers.zipIdx.mapM fun (header, column) => do
        return Int.ofNat (← columnWidth rows header column)
    else pure widths
  let numeric ← (List.range headers.length).mapM fun column => isNumericColumn column rows
  let columns := List.zipWith Column.mk widths numeric
  return (formatRow columns headers).map (Line.styled .bold)
    :: headerRule widths
    :: rows.map fun row => (formatRow columns row).map Line.ofText

end ConsoleTable

/-! ## Boxes -/

/-- Lines in a frame that is at least `width` wide inside. -/
def boxLines (lines : List String) (width : Int) : Except Fault (List Line) := do
  let width := (lines.map fun line => Int.ofNat line.length + 2).foldl max width
  let (text, plain) ← ruleTexts width
  let frame (left right : String) : Line :=
    ⟨left ++ text ++ right, some ("+" ++ plain ++ "+"), none⟩
  let inside (line : String) : Line :=
    let padded := alignLeft (width.toNat - 2) line
    ⟨"│ " ++ padded ++ " │", some ("| " ++ padded ++ " |"), none⟩
  return frame "┌" "┐" :: lines.map inside ++ [frame "└" "┘"]

/-- The width of a box. -/
def defaultBoxWidth : Int := 45

end UsageCensus
