import UsageCensus.Document.Access

/-!
# Comma-separated values

A record is a line of fields with commas between them. A field is put in double quotes if it
holds a comma, a quote or a line feed, or if it is empty and alone in its record; a quote
inside of quotes is written twice. A carriage return ends no record and asks for no quotes.
-/

namespace UsageCensus.Report.Csv

/-- Characters that a field without quotes cannot hold. -/
def isSpecial (c : Char) : Bool := c == ',' || c == '"' || c == '\n'

/-- A text in quotes. -/
def quote (field : List Char) : List Char :=
  '"' :: (field.flatMap fun c => if c = '"' then ['"', '"'] else [c]) ++ ['"']

def field (text : List Char) : List Char := if text.any isSpecial then quote text else text

/-- A record without its line end. -/
def record : List String → List Char
  | [text] => if text.isEmpty then quote [] else field text.toList
  | fields => [','].intercalate (fields.map fun text => field text.toList)

/-- Records, each with a line feed behind it. -/
def render (records : List (List String)) : String :=
  String.ofList (records.flatMap fun fields => record fields ++ ['\n'])

/-- A value as a field: null is empty. -/
def cell : Document → String
  | .null => ""
  | value => value.display

end UsageCensus.Report.Csv
