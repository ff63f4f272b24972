/-!
# Columns

Texts of one width: blanks are added behind a text (`alignLeft`) or before it (`alignRight`),
and a text that is wider stays as it is.
-/

namespace UsageCensus.Text

def alignLeft (width : Nat) (text : String) : String :=
  text ++ "".pushn ' ' (width - text.length)

def alignRight (width : Nat) (text : String) : String :=
  "".pushn ' ' (width - text.length) ++ text

/-- A character, repeated. -/
def rule (c : Char) (width : Nat) : String := "".pushn c width

end UsageCensus.Text
