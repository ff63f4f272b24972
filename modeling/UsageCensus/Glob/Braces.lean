import UsageCensus.Fault
import UsageCensus.Text.Trim

/-!
# Alternatives in braces

`a.{x,y}` stands for `a.x` and `a.y`. A group is a pair of braces without braces between them;
the first group of a pattern is expanded first, and each expansion is expanded in turn, which
takes as many rounds as there are opening braces. Braces that enclose no group stand for
themselves. A pattern with more groups than there is room for is not expanded.
-/

namespace UsageCensus.Glob

open UsageCensus.Text

/-- What stands before, in and behind the first group of a pattern. -/
def firstGroup? : List Char → Option (List Char × List Char × List Char)
  | [] => none
  | c :: text =>
    let isBrace (d : Char) : Bool := d == '\x7b' || d == '\x7d'
    let later := (firstGroup? text).map fun (head, body, tail) => (c :: head, body, tail)
    if c = '\x7b' then
      match text.dropWhile fun d => !isBrace d with
      | '\x7d' :: tail => some ([], text.takeWhile (fun d => !isBrace d), tail)
      | _ => later
    else later

/-- The alternatives of a pattern, with at most `rounds` groups expanded one after the other. -/
def expandUpTo : (rounds : Nat) → List Char → List (List Char)
  | 0, pattern => [pattern]
  | rounds + 1, pattern =>
    match firstGroup? pattern with
    | none => [pattern]
    | some (head, body, tail) =>
      (cutAt ',' body).flatMap fun option => expandUpTo rounds (head ++ option ++ tail)

/-- The alternatives of a pattern, in the order of the options. -/
def expandBraces (pattern : List Char) : List (List Char) :=
  expandUpTo (pattern.count '\x7b') pattern

/-! ## Patterns with many groups -/

/-- How many braces are closed in a text, behind `opened` open ones. Each makes a group once the
groups inside of it have been expanded. -/
def groupCount (opened : Nat) : List Char → Nat
  | [] => 0
  | c :: text =>
    if c = '\x7b' then groupCount (opened + 1) text
    else if c = '\x7d' then
      match opened with
      | 0 => groupCount 0 text
      | opened + 1 => groupCount opened text + 1
    else groupCount opened text

/-- The pattern can be expanded where there is room for as many groups. -/
def isShallow (room : Nat) (pattern : List Char) : Bool := decide (groupCount 0 pattern ≤ room)

/-- The alternatives of a pattern, if there is room for its groups. -/
def alternatives (room : Nat) (pattern : List Char) : Except Fault (List (List Char)) :=
  if isShallow room pattern then .ok (expandBraces pattern) else .error .tooDeep

end UsageCensus.Glob
