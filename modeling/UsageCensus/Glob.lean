import UsageCensus.Glob.Braces
import UsageCensus.Glob.Wildcard

/-!
# Globs

A glob is a pattern with alternatives in braces and wildcards. In each alternative `**/` may
also stand for no directory at all. A path is ignored if one of the ignored globs covers it, and
a directory need not be entered if one of their alternatives ends in `*` and covers the
directory's path with a slash behind it: such an alternative covers all that is below, too.
-/

namespace UsageCensus.Glob

/-- The text without the directory wildcards `**/`. -/
def dropDirectories : List Char → List Char
  | '*' :: '*' :: '/' :: text => dropDirectories text
  | c :: text => c :: dropDirectories text
  | [] => []

/-- An alternative as it is, and without its directory wildcards. -/
def forms (alternative : List Char) : List (List Char) :=
  [alternative, dropDirectories alternative]

/-- One form of an alternative fits the path. -/
def alternativeCovers (alternative path : List Char) : Bool :=
  (forms alternative).any fun form => fitsBySteps (pieces form) path

/-- One alternative of the pattern covers the path. -/
def covers (pattern path : List Char) : Bool :=
  (expandBraces pattern).any fun alternative => alternativeCovers alternative path

/-- One of the globs covers the path. -/
def ignores (ignored : List String) (path : List Char) : Bool :=
  ignored.any fun pattern => covers pattern.toList path

/-- `covers`, if there is room for the groups of the pattern. -/
def tryCovers (room : Nat) (pattern path : List Char) : Except Fault Bool :=
  if isShallow room pattern then .ok (covers pattern path) else .error .tooDeep

/-- `ignores`, as far as the globs can be expanded: those behind one that covers the path are not
looked at. -/
def tryIgnores (room : Nat) (ignored : List String) (path : List Char) : Except Fault Bool :=
  ignored.anyM fun pattern => tryCovers room pattern.toList path

/-- The alternative covers the directory and all below. -/
def coversBelow (alternative directory : List Char) : Bool :=
  alternative.getLast? == some '*' && alternativeCovers alternative (directory ++ ['/'])

/-- One alternative of the pattern covers the directory and all below. -/
def patternCoversBelow (pattern directory : List Char) : Bool :=
  (expandBraces pattern).any fun alternative => coversBelow alternative directory

/-- All that is below the directory is ignored, as far as the globs can be expanded: those behind
one that covers all below the directory are not looked at. -/
def tryIgnoresBelow (room : Nat) (ignored : List String) (directory : List Char) :
    Except Fault Bool :=
  ignored.anyM fun pattern =>
    if isShallow room pattern.toList then .ok (patternCoversBelow pattern.toList directory)
    else .error .tooDeep

end UsageCensus.Glob
