/-!
# Faults

Why a request cannot be answered. Each cause carries what its report needs; the wording is in
`Fault.message`, for the causes that have one.
-/

namespace UsageCensus

/-- What is wrong with a configuration. -/
inductive ConfigFault where
  | rootNotObject
  /-- A member of the configuration that must be a list. -/
  | notList (where_ : String)
  /-- A place that must be an object. -/
  | notObject (where_ : String)
  /-- A place that must be a list of texts. -/
  | notTexts (where_ : String)
  | notText (where_ : String)
  /-- A codebase without a name or a path. -/
  | badCodebase (where_ : String)
  | badCombination (where_ : String)
  | tooFewProps (where_ : String)
  /-- The file does not hold a JSON document. -/
  | unreadable (path : String) (detail : String)
  | noCodebases
  deriving Repr, DecidableEq

def ConfigFault.message : ConfigFault → String
  | rootNotObject => "Config root must be a JSON object"
  | notList place => place ++ " must be a list"
  | notObject place => place ++ " must be an object"
  | notTexts place => place ++ " must be a list of strings"
  | notText place => place ++ " must be a string"
  | badCodebase place => place ++ " must be an object with 'name' and 'path'"
  | badCombination place => place ++ " must be an object with a 'component' name"
  | tooFewProps place => place ++ ".props must name at least two props"
  | unreadable path detail => "Could not parse " ++ path ++ ": " ++ detail
  | noCodebases => "No codebases to analyze: pass directories or add \x60codebases\x60 to the config file"

/-- What was sought on disk and is not there. -/
inductive Missing where
  | configFile (path : String)
  /-- A file, by its quoted path. -/
  | file (quotedPath : String)
  | codebases
  | detailReports (directory : String)
  deriving Repr, DecidableEq

def Missing.message : Missing → String
  | configFile path => "Config file not found: " ++ path
  | file quotedPath => "[Errno 2] No such file or directory: " ++ quotedPath
  | codebases => "None of the configured codebase directories exist"
  | detailReports directory =>
    "No per-component reports in " ++ directory ++ "; run \x60component-analytics analyze\x60 first"

inductive Fault where
  /-- A document has no such member. -/
  | noMember (key : String)
  /-- A value is of a kind that the operation is not for. -/
  | wrongKind
  /-- A value is of a kind that does not have the operation. -/
  | noOperation
  /-- An offset lies outside of the text, the list or the row. -/
  | outside
  /-- A text stands where a number is to be written with decimals. -/
  | textAsNumber
  /-- A number is to be written with fewer than no decimals. -/
  | negativePlaces
  /-- The number of decimals is too large to be understood. -/
  | unreadablePlaces
  /-- A number is to be written with more decimals than can be. -/
  | tooManyPlaces
  /-- A text is not one value of JSON. -/
  | malformed
  /-- Something is nested too deep to be gone through. -/
  | tooDeep
  /-- An integer has too many digits to be read, with their number, or to be written. -/
  | tooManyDigits (digits : Option Nat)
  /-- A path that no file can have. -/
  | unusablePath
  /-- Links on the way of a path lead to each other; the path is quoted. -/
  | linkLoop (quotedPath : String)
  /-- A number is too large for its use, as for a binary64 number or a width. -/
  | tooLarge
  /-- A text is longer than there is room for. -/
  | noRoom
  | divisionByZero
  | config (fault : ConfigFault)
  | missing (sought : Missing)
  /-- A name or a whole path is longer than the file system allows. -/
  | nameTooLong
  /-- A directory stands where a file is wanted. -/
  | isDirectory
  /-- A file stands where a directory is wanted on the way to a path. -/
  | notDirectory
  /-- A file stands in the place of a directory that is to be made. -/
  | occupied
  /-- The file system refuses, for the given reason. -/
  | refused (reason : String)
  /-- A character that the console cannot show. -/
  | unencodable
  | unknownAnalyzers (names known : List String)
  /-- A file was merged after the defaults had been applied. -/
  | alreadyFinal
  deriving Repr, DecidableEq

/-- The wording of a fault, if it has one. -/
def Fault.message? : Fault → Option String
  | textAsNumber => some "Unknown format code 'f' for object of type 'str'"
  | negativePlaces => some "Format specifier missing precision"
  | unreadablePlaces => some "Too many decimal digits in format string"
  | tooManyPlaces => some "precision too big"
  | tooManyDigits digits => some <|
    let value := match digits with
      | some n => ": value has " ++ toString n ++ " digits"
      | none => ""
    "Exceeds the limit (4300 digits) for integer string conversion" ++ value
      ++ "; use sys.set_int_max_str_digits() to increase the limit"
  | unusablePath => some "embedded null byte"
  | linkLoop quotedPath => some ("Symlink loop from " ++ quotedPath)
  | config fault => some fault.message
  | missing sought => some sought.message
  | unknownAnalyzers names known => some <|
    "Unknown analyzer(s): " ++ ", ".intercalate names ++ ". Choose from: " ++ ", ".intercalate known
  | refused reason => some reason
  | alreadyFinal => some "Cannot merge into per-component reports after defaults were applied"
  | _ => none

end UsageCensus
