import UsageCensus.Text.Reader
import UsageCensus.Text.Trim

/-!
# Prop values

A raw attribute value is a literal or belongs to a category. `classify` names which: a literal
stands for itself (a quoted one for the text between its quotes), a category is written as its
tag, and a plain identifier or path as a variable tag with its name. `normalize` makes of this
the key under which values are counted: numbers and booleans as they are, other literals in
double quotes unless they are long, variables all alike.

`aggregationKey` goes from the raw value to the key and keeps quoted texts apart from numbers,
booleans and tags that read alike.
-/

namespace UsageCensus

open UsageCensus.Text

inductive Category where
  | array
  | object
  | function
  | handler
  | ternary
  | template
  | identifier
  | expression
  deriving Repr, DecidableEq

namespace Category

def all : List Category :=
  [array, object, function, handler, ternary, template, identifier, expression]

/-- How the category is written. -/
def tag : Category → String
  | array => "<array>"
  | object => "<object>"
  | function => "<function>"
  | handler => "<handler>"
  | ternary => "<ternary>"
  | template => "<template>"
  | identifier => "<variable>"
  | expression => "<expression>"

end Category

namespace PropValue

/-! ## Forms of raw values -/

def isBoolean (raw : String) : Bool := raw == "true" || raw == "false"

/-- An optional minus sign, digits, and optionally a point and more digits. -/
def isNumeral (raw : List Char) : Bool :=
  let unsigned := match raw with
    | '-' :: rest => rest
    | _ => raw
  match run1? isAsciiDigit unsigned with
  | none => false
  | some (_, []) => true
  | some (_, '.' :: places) => !places.isEmpty && places.all isAsciiDigit
  | some _ => false

/-- The text between a first character and a last one of two classes, if there is no line
break in it. -/
def between? (first last : Char → Bool) : List Char → Option (List Char)
  | [] => none
  | c :: text =>
    match text.reverse with
    | [] => none
    | d :: inner =>
      if first c && last d && !inner.contains '\n' then some inner.reverse else none

/-- The text between the quotes of a quoted value. The quotes need not be of one kind. -/
def quoted? (raw : List Char) : Option (List Char) := between? isQuote isQuote raw

def isArray (raw : List Char) : Bool := (between? (· == '[') (· == ']') raw).isSome

def isObject (raw : List Char) : Bool := (between? (· == '{') (· == '}') raw).isSome

/-- An arrow somewhere, or the word `function` at the start. -/
def isFunction (raw : List Char) : Bool :=
  occurs ['=', '>'] raw ||
    match after? ['f', 'u', 'n', 'c', 't', 'i', 'o', 'n'] raw with
    | some rest => !(rest.head?.any isWord)
    | none => false

/-- `handle` or `on` with a capital behind it, at the start. -/
def isHandler (raw : List Char) : Bool :=
  let capital (word : List Char) :=
    match after? word raw with
    | some (c :: _) => isAsciiUpper c
    | _ => false
  capital ['h', 'a', 'n', 'd', 'l', 'e'] || capital ['o', 'n']

def isTernary (raw : List Char) : Bool := raw.contains '?' && raw.contains ':'

/-- An identifier, or a path of identifiers with points between them. -/
def isVariable : List Char → Bool
  | [] => false
  | c :: rest =>
    (isAsciiLetter c || c == '_' || c == '$') &&
      rest.all fun d => isAsciiAlnum d || d == '_' || d == '$' || d == '.'

/-! ## Classified values -/

/-- How a variable is written before its name. -/
def variableMark : String := "<variable:"

/-- What a raw value is: the first form that it has, in this order. -/
def classify (raw : String) : String :=
  let text := raw.toList
  if isBoolean raw || isNumeral text then raw
  else
    match quoted? text with
    | some inner => String.ofList inner
    | none =>
      if isArray text then Category.array.tag
      else if isObject text then Category.object.tag
      else if isFunction text then Category.function.tag
      else if isHandler text then Category.handler.tag
      else if isTernary text then Category.ternary.tag
      else if text.head? = some '\x60' then Category.template.tag
      else if isVariable text then variableMark ++ raw ++ ">"
      else Category.expression.tag

/-- The tag of one of the categories. -/
def isTag (classified : String) : Bool := (Category.all.map Category.tag).contains classified

/-- A variable with its name. -/
def isNamedVariable (classified : String) : Bool :=
  variableMark.toList.isPrefixOf classified.toList &&
    classified.toList.getLast? == some '>'

/-- The classified value is a category and no literal. -/
def isCategory (classified : String) : Bool := isTag classified || isNamedVariable classified

/-! ## Aggregation keys -/

/-- Longer texts are not kept as keys of their own. -/
def maxLiteralLength : Nat := 30

/-- The key of a text: the text in double quotes, or the expression tag if it is long. -/
def literalKey (text : String) : String :=
  if text.length ≤ maxLiteralLength then "\"" ++ text ++ "\"" else Category.expression.tag

/-- The key of a classified value. -/
def normalize (classified : String) : String :=
  if isBoolean classified || isNumeral classified.toList then classified
  else if isNamedVariable classified then Category.identifier.tag
  else if isTag classified then classified
  else literalKey classified

/-- The key of a raw value. -/
def aggregationKey (raw : String) : String :=
  match quoted? raw.toList with
  | some inner => literalKey (String.ofList inner)
  | none => normalize (classify raw)

end PropValue

end UsageCensus
