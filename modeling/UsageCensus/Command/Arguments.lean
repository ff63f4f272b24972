import UsageCensus.Table
import UsageCensus.Text.Class
import UsageCensus.Text.Reader

/-!
# Arguments

The grammar of a command's arguments. Options start with a hyphen and are known by one letter
behind one hyphen or by a word behind two, which may be shortened as long as only one option
begins so. A value follows its option as the next argument, behind an equals sign, or behind a
letter at once; letters without values may be run together. A value that is written together
with its option and is no more than `--` stands for no value at all. All other arguments, those
that look like negative numbers or hold a blank, and all behind a `--` are words. A run of words
goes to the command's words, the first time; what is left over is refused.

Reading stops at the first request for help and at the first mistake, in the order in which
options take effect; that an option is ambiguous counts before all others.
-/

namespace UsageCensus.Command

open UsageCensus.Text

/-! ## Grammars -/

/-- How many values an option takes. -/
inductive Arity where
  | none
  | one
  | oneOrMore
  deriving Repr, DecidableEq

/-- How many words a command takes. -/
inductive WordCount where
  | none
  | one
  | any
  | oneOrMore
  deriving Repr, DecidableEq

structure OptionRule where
  /-- What the option is called among the settings. -/
  key : String
  names : List String
  arity : Arity
  /-- Which values are taken. -/
  accepts : String → Bool

structure Grammar where
  options : List OptionRule
  words : WordCount

/-- Why reading stopped. -/
inductive Stop where
  | help
  | misuse
  deriving Repr, DecidableEq

/-- What has been read. -/
structure Settings where
  /-- The values of each option that was given, of the last time. -/
  options : Table String (List String)
  words : Option (List String)
  /-- Something was left over. -/
  leftOver : Bool

namespace Grammar

/-- The key of the request for help. -/
def helpKey : String := "help"

def help : OptionRule := ⟨helpKey, ["-h", "--help"], .none, fun _ => true⟩

/-- Every option by each of its names. -/
def names (grammar : Grammar) : List (String × OptionRule) :=
  grammar.options.flatMap fun rule => rule.names.map fun name => (name, rule)

end Grammar

/-! ## Kinds of arguments -/

inductive Token where
  | word (text : String)
  /-- The argument behind which there are only words. -/
  | marker
  /-- An option, with the text that is written together with it. -/
  | option (name : String) (rule : OptionRule) (attached : Option String)
  /-- An option that the grammar does not know. -/
  | unknown

def Token.isOption : Token → Bool
  | .option .. => true
  | .unknown => true
  | _ => false

/-- The text before the first equals sign, and the text behind it if there is one. -/
def splitEquals (text : List Char) : List Char × Option (List Char) :=
  match text.dropWhile (· != '=') with
  | _ :: value => (text.takeWhile (· != '='), some value)
  | [] => (text, none)

/-- A hyphen and a number. -/
def looksNegative (text : List Char) : Bool :=
  let isNumber (digits : List Char) : Bool := !digits.isEmpty && digits.all isDigit
  match text with
  | '-' :: number =>
    let number := if number.getLast? = some '\n' then number.dropLast else number
    isNumber number || isNumber ((number.dropWhile isDigit).drop 1)
      && (number.dropWhile isDigit).head? == some '.'
  | _ => false

/-- The options that an argument may shorten or be run together with a value. -/
def candidates (grammar : Grammar) (text : List Char) : List Token :=
  match text with
  | '-' :: '-' :: _ =>
    let (start, value) := splitEquals text
    grammar.names.filterMap fun (name, rule) =>
      if start.isPrefixOf name.toList then some (.option name rule (value.map String.ofList))
      else none
  | '-' :: letter :: rest =>
    grammar.names.filterMap fun (name, rule) =>
      if name.toList = ['-', letter] then some (.option name rule (some (String.ofList rest)))
      else if text.isPrefixOf name.toList then some (.option name rule none)
      else none
  | _ => []

/-- The kind of one argument before any `--`. -/
def Token.ofArgument (grammar : Grammar) (argument : String) : Except Stop Token :=
  let text := argument.toList
  match text with
  | '-' :: _ :: _ =>
    match grammar.names.lookup argument with
    | some rule => .ok (.option argument rule none)
    | none =>
      let (start, value) := splitEquals text
      let name := String.ofList start
      match value, grammar.names.lookup name with
      | some value, some rule => .ok (.option name rule (some (String.ofList value)))
      | _, _ =>
        match candidates grammar text with
        | [token] => .ok token
        | _ :: _ :: _ => .error .misuse
        | [] =>
          if looksNegative text || text.contains ' ' then .ok (.word argument) else .ok .unknown
  | _ => .ok (.word argument)

/-- The kinds of all arguments. -/
def Token.ofArguments (grammar : Grammar) : List String → Except Stop (List Token)
  | [] => .ok []
  | argument :: arguments =>
    if argument = "--" then .ok (.marker :: arguments.map .word)
    else do
      let token ← Token.ofArgument grammar argument
      let tokens ← Token.ofArguments grammar arguments
      return token :: tokens

/-! ## Taking options -/

/-- An option with its values. -/
structure Taken where
  rule : OptionRule
  values : List String

namespace Settings

def empty : Settings := ⟨.empty, none, false⟩

/-- An option takes effect. -/
def take (settings : Settings) (taken : Taken) : Except Stop Settings :=
  if taken.rule.key = Grammar.helpKey then .error .help
  else if taken.values.all taken.rule.accepts then
    .ok { settings with options := settings.options.insert taken.rule.key taken.values }
  else .error .misuse

def takeAll (settings : Settings) (taken : List Taken) : Except Stop Settings :=
  taken.foldlM take settings

end Settings

/-- The words at the start of the tokens, and what follows them. -/
def leadingWords : List Token → List String × List Token
  | .word text :: tokens => (text :: (leadingWords tokens).1, (leadingWords tokens).2)
  | tokens => ([], tokens)

theorem length_leadingWords (tokens : List Token) :
    (leadingWords tokens).2.length ≤ tokens.length := by
  fun_induction leadingWords tokens with
  | case1 text tokens ih => exact Nat.le_succ_of_le ih
  | case2 => exact Nat.le_refl _

/-- What an option with no value attached takes from the arguments behind it. -/
structure Followed where
  taken : Taken
  rest : List Token

def takeFollowing (rule : OptionRule) (tokens : List Token) : Except Stop Followed :=
  match rule.arity with
  | .none => .ok ⟨⟨rule, []⟩, tokens⟩
  | .one =>
    match tokens with
    | .word text :: rest => .ok ⟨⟨rule, [text]⟩, rest⟩
    | _ => .error .misuse
  | .oneOrMore =>
    if (leadingWords tokens).1.isEmpty then .error .misuse
    else .ok ⟨⟨rule, (leadingWords tokens).1⟩, (leadingWords tokens).2⟩

theorem length_takeFollowing {rule : OptionRule} {tokens : List Token} {followed : Followed}
    (h : takeFollowing rule tokens = .ok followed) : followed.rest.length ≤ tokens.length := by
  unfold takeFollowing at h
  split at h
  · cases h; exact Nat.le_refl _
  · split at h
    · cases h; simp
    · simp at h
  · split at h
    · simp at h
    · cases h
      exact length_leadingWords tokens

/-- The options in one argument: those taken, and one that takes what follows. -/
structure Cluster where
  taken : List Taken
  following : Option OptionRule

/-- The values that a text written together with an option stands for. -/
def attachedValues (text : String) : List String := if text = "--" then [] else [text]

/-- Reads the letters that are run together behind an option without values. Each must be known
by itself. -/
def readLetters (grammar : Grammar) (rule : OptionRule) : List Char → Except Stop Cluster
  | [] => .ok ⟨[], some rule⟩
  | letter :: rest =>
    match rule.arity with
    | .none =>
      match grammar.names.lookup (String.ofList ['-', letter]) with
      | none => .error .misuse
      | some next => do
        let cluster ← readLetters grammar next rest
        return { cluster with taken := ⟨rule, []⟩ :: cluster.taken }
    | _ => .ok ⟨[⟨rule, attachedValues (String.ofList (letter :: rest))⟩], none⟩

/-- Reads an option with what is attached to it. -/
def readOption (grammar : Grammar) (name : String) (rule : OptionRule) :
    Option String → Except Stop Cluster
  | none => .ok ⟨[], some rule⟩
  | some attached =>
    match rule.arity with
    | .none =>
      if attached = "" || "--".toList.isPrefixOf name.toList then .error .misuse
      else readLetters grammar rule attached.toList
    | _ => .ok ⟨[⟨rule, attachedValues attached⟩], none⟩

/-! ## Reading arguments -/

/-- Takes a run of words for the command, if it has not had one; the rest is left over. -/
def takeWords (grammar : Grammar) (settings : Settings) (run : List Token) : Settings :=
  let texts := run.filterMap fun token => match token with
    | .word text => some text
    | _ => none
  let leftOver := { settings with leftOver := settings.leftOver || !run.isEmpty }
  match settings.words, grammar.words, texts with
  | none, .any, _ => { settings with words := some texts }
  | none, .oneOrMore, _ :: _ => { settings with words := some texts }
  | none, .one, text :: more =>
    { settings with words := some [text], leftOver := settings.leftOver || !more.isEmpty }
  | _, _, _ => leftOver

/-- Reads the tokens from left to right. -/
def readTokens (grammar : Grammar) (settings : Settings) (tokens : List Token) :
    Except Stop Settings :=
  match tokens with
  | [] => .ok (if settings.words.isNone then takeWords grammar settings [] else settings)
  | .unknown :: rest => readTokens grammar { settings with leftOver := true } rest
  | .option name rule attached :: rest => do
    let cluster ← readOption grammar name rule attached
    match cluster.following with
    | none =>
      let settings ← settings.takeAll cluster.taken
      readTokens grammar settings rest
    | some rule =>
      match _h : takeFollowing rule rest with
      | .error stop => .error stop
      | .ok followed => do
        let settings ← settings.takeAll (cluster.taken ++ [followed.taken])
        readTokens grammar settings followed.rest
  | token :: rest =>
    let run := token :: rest.takeWhile (!·.isOption)
    readTokens grammar (takeWords grammar settings run) (rest.dropWhile (!·.isOption))
termination_by tokens.length
decreasing_by
  · simp
  · simp
  · have := length_takeFollowing _h
    simp only [List.length_cons]
    omega
  · have := (List.dropWhile_suffix (l := rest) (!·.isOption)).length_le
    simp only [List.length_cons]
    omega

/-- The settings that arguments make, if nothing is missing. What is left over is noted. -/
def readArguments (grammar : Grammar) (arguments : List String) : Except Stop Settings := do
  let tokens ← Token.ofArguments grammar arguments
  let settings ← readTokens grammar .empty tokens
  match grammar.words, settings.words with
  | .one, none => .error .misuse
  | .oneOrMore, none => .error .misuse
  | _, _ => return settings

end UsageCensus.Command
