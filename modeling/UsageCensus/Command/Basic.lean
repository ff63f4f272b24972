import UsageCensus.Census.Aspect
import UsageCensus.Command.Arguments
import UsageCensus.Config
import UsageCensus.Text.Integer

/-!
# Commands

What the program can be asked to do, and how its arguments say so.
-/

namespace UsageCensus

open UsageCensus.Command UsageCensus.Text

/-- A request to survey codebases and write reports. -/
structure AnalyzeRequest where
  /-- Directories to survey in place of the configured codebases. -/
  paths : List String
  config : Config.Choice
  /-- Names of aspects; none mean all. -/
  only : List String
  output : Option String
  /-- Every file is noted. -/
  verbose : Bool
  /-- A number of jobs was asked for, but not named. -/
  lacksJobs : Bool
  deriving Repr, DecidableEq

inductive Command where
  | analyze (request : AnalyzeRequest)
  /-- Shows what is found in one file. -/
  | scan (file : String) (config : Config.Choice) (asJson : Bool)
  /-- Shows how raw values are classified. -/
  | classify (values : List String)
  /-- Detects defaults from the reports on disk. -/
  | defaults (config : Config.Choice) (output : Option String)
  /-- Lists the tracked components. -/
  | components (config : Config.Choice) (asJson : Bool)
  deriving Repr, DecidableEq

namespace Command

/-! ## Options -/

def anyValue (_ : String) : Bool := true

def configRule : OptionRule := ⟨"config", ["--config"], .one, anyValue⟩

def onlyRule : OptionRule :=
  ⟨"only", ["--only"], .oneOrMore, fun name => (Census.Aspect.ofName? name).isSome⟩

/-- How many files may be read at once. No result depends on it. -/
def jobsRule : OptionRule := ⟨"jobs", ["--jobs", "-j"], .one, fun text => isInteger text.toList⟩

def outputRule : OptionRule := ⟨"output", ["--output"], .one, anyValue⟩

def verboseRule : OptionRule := ⟨"verbose", ["--verbose", "-v"], .none, anyValue⟩

def jsonRule : OptionRule := ⟨"json", ["--json"], .none, anyValue⟩

/-- The last value of an option that was given. -/
def valueOf? (settings : Settings) (rule : OptionRule) : Option String :=
  (settings.options.get? rule.key).bind List.getLast?

def isGiven (settings : Settings) (rule : OptionRule) : Bool :=
  settings.options.contains rule.key

/-- The option was given without a value. -/
def isBare (settings : Settings) (rule : OptionRule) : Bool :=
  settings.options.get? rule.key == some []

/-- The configuration that was chosen. -/
def configChoice (settings : Settings) : Config.Choice :=
  match valueOf? settings configRule with
  | some path => .file path
  | none => if isBare settings configRule then .unnamed else .usual

def wordsOf (settings : Settings) : List String := settings.words.getD []

/-! ## Commands by name -/

/-- A command's grammar, and the command that settings make. -/
structure Form where
  name : String
  grammar : Grammar
  toCommand : Settings → Command

def analyzeForm : Form where
  name := "analyze"
  grammar :=
    ⟨[Grammar.help, configRule, onlyRule, jobsRule, outputRule, verboseRule], .any⟩
  toCommand s := .analyze ⟨wordsOf s, configChoice s, (s.options.get? onlyRule.key).getD [],
    valueOf? s outputRule, isGiven s verboseRule, isBare s jobsRule⟩

def scanForm : Form where
  name := "scan"
  grammar := ⟨[Grammar.help, configRule, jsonRule], .one⟩
  toCommand s := .scan ((wordsOf s).headD "") (configChoice s) (isGiven s jsonRule)

def classifyForm : Form where
  name := "classify"
  grammar := ⟨[Grammar.help], .oneOrMore⟩
  toCommand s := .classify (wordsOf s)

def defaultsForm : Form where
  name := "defaults"
  grammar := ⟨[Grammar.help, configRule, outputRule], .none⟩
  toCommand s := .defaults (configChoice s) (valueOf? s outputRule)

def componentsForm : Form where
  name := "components"
  grammar := ⟨[Grammar.help, configRule, jsonRule], .none⟩
  toCommand s := .components (configChoice s) (isGiven s jsonRule)

def forms : List Form := [analyzeForm, scanForm, classifyForm, defaultsForm, componentsForm]

/-- The command of one form. -/
def Form.read (form : Form) (arguments : List String) : Except Stop Command := do
  let settings ← readArguments form.grammar arguments
  if settings.leftOver then .error .misuse else return form.toCommand settings

/-- What may stand before the name of a command. -/
def outerGrammar : Grammar := ⟨[Grammar.help], .none⟩

/-- The command that all arguments make. Unknown options before its name are refused, but only
after the rest has been read. -/
def ofArguments : List String → Except Stop Command
  | [] => .error .misuse
  | argument :: arguments =>
    if argument = "--" then .error .misuse
    else do
      match ← Token.ofArgument outerGrammar argument with
      | .option name rule attached =>
        let _ ← readOption outerGrammar name rule attached
        .error .help
      | .word name =>
        match forms.find? fun form => form.name == name with
        | some form => form.read arguments
        | none => .error .misuse
      | _ =>
        let _ ← ofArguments arguments
        .error .misuse

end Command

end UsageCensus
