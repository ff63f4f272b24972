import UsageCensus.Command.Basic
import UsageCensus.Config.Load
import UsageCensus.Files.Discovery
import UsageCensus.Files.Store
import UsageCensus.Report.Outputs

/-!
# Surveying codebases

Every wanted file of every codebase is added to a census, codebase by codebase and in the order
of the files; then the reports are written. A codebase that is no directory is passed over, and
so is a file that is not readable text.
-/

namespace UsageCensus.Command

open UsageCensus.Census UsageCensus.Files UsageCensus.Text

variable {m : Type → Type} [Host m] [Room]

/-- A place to write to: the given path, or the configured one. -/
def outputPlace (output : Option String) (config : Config) : m Place := do
  match output with
  | none => return config.output
  | some "" => return config.output
  | some text =>
    let here ← Host.here
    Config.readPlace (Host.follow here) .none (.string text)

/-- The codebases in given directories, named like them. -/
def namedCodebases (paths : List String) : m (List Codebase) := do
  let here ← Host.here
  paths.mapM fun text => do
    let place ← Config.readPlace (Host.follow here) .none (.string text)
    return ⟨place.getLastD "", place⟩

/-- What a run has come to: the census, and how many files of each codebase are in it. -/
structure Survey where
  census : Census
  counts : Table String Nat

/-- Adds a file of a codebase. Its value tells whether the file could be read. -/
def addFile (codebase : Codebase) (verbose : Bool) (census : Census) (file : Place) :
    m (Census × Bool) := do
  let name := relativeText file
  match ← readText? (.ofPlace (codebase.place ++ file)) with
  | none =>
    Host.warn ("    Could not read " ++ name ++ ", skipped")
    return (census, false)
  | some text =>
    if verbose then Host.log ("    " ++ name)
    let scanned := ScannedFile.ofText census.tracked text.toList
    let census ← Host.lift (census.addFile codebase.name name scanned)
    return (census, true)

/-- Adds the files of a codebase, and counts those that could be read. -/
def addFiles (codebase : Codebase) (verbose : Bool) :
    Census → Nat → List Place → m (Census × Nat)
  | census, count, [] => return (census, count)
  | census, count, file :: files => do
    let (census, isRead) ← addFile codebase verbose census file
    addFiles codebase verbose census (if isRead then count + 1 else count) files

/-- The wanted files of a codebase. -/
def wantedFiles (config : Config) (place : Place) : m (List Place) := do
  let all ← Host.filesBelow place (isSkipped config.ignored)
  Host.lift (select config.filePattern config.ignored all)

/-- Adds a codebase, if its directory is there. -/
def addCodebase (config : Config) (verbose : Bool) (survey : Survey) (codebase : Codebase) :
    m Survey := do
  match ← Host.kindAt (.ofPlace codebase.place) with
  | some .directory =>
    let files ← wantedFiles config codebase.place
    let name ← Host.encodable config.surrogates codebase.name
    Host.log ("  " ++ name ++ ": " ++ toString files.length ++ " files")
    let (census, count) ← addFiles codebase verbose survey.census 0 files
    return ⟨census, survey.counts.insert codebase.name count⟩
  | _ =>
    let missing := codebase.name ++ ": " ++ Place.text codebase.place
    Host.warn ("  Skipping " ++ (← Host.encodable config.surrogates missing) ++ " not found")
    return survey

/-- Surveys the codebases of a configuration. -/
def survey (config : Config) (census : Census) (verbose : Bool) : m Survey := do
  let survey ← config.codebases.foldlM (addCodebase config verbose) ⟨census, .empty⟩
  let census ← Host.lift survey.census.finalize
  return { survey with census }

/-- What a run is about. -/
def announce (config : Config) (aspects : List Aspect) : m Unit := do
  let tracked := config.tracked
  let names := ", ".intercalate (aspects.map Aspect.name)
  let combinations := if aspects.contains .propCombinations then config.combinations else []
  Host.putStyled .dim ("  Library:    " ++ (← Host.encodable config.surrogates tracked.name))
  Host.putStyled .dim ("  Components: " ++ toString tracked.components.length)
  Host.putStyled .dim ("  Analyzers:  " ++ names)
  combinations.forM fun combination => do
    let text := combination.component ++ " [" ++ combination.label ++ "]"
    Host.putStyled .dim ("  Combo:      " ++ (← Host.encodable config.surrogates text))
  Host.putText ""

/-- The outcome of a run. -/
def showResults (counts : Table String Nat) (written : Nat) (output : Place) : m Unit := do
  Host.putText ""
  let rows := counts.entries.map fun (name, n) => [Document.string name, .string (toString n)]
  Host.putTable [.string "Codebase", .string "Files"] rows []
  Host.putText ""
  Host.putBox
    ["component-analytics results", "",
      "Codebases:  " ++ toString counts.size,
      "Files:      " ++ toString counts.total,
      "Reports:    " ++ toString written,
      "Output:     " ++ output.getLastD "" ++ "/"]
    defaultBoxWidth
  Host.putStyled .green ("\n  Reports written to " ++ output.text)

/-- The configuration of a run: the directories that were asked for, or the configured
codebases. -/
def runConfig (request : AnalyzeRequest) : m Config := do
  let config ← Config.load request.config
  let codebases ←
    if request.paths.isEmpty then pure config.codebases else namedCodebases request.paths
  if codebases.isEmpty then throw (.config .noCodebases)
  return { config with codebases }

/-- Surveys codebases and writes the reports. -/
def writeReports (request : AnalyzeRequest) : m Unit := do
  Host.putStyled .bold "\ncomponent-analytics analyze\n"
  let config ← runConfig request
  let aspects ← Host.lift (Aspect.select request.only)
  if request.only.contains Aspect.propCombinations.name && config.combinations.isEmpty then
    Host.warn "  No propCombos configured: prop-combos writes no reports"
  announce config aspects
  if request.lacksJobs then throw .wrongKind
  let found ← survey config (.start config.tracked config.combinations aspects) request.verbose
  if found.counts.isEmpty then throw (.missing .codebases)
  let now ← Host.now
  let outputs ← Host.lift (found.census.outputs now found.counts.keys)
  let output ← outputPlace request.output config
  let written ← writeTexts config.surrogates (.ofPlace output) outputs
  showResults found.counts written.length output

end UsageCensus.Command
