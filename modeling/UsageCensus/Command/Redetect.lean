import UsageCensus.Command.Analyze
import UsageCensus.Defaults.Stored

/-!
# Detecting defaults again

The defaults are detected from the reports that a survey has written, one for each component,
and listed in two files beside them.
-/

namespace UsageCensus.Command

open UsageCensus.Defaults UsageCensus.Files UsageCensus.Text

variable {m : Type → Type} [Host m] [Room]

/-- Names of reports among names of files, in order. -/
def reportsAmong (names : List String) : List String :=
  (names.filter fun name => ".json".toList.isSuffixOf name.toList).mergeSort
    fun a b => decide (a ≤ b)

/-- Names of the reports in a directory, in order. -/
def reportNames (directory : Place) : m (List String) := do
  match ← Host.kindAt (.ofPlace directory) with
  | some .directory =>
    let names ← Host.namesIn directory
    return reportsAmong names
  | _ => return []

/-- The report in the text of a file, if there is one. -/
def reportIn? (surrogates : Surrogates) (name : String) (text : Option String) :
    Except Fault (Option StoredReport) := do
  let document ← documentIn? surrogates text
  StoredReport.ofDocument? (stem name) (document.getD .null)

/-- Adds the report in the text of a file; where there is none, the file is passed over. -/
def addReport (surrogates : Surrogates) (reports : List StoredReport)
    (file : String × Option String) : m (List StoredReport) := do
  match ← Host.lift (reportIn? surrogates file.1 file.2) with
  | some report => return StoredReport.insert report reports
  | none =>
    Host.warn ("  Skipping unreadable report: " ++ file.1)
    return reports

/-- The detections in the reports in files, each given by its name and its text. -/
def detectIn (surrogates : Surrogates) (files : List (String × Option String)) :
    m (List StoredReport.Labelled) := do
  let reports ← files.foldlM (addReport surrogates) []
  Host.lift (StoredReport.detectAll surrogates reports)

/-- The detections in a table. -/
def detectionRow (surrogates : Surrogates) (found : Detection Document) : List Document :=
  let uses := found.count.displayWith surrogates ++ "/" ++ found.total.displayWith surrogates
  [.string found.component, .string found.prop, .string found.value, .string uses,
    .string found.confidence.label]

def showDetections (surrogates : Surrogates) (found : List (Detection Document))
    (directory : Place) : m Unit := do
  if found.isEmpty then Host.putStyled .dim "  No default-valued props detected."
  else
    let headers := ["Component", "Prop", "Default", "Uses", "Confidence"].map Document.string
    Host.putTable headers (found.map (detectionRow surrogates)) []
    Host.putStyled .green
      ("\n  " ++ toString found.length ++ " detections written to " ++ Place.text directory)

/-- Detects defaults from the reports on disk. -/
def redetect (config : Config.Choice) (output : Option String) : m Unit := do
  let config ← Config.load config
  let output ← outputPlace output config
  let directory := output ++ ["components"]
  let details := directory ++ ["detail"]
  let names ← reportNames details
  if names.isEmpty then throw (.missing (.detailReports (Place.text details)))
  let texts ← names.mapM fun name => storedText? (.ofPlace (details ++ [name]))
  let surrogates := Document.surrogatesIn (texts.flatMap fun text => (text.getD "").toList)
  let labelled ← detectIn surrogates (names.zip texts)
  let found := labelled.map Prod.snd
  let now ← Host.now
  let summary ← Host.lift (StoredReport.summary (some now) labelled)
  writeText surrogates (.ofPlace (directory ++ ["detected-prop-defaults.json"]))
    (summary.renderFileWith surrogates)
  if !labelled.all fun detection => detection.1.isName then throw .noOperation
  writeText surrogates (.ofPlace (directory ++ ["detected-prop-defaults.txt"]))
    (Detection.listing surrogates (Document.displayWith surrogates) found)
  showDetections surrogates found directory

end UsageCensus.Command
