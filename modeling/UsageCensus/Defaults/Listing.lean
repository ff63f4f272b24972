import UsageCensus.Defaults.Detection
import UsageCensus.Document.Printer
import UsageCensus.Text.Align

/-!
# Detections for a reader

A text in three parts: how many detections there are, a table for each level of confidence, and
the sure ones as a piece of configuration, one component a line in alphabetical order.
-/

namespace UsageCensus.Detection

open UsageCensus.Defaults UsageCensus.Text

variable {α : Type}

def thickRule : String := rule '═' 90

def thinRule : String := rule '─' 90

/-- The first letter in upper case. -/
def levelTitle : Confidence → String
  | .high => "High"
  | .medium => "Medium"
  | .low => "Low"
  | .other label => label

def levelHeading : Confidence → String
  | .high => "HIGH"
  | .medium => "MEDIUM"
  | .low => "LOW"
  | .other label => label

/-- The columns of a table. -/
def row (component prop value uses reason : String) : String :=
  "  " ++ alignLeft 26 component ++ alignLeft 20 prop ++ alignLeft 16 value
    ++ alignRight 14 uses ++ "  " ++ reason

/-- The table of one level, if there are detections at it. -/
def levelLines (count : α → String) (detections : List (Detection α)) (level : Confidence) :
    List String :=
  let group := detections.filter fun detection => detection.confidence == level
  if group.isEmpty then []
  else
    [thinRule, "  " ++ levelHeading level ++ " CONFIDENCE (" ++ toString group.length ++ ")",
      thinRule, "", row "Component" "Prop" "Default Value" "Explicit Uses" "Reason",
      "  " ++ rule '-' 86]
    ++ group.map (fun d =>
      row d.component d.prop d.value (count d.count ++ " / " ++ count d.total) d.reason)
    ++ [""]

/-- The sure detections: the value of each prop of each component. -/
def sureValues (detections : List (Detection α)) : Table String (Table String String) :=
  byComponent Detection.value (detections.filter fun detection => detection.confidence.isSure)

/-- One component of the configuration, with surrogates escaped. -/
def snippetLine (surrogates : Surrogates) (component : String) (props : Table String String) :
    String :=
  "    " ++ (Document.string component).renderWith surrogates .oneLine ++ ": "
    ++ (Document.ofTable .string props).renderWith surrogates .oneLine

/-- The configuration, with a comma behind every line but the last. -/
def snippetLines (surrogates : Surrogates) (detections : List (Detection α)) : List String :=
  let entries := (sureValues detections).entries.mergeSort fun a b => surrogates.textLe a.1 b.1
  let commas := List.replicate (entries.length - 1) "," ++ [""]
  List.zipWith (fun entry comma => snippetLine surrogates entry.1 entry.2 ++ comma)
    entries commas

/-- The text about all detections, where characters may stand for surrogates. -/
def listing (surrogates : Surrogates) (count : α → String) (detections : List (Detection α)) :
    String :=
  let lines :=
    [thickRule, "  DETECTED PROP DEFAULTS", thickRule, "",
      "  Props that are explicitly set to what is likely the component's",
      "  built-in default, i.e. redundant usage.", "",
      "  Total detected:      " ++ toString detections.length]
    ++ (countByConfidence detections).map (fun (level, n) =>
      "    " ++ alignLeft 19 (levelTitle level ++ " confidence:") ++ toString n)
    ++ [""]
    ++ Confidence.levels.flatMap (levelLines count detections)
    ++ [thickRule, "  CONFIG-READY SNIPPET (high + medium confidence only)", thickRule, "",
      "  \"propDefaults\": \x7b"]
    ++ snippetLines surrogates detections
    ++ ["  \x7d", ""]
  "\n".intercalate lines

end UsageCensus.Detection
