import UsageCensus.Command.Basic
import UsageCensus.Config.Load
import UsageCensus.Document.Printer
import UsageCensus.PropValue
import UsageCensus.Source.Scan

/-!
# Looking at single things

The commands that only show: what is found in one file, how values are classified, and what is
tracked.
-/

namespace UsageCensus.Command

open UsageCensus.Files UsageCensus.Source UsageCensus.Text

variable {m : Type → Type} [Host m] [Room]

/-- A document, indented, where characters may stand for surrogates. -/
def putDocument (surrogates : Surrogates) (document : Document) : m Unit :=
  Host.putText (document.renderWith surrogates .indented)

/-! ## One file -/

def attributeDocument (a : Attribute) : Document :=
  .object [("name", .string a.name), ("value", .string a.value)]

def instanceDocument (tag : Instance) : Document :=
  .object [("component", .string tag.component), ("line", .ofNat tag.line),
    ("props", .list (tag.attributes.map attributeDocument))]

def scanDocument (file : String) (scan : FileScan) : Document :=
  .object [("file", .string file), ("import_map", Document.ofTable .string scan.imports),
    ("instances", .list (scan.instances.map instanceDocument))]

/-- The props of an instance with their aggregation keys. -/
def propsText (tag : Instance) : String :=
  let texts := tag.attributes.map fun a => a.name ++ "=" ++ PropValue.aggregationKey a.value
  let text := ", ".intercalate texts
  if text = "" then "-" else text

def importLine (localName exported : String) : String :=
  "    " ++ exported ++ if localName = exported then "" else " as " ++ localName

def showScan (file : String) (config : Config) (scan : FileScan) : m Unit := do
  Host.putStyled .bold ("\n" ++ file ++ "\n")
  if scan.imports.isEmpty then
    let library ← Host.encodable config.surrogates config.tracked.name
    Host.putStyled .dim ("  No imports from " ++ library ++ ".")
  else
    Host.putStyled .bold "  Imports"
    scan.imports.entries.forM fun (localName, exported) =>
      Host.putText (importLine localName exported)
    Host.putText ""
    if scan.instances.isEmpty then Host.putStyled .yellow "  Imported but never rendered."
    else
      let rows := scan.instances.map fun tag =>
        [Document.string (toString tag.line), .string tag.component, .string (propsText tag)]
      let headers := [Document.string "Line", .string "Component", .string "Props (normalized)"]
      Host.putTable headers rows []

/-- Shows the tracked imports and instances of a file. Bytes that are no text are replaced. -/
def showFile (file : String) (config : Config.Choice) (asJson : Bool) : m Unit := do
  let config ← Config.load config
  let content ← Host.readFile (.ofText file)
  let scan := FileScan.ofText (decodeLenient content).toList config.tracked
  if asJson then putDocument .none (scanDocument file scan) else showScan file config scan

/-! ## Values -/

/-- A raw value, what it is, its aggregation key, and of which kind it is. -/
def classificationRow (raw : String) : List Document :=
  let classified := PropValue.classify raw
  let kind := if PropValue.isCategory classified then "category" else "literal"
  [.string raw, .string classified, .string (PropValue.aggregationKey raw), .string kind]

/-- Shows how raw values are classified. -/
def showClassified (values : List String) : m Unit := do
  let headers := [Document.string "Raw", .string "Classified", .string "Normalized", .string "Kind"]
  Host.putTable headers (values.map classificationRow) []

/-! ## Tracked components -/

def libraryDocument (library : Library) : Document :=
  .object [("name", .string library.name),
    ("import_sources", Document.ofTexts library.importSources),
    ("exclude_sources", Document.ofTexts library.excludeSources),
    ("components", Document.ofTexts library.components)]

def combinationDocument (combination : PropCombination) : Document :=
  .object [("component", .string combination.component),
    ("props", Document.ofTexts combination.props)]

def componentsDocument (config : Config) : Document :=
  .object [("libraries", .list (config.libraries.map libraryDocument)),
    ("prop_combos", .list (config.combinations.map combinationDocument))]

def showLibrary (surrogates : Surrogates) (library : Library) : m Unit := do
  let sources := ", ".intercalate library.importSources
  let excludes := ", ".intercalate library.excludeSources
  let components := ", ".intercalate library.components
  Host.putStyled .bold ("  " ++ (← Host.encodable surrogates library.name))
  let sources ← Host.encodable surrogates (if sources = "" then "-" else sources)
  Host.putStyled .dim ("    Sources:  " ++ sources)
  if !library.excludeSources.isEmpty then
    Host.putStyled .dim ("    Excludes: " ++ (← Host.encodable surrogates excludes))
  Host.putText ("    " ++ toString library.components.length ++ " components: "
    ++ (← Host.encodable surrogates components))
  Host.putText ""

def showComponents (config : Config) : m Unit := do
  let source := (config.source.map Path.text).getD "built-in defaults"
  Host.putStyled .dim ("\nConfig: " ++ source ++ "\n")
  config.libraries.forM (showLibrary config.surrogates)
  if !config.combinations.isEmpty then
    Host.putStyled .bold "  Prop combos"
    config.combinations.forM fun combination => do
      let text := combination.component ++ ": " ++ combination.label
      Host.putText ("    " ++ (← Host.encodable config.surrogates text))
    Host.putText ""

/-- Lists the libraries and the components that are tracked. -/
def showTracked (config : Config.Choice) (asJson : Bool) : m Unit := do
  let config ← Config.load config
  if asJson then putDocument config.surrogates (componentsDocument config)
  else showComponents config

end UsageCensus.Command
