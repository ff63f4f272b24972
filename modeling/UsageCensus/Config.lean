import UsageCensus.Document.Access
import UsageCensus.Library

/-!
# Configuration

What is surveyed: the codebases, the UI libraries whose components are tracked, the files that
count, the prop combinations that are tabulated, and where reports go. A configuration is read
from a JSON document; members that are missing take the defaults below. The shape of each member
is checked in the order in which they are listed here, and the first member of a wrong shape
names the fault. Paths are seen from the directory of the configuration file and lead where the
machine says. What stands for a path is not checked before, nor is a name that cannot be shown:
these fault as they do elsewhere.
-/

namespace UsageCensus

open UsageCensus.Files UsageCensus.Text

structure Codebase where
  name : String
  place : Place
  deriving Repr, DecidableEq

/-- Props whose values are tabulated together on one component. -/
structure PropCombination where
  component : String
  props : List String
  deriving Repr, DecidableEq

/-- The props for a reader. -/
def PropCombination.label (combination : PropCombination) : String :=
  " × ".intercalate combination.props

structure Config where
  codebases : List Codebase
  libraries : List Library
  filePattern : String
  ignored : List String
  combinations : List PropCombination
  output : Place
  /-- The file that the configuration comes from, as it was named. -/
  source : Option Path
  /-- What stands for surrogates in its texts. -/
  surrogates : Surrogates
  deriving Repr, DecidableEq

/-- Which configuration is to be used. -/
inductive Config.Choice where
  /-- The nearest file of the usual name, or the defaults. -/
  | usual
  | file (path : String)
  /-- A file was asked for, but not named. -/
  | unnamed
  deriving Repr, DecidableEq

/-- All libraries together. -/
def Config.tracked (config : Config) : Tracked := .ofLibraries config.libraries

namespace Config

/-! ## Defaults -/

/-- The name of a configuration file. -/
def fileName : String := "component-analytics.json"

def defaultPattern : String := "**/*.\x7btsx,jsx\x7d"

def defaultIgnored : List String :=
  ["**/node_modules/**", "**/dist/**", "**/build/**", "**/*.test.*", "**/*.spec.*",
   "**/__tests__/**", "**/*.stories.*"]

/-- The library that is tracked where none is configured. -/
def defaultLibrary : Library where
  name := "Sanity UI"
  importSources := ["@sanity/ui"]
  excludeSources := ["@sanity/ui/theme"]
  components :=
    ["Box", "Container", "Flex", "Grid", "Inline", "Stack",
     "Button", "Card", "Dialog", "Menu", "MenuButton", "MenuDivider", "MenuGroup", "MenuItem",
     "Popover", "Tab", "TabList", "TabPanel", "Tooltip",
     "Autocomplete", "Checkbox", "Label", "Radio", "Select", "Switch", "TextArea", "TextInput",
     "Badge", "Code", "Heading", "KBD", "Text",
     "Spinner", "Toast",
     "Avatar", "AvatarCounter", "AvatarStack", "Skeleton", "TextSkeleton", "Tree", "TreeItem",
     "BoundaryElementProvider", "ErrorBoundary", "Layer", "LayerProvider", "Portal",
     "PortalProvider", "ThemeColorProvider", "ThemeProvider", "TooltipDelayGroupProvider"]

def defaultOutput : String := "reports"

/-! ## Reading -/

def fail {α : Type} (fault : ConfigFault) : Except Fault α := .error (.config fault)

/-- An entry of a list, for a message. -/
def entryName (list : String) (index : Nat) : String := list ++ "[" ++ toString index ++ "]"

/-- The texts of a list in which every item is a text. -/
def texts? : List Document → Option (List String)
  | [] => some []
  | .string text :: items => (texts? items).map (text :: ·)
  | _ :: _ => none

/-- A member that is a list of texts; none is an empty one. -/
def readTexts (members : List (String × Document)) (key where_ : String) :
    Except Fault (List String) :=
  let fault := fail (.notTexts (where_ ++ "." ++ key))
  match members.lookup key with
  | none => .ok []
  | some (.list items) => match texts? items with
    | some texts => .ok texts
    | none => fault
  | some _ => fault

/-- A member that is a list; none is an empty one. -/
def readList (members : List (String × Document)) (key : String) : Except Fault (List Document) :=
  match members.lookup key with
  | none => .ok []
  | some (.list items) => .ok items
  | some _ => fail (.notList key)

/-- The entries of a list, each with its index. -/
def readEntries {m : Type → Type} [Monad m] {α : Type} (read : Document → Nat → m α)
    (items : List Document) : m (List α) :=
  items.zipIdx.mapM fun (item, index) => read item index

/-- Why there can be no file of a name. -/
def nameFault? (surrogates : Surrogates) (name : String) : Option Fault :=
  if Path.hasStraySurrogate surrogates name then some .unencodable
  else if Path.hasNull name then some .unusablePath
  else none

section

variable {m : Type → Type} [Monad m] [MonadExceptOf Fault m]

/-- The place that a path leads to. -/
def readPlace (follow : Path → m Place) (surrogates : Surrogates) : Document → m Place
  | .string text => followNamed (.ofText text)
  | .path path => followNamed path
  | _ => throw .wrongKind
where
  /-- Follows a path of names that a file can have. -/
  followNamed (path : Path) : m Place :=
    match path.names.findSome? (nameFault? surrogates) with
    | some fault => throw fault
    | none => follow path

end

section

variable [Room]

def readLibrary (surrogates : Surrogates) (value : Document) (index : Nat) :
    Except Fault Library := do
  let place := entryName "uiLibraries" index
  match value with
  | .object members =>
    let name ← match members.lookup "name" with
      | some name =>
        if name.isPresent then name.tryDisplayWith surrogates else pure Tracked.unnamed
      | none => pure Tracked.unnamed
    let importSources ← readTexts members "importSources" place
    let excludeSources ← readTexts members "excludeSources" place
    let components ← readTexts members "components" place
    return ⟨name, importSources, excludeSources, components⟩
  | _ => fail (.notObject place)

/-- The libraries; where there are none the default one. -/
def readLibraries (surrogates : Surrogates) (members : List (String × Document)) :
    Except Fault (List Library) :=
  match members.lookup "uiLibraries" with
  | none => .ok [defaultLibrary]
  | some value =>
    if value.isPresent then
      match value with
      | .list items => readEntries (readLibrary surrogates) items
      | _ => fail (.notList "uiLibraries")
    else .ok [defaultLibrary]

def readCodebase {m : Type → Type} [Monad m] [MonadExceptOf Fault m] (follow : Path → m Place)
    (surrogates : Surrogates) (value : Document) (index : Nat) : m Codebase := do
  let fault := ConfigFault.badCodebase (entryName "codebases" index)
  match value with
  | .object members =>
    match members.lookup "name", members.lookup "path" with
    | some name, some path =>
      let name ← liftExcept (name.tryDisplayWith surrogates)
      let place ← readPlace follow surrogates path
      return ⟨name, place⟩
    | _, _ => liftExcept (fail fault)
  | _ => liftExcept (fail fault)

end

/-- A component with at least two props. -/
def readCombination (value : Document) (index : Nat) : Except Fault PropCombination := do
  let place := entryName "propCombos" index
  match value with
  | .object members =>
    match members.lookup "component" with
    | some (.string component) =>
      let props ← readTexts members "props" place
      if props.length < 2 then fail (.tooFewProps place)
      else return ⟨component, props⟩
    | _ => fail (.badCombination place)
  | _ => fail (.badCombination place)

/-- The file pattern and the ignored globs. -/
def readFiles (members : List (String × Document)) : Except Fault (String × List String) := do
  match members.lookup "files" with
  | none => return (defaultPattern, defaultIgnored)
  | some (.object files) =>
    let pattern ← match files.lookup "pattern" with
      | none => pure defaultPattern
      | some (.string pattern) => pure pattern
      | some _ => fail (.notText "files.pattern")
    let ignored ← match files.lookup "ignore" with
      | none => pure defaultIgnored
      | some _ => readTexts files "ignore" "files"
    return (pattern, ignored)
  | some _ => fail (.notObject "files")

/-- The configuration that a document describes, where `follow` says where paths lead. -/
def ofDocument [Room] {m : Type → Type} [Monad m] [MonadExceptOf Fault m]
    (follow : Path → m Place) (surrogates : Surrogates) (source : Option Path)
    (document : Document) : m Config := do
  match document with
  | .object members =>
    let libraries ← liftExcept (readLibraries surrogates members)
    let entries ← liftExcept (readList members "codebases")
    let codebases ← readEntries (readCodebase follow surrogates) entries
    let (filePattern, ignored) ← liftExcept (readFiles members)
    let entries ← liftExcept (readList members "propCombos")
    let combinations ← liftExcept (readEntries readCombination entries)
    let output ←
      readPlace follow surrogates ((members.lookup "outputDir").getD (.string defaultOutput))
    return { codebases, libraries, filePattern, ignored, combinations, output, source, surrogates }
  | _ => liftExcept (fail .rootNotObject)

end Config

end UsageCensus
