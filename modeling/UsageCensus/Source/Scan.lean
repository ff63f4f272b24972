import UsageCensus.Library
import UsageCensus.Source.Attribute
import UsageCensus.Source.Import
import UsageCensus.Source.Tag
import UsageCensus.Text.Line

/-!
# Scanning a source file

A file is scanned in two steps: the tracked imports give the local names of tracked components,
and these names are then sought as opening tags.
-/

namespace UsageCensus.Source

open UsageCensus.Text

/-- A tracked component's opening tag with its attributes and the line it starts on. -/
structure Instance where
  component : String
  attributes : List Attribute
  line : Nat
  start : Nat
  bodyStart : Nat
  stop : Nat
  deriving Repr, DecidableEq

/-- What is taken from one file: the exported name of each local name, and the instances. -/
structure FileScan where
  imports : Table String String
  instances : List Instance
  deriving Repr, DecidableEq

/-- Exported names that the file imports, in import order, each once. -/
def FileScan.imported (scan : FileScan) : List String := scan.imports.values.eraseDups

/-- The tracked components imported in a file, by their local names. -/
def resolveImports (content : List Char) (tracked : Tracked) : Table String String :=
  (Import.all content).foldl (fun names statement =>
    match statement.clause with
    | .defaultName _ => names
    | .named list =>
      if tracked.hasSource statement.source then
        (Binding.ofNames list).foldl (fun names binding =>
          if tracked.hasComponent binding.exported then
            names.insert binding.localName binding.exported
          else names) names
      else names) .empty

/-- First and last offset of every tracked import statement. -/
def trackedImportSpans (content : List Char) (tracked : Tracked) : List (Nat × Nat) :=
  (importExtents content).filterMap fun found =>
    if tracked.hasSource found.value then some (found.start, found.stop - 1) else none

/-- The instance whose opening tag has the given boundaries. -/
def Instance.ofSpan (content : List Char) (lines : LineIndex) (span : TagSpan) : Instance where
  component := span.component
  attributes := Attribute.parse ((content.drop span.bodyStart).take span.bodyLength)
  line := lines.lineAt span.start
  start := span.start
  bodyStart := span.bodyStart
  stop := span.stop

/-- Every closed opening tag of an imported name. -/
def scanInstances (content : List Char) (imports : Table String String) : List Instance :=
  (tagSpans imports.keys content imports).map (Instance.ofSpan content (.ofText content))

/-- Resolves the tracked imports, then seeks their tags. -/
def FileScan.ofText (content : List Char) (tracked : Tracked) : FileScan :=
  let imports := resolveImports content tracked
  ⟨imports, scanInstances content imports⟩

end UsageCensus.Source
