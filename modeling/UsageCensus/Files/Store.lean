import UsageCensus.Host
import UsageCensus.Document.Saved
import UsageCensus.Document.Reader
import UsageCensus.Text.Utf8

/-!
# Stored texts and documents

Texts and documents in files. A text is written to a draft beside its file by a single write, of
which no one asks how many bytes it has taken, and the draft then takes the place of the file. Where
the file system refuses, the draft is removed and the text is written straight to the file; any
other fault leaves the draft. Several files are written in the order of their paths, up to the first
that cannot be written. A text that cannot be read, or a document that is not well formed, reads as
none. A document that is well formed as far as it goes, but too deep or with too large an integer in
it, raises a fault.
-/

namespace UsageCensus.Files

open UsageCensus.Text

variable {m : Type → Type} [Host m] [Room]

/-- A fault of the file system, which leaves a file unread. -/
def isReadFault : Fault → Bool
  | .missing _ => true
  | .isDirectory => true
  | .notDirectory => true
  | .nameTooLong => true
  | .refused _ => true
  | _ => false

/-- A fault of the file system. -/
def isFileFault : Fault → Bool
  | .occupied => true
  | fault => isReadFault fault

/-- Removes a draft, if that can be done. -/
def removeDraft (path : Path) : m Unit := do
  try
    Host.removeFile path
  catch fault =>
    if isFileFault fault then pure () else throw fault

/-- Writes a text in bytes, if no character in it stands for a surrogate. -/
def writeEncoded (surrogates : Surrogates) (path : Path) (text : String) : m Unit := do
  Host.writeFile path (← Host.encodable surrogates text).toUTF8

/-- The bytes of a text that one write takes. -/
def draftContent (text : String) : ByteArray := text.toUTF8.extract 0 Room.written

/-- Writes a text to a draft by one write. -/
def writeDraft (surrogates : Surrogates) (path : Path) (text : String) : m Unit := do
  Host.writeFile path (draftContent (← Host.encodable surrogates text))

/-- Writes a text, with the directories above its file. Where the file system refuses the draft, or
refuses to put it in the place of the file, it is removed and the text is written straight to the
file. -/
def writeText (surrogates : Surrogates) (path : Path) (text : String) : m Unit := do
  Host.makeDirectories path.parent
  let draft ← Host.makeDraft path.parent
  try
    writeDraft surrogates draft text
    Host.moveFile draft path
  catch fault =>
    if isFileFault fault then
      removeDraft draft
      writeEncoded surrogates path text
    else throw fault

/-- Writes texts below a directory, by their paths. -/
def writeTexts (surrogates : Surrogates) (directory : Path) (texts : Table String String) :
    m (List Path) :=
  (texts.entries.mergeSort fun a b => decide (a.1 ≤ b.1)).mapM fun (name, text) => do
    let path := directory.append (.ofText name)
    writeText surrogates path text
    return path

/-- Writes a document, if it can be saved. -/
def writeDocument (surrogates : Surrogates) (path : Path) (document : Document) : m Unit := do
  let text ← Host.lift (document.savedTextWith surrogates)
  writeText .none path text

/-- The text of a file, if it can be read. -/
def readText? (path : Path) : m (Option String) := do
  try
    let content ← Host.readFile path
    return decode? content
  catch fault =>
    if isReadFault fault then return none else throw fault

/-- The text of a file, if there is one and it can be read. -/
def storedText? (path : Path) : m (Option String) := do
  match ← Host.kindAt path with
  | none => return none
  | some _ => readText? path

/-- The document that a stored text is, if it is one. -/
def documentIn? (surrogates : Surrogates) (text : Option String) :
    Except Fault (Option Document) :=
  match text with
  | none => .ok none
  | some text => match Document.parseWith surrogates text.toList with
    | .ok document => .ok (some document)
    | .error .malformed => .ok none
    | .error fault => .error fault

/-- The document in a file, if there is one, and what stands for surrogates in it. -/
def readDocument? (path : Path) : m (Surrogates × Option Document) := do
  let text ← storedText? path
  let surrogates := Document.surrogatesIn (text.getD "").toList
  return (surrogates, ← Host.lift (documentIn? surrogates text))

end UsageCensus.Files
