/-
# Loading settings

Where the settings of a repository come from.  A document named explicitly must
exist.  Otherwise the dedicated documents are looked for, and the first that
exists is used whatever is in it; then the project document, which is used only
if it has a settings table with anything in it; and else the defaults hold.

A settings table may stand in the `tool` table of any document, under either of
two spellings of the name.  In the project document it must; a dedicated document
without one is a settings table itself.

Loading is given the room there is below it for values that are nested into each
other.
-/

import DirectiveReview.Files.Tree
import DirectiveReview.Settings.Table
import DirectiveReview.Toml.Document

namespace DirectiveReview

/-- Why settings cannot be loaded. -/
inductive LoadError where
  /-- The document named explicitly does not exist. -/
  | missing (path : Text)
  /-- A document is not in the format. -/
  | malformed (path : Text)
  /-- A document is not in UTF-8. -/
  | notUtf8
  /-- A document has an integer with too many digits to be converted. -/
  | numberTooLong
  /-- A document has values that are nested too deeply: there is no room for a
  step of reading. -/
  | tooDeep (step : Toml.Step)
  /-- The settings table of a document cannot be read. -/
  | table (error : TableError)
  /-- A document cannot be looked for or opened. -/
  | file (error : FileError)
  deriving DecidableEq, Repr

/-- What is said about settings that cannot be loaded. -/
def LoadError.message : LoadError → Text
  | .missing path => "Config file does not exist: ".toList ++ path
  | .malformed path => "Invalid TOML in ".toList ++ path
  | .notUtf8 => "the document is not in UTF-8".toList
  | .numberTooLong => "a number of the document has too many digits".toList
  | .tooDeep _ => "the values of the document are nested too deeply".toList
  | .table error => error.message
  | .file error => error.message

namespace Settings

open Toml (Table)

/-- The dedicated documents, in the order in which they are looked for. -/
def dedicatedNames : List Text :=
  [".rubocop-disable-checker.toml".toList, "rubocop-disable-checker.toml".toList]

/-- The project document. -/
def projectName : Text :=
  "pyproject.toml".toList

/-- The names of the settings table within the `tool` table; the first one under
which there is a table counts. -/
def toolNames : List Text :=
  ["rubocop_disable_checker".toList, "rubocop-disable-checker".toList]

/-- The settings table within the `tool` table of a document. -/
def toolTable? (document : Table) : Option Table := do
  let tool ← (← document.get? "tool".toList).table?
  toolNames.findSome? fun name => (tool.get? name).bind Toml.Value.table?

/-- The settings table of a document that has a given name. -/
def tableIn (name : Text) (document : Table) : Table :=
  (toolTable? document).getD (if name = projectName then [] else document)

/-- The room that reading a document takes up before it comes to an entry. -/
def readingRoom : Nat :=
  5

/-- The room that looking at a settings table takes up before a value is written. -/
def tableRoom : Nat :=
  1

/-- Read the document at a path as a table. -/
def document (room : Nat) (tree : FileTree) (path : Path) : Except LoadError Table := do
  let bytes ← (tree.content [] path).mapError .file
  match decodeUtf8? bytes with
  | none => .error .notUtf8
  | some text =>
    match Toml.read (room - readingRoom) text with
    | .ok table => .ok table
    | .error .malformed => .error (.malformed path.text)
    | .error .numberTooLong => .error .numberTooLong
    | .error (.tooDeep step) => .error (.tooDeep step)

/-- The settings table in the document at a path. -/
def tableAt (room : Nat) (tree : FileTree) (path : Path) : Except LoadError Table :=
  (document room tree path).map (tableIn path.lastName)

/-- The settings in the document at a path. -/
def loadFrom (room : Nat) (tree : FileTree) (path : Path) : Except LoadError Settings := do
  let table ← tableAt room tree path
  (ofTable (room - tableRoom) (some path.text) table).mapError .table

/-- The settings in the project document of a repository, if it has any. -/
def loadProject (room : Nat) (tree : FileTree) (repository : Path) :
    Except LoadError Settings := do
  let path := repository.under ⟨.working, [projectName]⟩
  if ← (tree.hasPath [] path).mapError .file then
    let table ← tableAt room tree path
    if table.isEmpty then return default
    (ofTable (room - tableRoom) (some path.text) table).mapError .table
  else return default

/-- The settings of a repository, from the documents that are looked for. -/
def loadFound (room : Nat) (tree : FileTree) (repository : Path) :
    Except LoadError Settings := do
  let dedicated := dedicatedNames.map fun name => repository.under ⟨.working, [name]⟩
  match ← (tree.firstPath? [] dedicated).mapError .file with
  | some path => loadFrom room tree path
  | none => loadProject room tree repository

/-- The settings of a repository whose path starts at the root.  An explicit
document is looked for in the repository unless its path starts at the root. -/
def loadAt (room : Nat) (tree : FileTree) (repository : Path) (explicit : Option Path) :
    Except LoadError Settings := do
  match explicit with
  | some path =>
    let path := repository.under path
    if ← (tree.hasPath [] path).mapError .file then loadFrom room tree path
    else .error (.missing path.text)
  | none => loadFound room tree repository

/-- The settings of a repository.  The path of a repository need not lead to
anything, but it has to be a path. -/
def load (room : Nat) (tree : FileTree) (working : Location) (repository : Path)
    (explicit : Option Path) : Except LoadError Settings :=
  if repository.hasNul then .error (.file .nulInPath)
  else loadAt room tree (Path.ofLocation (repository.resolve working)) explicit

end Settings

end DirectiveReview
