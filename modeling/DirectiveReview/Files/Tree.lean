/-
# File trees

Directories and regular files by location.  Nothing is a link, nothing is locked
away, and no device is ever full: what can go wrong is that something is missing,
exists already, or is not of the kind that is needed, or that a path is none that
a system takes.

Paths are followed the way a system does it.  Every name but the last must lead
to a directory that exists, also when double dots lead out of it again.  A name
that is too long is noticed when it is looked up, so not behind something that is
missing; a path that is too long is refused before that.

Making directories may fail half-way, and what was made before stays.  A directory
is made once the one above it is there, so as many makings wait for each other as
directories are missing, and there is only so much room for them.
-/

import DirectiveReview.Files.Path
import DirectiveReview.Text.Lines

namespace DirectiveReview

/-- What stands at a location. -/
inductive Entry where
  | directory
  | file (content : List UInt8)
  deriving DecidableEq

/-- Why an operation on files fails. -/
inductive FileError where
  | notFound
  | notADirectory
  | isADirectory
  | alreadyExists
  /-- A name, or a path as a whole, has too many bytes. -/
  | nameTooLong
  /-- A path holds the NUL character. -/
  | nulInPath
  /-- More directories are missing than there is room to make. -/
  | tooManyMissing
  deriving DecidableEq, Repr

/-- What is said about a failed operation. -/
def FileError.message : FileError → Text
  | .notFound => "no such file or directory".toList
  | .notADirectory => "not a directory".toList
  | .isADirectory => "is a directory".toList
  | .alreadyExists => "file exists".toList
  | .nameTooLong => "file name too long".toList
  | .nulInPath => "embedded null byte".toList
  | .tooManyMissing => "too many directories are missing".toList

/-- Entries by location.  The root is a directory whether it is listed or not. -/
structure FileTree where
  entries : List (Location × Entry)
  deriving DecidableEq

namespace FileTree

/-- What stands at a location. -/
def entry? (tree : FileTree) (location : Location) : Option Entry :=
  if location = [] then some .directory else tree.entries.lookup location

/-- Put an entry at a location, in the place of what stands there or beside the
others. -/
def put (tree : FileTree) (location : Location) (entry : Entry) : FileTree :=
  if (tree.entries.lookup location).isSome then
    ⟨tree.entries.map fun e => if e.1 = location then (location, entry) else e⟩
  else ⟨tree.entries ++ [(location, entry)]⟩

/-- Follow names from a location.  What is reached need not exist; what is passed
through must be a directory. -/
def walk (tree : FileTree) (location : Location) : List Text → Except FileError Location
  | [] => .ok location
  | name :: rest =>
    match tree.entry? location with
    | some .directory =>
      if name = Path.above then tree.walk location.dropLast rest
      else if Path.isLongName name then .error .nameTooLong
      else tree.walk (location ++ [name]) rest
    | some (.file _) => .error .notADirectory
    | none => .error .notFound

/-- The location that a path leads to from the working directory. -/
def locate (tree : FileTree) (working : Location) (p : Path) : Except FileError Location :=
  if p.hasNul then .error .nulInPath
  else if p.isLong then .error .nameTooLong
  else
    match p.anchor with
    | .working => tree.walk working p.names
    | _ => tree.walk [] p.names

/-- A path leads to something that exists.  Where a name is too long the question
has no answer; a path that leads nowhere for any other reason leads to nothing. -/
def hasPath (tree : FileTree) (working : Location) (p : Path) : Except FileError Bool :=
  match tree.locate working p with
  | .ok location => .ok (tree.entry? location).isSome
  | .error .nameTooLong => .error .nameTooLong
  | .error _ => .ok false

/-- The first of several paths that leads to something that exists. -/
def firstPath? (tree : FileTree) (working : Location) :
    List Path → Except FileError (Option Path)
  | [] => .ok none
  | p :: rest => do
    if ← tree.hasPath working p then return some p
    tree.firstPath? working rest

/-- The content of the file that a path leads to. -/
def content (tree : FileTree) (working : Location) (p : Path) :
    Except FileError (List UInt8) := do
  let location ← tree.locate working p
  match tree.entry? location with
  | some (.file bytes) => .ok bytes
  | some .directory => .error .isADirectory
  | none => .error .notFound

/-- The room that making a directory takes up besides the place of waiting. -/
def makingRoom : Nat :=
  5

/-- Make the directories that are missing on the way along names.  The tree
afterwards, and what went wrong, if anything did.  Below a directory that is
missing everything is, so the names that are left are the directories to make. -/
def makeDirectories (room : Nat) (tree : FileTree) (location : Location) :
    List Text → FileTree × Option FileError
  | [] => (tree, none)
  | name :: rest =>
    let next := location ++ [name]
    match tree.entry? next with
    | some .directory => makeDirectories room tree next rest
    | some (.file _) => (tree, some (if rest = [] then .alreadyExists else .notADirectory))
    | none =>
      if Path.isLongName name then (tree, some .nameTooLong)
      else if room < rest.length + 1 + makingRoom then (tree, some .tooManyMissing)
      else makeDirectories room (tree.put next .directory) next rest

/-- Write a file, with the directories that are missing above it.  The tree
afterwards, and what went wrong, if anything did. -/
def write (room : Nat) (tree : FileTree) (location : Location) (bytes : List UInt8) :
    FileTree × Option FileError :=
  match makeDirectories room tree [] location.dropLast with
  | (tree, some error) => (tree, some error)
  | (tree, none) =>
    match tree.entry? location with
    | some .directory => (tree, some .isADirectory)
    | _ =>
      if Path.isLongName (location.getLastD []) then (tree, some .nameTooLong)
      else (tree.put location (.file bytes), none)

end FileTree

/-- The text that bytes are the UTF-8 form of. -/
def decodeUtf8? (bytes : List UInt8) : Option Text :=
  (String.fromUTF8? ⟨bytes.toArray⟩).map String.toList

/-- The UTF-8 form of a text. -/
def encodeUtf8 (text : Text) : List UInt8 :=
  (String.ofList text).toUTF8.toList

/-- The text that bytes are the UTF-8 form of, with every line end as a line
feed. -/
def decodeLines? (bytes : List UInt8) : Option Text :=
  (decodeUtf8? bytes).map Text.normalizeLineEnds

end DirectiveReview
