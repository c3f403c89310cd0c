/-
# File diffs

The text of a diff is cut into one patch per changed file.  A file starts at a
`diff --git` line, or, in a plain diff, at a `---` line directly above a `+++`
line.  While lines of a hunk are outstanding by the counts of its header, every
line belongs to the hunk, so a removed or added line that looks like a file
header cannot start a file.

The cut is a walk over the lines with a small state, `Cursor`.  Each step either
leaves a line out (a preamble before the first file), or adds it to the chunk of
the file under way, possibly after closing the chunk before it.
-/

import DirectiveReview.Diff.Patch
import DirectiveReview.Text.Blank

namespace DirectiveReview

/-- The change of one file: its path, and the part of the diff that is about it. -/
structure FileDiff where
  /-- The path of the file, as far as the diff tells. -/
  path : Text
  /-- The lines of the diff about this file, joined by line feeds. -/
  patch : Text
  deriving DecidableEq, Repr

namespace FileDiff

/-- A line that opens the section of a file in a git diff. -/
def opensGitSection (line : Text) : Bool :=
  "diff --git ".toList.isPrefixOf line

/-- The line that names the old file. -/
def namesOld (line : Text) : Bool :=
  "--- ".toList.isPrefixOf line

/-- The line that names the new file. -/
def namesNew (line : Text) : Bool :=
  "+++ ".toList.isPrefixOf line

/-- The name of no file: this side of the change does not exist. -/
def noFile : Text :=
  "/dev/null".toList

/-- Drop the directory `a/` or `b/` that diffs put in front of old and new paths.
One is dropped, so a directory of that name is kept. -/
def dropSide : Text → Text
  | 'a' :: '/' :: path => path
  | 'b' :: '/' :: path => path
  | path => path

/-- The path in a line that names a file: without blanks around it, up to the tab
that may set off a time stamp. -/
def namedPath (line : Text) : Text :=
  dropSide (Text.upTo '\t' (Text.trim (line.drop 4)))

/-- The old and new path of a `diff --git` line, where it has them.  The new path
is all that follows the old one. -/
def gitPaths (line : Text) : Option Text × Option Text :=
  match Text.wordsThenRest 3 line with
  | _ :: _ :: old :: new :: _ => (some (dropSide old), some (dropSide new))
  | [_, _, old] => (some (dropSide old), none)
  | _ => (none, none)

/-- A path that names a file. -/
def nameOf? (path : Option Text) : Option Text :=
  path.filter fun p => p ≠ [] ∧ p ≠ noFile

/-- The path a file goes by: the new one if it names a file, else the old one. -/
def canonicalPath (old new : Option Text) : Text :=
  ((nameOf? new).or (nameOf? old)).getD "<unknown>".toList

/-- What the walk over the lines of a diff remembers. -/
structure Cursor where
  /-- The lines of the file under way. -/
  chunk : Array Text
  /-- The last old path named. -/
  oldPath : Option Text
  /-- The last new path named. -/
  newPath : Option Text
  /-- The file under way has had a hunk header. -/
  seenHunk : Bool
  /-- Lines of the old file outstanding in the hunk; negative once a body has
  more lines than its header says. -/
  oldLeft : Int
  /-- Lines of the new file outstanding in the hunk. -/
  newLeft : Int
  deriving DecidableEq, Repr

namespace Cursor

/-- Before the first line. -/
def start : Cursor :=
  ⟨#[], none, none, false, 0, 0⟩

/-- The file under way, if it has any line. -/
def close (c : Cursor) : List FileDiff :=
  if c.chunk.isEmpty then []
  else [⟨canonicalPath c.oldPath c.newPath, Text.unlines c.chunk.toList⟩]

/-- Add a line to the file under way. -/
def push (c : Cursor) (line : Text) : Cursor :=
  { c with chunk := c.chunk.push line }

/-- Lines of the hunk are outstanding. -/
def inHunk (c : Cursor) : Bool :=
  c.oldLeft > 0 || c.newLeft > 0

/-- Count a body line against what is outstanding. -/
def consume (c : Cursor) (line : Text) : Cursor :=
  match BodyLine.of line with
  | .added => { c with newLeft := c.newLeft - 1 }
  | .removed => { c with oldLeft := c.oldLeft - 1 }
  | .remark => c
  | .context => { c with oldLeft := c.oldLeft - 1, newLeft := c.newLeft - 1 }

/-- A pair of lines naming an old and a new file closes the file under way, unless
the pair stands in the head of that file's git section. -/
def closedByNames (c : Cursor) : Bool :=
  match c.chunk[0]? with
  | none => false
  | some first => c.seenHunk || !opensGitSection first

/-- Take in one line, the line below it being known.  The result is the file
that this line closes, if any, and the state after the line. -/
def step (c : Cursor) (line : Text) (below : Option Text) :
    Except DiffError (List FileDiff × Cursor) :=
  if opensGitSection line then
    let (old, new) := gitPaths line
    .ok (c.close, ⟨#[line], old, new, false, 0, 0⟩)
  else if HunkHeader.opens line then do
    let (old, new) ← HunkHeader.countsOf line
    return ([], { c with seenHunk := true, oldLeft := old, newLeft := new }.push line)
  else if c.inHunk then
    .ok ([], (c.consume line).push line)
  else if namesOld line && below.any namesNew then
    if c.closedByNames then
      .ok (c.close,
        { c with chunk := #[line], seenHunk := false, oldPath := some (namedPath line) })
    else
      .ok ([], { c with oldPath := some (namedPath line) }.push line)
  else if namesNew line then
    .ok ([], { c with newPath := some (namedPath line) }.push line)
  else if c.chunk.isEmpty then
    .ok ([], c)
  else
    .ok ([], c.push line)

/-- The files that the remaining lines of a diff complete. -/
def run (c : Cursor) : List Text → Except DiffError (List FileDiff)
  | [] => .ok c.close
  | line :: rest => do
    let (closed, next) ← c.step line rest.head?
    let more ← next.run rest
    return closed ++ more

end Cursor

/-- The file diffs of a diff, in order. -/
def ofDiff (diff : Text) : Except DiffError (List FileDiff) :=
  Cursor.start.run diff.lines

end FileDiff

end DirectiveReview
