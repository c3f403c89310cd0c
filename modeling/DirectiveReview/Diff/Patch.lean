/-
# Patches

A patch is the part of a diff about one file: any header lines, then hunks.  The
lines it adds are numbered by their place in the new file.  The number starts at
the header's new-file start and moves on with every line the new file has; lines
that were removed, and remarks about a missing final line end, are not lines of
the new file.
-/

import DirectiveReview.Diff.HunkHeader
import DirectiveReview.Text.Lines

namespace DirectiveReview

/-- What a line of a hunk body says, by its first character. -/
inductive BodyLine where
  /-- A line of the new file only. -/
  | added
  /-- A line of the old file only. -/
  | removed
  /-- A remark about the line before it, which belongs to neither file. -/
  | remark
  /-- A line of both files, and every line with no mark of its own. -/
  | context
  deriving DecidableEq, Repr

/-- Read off what a line of a hunk body says. -/
def BodyLine.of : Text → BodyLine
  | '+' :: _ => .added
  | '-' :: _ => .removed
  | '\\' :: _ => .remark
  | _ => .context

/-- A line that a patch adds: the whole line with its mark, and its number in the
new file. -/
structure AddedLine where
  /-- The line, its leading plus sign included. -/
  content : Text
  /-- Its position in the new file, counted from the start its hunk gives. -/
  lineNumber : Nat
  deriving DecidableEq, Repr

/-- A hunk: its header line and the lines up to the next header. -/
structure Hunk where
  /-- The line that starts with two at signs. -/
  header : Text
  /-- The lines below it. -/
  body : List Text
  deriving DecidableEq, Repr

namespace Hunk

/-- Number the added lines of a hunk body, the next line of the new file being
line `next`. -/
def addedFrom (next : Nat) : List Text → List AddedLine
  | [] => []
  | line :: rest =>
    match BodyLine.of line with
    | .added => ⟨line, next⟩ :: addedFrom (next + 1) rest
    | .removed => addedFrom next rest
    | .remark => addedFrom next rest
    | .context => addedFrom (next + 1) rest

/-- The added lines of a hunk. -/
def added (hunk : Hunk) : Except DiffError (List AddedLine) := do
  let start ← HunkHeader.newStartOf hunk.header
  return addedFrom start hunk.body

/-- Cut lines at the hunk headers: the lines before the first header, and the
hunks. -/
def cutAtHeaders : List Text → List Text × List Hunk
  | [] => ([], [])
  | line :: rest =>
    let (lead, hunks) := cutAtHeaders rest
    if HunkHeader.opens line then ([], ⟨line, lead⟩ :: hunks) else (line :: lead, hunks)

end Hunk

namespace Patch

/-- The added lines of a row of hunks.  The first hunk whose header cannot be
read fails them all. -/
def addedOfHunks : List Hunk → Except DiffError (List AddedLine)
  | [] => .ok []
  | hunk :: rest => do
    let here ← hunk.added
    let more ← addedOfHunks rest
    return here ++ more

/-- The lines that a patch adds, in order.  Lines before the first hunk header
play no part. -/
def added (patch : Text) : Except DiffError (List AddedLine) :=
  addedOfHunks (Hunk.cutAtHeaders patch.lines).2

end Patch

end DirectiveReview
