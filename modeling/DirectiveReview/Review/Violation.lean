/-
# Violations

A violation is an added line that switches rules off, in a file that is not
ignored.  Files keep their order, and within a file violations follow the order
of its lines.  A malformed hunk header in a file that is looked at fails the
search as a whole; the content of an ignored file plays no part.
-/

import DirectiveReview.Directive
import DirectiveReview.IgnoreList
import DirectiveReview.Settings.Basic

namespace DirectiveReview

/-- An added line with a directive. -/
structure Violation where
  /-- The path of the file. -/
  file : Text
  /-- The number of the line in the new file. -/
  line : Int
  /-- The rules that the directive names, in order. -/
  rules : List Text
  deriving DecidableEq, Repr

namespace Violation

/-- The violation that an added line of a file is, if it has a directive. -/
def ofLine? (file : Text) (added : AddedLine) : Option Violation :=
  (Directive.rules? added.content).map fun rules => ⟨file, added.lineNumber, rules⟩

/-- The violations in a file. -/
def inFile (file : FileDiff) : Except DiffError (List Violation) := do
  let added ← Patch.added file.patch
  return added.filterMap (ofLine? file.path)

/-- The violations in a row of files.  The first file that cannot be read fails
them all. -/
def inFiles : List FileDiff → Except DiffError (List Violation)
  | [] => .ok []
  | file :: rest => do
    let here ← inFile file
    let more ← inFiles rest
    return here ++ more

/-- The violations in the files that are not ignored. -/
def find (settings : ReviewSettings) (files : List FileDiff) :
    Except DiffError (List Violation) :=
  inFiles (IgnoreList.keep settings.ignorePaths files)

end Violation

end DirectiveReview
