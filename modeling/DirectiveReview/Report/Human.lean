/-
# The report for people

A heading with the number of violations, then each inline comment: its place
in bold, and its body indented below, cut at every line boundary.  The summary
stands last.  Only lines of bodies are indented, so places and bodies cannot be
taken for one another.
-/

import DirectiveReview.Report.Terminal
import DirectiveReview.Review.Check
import DirectiveReview.Text.Lines

namespace DirectiveReview.Report

/-- The heading over at least one violation. -/
def heading (violations : Nat) : Text :=
  Terminal.boldYellow
    ("Found ".toList ++ Text.natural violations ++ " `rubocop:disable` directive(s).".toList)

/-- The report without violations. -/
def nothingFound : Text :=
  Terminal.boldGreen "No `rubocop:disable` directives added.".toList

/-- The place of a comment, with a word where a part of it is missing. -/
def place (comment : Comment) : Text :=
  comment.file.getD "None".toList ++ ":".toList ++
    (comment.line.map Text.integer).getD "None".toList

/-- The lines of a comment's body, without the empty lines at its end. -/
def bodyLines (comment : Comment) : List Text :=
  (Text.dropTrailing (· == '\n') comment.body).lines

/-- The lines that show an inline comment. -/
def block (comment : Comment) : List Text :=
  Terminal.bold (place comment) ::
    (bodyLines comment).map fun line => ' ' :: ' ' :: line

/-- The pieces of the report, joined by line feeds.  A piece of an indented body
is a line; a place or a summary is what its texts make it. -/
def humanPieces (review : Review) : List Text :=
  heading review.violations.length :: review.inline.flatMap block ++
    (review.summary?.map fun summary => Terminal.bold summary.body).toList

/-- The report, or nothing when the line number of a place is too long to be
written. -/
def human? (review : Review) : Option Text :=
  if review.violations = [] then some nothingFound
  else if review.inline.all fun comment => (comment.line.map Text.isWritable).getD true then
    some (Text.unlines (humanPieces review))
  else none

end DirectiveReview.Report
