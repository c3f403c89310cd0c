/-
# Reviews

A review of a diff holds the violations found and the comments made for them:
one inline comment per violation, in the same order, and one summary behind
them.  Without violations there are no comments and nothing is looked up.

A review can fail, and what was known before is not lost then: `Review.attempt` gives
what is known afterwards in either case, and `Review.ofDiff` what there is where the
review comes to an end.

The log of a review is told apart from its result: `Review.narration` gives the
records that the search leaves, also when it fails, and the records of lookups
stand in the memory.
-/

import DirectiveReview.Review.Comment
import DirectiveReview.Review.Violation

namespace DirectiveReview

/-- The outcome of checking a diff. -/
structure Review where
  violations : List Violation
  comments : List Comment
  deriving DecidableEq, Repr

namespace Review

/-- The comments that stand at a file. -/
def inline (review : Review) : List Comment :=
  review.comments.filter Comment.isInline

/-- The first comment that stands at no file. -/
def summary? (review : Review) : Option Comment :=
  review.comments.find? (!·.isInline)

/-- The inline comment of one violation. -/
def commentOn (r : Resolver) (message : Text) (memory : Memory) (violation : Violation) :
    Comment × Memory :=
  let (shown, memory) := r.resolveMany memory violation.rules
  (⟨Comment.inlineBody shown message, some violation.file, some violation.line⟩, memory)

/-- The inline comments of violations, one after the other. -/
def commentOnEach (r : Resolver) (message : Text) (memory : Memory) :
    List Violation → List Comment × Memory
  | [] => ([], memory)
  | violation :: rest =>
    let (comment, memory) := commentOn r message memory violation
    let (more, memory) := commentOnEach r message memory rest
    (comment :: more, memory)

/-- The review of violations.  The rules of all violations are looked up before
the first comment is made. -/
def ofViolations (r : Resolver) (settings : ReviewSettings) (memory : Memory)
    (violations : List Violation) : Review × Memory :=
  if violations = [] then (⟨[], []⟩, memory)
  else
    let (_, memory) := r.resolveMany memory (violations.flatMap Violation.rules)
    let (comments, memory) := commentOnEach r settings.message memory violations
    (⟨violations, comments ++ [⟨Comment.summaryBody settings.tagReviewers, none, none⟩]⟩,
      memory)

/-- Review the changes of files.  All violations are found before the first rule is
looked up. -/
def attemptFiles (r : Resolver) (settings : ReviewSettings) (memory : Memory)
    (files : List FileDiff) : Except DiffError Review × Memory :=
  match Violation.find settings files with
  | .error e => (.error e, memory)
  | .ok violations =>
    let (review, memory) := ofViolations r settings memory violations
    (.ok review, memory)

/-- Review a diff. -/
def attempt (r : Resolver) (settings : ReviewSettings) (memory : Memory) (diff : Text) :
    Except DiffError Review × Memory :=
  match FileDiff.ofDiff diff with
  | .error e => (.error e, memory)
  | .ok files => attemptFiles r settings memory files

/-- A review that comes to an end, with what is known afterwards. -/
def completed (attempted : Except DiffError Review × Memory) :
    Except DiffError (Review × Memory) :=
  attempted.1.map fun review => (review, attempted.2)

/-- The review of the changes of files. -/
def ofFiles (r : Resolver) (settings : ReviewSettings) (memory : Memory)
    (files : List FileDiff) : Except DiffError (Review × Memory) :=
  completed (attemptFiles r settings memory files)

/-- The review of a diff. -/
def ofDiff (r : Resolver) (settings : ReviewSettings) (memory : Memory) (diff : Text) :
    Except DiffError (Review × Memory) :=
  completed (attempt r settings memory diff)

end Review

end DirectiveReview
