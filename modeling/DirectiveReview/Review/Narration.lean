/-
# The log of a review

What the search for directives tells at the lowest level: how many files it was
given, each file it reads, and what it found.  A file that cannot be read is the
last one told of.
-/

import DirectiveReview.Review.Check

namespace DirectiveReview.Narration

/-- A record of the search. -/
def told (message : Text) : LogRecord :=
  ⟨.debug, .checker, message⟩

/-- The files are about to be filtered. -/
def filtering (settings : ReviewSettings) (files : List FileDiff) : LogRecord :=
  told ("filtering ".toList ++ Text.natural files.length ++
    " file(s) against ignore paths ".toList ++ Text.quotedTuple settings.ignorePaths)

/-- A file is about to be read. -/
def parsing (file : FileDiff) : LogRecord :=
  told ("parsing ".toList ++ file.path)

/-- The search has ended. -/
def found (violations kept : Nat) : LogRecord :=
  told ("found ".toList ++ Text.natural violations ++ " violation(s) in ".toList ++
    Text.natural kept ++ " file(s)".toList)

/-- The comments have been made. -/
def emitting (comments : Nat) : LogRecord :=
  told ("emitting ".toList ++ Text.natural comments ++ " annotation(s)".toList)

/-- The files that are read one after the other, up to and with the first that
cannot be. -/
def read : List FileDiff → List FileDiff
  | [] => []
  | file :: rest =>
    match Violation.inFile file with
    | .ok _ => file :: read rest
    | .error _ => [file]

/-- The records of a search for violations. -/
def ofSearch (settings : ReviewSettings) (files : List FileDiff) : List LogRecord :=
  let kept := IgnoreList.keep settings.ignorePaths files
  filtering settings files :: (read kept).map parsing ++
    match Violation.inFiles kept with
    | .ok violations => [found violations.length kept.length]
    | .error _ => []

/-- The record behind a review, if it says anything. -/
def ofReview (review : Review) : List LogRecord :=
  if review.violations = [] then [] else [emitting review.comments.length]

/-- All records of a review of files: those of the search, those of the lookups
made for it, and the last one. -/
def ofFiles (r : Resolver) (settings : ReviewSettings) (memory : Memory)
    (files : List FileDiff) : List LogRecord :=
  ofSearch settings files ++
    match Review.ofFiles r settings memory files with
    | .error _ => []
    | .ok (review, after) => after.log.drop memory.log.length ++ ofReview review

/-- All records of a review of a diff.  A diff that cannot be cut into files
leaves none. -/
def ofDiff (r : Resolver) (settings : ReviewSettings) (memory : Memory) (diff : Text) :
    List LogRecord :=
  match FileDiff.ofDiff diff with
  | .error _ => []
  | .ok files => ofFiles r settings memory files

end DirectiveReview.Narration
