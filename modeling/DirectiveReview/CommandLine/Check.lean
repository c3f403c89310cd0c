/-
# The check command

A check is prepared, then made, then printed.  Preparing reads the settings, picks
the format and reads the diff; it can fail, and then there is no lookup yet.  Making
the review is the only part that looks rules up, and the processes of a check are
those that its lookup has asked for by then, however the check ends.  Printing comes
last, so a check that fails prints nothing.
-/

import DirectiveReview.CommandLine.Outcome
import DirectiveReview.Report.Document
import DirectiveReview.Report.Human
import DirectiveReview.Review.Narration

namespace DirectiveReview.CommandLine

/-- All that a check needs. -/
structure Preparation where
  settings : Settings
  format : ReportFormat
  /-- The text of the diff. -/
  diff : Text
  /-- Where the diff came from. -/
  inputSource : Text
  /-- The settings of the review, with what the command line says. -/
  review : ReviewSettings
  /-- Rules are linked to their documentation. -/
  docs : Bool
  /-- Violations make the run end with a failure code. -/
  failOnViolation : Bool

namespace Preparation

/-- The format asked for on the command line, and else the configured one.  An
empty word asks for nothing. -/
def formatFor (option : Option Text) (settings : Settings) : Except Failure ReportFormat :=
  match option with
  | none => .ok settings.format
  | some [] => .ok settings.format
  | some word =>
    match ReportFormat.ofWord? word with
    | some format => .ok format
    | none => .error (.parameter .format)

/-- The diff in a file. -/
def diffInFile (s : Surroundings) (path : Path) : Except Failure Text := do
  let bytes ← (s.tree.content s.working path).mapError fun e => .breakdown (.file e)
  match decodeLines? bytes with
  | some text => .ok text
  | none => .error (.breakdown .notUtf8)

/-- The diff on the standard input. -/
def diffOnInput (s : Surroundings) : Except Failure Text :=
  match decodeLines? s.stdin with
  | some text => .ok text
  | none => .error (.breakdown .notUtf8)

/-- The diff, from the one source that is given, with the name of the source. -/
def readDiff (s : Surroundings) (options : CheckOptions) : Except Failure (Text × Text) :=
  match options.diffFile, options.stdin with
  | some _, true => .error (.parameter .twoSources)
  | none, false => .error (.parameter .noSource)
  | some path, false => do
    let diff ← diffInFile s path
    return (diff, "diff_file:".toList ++ path.text)
  | none, true => do
    let diff ← diffOnInput s
    return (diff, "stdin".toList)

/-- Prepare a check. -/
def make (s : Surroundings) (options : CheckOptions) : Except Failure Preparation := do
  let settings ← loadSettings s options.repository options.settingsFile
  let format ← formatFor options.format settings
  let (diff, inputSource) ← readDiff s options
  return {
    settings, format, diff, inputSource
    review := settings.review.override options.ignorePaths options.message options.tagReviewers
    docs := options.docs.getD settings.docs.enabled
    failOnViolation := options.failOnViolation.getD settings.failOnViolation }

/-- The tool that is asked for documentation. -/
def tool (p : Preparation) (repository : Path) : DocsTool :=
  ⟨p.settings.docs.command, p.settings.docs.timeout, some repository.text⟩

/-- The lookup of a check. -/
def lookup (p : Preparation) (s : Surroundings) (repository : Path) : Lookup :=
  if p.docs then (p.tool repository).lookup s.run else Lookup.disabled

/-- The text of a report. -/
def report? (p : Preparation) (s : Surroundings) (review : Review) : Option Text :=
  match p.format with
  | .human => Report.human? review
  | .json => Report.json? review ⟨p.inputSource, p.settings.source, s.now⟩

end Preparation

/-- A diff that cannot be read is the fault of the parameter that names it, unless
a number is too long. -/
def diffFailure : DiffError → Failure
  | .malformedHeader line => .parameter (.diffHeader line)
  | .numberTooLong => .breakdown .numberTooLong

/-- Make a prepared check and print it. -/
def checkPrepared (s : Surroundings) (p : Preparation) (r : Resolver) : Outcome :=
  let log := Narration.ofDiff r p.review Memory.empty p.diff
  let (result, memory) := Review.attempt r p.review Memory.empty p.diff
  let requests := memory.requests
  match result with
  | .error e => { Outcome.failed s (diffFailure e) with log, requests }
  | .ok review =>
    match p.report? s review with
    | none => { Outcome.failed s (.breakdown .numberTooLong) with log, requests }
    | some text =>
      let fails := p.failOnViolation && review.violations ≠ []
      { Outcome.printed s text with log, requests, exitCode := if fails then 1 else 0 }

/-- Review a diff. -/
def check (s : Surroundings) (options : CheckOptions) : Outcome :=
  match Preparation.make s options with
  | .error failure => Outcome.failed s failure
  | .ok p =>
    let lookup := p.lookup s options.repository
    match Resolver.make lookup p.settings.docs.maxWorkers s.schedule with
    | .error e => Outcome.failed s (.breakdown (.resolver e))
    | .ok r => checkPrepared s p r

end DirectiveReview.CommandLine
