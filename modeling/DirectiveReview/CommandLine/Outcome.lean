/-
# Outcomes

What a run of the program is given and what it leaves behind.  A run is a function
of its surroundings: the files, the standard input, the time, and the way every call
for a process would end.

Two things are taken for granted here.  The processes that a run asks for leave the
files alone, and what a run prints reaches its reader: a failure of the standard output
is none of the failures there are.
-/

import DirectiveReview.CommandLine.Options
import DirectiveReview.Diff.HunkHeader
import DirectiveReview.Docs.Resolver
import DirectiveReview.Report.Terminal
import DirectiveReview.Settings.Load
import DirectiveReview.Timestamp

namespace DirectiveReview.CommandLine

/-- What a run is given besides its arguments. -/
structure Surroundings where
  tree : FileTree
  /-- The working directory. -/
  working : Location
  /-- The room that there is below a command. -/
  room : Nat
  stdin : List UInt8
  now : Timestamp
  /-- How the call for a process ends.  That is all there is to a process: it does
  nothing to the files. -/
  run : ToolRequest → ProcessOutcome
  /-- The order in which lookups made side by side take effect. -/
  schedule : Schedule

/-- A parameter with a value that cannot be used. -/
inductive ParameterError where
  | logLevel
  | format
  | twoSources
  | noSource
  | settings (error : LoadError)
  | diffHeader (line : Text)
  | outExists (path : Text)
  deriving DecidableEq, Repr

namespace ParameterError

/-- What is said about an unusable parameter. -/
def message : ParameterError → Text
  | .logLevel =>
    "--log-level must be one of: ".toList ++ Text.join ", ".toList (LogLevel.all.map LogLevel.word)
  | .format => "format must be one of: human, json".toList
  | .twoSources => "Use either --diff-file or --stdin, not both.".toList
  | .noSource => "Provide a diff with --diff-file or --stdin.".toList
  | .settings error => error.message
  | .diffHeader line => (DiffError.malformedHeader line).message
  | .outExists path =>
    "Refusing to overwrite existing file: ".toList ++ path ++ ". Use --force to overwrite.".toList

/-- The parameter that is to blame, where one can be named. -/
def hint? : ParameterError → Option Text
  | .logLevel => some "--log-level".toList
  | .format => some "--format".toList
  | .twoSources => none
  | .noSource => none
  | .settings _ => some "config".toList
  | .diffHeader _ => some "diff".toList
  | .outExists _ => none

end ParameterError

/-- A failure that is nobody's parameter. -/
inductive Breakdown where
  /-- A file cannot be used. -/
  | file (error : FileError)
  /-- A diff is not in UTF-8. -/
  | notUtf8
  /-- A number has too many digits to be converted. -/
  | numberTooLong
  /-- Settings cannot be loaded, and not because of what a parameter says. -/
  | settings (error : LoadError)
  /-- No lookups can be made. -/
  | resolver (error : ResolverError)
  deriving DecidableEq, Repr

/-- Why a run fails. -/
inductive Failure where
  | usage (error : UsageError)
  | parameter (error : ParameterError)
  | breakdown (error : Breakdown)
  deriving DecidableEq, Repr

/-- The exit code of a failed run. -/
def Failure.exitCode : Failure → Nat
  | .usage _ => 2
  | .parameter _ => 2
  | .breakdown _ => 1

/-- What a run leaves behind. -/
structure Outcome where
  failure : Option Failure
  exitCode : Nat
  stdout : Text
  log : List LogRecord
  /-- The processes that the system was asked for, in order. -/
  requests : List ToolRequest
  tree : FileTree

namespace Outcome

/-- A run that fails before it has done anything. -/
def failed (s : Surroundings) (failure : Failure) : Outcome :=
  ⟨some failure, failure.exitCode, [], [], [], s.tree⟩

/-- A run that prints a text and does nothing else.  The output is no terminal, so
the text is printed without styles. -/
def printed (s : Surroundings) (text : Text) : Outcome :=
  ⟨none, 0, Terminal.plain (text ++ ['\n']), [], [], s.tree⟩

end Outcome

/-- Arguments that are not understood are a matter of usage.  A path with a NUL
character is understood, but it is none that a system takes. -/
def usageFailure : UsageError → Failure
  | .nulInPath _ => .breakdown (.file .nulInPath)
  | error => .usage error

/-- Settings that cannot be loaded are the fault of a parameter, unless a file
cannot be looked for or opened, a number is out of range, or values are nested too
deeply. -/
def loadFailure : LoadError → Failure
  | .file .nulInPath => .parameter (.settings (.file .nulInPath))
  | .file error => .breakdown (.file error)
  | .tooDeep step => .breakdown (.settings (.tooDeep step))
  | .table .timeoutTooLarge => .breakdown (.settings (.table .timeoutTooLarge))
  | .table .formatTooDeep => .breakdown (.settings (.table .formatTooDeep))
  | error => .parameter (.settings error)

/-- The room that a command takes up to load settings. -/
def loadingRoom : Nat :=
  2

/-- Load the settings that options ask for. -/
def loadSettings (s : Surroundings) (repository : Path) (settingsFile : Option Path) :
    Except Failure Settings :=
  (Settings.load (s.room - loadingRoom) s.tree s.working repository settingsFile).mapError
    loadFailure

end DirectiveReview.CommandLine
