/-
# Processes

What is asked of the system, a `ToolRequest`, and what comes of it, a
`ProcessOutcome`.  Running processes is not part of this library: how a call for a
process ends is given from outside, for every request that can be made.

Most ways to end come after the system has been asked for the process, even where
it could not start it.  A call can also be refused before that, as it is for an
argument with a NUL character; then nothing has been asked of the system.
-/

import DirectiveReview.Docs.Signal
import DirectiveReview.Number.Binary64
import DirectiveReview.Text.Quoted

namespace DirectiveReview

/-- A process to be started. -/
structure ToolRequest where
  /-- The program and its arguments. -/
  arguments : List Text
  /-- The directory to run it in, if not the present one. -/
  directory : Option Text
  /-- The time it may take, in seconds. -/
  timeout : Binary64
  deriving DecidableEq, Repr

/-- How the call for a process ended. -/
inductive ProcessOutcome where
  /-- It was refused before the system was asked for anything: the kind of the
  failure and its text. -/
  | refused (kind text : Text)
  /-- The process could not be started: the system's error number and words, and
  the file they are about. -/
  | notStarted (code : Int) (reason : Text) (file : Option Text)
  /-- The process took longer than it may. -/
  | timedOut
  /-- The process was started and the call failed in another way, as when no text
  was printed or the time allowed is none that can be waited for: the kind of the
  failure and its text. -/
  | raised (kind text : Text)
  /-- The process ended with an exit code, negative when a signal ended it, and
  with what it printed. -/
  | exited (code : Int) (stdout stderr : Text)
  deriving DecidableEq, Repr

namespace ProcessOutcome

/-- The outcome of a request for a program that does not exist. -/
def noSuchProgram (request : ToolRequest) : ProcessOutcome :=
  .notStarted 2 "No such file or directory".toList request.arguments.head?

/-- The words for a process that could not be started. -/
def startFailure (code : Int) (reason : Text) (file : Option Text) : Text :=
  "[Errno ".toList ++ Text.integer code ++ "] ".toList ++ reason ++
    match file with
    | none => []
    | some name => ": ".toList ++ name.quoted

/-- The words for a process that ended with a failure and did not say why. -/
def exitFailure (arguments : List Text) (code : Int) : Text :=
  "Command '".toList ++ Text.quotedList arguments ++
    if code < 0 then
      match Signal.name? code.natAbs with
      | some name =>
        "' died with <Signals.".toList ++ name ++ ": ".toList ++ Text.natural code.natAbs ++
          ">.".toList
      | none => "' died with unknown signal ".toList ++ Text.natural code.natAbs ++ ".".toList
    else "' returned non-zero exit status ".toList ++ Text.integer code ++ ".".toList

end ProcessOutcome

end DirectiveReview
