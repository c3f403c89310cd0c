/-
# The documentation tool

Addresses of documentation come from an external command that is run once per
rule, with the rule as its last argument, and prints the address.  The command
can fail to start, run out of time, or end with a failure; each of these leaves
its warning and counts as an empty address.  A call that fails in any other way is
a failure of the lookup itself.

`DocsTool.reply` says what each way for a call to end amounts to, and which process
it has asked for.
-/

import DirectiveReview.Docs.Lookup
import DirectiveReview.Number.Decimal

namespace DirectiveReview

/-- A command that prints documentation addresses. -/
structure DocsTool where
  /-- The program and its first arguments. -/
  command : List Text
  /-- The time one call may take, in seconds. -/
  timeout : Binary64
  /-- The directory to run it in, if not the present one. -/
  directory : Option Text
  deriving DecidableEq, Repr

namespace DocsTool

/-- The command in use when none is configured. -/
def defaultCommand : List Text :=
  ["bundle".toList, "exec".toList, "rubocop".toList, "--show-docs-url".toList]

/-- The time a call may take when none is configured, thirty seconds. -/
def defaultTimeout : Binary64 :=
  .finite false (15 * Nat.pow 2 49) (-48)

/-- The process that asks for a rule. -/
def request (tool : DocsTool) (rule : Text) : ToolRequest :=
  ⟨tool.command ++ [rule], tool.directory, tool.timeout⟩

/-- The address in what the command printed: line ends are dropped wherever they
stand, other blanks at either end only. -/
def printedUrl (stdout : Text) : Text :=
  Text.trim (stdout.filter (· != '\n'))

/-- A process that brought no address, and the warning it leaves. -/
def failed (tool : DocsTool) (rule words : Text) : LookupReply where
  answer := .found []
  log := [⟨.warning, .resolver, "docs lookup for ".toList ++ rule ++ " ".toList ++ words⟩]
  requests := [tool.request rule]

/-- What the end of a call amounts to as an answer. -/
def reply (tool : DocsTool) (rule : Text) : ProcessOutcome → LookupReply
  | .refused kind text => ⟨.raised kind text, [], []⟩
  | .notStarted code reason file =>
    tool.failed rule ("could not run: ".toList ++ ProcessOutcome.startFailure code reason file)
  | .timedOut =>
    tool.failed rule
      ("timed out after ".toList ++ tool.timeout.text Binary64.plainNames ++ "s".toList)
  | .raised kind text => ⟨.raised kind text, [], [tool.request rule]⟩
  | .exited code stdout stderr =>
    if code = 0 then ⟨.found (printedUrl stdout), [], [tool.request rule]⟩
    else
      let words := stderr.trim
      tool.failed rule ("failed: ".toList ++
        if words = [] then ProcessOutcome.exitFailure (tool.request rule).arguments code
        else words)

/-- The lookup that runs the command for each rule. -/
def lookup (tool : DocsTool) (run : ToolRequest → ProcessOutcome) : Lookup :=
  fun _ rule => tool.reply rule (run (tool.request rule))

end DocsTool

end DirectiveReview
