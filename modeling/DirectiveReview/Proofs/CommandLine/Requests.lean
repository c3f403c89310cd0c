/-
# The processes that a check starts

A review resolves its rules twice, all of them beforehand and then those of each
violation, and the lookups made beforehand may be made side by side.  What its lookup asks
for comes to one process for each rule that some violation names, whatever the processes
do: one that cannot be started, runs out of time or fails has answered, and is not started
again.  A call that is refused, because of an argument that no process can have, asks for
nothing, and it has answered like any other.

Rules are resolved only once the violations are found.  So a check that fails before this
has started nothing, and neither has any other command.
-/

import DirectiveReview.CommandLine.Program
import DirectiveReview.Proofs.CommandLine.Failures

namespace DirectiveReview

open Text

/-- The call was refused, and the system was not asked for a process. -/
def ProcessOutcome.isRefused : ProcessOutcome → Bool
  | .refused _ _ => true
  | _ => false

theorem DocsTool.requests_lookup (tool : DocsTool) (run : ToolRequest → ProcessOutcome)
    (earlier : List Text) (rule : Text) :
    (tool.lookup run earlier rule).requests =
      [tool.request rule].filter fun request => !(run request).isRefused := by
  rw [lookup, List.filter_singleton]
  cases run (tool.request rule) with
  | refused kind text => rfl
  | notStarted code reason file => rfl
  | timedOut => rfl
  | raised kind text => rfl
  | exited code stdout stderr =>
      rw [reply]
      split <;> rfl

theorem Resolver.lookup_of_make {lookup : Lookup} {workers : Int} {schedule : Schedule}
    {r : Resolver} (made : Resolver.make lookup workers schedule = .ok r) : r.lookup = lookup := by
  rw [Resolver.make] at made
  split at made
  · exact Except.ok.inj made ▸ rfl
  · cases made

namespace CommandLine

variable {s : Surroundings} {options : CheckOptions} {p : Preparation} {r : Resolver}
  {violations : List Violation}

/-- The requests that get as far as the system. -/
def Surroundings.accepted (s : Surroundings) (requests : List ToolRequest) : List ToolRequest :=
  requests.filter fun request => !(s.run request).isRefused

/-- What the lookup of a check asks for in calls for some rules. -/
theorem Prepared.requestsIn (prepared : Prepared s options p r) (calls rules : List Text) :
    r.requestsIn calls rules =
      if p.docs then s.accepted (rules.map (p.tool options.repository).request) else [] := by
  have asks (rule : Text) : (r.replyIn calls rule).requests =
      if p.docs then s.accepted [(p.tool options.repository).request rule] else [] := by
    rw [Resolver.replyIn, Resolver.lookup_of_make prepared.resolver, Preparation.lookup]
    split
    · exact DocsTool.requests_lookup _ _ _ _
    · rfl
  rw [Resolver.requestsIn, List.flatMap_congr fun rule _ => asks rule]
  split
  · rw [Surroundings.accepted, List.map_eq_flatMap, List.filter_flatMap]
    rfl
  · exact List.flatMap_eq_nil_iff.mpr fun _ _ => rfl

end CommandLine

end DirectiveReview
