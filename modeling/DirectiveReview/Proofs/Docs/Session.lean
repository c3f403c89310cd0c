/-
# A resolver at work

A resolver lives through a sequence of demands, each for one rule or for several.
Whatever was demanded before, a demand calls the lookup once for each rule that no
demand has named yet, and for no other rule; and every demand is shown what the
lookup said in that one call.  A failure is an answer like any other, so no demand
is left without a result.

Neither the number of workers nor the order in which lookups made side by side
take effect is mentioned in what is shown.  They can matter only to a lookup whose
answer to a rule depends on the calls before.
-/

import DirectiveReview.Proofs.Docs.Memory

namespace DirectiveReview

/-- What is asked of a resolver at a time. -/
inductive Demand where
  | one (rule : Text)
  | many (rules : List Text)
  deriving DecidableEq, Repr

/-- The rules that a demand names, repetitions included. -/
def Demand.rules : Demand → List Text
  | .one rule => [rule]
  | .many rules => rules

/-- A lookup answers by rule when the calls before have no part in its answer. -/
def Lookup.AnswersByRule (lookup : Lookup) : Prop :=
  ∀ earlier rule, (lookup earlier rule).answer = (lookup [] rule).answer

namespace Resolver

/-- What is shown for the rules of a demand, and what is known afterwards. -/
def serve (r : Resolver) (memory : Memory) : Demand → List Text × Memory
  | .one rule =>
    let (shown, memory) := r.resolve memory rule
    ([shown], memory)
  | .many rules => r.resolveMany memory rules

def serveAll (r : Resolver) (memory : Memory) : List Demand → List (List Text) × Memory
  | [] => ([], memory)
  | demand :: rest =>
    let (shown, memory) := r.serve memory demand
    let (more, memory) := r.serveAll memory rest
    (shown :: more, memory)

variable {r : Resolver} {memory : Memory}

theorem Faithful.serve (faithful : r.Faithful memory) (demand : Demand) :
    r.Answers memory demand.rules (r.serve memory demand).1 (r.serve memory demand).2 := by
  cases demand with
  | one rule => exact faithful.resolve rule
  | many rules => exact faithful.resolveMany rules

/-- The calls of all demands, and what is shown for each.  The last memory tells what
was shown for every demand, since the first call for a rule settles it. -/
theorem Faithful.serveAll (faithful : r.Faithful memory) (demands : List Demand) :
    r.Faithful (r.serveAll memory demands).2 ∧
      memory.AskedFor (demands.flatMap Demand.rules) (r.serveAll memory demands).2 ∧
      (r.serveAll memory demands).1 = demands.map fun demand =>
        demand.rules.map (r.displayIn (r.serveAll memory demands).2.calls) := by
  induction demands generalizing memory with
  | nil => exact ⟨faithful, .nothing memory, rfl⟩
  | cons demand rest ih =>
      have first := faithful.serve demand
      obtain ⟨kept, asked, shown⟩ := ih first.faithful
      refine ⟨kept, first.asked.trans asked, ?_⟩
      have here : (r.serve memory demand).1 = demand.rules.map
          (r.displayIn (r.serveAll (r.serve memory demand).2 rest).2.calls) := by
        rw [first.shown]
        apply List.map_congr_left
        intro rule inside
        have known := (first.asked.mem_calls_iff rule).mpr (Or.inr inside)
        exact (displayIn_of_askedFor asked known).symm
      exact congrArg₂ List.cons here shown

theorem serveAll_concat (r : Resolver) (memory : Memory) (before : List Demand)
    (demand : Demand) : (r.serveAll memory (before ++ [demand])).2 =
      (r.serve (r.serveAll memory before).2 demand).2 := by
  induction before generalizing memory with
  | nil => rfl
  | cons first rest ih => exact ih (r.serve memory first).2

theorem displayIn_of_answersByRule (byRule : r.lookup.AnswersByRule) (calls : List Text)
    (rule : Text) : r.displayIn calls rule = ruleLink rule (r.lookup [] rule).url := by
  rw [displayIn, replyIn, LookupReply.url, byRule]
  rfl

/-- **A resolver asks once and shows what it was told.**  Over any demands, each
calls the lookup once for every rule that is named for the first time; what is shown
for a rule, then and later, is the answer to that call.  So for a lookup that answers
by rule the results do not depend on the number of workers, nor on the order in which
lookups made side by side take effect. -/
theorem serveAll_asks_once (r : Resolver) (demands : List Demand) :
    (∀ before demand later, demands = before ++ demand :: later →
      ∃ called, (r.serveAll Memory.empty (before ++ [demand])).2.calls =
          (r.serveAll Memory.empty before).2.calls ++ called ∧
        ∀ rule, called.count rule =
          if rule ∈ demand.rules ∧ rule ∉ before.flatMap Demand.rules then 1 else 0) ∧
    (∀ rule, (r.serveAll Memory.empty demands).2.calls.count rule =
      if rule ∈ demands.flatMap Demand.rules then 1 else 0) ∧
    ((r.serveAll Memory.empty demands).1 = demands.map fun demand => demand.rules.map fun rule =>
      ruleLink rule (r.lookup
        ((r.serveAll Memory.empty demands).2.calls.takeWhile (· ≠ rule)) rule).url) ∧
    (r.lookup.AnswersByRule → ∀ other : Resolver, other.lookup = r.lookup →
      (other.serveAll Memory.empty demands).1 = (r.serveAll Memory.empty demands).1) := by
  obtain ⟨-, asked, shown⟩ := faithful_empty.serveAll (r := r) demands
  refine ⟨?_, asked.count_calls, shown, ?_⟩
  · rintro before demand later -
    obtain ⟨kept, earlier, -⟩ := faithful_empty.serveAll (r := r) before
    obtain ⟨called, calls, count⟩ := (kept.serve demand).asked
    have named (rule : Text) : rule ∈ (r.serveAll Memory.empty before).2.calls ↔
        rule ∈ before.flatMap Demand.rules := by
      rw [earlier.mem_calls_iff, or_iff_right]
      exact List.not_mem_nil
    refine ⟨called, by rw [serveAll_concat, calls], fun rule => ?_⟩
    rw [count rule]
    simp only [named]
  · intro byRule other same
    have otherShown := (faithful_empty.serveAll (r := other) demands).2.2
    rw [otherShown, shown]
    apply List.map_congr_left
    intro demand _
    apply List.map_congr_left
    intro rule _
    rw [displayIn_of_answersByRule byRule,
      displayIn_of_answersByRule (same.symm ▸ byRule), same]

/-- A lookup that gives an address to its first call, nothing to its second, and fails
from then on. -/
def tiringLookup : Lookup := fun earlier _ =>
  match earlier.length with
  | 0 => ⟨.found " u\n".toList, [], []⟩
  | 1 => ⟨.nothing, [], []⟩
  | _ => ⟨.raised "OSError".toList "gone".toList, [], []⟩

/-- Lookups made side by side take effect last first. -/
def backwardSchedule : Schedule :=
  ⟨fun _ pending => pending.reverse, fun _ pending => pending.reverse_perm⟩

theorem serveAll_asks_once_tiring :
    let before : List Demand := [.many [['A'], ['B'], ['A']], .one ['B']]
    let last : Demand := .many [['C'], ['A']]
    let r : Resolver := ⟨tiringLookup, 4, backwardSchedule, by decide⟩
    let silent : Resolver := ⟨Lookup.disabled, 4, backwardSchedule, by decide⟩
    let alone : Resolver := ⟨Lookup.disabled, 1, Schedule.inOrder, by decide⟩
    (∃ called, (r.serveAll Memory.empty (before ++ [last])).2.calls =
        (r.serveAll Memory.empty before).2.calls ++ called ∧
      called.count ['A'] = 0 ∧ called.count ['C'] = 1) ∧
    (r.serveAll Memory.empty (before ++ [last])).1 =
      [[['A'], "[B](u)".toList, ['A']], ["[B](u)".toList], [['C'], ['A']]] ∧
    silent.lookup.AnswersByRule ∧
    (alone.serveAll Memory.empty (before ++ [last])).1 =
      (silent.serveAll Memory.empty (before ++ [last])).1 := by
  intro before last r silent alone
  obtain ⟨bySteps, -, shown, -⟩ := serveAll_asks_once r (before ++ [last])
  obtain ⟨called, calls, count⟩ := bySteps before last [] rfl
  have byRule : silent.lookup.AnswersByRule := fun _ _ => rfl
  refine ⟨⟨called, calls, ?_, ?_⟩, ?_, byRule,
    (serveAll_asks_once silent (before ++ [last])).2.2.2 byRule alone rfl⟩
  · rw [count]
    decide
  · rw [count]
    decide
  · rw [shown]
    decide

end Resolver

end DirectiveReview
