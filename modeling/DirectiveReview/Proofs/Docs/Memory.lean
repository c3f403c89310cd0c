/-
# What a resolver remembers

A lookup may answer differently each time it is called, so what is shown for a
rule depends on the call that was made for it.  A memory is *faithful* when it
knows exactly the rules that were called for, each with the answer to its first
call, and holds the processes that were asked for in these calls.  This is the
invariant of every operation.

The operations differ in how they come to their calls: one by one, or side by side
in an order that is not theirs to choose.  They agree in what they ask for, which is
each new rule once, and in what they show.  `Resolver.Answers` says both; an
operation that answers some rules may be followed by one that answers others, and
the two together answer the rules of both.
-/

import DirectiveReview.Docs.Resolver
import Mathlib.Data.List.Nodup

namespace DirectiveReview

theorem nodup_eraseDups {α : Type} [BEq α] [LawfulBEq α] :
    ∀ values : List α, values.eraseDups.Nodup
  | [] => by simp
  | value :: rest => by
      rw [List.eraseDups_cons, List.nodup_cons, List.mem_eraseDups]
      exact ⟨by simp, nodup_eraseDups _⟩
termination_by values => values.length
decreasing_by exact Nat.lt_succ_of_le (List.length_filter_le _ _)

namespace Memory

/-- Between two memories each of some rules was asked for once, unless it had been
asked for before, and no other rule was. -/
def AskedFor (before : Memory) (rules : List Text) (after : Memory) : Prop :=
  ∃ called, after.calls = before.calls ++ called ∧
    ∀ rule, called.count rule = if rule ∈ rules ∧ rule ∉ before.calls then 1 else 0

theorem AskedFor.nothing (memory : Memory) : memory.AskedFor [] memory :=
  ⟨[], (List.append_nil _).symm, by simp⟩

namespace AskedFor

variable {before middle after : Memory} {rules more : List Text}

theorem mem_calls_iff (asked : before.AskedFor rules after) (rule : Text) :
    rule ∈ after.calls ↔ rule ∈ before.calls ∨ rule ∈ rules := by
  obtain ⟨called, calls, count⟩ := asked
  have inside : rule ∈ called ↔ rule ∈ rules ∧ rule ∉ before.calls := by
    rw [← List.count_pos_iff, count rule]
    split <;> simp_all
  rw [calls, List.mem_append, inside]
  tauto

theorem trans (first : before.AskedFor rules middle) (second : middle.AskedFor more after) :
    before.AskedFor (rules ++ more) after := by
  have known := first.mem_calls_iff
  obtain ⟨calledFirst, callsFirst, countFirst⟩ := first
  obtain ⟨calledSecond, callsSecond, countSecond⟩ := second
  refine ⟨calledFirst ++ calledSecond, ?_, fun rule => ?_⟩
  · rw [callsSecond, callsFirst, List.append_assoc]
  · rw [List.count_append, countFirst, countSecond]
    by_cases old : rule ∈ before.calls <;> by_cases here : rule ∈ rules <;>
      simp [known rule, old, here]

theorem congr (asked : before.AskedFor rules after) (same : ∀ rule, rule ∈ rules ↔ rule ∈ more) :
    before.AskedFor more after := by
  obtain ⟨called, calls, count⟩ := asked
  exact ⟨called, calls, fun rule => by simpa only [same rule] using count rule⟩

theorem count_calls (asked : empty.AskedFor rules after) (rule : Text) :
    after.calls.count rule = if rule ∈ rules then 1 else 0 := by
  obtain ⟨called, calls, count⟩ := asked
  rw [calls]
  simpa [empty] using count rule

/-- From the beginning, every rule is called for once. -/
theorem calls_perm (asked : empty.AskedFor rules after) : after.calls.Perm rules.eraseDups := by
  apply List.perm_iff_count.mpr
  intro rule
  rw [asked.count_calls, (nodup_eraseDups rules).count]
  simp only [List.mem_eraseDups]

end AskedFor

end Memory

namespace Resolver

variable (r : Resolver)

/-- The reply to the first call for a rule, the calls being known. -/
def replyIn (calls : List Text) (rule : Text) : LookupReply :=
  r.lookup (calls.takeWhile (· ≠ rule)) rule

/-- What is shown for a rule after some calls. -/
def displayIn (calls : List Text) (rule : Text) : Text :=
  ruleLink rule (r.replyIn calls rule).url

/-- The processes asked for in the first calls for some rules, all calls being known. -/
def requestsIn (calls rules : List Text) : List ToolRequest :=
  rules.flatMap fun rule => (r.replyIn calls rule).requests

/-- The memory has the answer to the first call for each rule, and knows no rule that
was not called for. -/
structure Faithful (memory : Memory) : Prop where
  url? : ∀ rule, memory.url? rule =
    if rule ∈ memory.calls then some (r.replyIn memory.calls rule).url else none
  /-- No process was asked for except in these calls. -/
  requests : memory.requests = r.requestsIn memory.calls memory.calls

/-- Some rules were answered between two memories: the new ones were asked for, and
the answer to its first call is shown for each. -/
structure Answers (before : Memory) (rules shown : List Text) (after : Memory) : Prop where
  faithful : r.Faithful after
  asked : before.AskedFor rules after
  shown : shown = rules.map (r.displayIn after.calls)

variable {r} {memory before middle after : Memory} {rules more shown others : List Text}

/-- Later calls have no part in the reply to the first call for a rule. -/
theorem replyIn_append {calls : List Text} {rule : Text} (known : rule ∈ calls)
    (later : List Text) : r.replyIn (calls ++ later) rule = r.replyIn calls rule := by
  have stops : (calls.takeWhile (· ≠ rule)).length ≠ calls.length := by
    intro whole
    have taken := List.IsPrefix.eq_of_length (List.takeWhile_prefix _) whole
    have different := List.all_eq_true.mp List.all_takeWhile rule (taken.symm ▸ known)
    simp at different
  rw [replyIn, List.takeWhile_append, if_neg stops, replyIn]

/-- The call for a rule that was not called for comes after all others. -/
theorem replyIn_concat {calls : List Text} {rule : Text} (new : rule ∉ calls) :
    r.replyIn (calls ++ [rule]) rule = r.lookup calls rule := by
  have others : ∀ other ∈ calls, decide (other ≠ rule) = true := by
    intro other inside
    have different : other ≠ rule := fun same => new (same ▸ inside)
    simpa using different
  rw [replyIn, List.takeWhile_append_of_pos others]
  simp

theorem displayIn_of_askedFor (asked : before.AskedFor more after) {rule : Text}
    (known : rule ∈ before.calls) :
    r.displayIn after.calls rule = r.displayIn before.calls rule := by
  obtain ⟨called, calls, -⟩ := asked
  rw [calls, displayIn, replyIn_append known, displayIn]

/-- The call for a new rule asks for its own processes, behind those of the others. -/
theorem requestsIn_concat {calls : List Text} {rule : Text} (new : rule ∉ calls) :
    r.requestsIn (calls ++ [rule]) (calls ++ [rule]) =
      r.requestsIn calls calls ++ (r.lookup calls rule).requests := by
  have others : r.requestsIn (calls ++ [rule]) calls = r.requestsIn calls calls := by
    refine List.flatMap_congr fun other known => ?_
    rw [replyIn_append known]
  have last : r.requestsIn (calls ++ [rule]) [rule] = (r.lookup calls rule).requests := by
    rw [requestsIn, List.flatMap_singleton, replyIn_concat new]
  rw [requestsIn, List.flatMap_append]
  exact congrArg₂ (· ++ ·) others last

/-! ## The invariant -/

theorem faithful_empty : r.Faithful Memory.empty :=
  ⟨fun _ => rfl, rfl⟩

theorem Faithful.isSome_url? (faithful : r.Faithful memory) (rule : Text) :
    (memory.url? rule).isSome = true ↔ rule ∈ memory.calls := by
  rw [faithful.url? rule]
  split <;> simp_all

theorem Faithful.displayIn_eq (faithful : r.Faithful memory) {rule : Text}
    (known : rule ∈ memory.calls) :
    ruleLink rule ((memory.url? rule).getD []) = r.displayIn memory.calls rule := by
  rw [faithful.url? rule, if_pos known, Option.getD_some, displayIn]

theorem url?_ask (r : Resolver) (memory : Memory) (rule other : Text) :
    (r.ask memory rule).url? other = (memory.url? other).or
      (if other = rule then some (r.lookup memory.calls rule).url else none) := by
  show (memory.urls ++ [(rule, _)]).lookup other = _
  rw [List.lookup_append, List.lookup_cons, List.lookup_nil]
  by_cases same : other = rule
  · simp [same, Memory.url?]
  · simp [same, beq_false_of_ne same, Memory.url?]

/-- A call for a new rule adds its answer and its processes, and leaves those of the
others. -/
theorem Faithful.ask (faithful : r.Faithful memory) {rule : Text} (new : rule ∉ memory.calls) :
    r.Faithful (r.ask memory rule) := by
  have calls : (r.ask memory rule).calls = memory.calls ++ [rule] := rfl
  refine ⟨fun other => ?url?, ?requests⟩
  case url? =>
    rw [url?_ask, calls, faithful.url? other]
    by_cases known : other ∈ memory.calls
    · rw [if_pos known, if_pos (List.mem_append_left _ known), Option.some_or,
        replyIn_append known]
    · rw [if_neg known, Option.none_or]
      by_cases same : other = rule
      · subst same
        rw [if_pos rfl, if_pos (List.mem_append_right _ List.mem_cons_self), replyIn_concat known]
      · rw [if_neg same, if_neg (by simp [known, same])]
  case requests =>
    rw [calls, requestsIn_concat new, ← faithful.requests]
    rfl

theorem Faithful.foldl_ask (faithful : r.Faithful memory) (distinct : rules.Nodup)
    (new : ∀ rule ∈ rules, rule ∉ memory.calls) :
    r.Faithful (rules.foldl r.ask memory) ∧
      (rules.foldl r.ask memory).calls = memory.calls ++ rules := by
  induction rules generalizing memory with
  | nil => exact ⟨faithful, (List.append_nil _).symm⟩
  | cons rule rest ih =>
      obtain ⟨apart, distinct⟩ := List.nodup_cons.mp distinct
      have first := faithful.ask (new rule List.mem_cons_self)
      have others : ∀ other ∈ rest, other ∉ (r.ask memory rule).calls := by
        intro other inside known
        rcases List.mem_append.mp known with old | same
        · exact new other (List.mem_cons_of_mem rule inside) old
        · rw [List.mem_singleton] at same
          exact apart (same ▸ inside)
      obtain ⟨kept, calls⟩ := ih first distinct others
      refine ⟨kept, ?_⟩
      rw [List.foldl_cons, calls]
      exact List.append_assoc memory.calls [rule] rest

/-! ## The operations -/

namespace Answers

theorem nothing (faithful : r.Faithful memory) : r.Answers memory [] [] memory :=
  ⟨faithful, .nothing memory, rfl⟩

/-- What was shown for the first rules would still be shown after the others. -/
theorem append (first : r.Answers before rules shown middle)
    (second : r.Answers middle more others after) :
    r.Answers before (rules ++ more) (shown ++ others) after := by
  refine ⟨second.faithful, first.asked.trans second.asked, ?_⟩
  rw [first.shown, second.shown, List.map_append]
  congr 1
  apply List.map_congr_left
  intro rule inside
  have known : rule ∈ middle.calls := (first.asked.mem_calls_iff rule).mpr (Or.inr inside)
  exact (displayIn_of_askedFor second.asked known).symm

end Answers

theorem Faithful.resolve (faithful : r.Faithful memory) (rule : Text) :
    r.Answers memory [rule] [(r.resolve memory rule).1] (r.resolve memory rule).2 := by
  have after : (r.resolve memory rule).2 = r.learn memory rule := rfl
  have shown : (r.resolve memory rule).1 =
      ruleLink rule (((r.learn memory rule).url? rule).getD []) := rfl
  have learnt : r.Faithful (r.learn memory rule) ∧
      memory.AskedFor [rule] (r.learn memory rule) := by
    rw [learn]
    split
    · next known =>
        have called := (faithful.isSome_url? rule).mp known
        exact ⟨faithful, [], (List.append_nil _).symm, by simp [called]⟩
    · next unknown =>
        have new : rule ∉ memory.calls := fun called =>
          unknown ((faithful.isSome_url? rule).mpr called)
        refine ⟨faithful.ask new, [rule], rfl, fun other => ?_⟩
        by_cases same : other = rule
        · subst same
          simp [new]
        · simp [same, Ne.symm same]
  obtain ⟨kept, asked⟩ := learnt
  have known : rule ∈ (r.learn memory rule).calls := (asked.mem_calls_iff rule).mpr (by simp)
  rw [after, shown, kept.displayIn_eq known]
  exact ⟨kept, asked, rfl⟩

theorem Faithful.resolveEach (faithful : r.Faithful memory) (rules : List Text) :
    r.Answers memory rules (r.resolveEach memory rules).1 (r.resolveEach memory rules).2 := by
  induction rules generalizing memory with
  | nil => exact .nothing faithful
  | cons rule rest ih =>
      have first := faithful.resolve rule
      exact first.append (ih first.faithful)

/-- Looking rules up side by side asks for all that are new or for none, whatever the
order in which the lookups take effect. -/
theorem Faithful.prefetch (faithful : r.Faithful memory) (rules : List Text) :
    r.Faithful (r.prefetch memory rules) ∧
      (memory.AskedFor rules (r.prefetch memory rules) ∨ r.prefetch memory rules = memory) := by
  have pending (rule : Text) :
      rule ∈ memory.pending rules ↔ rule ∈ rules ∧ rule ∉ memory.calls := by
    rw [Memory.pending, List.mem_eraseDups, List.mem_filter, ← faithful.isSome_url?]
    simp
  have distinct : (memory.pending rules).Nodup := nodup_eraseDups _
  rw [Resolver.prefetch]
  split
  · have perm := r.schedule.perm memory.calls (memory.pending rules)
    obtain ⟨kept, calls⟩ := faithful.foldl_ask (perm.nodup_iff.mpr distinct)
      fun rule inside => ((pending rule).mp (perm.mem_iff.mp inside)).2
    refine ⟨kept, Or.inl ⟨_, calls, fun rule => ?_⟩⟩
    rw [perm.count_eq, distinct.count]
    simp only [pending]
  · exact ⟨faithful, Or.inr rfl⟩

/-- Resolving several rules comes to the same, looked up beforehand or not. -/
theorem Faithful.resolveMany (faithful : r.Faithful memory) (rules : List Text) :
    r.Answers memory rules (r.resolveMany memory rules).1 (r.resolveMany memory rules).2 := by
  obtain ⟨kept, asked | same⟩ := faithful.prefetch rules
  · have each := kept.resolveEach rules
    exact ⟨each.faithful, (asked.trans each.asked).congr (by simp), each.shown⟩
  · rw [Resolver.resolveMany, same]
    exact faithful.resolveEach rules

end Resolver

end DirectiveReview
