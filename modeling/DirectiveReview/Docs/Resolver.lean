/-
# Resolving rules

A resolver turns rules into what is shown for them and asks its lookup once per
rule.  What it has learnt is a `Memory`, which every operation takes and gives
back; the memory also keeps the calls made, the log and the processes asked for, so
that what a run did can be read off it.

Several unknown rules may be looked up side by side.  The order in which such
lookups take effect is not in the resolver's hands, so it is a parameter: a
`Schedule` puts the pending rules in any order, which may differ from one time to
the next.
-/

import DirectiveReview.Docs.Lookup

namespace DirectiveReview

/-- The order in which lookups made side by side take effect, given the calls
made before them.  It names every pending rule once. -/
structure Schedule where
  /-- The pending rules in the order of their lookups. -/
  order : (earlier pending : List Text) → List Text
  /-- No rule is dropped, added or repeated. -/
  perm : ∀ earlier pending, (order earlier pending).Perm pending

/-- Lookups take effect in the order in which they were asked for. -/
def Schedule.inOrder : Schedule :=
  ⟨fun _ pending => pending, fun _ _ => .refl _⟩

/-- Why a resolver cannot be made. -/
inductive ResolverError where
  /-- It would have no worker to make lookups. -/
  | noWorkers
  deriving DecidableEq, Repr

/-- What is said about a resolver that cannot be made. -/
def ResolverError.message : ResolverError → Text
  | .noWorkers => "max_workers must be > 0".toList

/-- How lookups are made: by whom, how many side by side, and in which order. -/
structure Resolver where
  lookup : Lookup
  maxWorkers : Int
  schedule : Schedule
  /-- There is a worker. -/
  hasWorker : 0 < maxWorkers

/-- What has been looked up so far. -/
structure Memory where
  /-- The address learnt for each rule asked about; empty where there is none. -/
  urls : List (Text × Text)
  /-- The rules asked about, oldest call first. -/
  calls : List Text
  /-- The log records of the calls. -/
  log : List LogRecord
  /-- The processes asked for in the calls, in order. -/
  requests : List ToolRequest
  deriving DecidableEq, Repr

namespace Memory

/-- Nothing has been looked up. -/
def empty : Memory :=
  ⟨[], [], [], []⟩

/-- The address learnt for a rule. -/
def url? (memory : Memory) (rule : Text) : Option Text :=
  memory.urls.lookup rule

/-- The unknown rules among those given, each once, in order of appearance. -/
def pending (memory : Memory) (rules : List Text) : List Text :=
  (rules.filter fun rule => (memory.url? rule).isNone).eraseDups

end Memory

namespace Resolver

/-- How many lookups are made side by side when nothing is configured. -/
def defaultMaxWorkers : Int := 4

/-- A resolver with the given number of workers. -/
def make (lookup : Lookup) (maxWorkers : Int) (schedule : Schedule) :
    Except ResolverError Resolver :=
  if h : 0 < maxWorkers then .ok ⟨lookup, maxWorkers, schedule, h⟩ else .error .noWorkers

/-- Call the lookup for a rule and learn its answer. -/
def ask (r : Resolver) (memory : Memory) (rule : Text) : Memory :=
  let reply := r.lookup memory.calls rule
  { urls := memory.urls ++ [(rule, reply.url)]
    calls := memory.calls ++ [rule]
    log := memory.log ++ reply.records rule
    requests := memory.requests ++ reply.requests }

/-- Make sure a rule is known. -/
def learn (r : Resolver) (memory : Memory) (rule : Text) : Memory :=
  if (memory.url? rule).isSome then memory else r.ask memory rule

/-- Look up the unknown ones of several rules side by side, if there is more than
one of them and more than one worker. -/
def prefetch (r : Resolver) (memory : Memory) (rules : List Text) : Memory :=
  let pending := memory.pending rules
  if 1 < pending.length ∧ 1 < r.maxWorkers then
    (r.schedule.order memory.calls pending).foldl r.ask memory
  else memory

/-- What is shown for a rule, and what is known afterwards. -/
def resolve (r : Resolver) (memory : Memory) (rule : Text) : Text × Memory :=
  let memory := r.learn memory rule
  (ruleLink rule ((memory.url? rule).getD []), memory)

/-- What is shown for each of several rules, one after the other. -/
def resolveEach (r : Resolver) (memory : Memory) : List Text → List Text × Memory
  | [] => ([], memory)
  | rule :: rest =>
    let (shown, memory) := r.resolve memory rule
    let (more, memory) := r.resolveEach memory rest
    (shown :: more, memory)

/-- What is shown for each of several rules, the unknown ones being looked up
beforehand. -/
def resolveMany (r : Resolver) (memory : Memory) (rules : List Text) : List Text × Memory :=
  r.resolveEach (r.prefetch memory rules) rules

end Resolver

end DirectiveReview
