/-
# Documentation lookups

A lookup is asked for the documentation address of a rule.  It may give an
address, give nothing, or fail; a failure counts as nothing and leaves a warning
in the log.

Nothing is assumed about a lookup beyond this.  In particular it may answer the
same rule differently at different times: the answer may depend on all the calls
made before.  `Lookup.ofAnswers` makes the lookups that answer by rule alone.

What a lookup does besides answering comes back with the answer: what it logged, and
the processes it asked for.
-/

import DirectiveReview.Docs.Process
import DirectiveReview.Log
import DirectiveReview.Text.Blank

namespace DirectiveReview

/-- What a lookup comes back with. -/
inductive LookupAnswer where
  /-- An address, perhaps with blanks around it, perhaps empty. -/
  | found (url : Text)
  /-- No address. -/
  | nothing
  /-- A failure of some kind, with its text. -/
  | raised (kind text : Text)
  deriving DecidableEq, Repr

/-- The answer to one call, and what the lookup itself did during it. -/
structure LookupReply where
  answer : LookupAnswer
  /-- What it logged. -/
  log : List LogRecord
  /-- The processes it asked the system for. -/
  requests : List ToolRequest
  deriving DecidableEq, Repr

namespace LookupReply

/-- The address an answer amounts to; empty if there is none. -/
def url (reply : LookupReply) : Text :=
  match reply.answer with
  | .found url => url.trim
  | .nothing => []
  | .raised _ _ => []

/-- All that is logged about a call: what the lookup logged, and a warning if it
failed. -/
def records (rule : Text) (reply : LookupReply) : List LogRecord :=
  match reply.answer with
  | .raised kind text =>
    reply.log ++ [⟨.warning, .resolver,
      "docs lookup for ".toList ++ rule ++ " raised ".toList ++ kind ++ ": ".toList ++ text⟩]
  | _ => reply.log

end LookupReply

/-- A lookup: the answer for a rule after the calls made earlier, oldest first. -/
abbrev Lookup := (earlier : List Text) → (rule : Text) → LookupReply

namespace Lookup

/-- A lookup that answers by rule alone, logs nothing and asks for no process. -/
def ofAnswers (answers : Text → LookupAnswer) : Lookup :=
  fun _ rule => ⟨answers rule, [], []⟩

/-- The lookup in use when documentation links are switched off. -/
def disabled : Lookup :=
  ofAnswers fun _ => .found []

end Lookup

/-- How a rule is shown: by name, linked to its documentation when an address is
known. -/
def ruleLink (rule url : Text) : Text :=
  if url = [] then rule
  else "[".toList ++ rule ++ "](".toList ++ url ++ ")".toList

end DirectiveReview
