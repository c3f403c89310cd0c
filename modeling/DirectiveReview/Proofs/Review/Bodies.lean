/-
# Comment bodies can be read back

The body of an inline comment has one of three forms, by the number of rules that it
names, and ends in a note that is any text.  The lines of its head are not empty, and an
empty line follows them, so the head can be told from the note; and in a head of one line
the rule stands behind the label, in a longer one the rules stand in the lines below the
first.  `readBody` goes this way back.  Rules that imitate a heading or a bullet do no harm
as long as they have no line feed in them.

They have none in a review.  Rules are taken out of a line, and the tool that prints their
addresses has its line feeds dropped.
-/

import DirectiveReview.Docs.Tool
import DirectiveReview.Proofs.Review.Comments
import DirectiveReview.Proofs.Review.SingleLines

namespace DirectiveReview

open Text

namespace Comment

/-- The words in front of a single rule. -/
def ruleLead : Text :=
  "Detected ".toList ++ directiveLabel ++ " for ".toList

/-- The line above several rules. -/
def heading : Text :=
  "Detected ".toList ++ directiveLabel ++ " for the following cops:".toList

/-- What stands between the head of a body and the note. -/
def noteLead : Text :=
  "\n\n\n> **Note**\n> ".toList

/-- The lines of the head of a body. -/
def headLines : List Text → List Text
  | [] => ["Detected ".toList ++ directiveLabel]
  | [rule] => [ruleLead ++ rule]
  | rules => heading :: rules.map fun rule => "- ".toList ++ rule

/-- The rules that the lines of a head name. -/
def rulesIn : List Text → List Text
  | [line] => (behind? ruleLead line).toList
  | lines => lines.tail.map (List.drop 2)

/-- The lines of a body above the first empty one. -/
def headOf (body : Text) : List Text :=
  (pieces '\n' body).takeWhile (!·.isEmpty)

/-- The rules and the message that the body of an inline comment was made of. -/
def readBody (body : Text) : List Text × Text :=
  (rulesIn (headOf body),
    (body.drop ((unlines (headOf body)).length + noteLead.length)).dropLast)

theorem headline_eq_unlines (rules : List Text) : headline rules = unlines (headLines rules) := by
  match rules with
  | [] => rfl
  | [rule] => exact (unlines_singleton _).symm
  | first :: second :: more =>
      have feed : " for the following cops:\n".toList =
          " for the following cops:".toList ++ ['\n'] := by
        rfl
      have shift (lead words rest : Text) :
          lead ++ (words ++ ['\n']) ++ rest = lead ++ words ++ '\n' :: rest := by
        simp
      let bullets := (first :: second :: more).map fun rule => "- ".toList ++ rule
      calc
        headline (first :: second :: more) =
            "Detected ".toList ++ directiveLabel ++ " for the following cops:\n".toList ++
              unlines bullets := rfl
        _ = "Detected ".toList ++ directiveLabel ++ (" for the following cops:".toList ++ ['\n']) ++
              unlines bullets :=
            congrArg (fun words => "Detected ".toList ++ directiveLabel ++ words ++ unlines bullets)
              feed
        _ = heading ++ '\n' :: unlines bullets := shift ..
        _ = unlines (heading :: bullets) := (unlines_cons_cons ..).symm

theorem headLines_ne_nil (rules : List Text) : headLines rules ≠ [] := by
  match rules with
  | [] => exact List.cons_ne_nil _ _
  | [rule] => exact List.cons_ne_nil _ _
  | first :: second :: more => exact List.cons_ne_nil _ _

/-- No line of a head is empty, and none has a line feed in it if no rule has. -/
theorem line_of_mem_headLines {rules : List Text} (noFeed : ∀ rule ∈ rules, '\n' ∉ rule) :
    ∀ line ∈ headLines rules, line ≠ [] ∧ '\n' ∉ line := by
  have behind {lead rule : Text} (nonempty : lead ≠ []) (bare : '\n' ∉ lead)
      (inside : rule ∈ rules) : lead ++ rule ≠ [] ∧ '\n' ∉ lead ++ rule :=
    ⟨List.append_ne_nil_of_left_ne_nil nonempty rule,
      fun feed => (List.mem_append.mp feed).elim bare (noFeed rule inside)⟩
  match rules with
  | [] => exact List.forall_mem_singleton.mpr (by decide)
  | [rule] =>
      exact List.forall_mem_singleton.mpr (behind (by decide) (by decide) List.mem_cons_self)
  | first :: second :: more =>
      refine List.forall_mem_cons.mpr ⟨by decide, List.forall_mem_map.mpr fun rule inside => ?_⟩
      exact behind (by decide) (by decide) inside

theorem rulesIn_headLines (rules : List Text) : rulesIn (headLines rules) = rules := by
  match rules with
  | [] => rfl
  | [rule] =>
      rw [headLines, rulesIn, behind?_append]
      rfl
  | first :: second :: more =>
      exact (List.map_map ..).trans (List.map_id _)

theorem inlineBody_eq (rules : List Text) (message : Text) :
    inlineBody rules message = unlines (headLines rules) ++ (noteLead ++ (message ++ ['\n'])) := by
  rw [inlineBody, headline_eq_unlines, List.append_assoc, List.append_assoc]
  rfl

/-- The head of a body ends at its first empty line, which is the first line of the note. -/
theorem headOf_inlineBody {rules : List Text} (noFeed : ∀ rule ∈ rules, '\n' ∉ rule)
    (message : Text) : headOf (inlineBody rules message) = headLines rules := by
  have line := line_of_mem_headLines noFeed
  have feeds : noteLead ++ (message ++ ['\n']) =
      '\n' :: '\n' :: ("\n> **Note**\n> ".toList ++ (message ++ ['\n'])) := by
    rfl
  have cut : pieces '\n' (inlineBody rules message) =
      headLines rules ++ [] :: pieces '\n' ("\n> **Note**\n> ".toList ++ (message ++ ['\n'])) := by
    rw [inlineBody_eq, feeds, pieces_append, pieces, if_pos rfl, unlines,
      pieces_join (fun part inside => (line part inside).2) (headLines_ne_nil rules)]
  have nonempty : ∀ part ∈ headLines rules, (!part.isEmpty) = true := by
    intro part inside
    simpa using (line part inside).1
  rw [headOf, cut, List.takeWhile_append_of_pos nonempty]
  exact List.append_nil _

/-- The body of an inline comment is read back as what it was made of. -/
theorem readBody_inlineBody {rules : List Text} (noFeed : ∀ rule ∈ rules, '\n' ∉ rule)
    (message : Text) : readBody (inlineBody rules message) = (rules, message) := by
  rw [readBody, headOf_inlineBody noFeed, rulesIn_headLines, inlineBody_eq, ← List.append_assoc,
    List.drop_left' (by rw [List.length_append]), List.dropLast_concat]

theorem inlineBody_eq_iff {rules others : List Text} (noFeed : ∀ rule ∈ rules, '\n' ∉ rule)
    (noFeedToo : ∀ rule ∈ others, '\n' ∉ rule) {message note : Text} :
    inlineBody rules message = inlineBody others note ↔ rules = others ∧ message = note := by
  constructor
  · intro same
    have read := congrArg readBody same
    rw [readBody_inlineBody noFeed, readBody_inlineBody noFeedToo] at read
    exact Prod.mk.inj read
  · rintro ⟨rfl, rfl⟩
    rfl

end Comment

/-! ## Rules that are shown -/

theorem Text.OneLine.noFeed {text : Text} (one : OneLine text) : '\n' ∉ text :=
  fun inside => absurd (one _ inside) (by decide)

theorem noFeed_ruleLink {rule url : Text} (name : '\n' ∉ rule) (address : '\n' ∉ url) :
    '\n' ∉ ruleLink rule url := by
  rw [ruleLink]
  split
  · exact name
  · simp only [List.mem_append, not_or]
    exact ⟨⟨⟨⟨by decide, name⟩, by decide⟩, address⟩, by decide⟩

/-- An address that a command printed has no line feed in it, wherever it printed some. -/
theorem DocsTool.noFeed_printedUrl (stdout : Text) : '\n' ∉ printedUrl stdout := by
  intro inside
  have kept := List.mem_filter.mp ((trim_sublist _).subset inside)
  simp at kept

/-- Every call of the lookup runs the tool once, however its process ends, unless the call
itself fails. -/
def Lookup.Runs (lookup : Lookup) (tool : DocsTool) : Prop :=
  ∀ earlier rule, (∃ outcome, lookup earlier rule = tool.reply rule outcome) ∨
    ∃ kind text log requests, lookup earlier rule = ⟨.raised kind text, log, requests⟩

theorem DocsTool.runs_lookup (tool : DocsTool) (run : ToolRequest → ProcessOutcome) :
    (tool.lookup run).Runs tool :=
  fun _ rule => Or.inl ⟨run (tool.request rule), rfl⟩

theorem DocsTool.noFeed_url_reply (tool : DocsTool) (rule : Text) (outcome : ProcessOutcome) :
    '\n' ∉ (tool.reply rule outcome).url := by
  cases outcome with
  | refused kind text => exact List.not_mem_nil
  | notStarted code reason file => exact List.not_mem_nil
  | timedOut => exact List.not_mem_nil
  | raised kind text => exact List.not_mem_nil
  | exited code stdout stderr =>
      rw [reply]
      split
      · exact fun inside => noFeed_printedUrl stdout ((trim_sublist _).subset inside)
      · exact List.not_mem_nil

theorem Lookup.Runs.noFeed_url {lookup : Lookup} {tool : DocsTool} (runs : lookup.Runs tool)
    (earlier : List Text) (rule : Text) : '\n' ∉ (lookup earlier rule).url := by
  rcases runs earlier rule with ⟨outcome, same⟩ | ⟨kind, text, log, requests, same⟩
  · rw [same]
    exact tool.noFeed_url_reply rule outcome
  · rw [same]
    exact List.not_mem_nil

namespace Review

/-- **The body of an inline comment tells which rules were switched off.**  Two bodies are
the same only if they name the same rules in the same order and carry the same note.  In a
review whose lookup runs the documentation tool, whatever the processes print, nothing that
is shown for a rule has a line feed in it; so the rules of every violation, as they are
shown, are read back from the body of its comment. -/
theorem inlineBody_tells_rules (tool : DocsTool) (r : Resolver) (settings : ReviewSettings)
    (earlier : List Demand) (diff : Text) (review : Review) (after : Memory)
    (runs : r.lookup.Runs tool)
    (reviewed : ofDiff r settings (r.serveAll Memory.empty earlier).2 diff =
      .ok (review, after)) :
    (∀ (rules others : List Text) (message note : Text),
      (∀ rule ∈ rules, '\n' ∉ rule) → (∀ rule ∈ others, '\n' ∉ rule) →
      (Comment.inlineBody rules message = Comment.inlineBody others note ↔
        rules = others ∧ message = note)) ∧
    (∀ violation ∈ review.violations, ∀ rule ∈ violation.rules,
      '\n' ∉ r.displayIn after.calls rule) ∧
    review.inline.map Comment.body = (review.violations.map fun violation =>
      Comment.inlineBody (violation.rules.map (r.displayIn after.calls)) settings.message) ∧
    review.inline.map (fun comment => Comment.readBody comment.body) =
      review.violations.map fun violation =>
        (violation.rules.map (r.displayIn after.calls), settings.message) := by
  obtain ⟨files, cut, search, -⟩ := ofDiff_eq_ok_iff.mp reviewed
  have shown := eq_shown_of_ofDiff reviewed
  have bodies : review.inline.map Comment.body = review.violations.map fun violation =>
      Comment.inlineBody (violation.rules.map (r.displayIn after.calls)) settings.message := by
    conv_lhs => rw [shown, inline_shown, List.map_map]
    rfl
  have named := Violation.namesOneLine_of_mem_find cut search
  have displays : ∀ violation ∈ review.violations, ∀ rule ∈ violation.rules,
      '\n' ∉ r.displayIn after.calls rule := fun violation inside rule among =>
    noFeed_ruleLink ((named violation inside).rules rule among).noFeed (runs.noFeed_url _ rule)
  refine ⟨fun rules others message note noFeed noFeedToo =>
    Comment.inlineBody_eq_iff noFeed noFeedToo, displays, bodies, ?_⟩
  have read : review.inline.map (fun comment => Comment.readBody comment.body) =
      (review.inline.map Comment.body).map Comment.readBody := by
    rw [List.map_map]
    rfl
  rw [read, bodies, List.map_map]
  refine List.map_congr_left fun violation inside => ?_
  exact Comment.readBody_inlineBody (List.forall_mem_map.mpr (displays violation inside)) _

/-- Added lines whose rules imitate a heading and a bullet, and one without rules. -/
def imitatingRules : Text :=
  terminated ["--- a/x.rb".toList, "+++ b/x.rb".toList, "@@ -0,0 +1,3 @@".toList,
    "+a # rubocop:disable".toList, "+b # rubocop:disable the following cops:".toList,
    "+c # rubocop:disable - A, B".toList]

/-- A note that imitates the beginning of a note. -/
def imitatingNote : ReviewSettings :=
  ⟨[], Comment.noteLead, []⟩

theorem inlineBody_tells_rules_imitating :
    let tool : DocsTool := ⟨DocsTool.defaultCommand, DocsTool.defaultTimeout, none⟩
    let r : Resolver := ⟨tool.lookup fun _ => .exited 0 "\nu\n\nv ".toList [], 4,
      Schedule.inOrder, by decide⟩
    Comment.inlineBody ["the following cops:".toList] "- A".toList ≠
      Comment.inlineBody ["A".toList, "B".toList] [] ∧
    r.lookup.Runs tool ∧
    ∃ review after, ofDiff r imitatingNote (r.serveAll Memory.empty [.one ['B']]).2
        imitatingRules = .ok (review, after) ∧
      review.inline.map (fun comment => Comment.readBody comment.body) =
        [([], Comment.noteLead), (["[the following cops:](uv)".toList], Comment.noteLead),
          (["[- A](uv)".toList, "[B](uv)".toList], Comment.noteLead)] := by
  intro tool r
  have runs : r.lookup.Runs tool := tool.runs_lookup fun _ => .exited 0 "\nu\n\nv ".toList []
  have found : Violation.ofDiff imitatingNote imitatingRules =
      .ok [⟨"x.rb".toList, 1, []⟩, ⟨"x.rb".toList, 2, ["the following cops:".toList]⟩,
        ⟨"x.rb".toList, 3, ["- A".toList, "B".toList]⟩] := by
    decide +kernel
  obtain ⟨review, after, reviewed, violations⟩ :=
    exists_ofDiff_of_found found r (r.serveAll Memory.empty [.one ['B']]).2
  obtain ⟨apart, -, -, read⟩ := inlineBody_tells_rules tool r imitatingNote [.one ['B']]
    imitatingRules review after runs reviewed
  refine ⟨?_, runs, review, after, reviewed, ?_⟩
  · have same := apart ["the following cops:".toList] ["A".toList, "B".toList] "- A".toList []
      (by decide) (by decide)
    intro equal
    exact absurd (same.mp equal).1 (by decide)
  · rw [read, violations]
    rfl

end Review

end DirectiveReview
