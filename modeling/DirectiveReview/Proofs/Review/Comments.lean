/-
# Comments mirror violations

A review resolves its rules in a sequence of demands: first all rules at once, then
those of each violation.  The laws of a resolver at work therefore say what is shown
in the comments, and which lookups are made, for any number of violations that share
or repeat rules or name none, and whatever the resolver knew before.

The two kinds of comments are told apart by their file.  An inline comment stands at
the file of its violation, also where the path of this file is empty, so the summary
is the one comment without a file.
-/

import DirectiveReview.Proofs.Diff.Failures
import DirectiveReview.Proofs.Docs.Session
import DirectiveReview.Proofs.Review.Violations

namespace DirectiveReview

open Text

/-- The inline comment of a violation, its rules being shown in some way. -/
def Violation.comment (message : Text) (violation : Violation) (shown : List Text) : Comment :=
  ⟨Comment.inlineBody shown message, some violation.file, some violation.line⟩

/-- The summary of a review that found something. -/
def ReviewSettings.summary (settings : ReviewSettings) : Comment :=
  ⟨Comment.summaryBody settings.tagReviewers, none, none⟩

/-- What a review demands of its resolver: all rules at once, then those of each
violation. -/
def Violation.demands (violations : List Violation) : List Demand :=
  .many (violations.flatMap rules) :: violations.map fun violation => .many violation.rules

namespace Review

variable {r : Resolver} {memory : Memory}

theorem commentOnEach_eq (r : Resolver) (message : Text) (memory : Memory)
    (violations : List Violation) :
    let served := r.serveAll memory (violations.map fun violation => .many violation.rules)
    commentOnEach r message memory violations =
      (violations.zipWith (Violation.comment message) served.1, served.2) := by
  induction violations generalizing memory with
  | nil => rfl
  | cons violation rest ih =>
      let served := r.resolveMany memory violation.rules
      show (violation.comment message served.1 :: (commentOnEach r message served.2 rest).1,
        (commentOnEach r message served.2 rest).2) = _
      rw [ih]
      rfl

/-- A review resolves its rules by demands alone, so what it leaves behind is what these
demands leave behind. -/
theorem ofViolations_eq (r : Resolver) (settings : ReviewSettings) (memory : Memory)
    {violations : List Violation} (found : violations ≠ []) :
    let served := r.serveAll memory (Violation.demands violations)
    ofViolations r settings memory violations =
      (⟨violations, violations.zipWith (Violation.comment settings.message) served.1.tail ++
        [settings.summary]⟩, served.2) := by
  intro served
  rw [ofViolations, if_neg found]
  dsimp only
  rw [commentOnEach_eq]
  rfl

theorem ofViolations_of_faithful (faithful : r.Faithful memory) (settings : ReviewSettings)
    {violations : List Violation} (found : violations ≠ []) :
    let after := (ofViolations r settings memory violations).2
    memory.AskedFor (violations.flatMap Violation.rules) after ∧
      (ofViolations r settings memory violations).1 =
        ⟨violations, (violations.map fun violation => violation.comment settings.message
          (violation.rules.map (r.displayIn after.calls))) ++ [settings.summary]⟩ := by
  obtain ⟨-, asked, shown⟩ := faithful.serveAll (Violation.demands violations)
  rw [ofViolations_eq r settings memory found]
  refine ⟨asked.congr fun rule => ?_, ?_⟩
  · simp [Violation.demands, Demand.rules, List.flatMap_map]
  · rw [shown, Violation.demands, List.map_cons, List.tail_cons, List.map_map,
      List.zipWith_map_right, List.zipWith_self]
    rfl

theorem ofViolations_nil (r : Resolver) (settings : ReviewSettings) (memory : Memory) :
    ofViolations r settings memory [] = (⟨[], []⟩, memory) := rfl

/-- The review of violations whose rules are shown in some way. -/
def shown (settings : ReviewSettings) (violations : List Violation) (display : Text → Text) :
    Review :=
  if violations = [] then ⟨[], []⟩
  else ⟨violations, (violations.map fun violation => violation.comment settings.message
    (violation.rules.map display)) ++ [settings.summary]⟩

/-- A review of violations asks for their rules, and shows each by the answer to the one call
that was ever made for it. -/
theorem ofViolations_eq_shown (faithful : r.Faithful memory) (settings : ReviewSettings)
    (violations : List Violation) :
    let after := (ofViolations r settings memory violations).2
    memory.AskedFor (violations.flatMap Violation.rules) after ∧
      (ofViolations r settings memory violations).1 =
        shown settings violations (r.displayIn after.calls) := by
  intro after
  rw [shown]
  by_cases found : violations = []
  · subst found
    exact ⟨.nothing memory, rfl⟩
  · rw [if_neg found]
    exact ofViolations_of_faithful faithful settings found

theorem faithful_ofViolations (faithful : r.Faithful memory) (settings : ReviewSettings)
    (violations : List Violation) :
    r.Faithful (ofViolations r settings memory violations).2 := by
  by_cases found : violations = []
  · subst found
    exact faithful
  · rw [ofViolations_eq r settings memory found]
    exact (faithful.serveAll (Violation.demands violations)).1

theorem violations_shown {settings : ReviewSettings} {violations : List Violation}
    {display : Text → Text} : (shown settings violations display).violations = violations := by
  rw [shown]
  split
  · next none => exact none.symm
  · rfl

/-- For a lookup that answers by rule it does not matter who resolves the rules, nor
what was known before. -/
theorem ofViolations_of_answersByRule (byRule : r.lookup.AnswersByRule) {other : Resolver}
    (same : other.lookup = r.lookup) {known : Memory} (faithful : r.Faithful memory)
    (otherFaithful : other.Faithful known) (settings : ReviewSettings)
    (violations : List Violation) :
    (ofViolations other settings known violations).1 =
      (ofViolations r settings memory violations).1 := by
  by_cases found : violations = []
  · rw [found, ofViolations_nil, ofViolations_nil]
  · have display (first second : List Text) :
        other.displayIn first = r.displayIn second := by
      funext rule
      rw [Resolver.displayIn_of_answersByRule byRule,
        Resolver.displayIn_of_answersByRule (same.symm ▸ byRule), same]
    rw [(ofViolations_of_faithful otherFaithful settings found).2,
      (ofViolations_of_faithful faithful settings found).2]
    simp only [display _ (ofViolations r settings memory violations).2.calls]

theorem ofFiles_eq_ok_iff {settings : ReviewSettings} {files : List FileDiff} {review : Review}
    {after : Memory} : ofFiles r settings memory files = .ok (review, after) ↔
      ∃ violations, Violation.find settings files = .ok violations ∧
        ofViolations r settings memory violations = (review, after) := by
  rw [ofFiles_eq_map, map_eq_ok_iff]

/-- A review that comes to an end has the violations of its search. -/
theorem ofDiff_eq_ok_iff {settings : ReviewSettings} {diff : Text} {review : Review}
    {after : Memory} : ofDiff r settings memory diff = .ok (review, after) ↔
      ∃ files, FileDiff.ofDiff diff = .ok files ∧
        Violation.find settings files = .ok review.violations ∧
        ofViolations r settings memory review.violations = (review, after) := by
  rw [ofDiff_eq_map, map_eq_ok_iff]
  constructor
  · rintro ⟨violations, found, made⟩
    have reports := violations_ofViolations r settings memory violations
    rw [made] at reports
    subst reports
    obtain ⟨files, cut, search⟩ := bind_eq_ok_iff.mp found
    exact ⟨files, cut, search, made⟩
  · rintro ⟨files, cut, search, made⟩
    exact ⟨review.violations, bind_eq_ok_iff.mpr ⟨files, cut, search⟩, made⟩

theorem inline_of_comments {review : Review} {message : Text} {settings : ReviewSettings}
    {violations : List Violation} {shown : Violation → List Text} (comments : review.comments =
      (violations.map fun violation => violation.comment message (shown violation)) ++
        [settings.summary]) :
    review.inline = violations.map (fun violation =>
        violation.comment message (shown violation)) ∧
      review.summary? = some settings.summary := by
  have inside : ∀ comment ∈ violations.map fun violation =>
      violation.comment message (shown violation), comment.isInline = true := by
    intro comment member
    obtain ⟨violation, -, rfl⟩ := List.mem_map.mp member
    rfl
  constructor
  · rw [inline, comments, List.filter_append, List.filter_eq_self.mpr inside]
    exact List.append_nil _
  · rw [summary?, comments, List.find?_append, List.find?_eq_none.mpr (by simpa using inside)]
    rfl

theorem comments_shown {settings : ReviewSettings} {violations : List Violation}
    (found : violations ≠ []) (display : Text → Text) :
    (shown settings violations display).comments =
      (violations.map fun violation => violation.comment settings.message
        (violation.rules.map display)) ++ [settings.summary] := by
  rw [shown, if_neg found]

theorem inline_shown (settings : ReviewSettings) (violations : List Violation)
    (display : Text → Text) :
    (shown settings violations display).inline = violations.map fun violation =>
      violation.comment settings.message (violation.rules.map display) := by
  by_cases found : violations = []
  · subst found
    rfl
  · exact (inline_of_comments (comments_shown found display)).1

theorem summary?_shown {settings : ReviewSettings} {violations : List Violation}
    (found : violations ≠ []) (display : Text → Text) :
    (shown settings violations display).summary? = some settings.summary :=
  (inline_of_comments (comments_shown found display)).2

/-- A review that comes to an end shows each rule by the answer to the one call that was ever
made for it. -/
theorem eq_shown_of_ofDiff {settings : ReviewSettings} {earlier : List Demand} {diff : Text}
    {review : Review} {after : Memory}
    (reviewed : ofDiff r settings (r.serveAll Memory.empty earlier).2 diff =
      .ok (review, after)) :
    review = shown settings review.violations (r.displayIn after.calls) := by
  obtain ⟨files, -, -, made⟩ := ofDiff_eq_ok_iff.mp reviewed
  have faithful := (Resolver.faithful_empty.serveAll (r := r) earlier).1
  have closed := (ofViolations_eq_shown faithful settings review.violations).2
  rwa [made] at closed

/-- **Comments mirror violations.**  A review that comes to an end has the violations
of the search.  Without any it has no comments and looks nothing up.  Otherwise it has
one inline comment for each, in order, and one summary behind them, and `inline` and
`summary?` tell the two apart.  The rules are shown by the answer to the one call that
was ever made for each; the review itself calls for those that were not known and for
no other.  For a lookup that answers by rule the review is the same for every number of
workers, every order of lookups and everything demanded before. -/
theorem ofFiles_mirrors (r : Resolver) (settings : ReviewSettings) (earlier : List Demand)
    (files : List FileDiff) (review : Review) (after : Memory)
    (checked : ofFiles r settings (r.serveAll Memory.empty earlier).2 files =
      .ok (review, after)) :
    Violation.find settings files = .ok review.violations ∧
    (review.violations = [] →
      review.comments = [] ∧ after = (r.serveAll Memory.empty earlier).2) ∧
    (review.violations ≠ [] →
      review.comments = review.inline ++ [settings.summary] ∧
      review.inline = (review.violations.map fun violation =>
        violation.comment settings.message (violation.rules.map (r.displayIn after.calls))) ∧
      review.summary? = some settings.summary) ∧
    (∃ called, after.calls = (r.serveAll Memory.empty earlier).2.calls ++ called ∧
      ∀ rule, called.count rule =
        if rule ∈ review.violations.flatMap Violation.rules ∧
          (r.serveAll Memory.empty earlier).2.url? rule = none then 1 else 0) ∧
    (r.lookup.AnswersByRule → ∀ other : Resolver, other.lookup = r.lookup →
      ∀ demands : List Demand, ∃ last,
        ofFiles other settings (other.serveAll Memory.empty demands).2 files =
          .ok (review, last)) := by
  obtain ⟨violations, search, reviewed⟩ := ofFiles_eq_ok_iff.mp checked
  have faithful := (Resolver.faithful_empty.serveAll (r := r) earlier).1
  have unknown (rule : Text) : (r.serveAll Memory.empty earlier).2.url? rule = none ↔
      rule ∉ (r.serveAll Memory.empty earlier).2.calls := by
    rw [← faithful.isSome_url? rule, Bool.not_eq_true, Option.isSome_eq_false_iff,
      Option.isNone_iff_eq_none]
  have reports : review.violations = violations := by
    rw [← violations_ofViolations r settings _ violations, reviewed]
  subst violations
  have elsewhere (byRule : r.lookup.AnswersByRule) (other : Resolver)
      (same : other.lookup = r.lookup) (demands : List Demand) : ∃ last,
        ofFiles other settings (other.serveAll Memory.empty demands).2 files =
          .ok (review, last) := by
    have otherFaithful := (Resolver.faithful_empty.serveAll (r := other) demands).1
    have alike := ofViolations_of_answersByRule byRule same faithful otherFaithful settings
      review.violations
    rw [reviewed] at alike
    exact ⟨(ofViolations other settings (other.serveAll Memory.empty demands).2
      review.violations).2, ofFiles_eq_ok_iff.mpr ⟨_, search, Prod.ext alike rfl⟩⟩
  simp only [unknown]
  by_cases found : review.violations = []
  · obtain ⟨comments, same⟩ : review.comments = [] ∧
        after = (r.serveAll Memory.empty earlier).2 := by
      rw [found, ofViolations_nil, Prod.mk.injEq] at reviewed
      exact ⟨reviewed.1 ▸ rfl, reviewed.2.symm⟩
    exact ⟨search, fun _ => ⟨comments, same⟩, fun nonempty => (nonempty found).elim,
      ⟨[], by rw [same, List.append_nil], by simp [found]⟩, elsewhere⟩
  · obtain ⟨asked, written⟩ := ofViolations_of_faithful faithful settings found
    rw [reviewed] at asked written
    have comments := congrArg Review.comments written
    obtain ⟨inline, summary⟩ := inline_of_comments comments
    refine ⟨search, fun empty => (found empty).elim, fun _ => ⟨?_, inline, summary⟩, asked,
      elsewhere⟩
    rw [inline]
    exact comments

/-- Two files, the second ignored, and three added lines with a directive between them. -/
def sharedRulesFiles : List FileDiff :=
  [⟨"x.rb".toList, unlines ["@@ -1 +1,3 @@".toList, "+a # rubocop:disable A, B".toList,
      "+b # rubocop:disable".toList, "+c # rubocop:disable B, B".toList]⟩,
    ⟨"Dangerfile".toList, unlines ["@@ -1 +1 @@".toList, "+d # rubocop:disable D".toList]⟩]

theorem ofFiles_mirrors_sharedRules :
    let r : Resolver := ⟨Lookup.ofAnswers fun rule =>
      if rule = ['A'] then .found ['u'] else .raised "OSError".toList [], 4, Schedule.inOrder,
        by decide⟩
    let settings : ReviewSettings := ⟨["Danger".toList], ['m'], [['k']]⟩
    ∃ review after, ofFiles r settings (r.serveAll Memory.empty [.one ['A']]).2
        sharedRulesFiles = .ok (review, after) ∧
      review.violations ≠ [] ∧
      review.inline.map Comment.line = [some 1, some 2, some 3] ∧
      (∃ called, after.calls = [['A']] ++ called ∧ called.count ['A'] = 0 ∧
        called.count ['B'] = 1 ∧ called.count ['D'] = 0) ∧
      r.lookup.AnswersByRule ∧
      ∃ last, ofFiles ⟨r.lookup, 1, Schedule.inOrder, by decide⟩ settings Memory.empty
        sharedRulesFiles = .ok (review, last) := by
  intro r settings
  have search : Violation.find settings sharedRulesFiles =
      .ok [⟨"x.rb".toList, 1, [['A'], ['B']]⟩, ⟨"x.rb".toList, 2, []⟩,
        ⟨"x.rb".toList, 3, [['B'], ['B']]⟩] := by
    rfl
  obtain ⟨review, after, checked⟩ : ∃ review after,
      ofFiles r settings (r.serveAll Memory.empty [.one ['A']]).2 sharedRulesFiles =
        .ok (review, after) := ⟨_, _, ofFiles_eq_ok_iff.mpr ⟨_, search, rfl⟩⟩
  obtain ⟨searched, -, mirrored, ⟨called, calls, count⟩, alike⟩ :=
    ofFiles_mirrors r settings [.one ['A']] sharedRulesFiles review after checked
  have violations := Except.ok.inj (searched.symm.trans search)
  have found : review.violations ≠ [] := by
    rw [violations]
    exact List.cons_ne_nil _ _
  have byRule : r.lookup.AnswersByRule := fun _ _ => rfl
  have counts : called.count ['A'] = 0 ∧ called.count ['B'] = 1 ∧ called.count ['D'] = 0 := by
    rw [count, count, count, violations]
    decide
  refine ⟨review, after, checked, found, ?_, ⟨called, calls, counts⟩, byRule,
    alike byRule ⟨r.lookup, 1, Schedule.inOrder, by decide⟩ rfl []⟩
  rw [(mirrored found).2.1, violations]
  rfl

end Review

end DirectiveReview
