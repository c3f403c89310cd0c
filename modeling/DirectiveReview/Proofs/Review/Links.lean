/-
# Reviews that differ in links

Looking rules up decides how they are shown, by name or as a link, and nothing else.  Two
reviews of the same violations therefore have the same comments at the same places, and
their inline comments differ only in which rules are links, and to where.
-/

import DirectiveReview.Proofs.Review.Comments

namespace DirectiveReview

/-- A rule is shown by its name, or as a link to some address. -/
def Shows (rule shown : Text) : Prop :=
  shown = rule ∨
    ∃ url, url ≠ [] ∧ shown = "[".toList ++ rule ++ "](".toList ++ url ++ ")".toList

theorem shows_ruleLink (rule url : Text) : Shows rule (ruleLink rule url) := by
  rw [ruleLink]
  split
  · exact Or.inl rfl
  · next linked => exact Or.inr ⟨url, linked, rfl⟩

theorem Resolver.shows_displayIn (r : Resolver) (calls : List Text) (rule : Text) :
    Shows rule (r.displayIn calls rule) :=
  shows_ruleLink rule _

namespace Review

/-- The inline comments of a review say which rules its violations name, one comment for
each violation, and show a rule the same way wherever they name it. -/
def NamesRules (message : Text) (review : Review) : Prop :=
  ∃ display : Text → Text, (∀ rule, Shows rule (display rule)) ∧
    review.inline.map Comment.body = review.violations.map fun violation =>
      Comment.inlineBody (violation.rules.map display) message

/-- Two reviews differ at most in how the rules of inline comments are shown. -/
structure SameButLinks (message : Text) (first second : Review) : Prop where
  violations : first.violations = second.violations
  /-- There are as many comments, and they stand at the same places. -/
  places : first.comments.map (fun comment => (comment.file, comment.line)) =
    second.comments.map fun comment => (comment.file, comment.line)
  /-- The comments that stand at no file are the same. -/
  others : first.comments.filter (!·.isInline) = second.comments.filter (!·.isInline)
  summary : first.summary? = second.summary?
  firstNames : first.NamesRules message
  secondNames : second.NamesRules message

variable {settings : ReviewSettings} {violations : List Violation} {display other : Text → Text}

theorem namesRules_shown (shows : ∀ rule, Shows rule (display rule)) :
    (shown settings violations display).NamesRules settings.message := by
  refine ⟨display, shows, ?_⟩
  rw [inline_shown, violations_shown, List.map_map]
  rfl

/-- Apart from the summary, every comment stands at a file. -/
theorem filter_comments_shown (found : violations ≠ []) (display : Text → Text) :
    (shown settings violations display).comments.filter (!·.isInline) = [settings.summary] := by
  have none : (violations.map fun violation => violation.comment settings.message
      (violation.rules.map display)).filter (!·.isInline) = [] := by
    rw [List.filter_eq_nil_iff, List.forall_mem_map]
    intro violation _
    simp [Violation.comment, Comment.isInline]
  rw [comments_shown found, List.filter_append, none]
  rfl

/-- Reviews of the same violations differ only in links. -/
theorem sameButLinks_shown (shows : ∀ rule, Shows rule (display rule))
    (showsToo : ∀ rule, Shows rule (other rule)) :
    SameButLinks settings.message (shown settings violations display)
      (shown settings violations other) := by
  by_cases found : violations = []
  · subst found
    exact ⟨rfl, rfl, rfl, rfl, namesRules_shown shows, namesRules_shown showsToo⟩
  · have others : (shown settings violations display).comments.filter (!·.isInline) =
        (shown settings violations other).comments.filter (!·.isInline) := by
      rw [filter_comments_shown found, filter_comments_shown found]
    refine ⟨?violations, ?places, others, ?summary, namesRules_shown shows,
      namesRules_shown showsToo⟩
    case violations => rw [violations_shown, violations_shown]
    case places =>
      rw [comments_shown found, comments_shown found, List.map_append, List.map_append,
        List.map_map, List.map_map]
      rfl
    case summary =>
      rw [summary?, summary?, ← List.head?_filter, ← List.head?_filter, others]

end Review

end DirectiveReview
