/-
# Reviewing git sections side by side

A git section cannot be damaged by what comes before it: not by a truncated hunk,
not by counts that are too high, not by a half-read pair of names.  The cut into
files is the cut of the parts, an error of the first part coming first, and the
violations of the whole are those of the parts one after the other.
-/

import DirectiveReview.Proofs.Diff.Sections
import DirectiveReview.Proofs.Review.Violations
import DirectiveReview.Proofs.Text.Lines

namespace DirectiveReview.Review

/-- A text that is empty or ends with a line feed, and a text that starts with a
`diff --git` line, are cut and reviewed one without regard to the other. -/
theorem ofDiff_append_gitSection (first second : Text)
    (ended : first = [] ∨ ∃ text, first = text ++ ['\n'])
    (git : FileDiff.opensGitSection second = true) :
    FileDiff.ofDiff (first ++ second) = (do
        let before ← FileDiff.ofDiff first
        let behind ← FileDiff.ofDiff second
        return before ++ behind) ∧
      ∀ (r : Resolver) (settings : ReviewSettings) (memory : Memory)
        (before behind : List FileDiff) (violationsBefore violationsBehind : List Violation),
        FileDiff.ofDiff first = .ok before → FileDiff.ofDiff second = .ok behind →
        Violation.find settings before = .ok violationsBefore →
        Violation.find settings behind = .ok violationsBehind →
        ∃ review after, ofDiff r settings memory (first ++ second) = .ok (review, after) ∧
          review.violations = violationsBefore ++ violationsBehind := by
  have cut := FileDiff.ofDiff_append ended git
  refine ⟨cut, ?_⟩
  intro r settings memory before behind violationsBefore violationsBehind cutBefore cutBehind
    searchBefore searchBehind
  have cutBoth : FileDiff.ofDiff (first ++ second) = .ok (before ++ behind) := by
    rw [cut, cutBefore, cutBehind]
    rfl
  have searchBoth : Violation.find settings (before ++ behind) =
      .ok (violationsBefore ++ violationsBehind) := by
    rw [Violation.find_append, searchBefore, searchBehind]
    rfl
  exact exists_ofDiff_of_find cutBoth searchBoth r memory

/-- A hunk that announces more lines than come, with a removed line at its end that
looks like an old name. -/
def truncatedSection : Text :=
  Text.terminated ["diff --git a/x b/x".toList, "--- a/x".toList, "+++ b/x".toList,
    "@@ -1,9 +1,9 @@".toList, "+# rubocop:disable A".toList, "--- y".toList]

/-- The section of another file. -/
def followingSection : Text :=
  Text.terminated ["diff --git a/z b/z".toList, "--- a/z".toList, "+++ b/z".toList,
    "@@ -0,0 +1 @@".toList, "+# rubocop:disable B".toList]

theorem ofDiff_append_gitSection_of_truncated :
    FileDiff.opensGitSection followingSection = true ∧
      ∃ review after,
        ofDiff ⟨Lookup.disabled, 1, Schedule.inOrder, by decide⟩ ⟨[], [], []⟩ Memory.empty
          (truncatedSection ++ followingSection) = .ok (review, after) ∧
        review.violations = [⟨['x'], 1, [['A']]⟩, ⟨['z'], 1, [['B']]⟩] := by
  refine ⟨by decide, ?_⟩
  have ended : truncatedSection = [] ∨ ∃ text, truncatedSection = text ++ ['\n'] :=
    Or.inr ⟨truncatedSection.dropLast, by decide⟩
  exact (ofDiff_append_gitSection truncatedSection followingSection ended (by decide)).2 _
    ⟨[], [], []⟩ Memory.empty _ _ _ _ rfl rfl rfl rfl

end DirectiveReview.Review
