/-
# Git sections stand on their own

A `diff --git` line resets all that the walk over a diff remembers.  Whatever
stands before it, well formed or not, therefore has no influence on the files
behind it, and what stands behind it has none on the files before: a text that
ends in a line feed and a text that starts with such a line are cut one without
regard to the other.

The last line of the first part is looked at together with the first line of the
second.  That does no harm, because a `diff --git` line does not name a new file.
-/

import DirectiveReview.Proofs.Diff.Walk

namespace DirectiveReview.FileDiff

/-- The first line of a git section is no name of a new file. -/
theorem namesNew_of_opensGitSection {line : Text} (git : opensGitSection line = true) :
    namesNew line = false := by
  obtain ⟨rest, rfl⟩ := List.isPrefixOf_iff_prefix.mp git
  rfl

/-- A text that starts as a git section has a first line that does. -/
theorem lines_of_opensGitSection {diff : Text} (git : opensGitSection diff = true) :
    ∃ line rest, diff.lines = line :: rest ∧ opensGitSection line = true := by
  obtain ⟨tail, rfl⟩ := List.isPrefixOf_iff_prefix.mp git
  have marker : Text.OneLine "diff --git ".toList := by decide
  obtain ⟨line, rest, cut⟩ := Text.lines_append_of_oneLine marker (by decide) tail
  exact ⟨_, rest, cut, List.isPrefixOf_iff_prefix.mpr (List.prefix_append _ _)⟩

namespace Cursor

/-- From a git section on, a run depends on the state before it only by the file
that the section closes. -/
theorem run_of_git {line : Text} (git : opensGitSection line = true) (c : Cursor)
    (rest : List Text) :
    c.run (line :: rest) = (do
      let more ← start.run (line :: rest)
      return c.close ++ more) := by
  simp only [run, step_of_git git]
  show (do
      let more ← run ⟨#[line], (gitPaths line).1, (gitPaths line).2, false, 0, 0⟩ rest
      return c.close ++ more) = (do
      let more ← (do
        let more ← run ⟨#[line], (gitPaths line).1, (gitPaths line).2, false, 0, 0⟩ rest
        return start.close ++ more)
      return c.close ++ more)
  simp only [bind_assoc, pure_bind]
  rfl

/-- A run over a git section behind other lines is the run over these lines and
the run over the section. -/
theorem run_append_of_git {line : Text} (git : opensGitSection line = true) (c : Cursor)
    (first rest : List Text) :
    c.run (first ++ line :: rest) = (do
      let before ← c.run first
      let behind ← start.run (line :: rest)
      return before ++ behind) := by
  have alone : c.walk (some line) first = c.walk none first :=
    walk_congr_below (by simp [namesNew_of_opensGitSection git]) c first
  rw [run_append, List.head?_cons, alone, run_eq_walk c first, bind_assoc]
  refine bind_congr fun walked => ?_
  obtain ⟨closed, middle⟩ := walked
  dsimp only
  rw [run_of_git git middle]
  simp only [bind_assoc, pure_bind, List.append_assoc]

end Cursor

/-- Cutting a diff in front of a git section cuts its files in two. -/
theorem ofDiff_append {first second : Text}
    (ended : first = [] ∨ ∃ text, first = text ++ ['\n'])
    (git : opensGitSection second = true) :
    ofDiff (first ++ second) = (do
      let before ← ofDiff first
      let behind ← ofDiff second
      return before ++ behind) := by
  obtain ⟨line, rest, cut, opens⟩ := lines_of_opensGitSection git
  rw [ofDiff, ofDiff, ofDiff, Text.lines_append ended, cut, Cursor.run_append_of_git opens]

end DirectiveReview.FileDiff
