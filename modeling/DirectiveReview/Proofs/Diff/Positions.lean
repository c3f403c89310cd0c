/-
# Line numbers are positions in the new file

An edit script turns an old file into a new one step by step, and a diff shows the
script cut into hunks, with stretches of kept lines left out between them.  The
lines that such a patch adds are the inserted lines of the script, and the number
of each is its position in the new file.

The invariant of the walk is that the count is the position of the next line of
the new file.  It is carried through a gap by the lines left out, and through a
header because this gives the position at which its hunk starts.  A hunk without
lines of the new file may give any start: it adds nothing that would have to be
numbered.
-/

import DirectiveReview.Proofs.Diff.RoundTrip

namespace DirectiveReview

open Text

/-- A script of entries turns an old file into a new one: it keeps, deletes or
inserts a line at each step and comes to the end of both.  A remark is no step. -/
inductive Turns : List BodyEntry → List Text → List Text → Prop
  | done : Turns [] [] []
  | keep {script old new} (text : Text) (rest : Turns script old new) :
      Turns (⟨.context, text⟩ :: script) (text :: old) (text :: new)
  | delete {script old new} (text : Text) (rest : Turns script old new) :
      Turns (⟨.removed, text⟩ :: script) (text :: old) new
  | insert {script old new} (text : Text) (rest : Turns script old new) :
      Turns (⟨.added, text⟩ :: script) old (text :: new)

namespace HunkChange

/-- The entries of a hunk that are steps of a script. -/
def steps (change : HunkChange) : List BodyEntry :=
  change.entries.filter fun entry => entry.kind ≠ .remark

end HunkChange

/-- A script is shown by hunks from a line of the new file on.  Steps that keep a
line may be left out before, between and behind the hunks.  A hunk shows the next
steps, with remarks anywhere among them, and if one of these is a line of the new
file its header gives the position of the first. -/
inductive ShownBy : Nat → List BodyEntry → List HunkChange → Prop
  | done (next : Nat) : ShownBy next [] []
  | leave {next script hunks} (text : Text) (rest : ShownBy (next + 1) script hunks) :
      ShownBy next (⟨.context, text⟩ :: script) hunks
  | cover {next script hunks} (hunk : HunkChange)
      (start : BodyEntry.newLines hunk.steps ≠ 0 → hunk.start = next)
      (rest : ShownBy (next + BodyEntry.newLines hunk.steps) script hunks) :
      ShownBy next (hunk.steps ++ script) (hunk :: hunks)

namespace Hunk

/-- Remarks neither add a line nor count as one. -/
theorem addedFrom_filter_steps (next : Nat) (entries : List BodyEntry) :
    addedFrom next ((entries.filter fun entry => entry.kind ≠ .remark).map BodyEntry.line) =
      addedFrom next (entries.map BodyEntry.line) := by
  induction entries generalizing next with
  | nil => rfl
  | cons entry rest ih =>
      rw [List.filter_cons]
      split
      · rw [List.map_cons, List.map_cons, addedFrom_cons, addedFrom_cons, ih]
      · next remark =>
          have kind : entry.kind = .remark := by simpa using remark
          rw [List.map_cons, addedFrom_cons, ih]
          simp [kind, BodyLine.inNew]

end Hunk

/-- The lines added by hunks that show a script are those of the script in one
piece. -/
theorem ShownBy.addedOfHunks {next : Nat} {script : List BodyEntry} {hunks : List HunkChange}
    (shown : ShownBy next script hunks) (writable : ∀ hunk ∈ hunks, hunk.Writable) :
    Patch.addedOfHunks (hunks.map HunkChange.hunk) =
      .ok (Hunk.addedFrom next (script.map BodyEntry.line)) := by
  induction shown with
  | done next => rfl
  | @leave next script hunks text rest ih =>
      have context : BodyLine.of (BodyEntry.line ⟨.context, text⟩) = .context :=
        BodyEntry.of_line _
      rw [ih writable, List.map_cons, Hunk.addedFrom_cons]
      simp [context, BodyLine.inNew]
  | @cover next script hunks hunk start rest ih =>
      have here : Hunk.addedFrom hunk.start (hunk.entries.map BodyEntry.line) =
          Hunk.addedFrom next (hunk.steps.map BodyEntry.line) := by
        by_cases none : BodyEntry.newLines hunk.steps = 0
        · have unnumbered : Hunk.newLines (hunk.steps.map BodyEntry.line) = 0 := by
            rw [Hunk.newLines_map_line, none]
          rw [← Hunk.addedFrom_filter_steps]
          exact (Hunk.addedFrom_of_newLines_eq_zero unnumbered hunk.start).trans
            (Hunk.addedFrom_of_newLines_eq_zero unnumbered next).symm
        · rw [start none]
          exact (Hunk.addedFrom_filter_steps next hunk.entries).symm
      have others := ih fun other inside => writable other (List.mem_cons_of_mem hunk inside)
      rw [List.map_cons, Patch.addedOfHunks,
        HunkChange.added_hunk (writable hunk List.mem_cons_self), here, others, List.map_append,
        Hunk.addedFrom_append, Hunk.newLines_map_line]
      rfl

namespace Turns

variable {script : List BodyEntry} {old new : List Text}

/-- Every line that a script adds is the line of the new file at its number. -/
theorem position (turns : Turns script old new) {next : Nat} {added : AddedLine}
    (inside : added ∈ Hunk.addedFrom next (script.map BodyEntry.line)) :
    ∃ text, added.content = '+' :: text ∧ next ≤ added.lineNumber ∧
      new[added.lineNumber - next]? = some text := by
  induction turns generalizing next with
  | done => cases inside
  | keep text rest ih =>
      obtain ⟨shown, content, above, position⟩ := @ih (next + 1) inside
      refine ⟨shown, content, by omega, ?_⟩
      rw [show added.lineNumber - next = added.lineNumber - (next + 1) + 1 by omega]
      exact position
  | delete text rest ih => exact @ih next inside
  | insert text rest ih =>
      rcases List.mem_cons.mp inside with rfl | later
      · exact ⟨text, rfl, Nat.le_refl next, by simp⟩
      · obtain ⟨shown, content, above, position⟩ := ih later
        refine ⟨shown, content, by omega, ?_⟩
        rw [show added.lineNumber - next = added.lineNumber - (next + 1) + 1 by omega]
        exact position

end Turns

/-- **Line numbers are positions.**  A patch that shows a script turning an old file
into a new one, behind lines that are no header, adds the inserted lines and nothing
else.  Their numbers ascend, and each is the position of its line in the new file. -/
theorem Patch.added_of_shownBy (preamble : List Text) (hunks : List HunkChange)
    (script : List BodyEntry) (old new : List Text)
    (before : ∀ line ∈ preamble, OneLine line ∧ HunkHeader.opens line = false)
    (writable : ∀ hunk ∈ hunks, hunk.Writable)
    (turns : Turns script old new) (shown : ShownBy 1 script hunks) :
    ∃ added, Patch.added (unlines (preamble ++ hunks.flatMap HunkChange.lines)) = .ok added ∧
      added.map AddedLine.content =
        (script.filter fun entry => entry.kind = .added).map BodyEntry.line ∧
      (added.map AddedLine.lineNumber).Pairwise (· < ·) ∧
      ∀ line ∈ added, ∃ text, line.content = '+' :: text ∧ 1 ≤ line.lineNumber ∧
        new[line.lineNumber - 1]? = some text := by
  have oneLine : ∀ line ∈ preamble ++ hunks.flatMap HunkChange.lines, OneLine line := by
    intro line inside
    rcases List.mem_append.mp inside with front | behind
    · exact (before line front).1
    · obtain ⟨hunk, member, inside⟩ := List.mem_flatMap.mp behind
      exact (writable hunk member).oneLine_of_mem_lines inside
  have cut : Hunk.cutAtHeaders (preamble ++ hunks.flatMap HunkChange.lines) =
      (preamble, hunks.map HunkChange.hunk) := by
    have written : hunks.flatMap HunkChange.lines =
        (hunks.map HunkChange.hunk).flatMap Hunk.lines := by
      rw [List.flatMap_map]
      rfl
    rw [written]
    refine Hunk.cutAtHeaders_append_hunks (fun line inside => (before line inside).2) ?_
    intro hunk inside
    obtain ⟨change, -, rfl⟩ := List.mem_map.mp inside
    exact change.whole_hunk
  refine ⟨Hunk.addedFrom 1 (script.map BodyEntry.line), ?_, ?_,
    Hunk.pairwise_lineNumber_addedFrom 1 _, fun line inside => turns.position inside⟩
  · rw [Patch.added_unlines oneLine, cut, shown.addedOfHunks writable]
  · rw [Hunk.content_addedFrom, List.filter_map]
    simp [Function.comp_def]

/-- A line replaced, with a remark in between. -/
def replacingHunk : HunkChange :=
  ⟨⟨['1'], some ['2'], ['1'], some ['2'], []⟩,
    [⟨.context, ['a']⟩, ⟨.removed, ['b']⟩, ⟨.remark, " No newline at end of file".toList⟩,
      ⟨.added, ['x']⟩]⟩

/-- A line inserted that looks like a name. -/
def insertingHunk : HunkChange :=
  ⟨⟨['3'], some ['0'], ['4'], none, " f()".toList⟩, [⟨.added, "++ b/y".toList⟩]⟩

/-- A deletion whose start in the new file is made up. -/
def deletingHunk : HunkChange :=
  ⟨⟨['4'], none, ['9'], some ['0'], []⟩, [⟨.removed, ['d']⟩]⟩

theorem Patch.added_of_shownBy_gapped :
    ∃ script, Turns script [['a'], ['b'], ['c'], ['d'], ['e']]
        [['a'], ['x'], ['c'], "++ b/y".toList, ['e']] ∧
      ShownBy 1 script [replacingHunk, insertingHunk, deletingHunk] ∧
      ∃ added, Patch.added (unlines (["index 1..2".toList] ++
          [replacingHunk, insertingHunk, deletingHunk].flatMap HunkChange.lines)) = .ok added ∧
        added.map AddedLine.content = ["+x".toList, "+++ b/y".toList] := by
  let script : List BodyEntry := replacingHunk.steps ++ (⟨.context, ['c']⟩ ::
    (insertingHunk.steps ++ (deletingHunk.steps ++ [⟨.context, ['e']⟩])))
  have turns : Turns script [['a'], ['b'], ['c'], ['d'], ['e']]
      [['a'], ['x'], ['c'], "++ b/y".toList, ['e']] :=
    .keep _ (.delete _ (.insert _ (.keep _ (.insert _ (.delete _ (.keep _ .done))))))
  have last : ShownBy 5 [⟨.context, ['e']⟩] [] := .leave ['e'] (.done 6)
  have behindGap : ShownBy 4 (insertingHunk.steps ++ (deletingHunk.steps ++ [⟨.context, ['e']⟩]))
      [insertingHunk, deletingHunk] :=
    .cover insertingHunk (by decide) (.cover deletingHunk (by decide) last)
  have shown : ShownBy 1 script [replacingHunk, insertingHunk, deletingHunk] :=
    .cover replacingHunk (by decide) (.leave ['c'] behindGap)
  obtain ⟨added, read, content, -, -⟩ := Patch.added_of_shownBy ["index 1..2".toList]
    [replacingHunk, insertingHunk, deletingHunk] script _ _ (by decide) (by decide) turns shown
  exact ⟨script, turns, shown, added, read, content⟩

end DirectiveReview
