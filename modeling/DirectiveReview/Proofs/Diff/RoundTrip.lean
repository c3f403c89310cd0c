/-
# Writing a diff and reading it back

The text that well-formed changes are written as is cut into one file for each
change, in order.  Each file has the patch that was written for it; the patch has
the hunks that were written, found by their headers alone, and adds the lines that
the hunks add.  No text in a body, and no mixture of remarks, omitted counts and
counts of zero, moves a boundary.

The path of a file comes back where it is legible.  It cannot come back in
general: a name is written without quotes, so a tab in it looks like the one that
sets off a time stamp.
-/

import DirectiveReview.Proofs.Diff.Names
import DirectiveReview.Proofs.Diff.Numbering
import Mathlib.Data.List.Forall2

namespace DirectiveReview

open Text

theorem HunkChange.Writable.oneLine_of_mem_lines {change : HunkChange}
    (writable : change.Writable) {line : Text} (inside : line ∈ change.lines) : OneLine line := by
  rcases List.mem_cons.mp inside with rfl | body
  · exact HunkHeader.oneLine_text writable.header writable.heading
  · obtain ⟨entry, member, rfl⟩ := List.mem_map.mp body
    exact BodyEntry.oneLine_line (writable.texts entry member)

/-- No line of a hunk is empty: each has a mark or is a header. -/
theorem HunkChange.ne_nil_of_mem_lines (change : HunkChange) {line : Text}
    (inside : line ∈ change.lines) : line ≠ [] := by
  rcases List.mem_cons.mp inside with rfl | body
  · intro empty
    have header := change.header.opens_text
    rw [show change.header.text = [] from empty] at header
    cases header
  · obtain ⟨entry, -, rfl⟩ := List.mem_map.mp body
    exact entry.line_ne_nil

namespace FileChange

variable {style : DiffStyle} {change : FileChange}

/-- No part of the head of a change is a hunk header. -/
theorem opens_of_mem_head (wellFormed : change.WellFormed) {line : Text}
    (inside : line ∈ change.head style) : HunkHeader.opens line = false := by
  have names {style : DiffStyle} (inside : line ∈ change.nameLines style) :
      HunkHeader.opens line = false := by
    rcases List.mem_pair.mp inside with rfl | rfl <;> rfl
  cases style with
  | plain sided => exact names inside
  | git =>
      rcases List.mem_append.mp inside with front | behind
      · rcases List.mem_cons.mp front with rfl | further
        · rfl
        · exact (wellFormed.extended line further).2.notHunk
      · split at behind
        · cases behind
        · exact names behind

theorem oneLine_of_mem_nameLines (wellFormed : change.WellFormed) {line : Text}
    (inside : line ∈ change.nameLines style) : OneLine line := by
  have old : OneLine (change.oldName style) := by
    unfold oldName
    split
    · decide
    · have lead : OneLine style.oldLead := by rcases style with _ | (_ | _) <;> decide
      exact oneLine_append.mpr ⟨lead, wellFormed.old⟩
  have new : OneLine (change.newName style) := by
    unfold newName
    split
    · decide
    · have lead : OneLine style.newLead := by rcases style with _ | (_ | _) <;> decide
      exact oneLine_append.mpr ⟨lead, wellFormed.new⟩
  rcases List.mem_pair.mp inside with rfl | rfl
  · exact oneLine_append.mpr ⟨by decide, old⟩
  · exact oneLine_append.mpr ⟨by decide, new⟩

theorem oneLine_of_mem_head (wellFormed : change.WellFormed) {line : Text}
    (inside : line ∈ change.head style) : OneLine line := by
  cases style with
  | plain sided => exact oneLine_of_mem_nameLines wellFormed inside
  | git =>
      rcases List.mem_append.mp inside with front | behind
      · rcases List.mem_cons.mp front with rfl | further
        · unfold gitLine
          simp only [oneLine_append]
          exact ⟨⟨⟨by decide, wellFormed.old⟩, by decide⟩, wellFormed.new⟩
        · exact (wellFormed.extended line further).1
      · split at behind
        · cases behind
        · exact oneLine_of_mem_nameLines wellFormed behind

theorem oneLine_of_mem_lines (wellFormed : change.WellFormed) {line : Text}
    (inside : line ∈ change.lines style) : OneLine line := by
  rcases List.mem_append.mp inside with front | behind
  · exact oneLine_of_mem_head wellFormed front
  · obtain ⟨hunk, member, inside⟩ := List.mem_flatMap.mp behind
    exact (wellFormed.hunks hunk member).oneLine_of_mem_lines inside

/-- The hunks of a written change are found by their headers. -/
theorem cutAtHeaders_lines (wellFormed : change.WellFormed) :
    Hunk.cutAtHeaders (change.lines style) =
      (change.head style, change.hunks.map HunkChange.hunk) := by
  have written : change.hunkLines = (change.hunks.map HunkChange.hunk).flatMap Hunk.lines := by
    rw [List.flatMap_map]
    rfl
  rw [lines, written]
  refine Hunk.cutAtHeaders_append_hunks (fun line => opens_of_mem_head wellFormed) ?_
  intro hunk inside
  obtain ⟨written, -, rfl⟩ := List.mem_map.mp inside
  exact written.whole_hunk

/-- The patch of a change adds the lines that its hunks add. -/
theorem added_patch (wellFormed : change.WellFormed) :
    Patch.added (change.patch style) = .ok change.added := by
  rw [patch, Patch.added_unlines fun line => oneLine_of_mem_lines wellFormed,
    cutAtHeaders_lines wellFormed]
  exact HunkChange.addedOfHunks_map_hunk fun hunk inside =>
    (wellFormed.hunks hunk inside).toWritable

end FileChange

/-- A written diff is cut into one file for each change. -/
theorem FileDiff.ofDiff_rendered {style : DiffStyle} {changes : List FileChange}
    (wellFormed : ∀ change ∈ changes, change.WellFormed) :
    ofDiff (rendered style changes) = .ok (changes.map (FileChange.readFile style)) := by
  have oneLine : ∀ line ∈ renderedLines style changes, OneLine line := by
    intro line inside
    obtain ⟨change, member, inside⟩ := List.mem_flatMap.mp inside
    exact FileChange.oneLine_of_mem_lines (wellFormed change member) inside
  rw [ofDiff, rendered, lines_terminated oneLine,
    Cursor.run_renderedLines (ready_start style) wellFormed]
  rfl

/-- The hunks found in the text of a patch are those that were written.  A patch
loses an empty line at its end when it is cut again, but no hunk has one. -/
theorem FileChange.cutAtHeaders_lines_patch {style : DiffStyle} {change : FileChange}
    (wellFormed : change.WellFormed) :
    (Hunk.cutAtHeaders (change.patch style).lines).2 = change.hunks.map HunkChange.hunk := by
  have oneLine : ∀ line ∈ change.lines style, OneLine line :=
    fun line => oneLine_of_mem_lines wellFormed
  rcases lines_unlines oneLine with same | less
  · rw [patch, same, cutAtHeaders_lines wellFormed]
  · have last : (change.head style ++ change.hunkLines).getLast? = some [] := by
      show (change.lines style).getLast? = some []
      rw [less, List.getLast?_concat]
    have noHunks : change.hunks = [] := by
      by_contra hasHunks
      have hunkLines : change.hunkLines ≠ [] := by
        obtain ⟨hunk, rest, split⟩ := List.exists_cons_of_ne_nil hasHunks
        simp [FileChange.hunkLines, split, HunkChange.lines, Hunk.lines]
      rw [List.getLast?_append_of_ne_nil _ hunkLines] at last
      obtain ⟨hunk, -, inside⟩ := List.mem_flatMap.mp (List.mem_of_getLast? last)
      exact hunk.ne_nil_of_mem_lines inside rfl
    have noHeader : ∀ line ∈ (change.patch style).lines, HunkHeader.opens line = false := by
      intro line inside
      have member : line ∈ change.lines style := mem_of_mem_lines_unlines oneLine inside
      have front : line ∈ change.head style := by
        simpa [FileChange.lines, FileChange.hunkLines, noHunks] using member
      exact opens_of_mem_head wellFormed front
    have cut := Hunk.cutAtHeaders_append noHeader []
    rw [List.append_nil] at cut
    rw [cut, noHunks]
    rfl

/-- A file is what was read off a change: it has the path of the change if this is
legible, the text that was written for it, the hunks, and what they add. -/
structure FileChange.ReadAs (style : DiffStyle) (change : FileChange) (file : FileDiff) :
    Prop where
  path : change.Legible style → file.path = change.path style
  patch : file.patch = change.patch style
  hunks : (Hunk.cutAtHeaders file.patch.lines).2 = change.hunks.map HunkChange.hunk
  added : Patch.added file.patch = .ok change.added

/-- **The round trip of a diff.**  Cutting the text of well-formed changes gives one
file for each change, in order, and each file is what was read off its change. -/
theorem FileDiff.ofDiff_rendered_readAs (style : DiffStyle) (changes : List FileChange)
    (wellFormed : ∀ change ∈ changes, change.WellFormed) :
    ∃ files, ofDiff (rendered style changes) = .ok files ∧
      List.Forall₂ (FileChange.ReadAs style) changes files := by
  refine ⟨changes.map (FileChange.readFile style), ofDiff_rendered wellFormed, ?_⟩
  rw [List.forall₂_map_right_iff, List.forall₂_same]
  intro change member
  exact {
    path := FileChange.path_readFile
    patch := rfl
    hunks := FileChange.cutAtHeaders_lines_patch (wellFormed change member)
    added := FileChange.added_patch (wellFormed change member) }

/-- Two changes that imitate what stands around them: a removed line and an added
line that look like a pair of names, the added one with a directive, a remark
behind the last counted line, counts left out, and a deleted file below. -/
def imitatingChanges : List FileChange :=
  [⟨"one.lua".toList, "one.lua".toList, .both, [],
      [⟨⟨['1'], none, ['1'], none, " f()".toList⟩,
        [⟨.removed, "-- a/two.rb".toList⟩,
          ⟨.added, "++ b/two.rb # rubocop:disable X".toList⟩,
          ⟨.remark, " No newline at end of file".toList⟩]⟩]⟩,
    ⟨"a/two.rb".toList, "a/two.rb".toList, .onlyOld, [],
      [⟨⟨['1'], some ['2'], ['0'], some ['0'], []⟩,
        [⟨.removed, "@@ -1 +1 @@".toList⟩, ⟨.removed, "diff --git a/x b/x".toList⟩]⟩]⟩]

theorem FileDiff.ofDiff_rendered_imitatingChanges :
    (∀ change ∈ imitatingChanges, change.WellFormed) ∧
      ∃ files, ofDiff (rendered (.plain true) imitatingChanges) = .ok files ∧
        List.Forall₂ (FileChange.ReadAs (.plain true)) imitatingChanges files := by
  have wellFormed : ∀ change ∈ imitatingChanges, change.WellFormed := by decide
  exact ⟨wellFormed, ofDiff_rendered_readAs (.plain true) imitatingChanges wellFormed⟩

/-- The change of a file with a tab in its name. -/
def tabbedChange : FileChange :=
  ⟨"notes\told.rb".toList, "notes\told.rb".toList, .both, [],
    [⟨⟨['0'], some ['0'], ['1'], none, []⟩, [⟨.added, ['a']⟩]⟩]⟩

/-- Not every path comes back: behind a tab a time stamp is expected, and the name
ends there. -/
theorem FileDiff.not_ofDiff_rendered_eq_paths :
    ¬ ∀ (style : DiffStyle) (changes : List FileChange),
      (∀ change ∈ changes, change.WellFormed ∧ change.old ≠ [] ∧ change.new ≠ []) →
      ofDiff (rendered style changes) =
        .ok (changes.map fun change => ⟨change.path style, change.patch style⟩) := by
  intro all
  have wellFormed : ∀ change ∈ [tabbedChange],
      change.WellFormed ∧ change.old ≠ [] ∧ change.new ≠ [] := by decide
  have whole := all .git [tabbedChange] wellFormed
  rw [ofDiff_rendered fun change member => (wellFormed change member).1] at whole
  have path : (tabbedChange.readFile .git).path = tabbedChange.path .git := by
    simpa using congrArg (List.map FileDiff.path) (Except.ok.inj whole)
  exact absurd path (by decide)

end DirectiveReview
