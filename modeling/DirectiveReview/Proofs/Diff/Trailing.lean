/-
# Lines behind the last hunk

In a series of patches the last hunk of a file is followed by lines that belong to
no hunk: a signature, and the message of the next patch.  The walk over the diff
counts the lines of each hunk and so knows that these lie outside, but it keeps
them in the part of the file before them.  There the patch is cut at headers
alone, and they go to the body of the last hunk.

Both halves of this are stated for any trailer of lines without structure.  The
files of the diff are those of the diff without the trailer, the one file with
the trailer in its patch apart; and that patch adds, besides the lines of its
hunks, every line of the trailer with a plus sign in front.
-/

import DirectiveReview.Proofs.Diff.RoundTrip

namespace DirectiveReview

open Text

namespace BodyEntry

variable {entries : List BodyEntry}

/-- Remarks are lines of neither file. -/
theorem oldLines_of_remarks (remarks : ∀ entry ∈ entries, entry.kind = .remark) :
    oldLines entries = 0 := by
  refine List.countP_eq_zero.mpr fun entry inside => ?_
  simp [remarks entry inside, BodyLine.inOld]

theorem newLines_of_remarks (remarks : ∀ entry ∈ entries, entry.kind = .remark) :
    newLines entries = 0 := by
  refine List.countP_eq_zero.mpr fun entry inside => ?_
  simp [remarks entry inside, BodyLine.inNew]

/-- A cut with only remarks below it goes through the entries of the last hunk. -/
theorem exists_of_append_eq {front above below : List Text} {header : Text}
    (cut : front ++ header :: entries.map line = above ++ below)
    (noRemark : BodyLine.of header ≠ .remark)
    (remarks : ∀ line ∈ below, BodyLine.of line = .remark) :
    ∃ counted late, entries = counted ++ late ∧ above = front ++ header :: counted.map line ∧
      below = late.map line := by
  have split : (front ++ [header]) ++ entries.map line = above ++ below := by
    rw [← cut, List.append_assoc, List.singleton_append]
  rcases List.append_eq_append_iff.mp split with ⟨shown, rfl, body⟩ | ⟨hidden, upper, rfl⟩
  · obtain ⟨counted, late, rfl, rfl, rfl⟩ := List.map_eq_append_iff.mp body
    exact ⟨counted, late, rfl, by simp, rfl⟩
  · obtain rfl | ⟨init, last, rfl⟩ := List.eq_nil_or_concat' hidden
    · exact ⟨[], entries, rfl, by simpa using upper.symm, rfl⟩
    · -- The header would be below the cut, but it is no remark.
      rw [← List.append_assoc] at upper
      obtain ⟨-, same⟩ := List.append_inj' upper rfl
      have isHeader : last = header := (List.singleton_inj.mp same).symm
      refine absurd (remarks header ?_) noRemark
      simp [isHeader]

end BodyEntry

theorem HunkHeader.of_text_ne_remark (h : HunkHeader) : BodyLine.of h.text ≠ .remark := by
  rw [text_eq]
  exact BodyLine.noConfusion

/-- A hunk without the remarks at its end is a hunk with the same counts. -/
theorem HunkChange.wellFormed_of_remarks {header : HunkHeader} {counted late : List BodyEntry}
    (wellFormed : WellFormed ⟨header, counted ++ late⟩)
    (remarks : ∀ entry ∈ late, entry.kind = .remark) : WellFormed ⟨header, counted⟩ := by
  have old := wellFormed.oldCount
  have new := wellFormed.newCount
  simp only [BodyEntry.oldLines_append, BodyEntry.oldLines_of_remarks remarks] at old
  simp only [BodyEntry.newLines_append, BodyEntry.newLines_of_remarks remarks] at new
  exact {
    header := wellFormed.header
    heading := wellFormed.heading
    texts := fun entry inside => wellFormed.texts entry (List.mem_append_left late inside)
    start := wellFormed.start
    oldCount := old
    newCount := new }

namespace HunkChange

theorem added_of_remarks {header : HunkHeader} {counted late : List BodyEntry}
    (remarks : ∀ entry ∈ late, entry.kind = .remark) :
    added ⟨header, counted ++ late⟩ = added ⟨header, counted⟩ := by
  have silent : Hunk.newLines (late.map BodyEntry.line) = 0 := by
    rw [Hunk.newLines_map_line, BodyEntry.newLines_of_remarks remarks]
  rw [← addedFrom_entries, ← addedFrom_entries, List.map_append, Hunk.addedFrom_append,
    Hunk.addedFrom_of_newLines_eq_zero silent, List.append_nil]
  rfl

/-- The hunk that is found where a trailer follows. -/
def trailedHunk (change : HunkChange) (trailer : List Text) : Hunk :=
  ⟨change.header.text, change.entries.map BodyEntry.line ++ trailer⟩

/-- A hunk adds the lines of a trailer with a plus sign to its own. -/
theorem added_trailedHunk (change : HunkChange) (writable : change.Writable)
    (trailer : List Text) :
    (change.trailedHunk trailer).added = .ok (change.added ++
      Hunk.addedFrom (change.start + BodyEntry.newLines change.entries) trailer) := by
  rw [Hunk.added, trailedHunk, HunkHeader.newStartOf_text writable.header writable.start,
    ← addedFrom_entries, ← Hunk.newLines_map_line, ← Hunk.addedFrom_append]
  rfl

end HunkChange

namespace FileChange

variable {change : FileChange} {init : List HunkChange} {last : HunkChange}

/-- The line of the new file behind the last hunk. -/
def next (change : FileChange) : Nat :=
  (change.hunks.getLast?.map fun hunk => hunk.start + BodyEntry.newLines hunk.entries).getD 0

theorem next_of_hunks (hunks : change.hunks = init ++ [last]) :
    change.next = last.start + BodyEntry.newLines last.entries := by
  simp [next, hunks]

/-- The lines of a git section with hunks down to the end of the first of these. -/
def linesThrough (change : FileChange) (init : List HunkChange) : List Text :=
  change.gitLine :: (change.extended ++ change.nameLines .git) ++ init.flatMap HunkChange.lines

theorem lines_of_hunks (hunks : change.hunks = init ++ [last]) :
    change.lines .git =
      change.linesThrough init ++ last.header.text :: last.entries.map BodyEntry.line := by
  simp [lines, head, hunkLines, linesThrough, hunks, HunkChange.lines, HunkChange.hunk, Hunk.lines]

def trailedFile (change : FileChange) (trailer : List Text) : FileDiff :=
  ⟨(change.readFile .git).path, unlines (change.lines .git ++ trailer)⟩

/-- A change is what another one is without remarks at its end: it is written as
the lines above them, and its path, its added lines and the number behind it are the
same. -/
structure TrimmedTo (change trimmed : FileChange) (above : List Text) : Prop where
  wellFormed : trimmed.WellFormed
  hasHunk : trimmed.hunks ≠ []
  lines : trimmed.lines .git = above
  path : (trimmed.readFile .git).path = (change.readFile .git).path
  added : trimmed.added = change.added
  next : trimmed.next = change.next

/-- A section can be cut anywhere among the remarks at its end. -/
theorem exists_trimmedTo (wellFormed : change.WellFormed) (hasHunk : change.hunks ≠ [])
    {above below : List Text} (cut : change.lines .git = above ++ below)
    (remarks : ∀ line ∈ below, BodyLine.of line = .remark) :
    ∃ trimmed, change.TrimmedTo trimmed above := by
  obtain none | ⟨init, ⟨header, entries⟩, hunks⟩ := List.eq_nil_or_concat' change.hunks
  · exact absurd none hasHunk
  rw [lines_of_hunks hunks] at cut
  obtain ⟨counted, late, rfl, rfl, rfl⟩ :=
    BodyEntry.exists_of_append_eq cut header.of_text_ne_remark remarks
  have lateRemarks : ∀ entry ∈ late, entry.kind = .remark := by
    intro entry inside
    rw [← entry.of_line]
    exact remarks entry.line (List.mem_map_of_mem inside)
  have lastWellFormed : HunkChange.WellFormed ⟨header, counted ++ late⟩ :=
    wellFormed.hunks _ (by simp [hunks])
  let trimmed : FileChange := { change with hunks := init ++ [⟨header, counted⟩] }
  have trimmedHunks : trimmed.hunks = init ++ [⟨header, counted⟩] := rfl
  have trimmedWellFormed : trimmed.WellFormed := by
    refine ⟨wellFormed.old, wellFormed.new, wellFormed.extended, fun hunk inside => ?_⟩
    rcases List.mem_append.mp inside with earlier | here
    · exact wellFormed.hunks hunk (hunks ▸ List.mem_append_left _ earlier)
    · obtain rfl := List.mem_singleton.mp here
      exact HunkChange.wellFormed_of_remarks lastWellFormed lateRemarks
  have paths : trimmed.readPaths .git = change.readPaths .git := by
    unfold readPaths
    rw [if_neg (by simp [trimmed]), if_neg (by simp [hasHunk])]
    rfl
  exact ⟨trimmed, {
    wellFormed := trimmedWellFormed
    hasHunk := by simp [trimmed]
    lines := lines_of_hunks trimmedHunks
    path := by rw [readFile, readFile, paths]
    added := by simp [added, trimmedHunks, hunks, HunkChange.added_of_remarks lateRemarks]
    next := by
      rw [next_of_hunks trimmedHunks, next_of_hunks hunks, BodyEntry.newLines_append,
        BodyEntry.newLines_of_remarks lateRemarks]
      rfl }⟩

/-- Remarks at the end of a section do not look like any other part of it. -/
theorem unstructured_of_lines_eq_append (wellFormed : change.WellFormed)
    {above below : List Text} (cut : change.lines .git = above ++ below)
    (remarks : ∀ line ∈ below, BodyLine.of line = .remark) {line : Text} (inside : line ∈ below) :
    OneLine line ∧ Unstructured line := by
  have member : line ∈ change.lines .git := cut ▸ List.mem_append_right above inside
  exact ⟨oneLine_of_mem_lines wellFormed member, Unstructured.of_remark (remarks line inside)⟩

/-- The patch of a section with a trailer adds what its hunks add, and every line of
the trailer with a plus sign in front. -/
theorem added_trailedFile (wellFormed : change.WellFormed) (hasHunk : change.hunks ≠ [])
    {trailer : List Text} (plain : ∀ line ∈ trailer, OneLine line ∧ Unstructured line) :
    Patch.added (change.trailedFile trailer).patch =
      .ok (change.added ++ Hunk.addedFrom change.next trailer) := by
  obtain none | ⟨init, last, hunks⟩ := List.eq_nil_or_concat' change.hunks
  · exact absurd none hasHunk
  have oneLine : ∀ line ∈ change.lines .git ++ trailer, OneLine line := by
    intro line inside
    rcases List.mem_append.mp inside with own | behind
    · exact oneLine_of_mem_lines wellFormed own
    · exact (plain line behind).1
  have cut : Hunk.cutAtHeaders (change.lines .git ++ trailer) =
      (change.head .git, init.map HunkChange.hunk ++ [last.trailedHunk trailer]) := by
    have written : change.lines .git ++ trailer = change.head .git ++
        (init.map HunkChange.hunk ++ [last.trailedHunk trailer]).flatMap Hunk.lines := by
      have earlier : (init.map HunkChange.hunk).flatMap Hunk.lines =
          init.flatMap HunkChange.lines := by
        rw [List.flatMap_map]
        rfl
      rw [List.flatMap_append, earlier, lines, hunkLines, hunks]
      simp [HunkChange.trailedHunk, HunkChange.hunk, HunkChange.lines, Hunk.lines]
    rw [written]
    refine Hunk.cutAtHeaders_append_hunks (fun line => opens_of_mem_head wellFormed) ?_
    intro hunk inside
    rcases List.mem_append.mp inside with earlier | here
    · obtain ⟨written, -, rfl⟩ := List.mem_map.mp earlier
      exact written.whole_hunk
    · obtain rfl := List.mem_singleton.mp here
      refine ⟨last.header.opens_text, fun line member => ?_⟩
      rcases List.mem_append.mp member with counted | further
      · exact last.whole_hunk.2 line counted
      · exact (plain line further).2.notHunk
  have writable : ∀ hunk ∈ init ++ [last], hunk.Writable := by
    rw [← hunks]
    exact fun hunk inside => (wellFormed.hunks hunk inside).toWritable
  have earlier : Patch.addedOfHunks (init.map HunkChange.hunk) =
      .ok (init.flatMap HunkChange.added) :=
    HunkChange.addedOfHunks_map_hunk fun hunk inside =>
      writable hunk (List.mem_append_left _ inside)
  have here := last.added_trailedHunk (writable last (by simp)) trailer
  rw [trailedFile, Patch.added_unlines oneLine, cut, Patch.addedOfHunks_append, earlier,
    Patch.addedOfHunks, here, next_of_hunks hunks, added, hunks]
  simp [Patch.addedOfHunks]
  rfl

end FileChange

namespace FileDiff.Cursor

/-- A run is not changed by lines without structure before it. -/
theorem run_preamble {preamble : List Text} (plain : ∀ line ∈ preamble, Unstructured line)
    (rest : List Text) : start.run (preamble ++ rest) = start.run rest := by
  rw [run_append, walk_preamble _ plain]
  show (do
    let more ← start.run rest
    return [] ++ more) = _
  cases start.run rest <;> rfl

/-- A run over a git section with a trailer and further sections completes the file
before it, the section with its trailer, and the further files. -/
theorem run_trailed (c : Cursor) {change : FileChange} (wellFormed : change.WellFormed)
    {trailer : List Text} (plain : ∀ line ∈ trailer, OneLine line ∧ Unstructured line)
    {after : List FileChange} (others : ∀ change ∈ after, change.WellFormed) :
    c.run (change.lines .git ++ trailer ++ renderedLines .git after) =
      .ok (c.close ++ change.trailedFile trailer :: after.map (FileChange.readFile .git)) := by
  have own (below : Option Text) :
      c.walk below (change.lines .git) = .ok (c.close, change.cursor .git) :=
    walk_lines (Or.inl rfl) below wellFormed
  have behind (below : Option Text) :
      (change.cursor .git).walk below trailer = .ok ([], (change.cursor .git).pushAll trailer) :=
    walk_unstructured below (fun line inside => (plain line inside).2) rfl
      (by simp [FileChange.cursor, FileChange.lines_ne_nil])
  have closed : ((change.cursor .git).pushAll trailer).close = [change.trailedFile trailer] := by
    simp [close, pushAll, FileChange.cursor, FileChange.trailedFile, FileChange.readFile,
      FileChange.lines_ne_nil]
  rw [run_append, walk_append_of_walk (own _) (behind _)]
  show (do
    let more ← ((change.cursor .git).pushAll trailer).run (renderedLines .git after)
    return c.close ++ [] ++ more) = _
  rw [run_renderedLines (Or.inl rfl) others, closed, List.append_nil]
  rfl

end FileDiff.Cursor

end DirectiveReview
