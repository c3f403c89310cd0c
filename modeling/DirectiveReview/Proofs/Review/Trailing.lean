/-
# Reviewing a series of patches

The counts of a hunk header say which lines are its body, and the walk over a diff
goes by them.  The patch of a file is cut by another rule, at headers alone, and so
a line that follows the last hunk of a file is read as part of it.  In a series of
patches the message of the next one stands there, and a line of it that starts
with a plus sign and holds a directive is reported for the file above.

The two rules are compared on well-formed diffs.  Lines without structure behind a
hunk change nothing but by their plus signs, the added lines that they bring are
numbered on from the hunk, and the review is the same exactly if none of them has
a directive, or the file is ignored.
-/

import DirectiveReview.Proofs.Diff.Trailing
import DirectiveReview.Proofs.Review.Violations

namespace DirectiveReview

open Text FileDiff

theorem Violation.exists_find_readFile (style : DiffStyle) {changes : List FileChange}
    (wellFormed : ∀ change ∈ changes, change.WellFormed) (settings : ReviewSettings) :
    ∃ violations, find settings (changes.map (FileChange.readFile style)) = .ok violations := by
  refine exists_find (fun file inside => ?_) settings
  obtain ⟨change, member, rfl⟩ := List.mem_map.mp inside
  exact ⟨change.added, FileChange.added_patch (wellFormed change member)⟩

/-- A git diff, and a trailer for one of its files.  The lines of this file are
given in two parts, for the trailer goes between them. -/
structure TrailedDiff where
  preamble : List Text
  before : List FileChange
  change : FileChange
  above : List Text
  below : List Text
  trailer : List Text
  after : List FileChange

namespace TrailedDiff

variable (diff : TrailedDiff)

/-- The lines of the diff with some lines in the place of the trailer. -/
def linesWith (lines : List Text) : List Text :=
  diff.preamble ++ renderedLines .git diff.before ++ (diff.above ++ lines ++ diff.below) ++
    renderedLines .git diff.after

/-- The diff is well formed, the trailer is no structure, and it stands behind the
counted lines of the last hunk of its file, where only remarks may follow. -/
structure WellFormed : Prop where
  preamble : ∀ line ∈ diff.preamble, OneLine line ∧ Unstructured line
  before : ∀ change ∈ diff.before, change.WellFormed
  change : diff.change.WellFormed
  hasHunk : diff.change.hunks ≠ []
  parts : diff.change.lines .git = diff.above ++ diff.below
  below : ∀ line ∈ diff.below, BodyLine.of line = .remark
  trailer : ∀ line ∈ diff.trailer, OneLine line ∧ Unstructured line
  after : ∀ change ∈ diff.after, change.WellFormed

/-- The path that the file with the trailer is reported by. -/
def path : Text :=
  (diff.change.readFile .git).path

/-- The violations that are reported for lines in the place of the trailer. -/
def reported (settings : ReviewSettings) (lines : List Text) : List Violation :=
  if IgnoreList.covers settings.ignorePaths diff.path then []
  else (Hunk.addedFrom diff.change.next lines).filterMap (Violation.ofLine? diff.path)

@[simp]
theorem reported_nil (settings : ReviewSettings) : diff.reported settings [] = [] := by
  simp [reported, Hunk.addedFrom]

/-- Nothing is reported for lines exactly if the file is ignored or none of those
with a plus sign has a directive. -/
theorem reported_eq_nil_iff (settings : ReviewSettings) (lines : List Text) :
    diff.reported settings lines = [] ↔
      IgnoreList.covers settings.ignorePaths diff.path = true ∨
        ∀ line ∈ lines, BodyLine.of line = .added → Directive.rules? line = none := by
  have silent (added : AddedLine) : Violation.ofLine? diff.path added = none ↔
      Directive.rules? added.content = none := Option.map_eq_none_iff
  rw [reported]
  split
  · next ignored => simp [ignored]
  · next looked =>
      rw [List.filterMap_eq_nil_iff, or_iff_right looked]
      simp only [silent]
      rw [← List.forall_mem_map (P := fun line => Directive.rules? line = none),
        Hunk.content_addedFrom]
      simp

variable {diff}

/-- The lines of the diff without the trailer are those of its changes. -/
theorem linesWith_nil (wellFormed : diff.WellFormed) :
    diff.linesWith [] =
      diff.preamble ++ renderedLines .git (diff.before ++ diff.change :: diff.after) := by
  simp [linesWith, renderedLines, wellFormed.parts]

/-- Lines in the place of the trailer and the remarks below it are no structure. -/
theorem WellFormed.trailer_below (wellFormed : diff.WellFormed) {lines : List Text}
    (plain : ∀ line ∈ lines, OneLine line ∧ Unstructured line) :
    ∀ line ∈ lines ++ diff.below, OneLine line ∧ Unstructured line := by
  intro line inside
  rcases List.mem_append.mp inside with here | behind
  · exact plain line here
  · exact FileChange.unstructured_of_lines_eq_append wellFormed.change wellFormed.parts
      wellFormed.below behind

/-- Whatever stands in the place of the trailer, the files around it are those of
the diff. -/
theorem run_linesWith (wellFormed : diff.WellFormed) {trimmed : FileChange}
    (trims : diff.change.TrimmedTo trimmed diff.above) {lines : List Text}
    (plain : ∀ line ∈ lines ++ diff.below, OneLine line ∧ Unstructured line) :
    Cursor.start.run (diff.linesWith lines) =
      .ok (diff.before.map (FileChange.readFile .git) ++
        [trimmed.trailedFile (lines ++ diff.below)] ++
          diff.after.map (FileChange.readFile .git)) := by
  obtain ⟨rest, opened⟩ : ∃ rest, trimmed.lines .git ++ (lines ++ diff.below) ++
      renderedLines .git diff.after = trimmed.gitLine :: rest := ⟨_, rfl⟩
  have written : diff.linesWith lines = diff.preamble ++ (renderedLines .git diff.before ++
      (trimmed.lines .git ++ (lines ++ diff.below) ++ renderedLines .git diff.after)) := by
    simp [linesWith, trims.lines]
  have front : Cursor.start.run (renderedLines .git diff.before) = .ok _ :=
    Cursor.run_renderedLines (ready_start .git) wellFormed.before
  have behind : Cursor.start.run (trimmed.lines .git ++ (lines ++ diff.below) ++
      renderedLines .git diff.after) = .ok _ :=
    Cursor.run_trailed .start trims.wellFormed plain wellFormed.after
  rw [written, Cursor.run_preamble fun line inside => (wellFormed.preamble line inside).2, opened,
    Cursor.run_append_of_git rfl, ← opened, front, behind, List.append_assoc]
  rfl

/-- What the patch of the file adds with lines in the place of the trailer. -/
theorem added_with (wellFormed : diff.WellFormed) {trimmed : FileChange}
    (trims : diff.change.TrimmedTo trimmed diff.above) {lines : List Text}
    (plain : ∀ line ∈ lines ++ diff.below, OneLine line ∧ Unstructured line) :
    Patch.added (trimmed.trailedFile (lines ++ diff.below)).patch =
      .ok (diff.change.added ++ Hunk.addedFrom diff.change.next lines) := by
  have silent : Hunk.newLines diff.below = 0 := by
    refine List.countP_eq_zero.mpr fun line inside => ?_
    simp [wellFormed.below line inside, BodyLine.inNew]
  rw [FileChange.added_trailedFile trims.wellFormed trims.hasHunk plain, trims.added, trims.next,
    Hunk.addedFrom_append, Hunk.addedFrom_of_newLines_eq_zero silent, List.append_nil]

/-- The reviews of the diff with any lines in the place of the trailer differ only by
what is reported for these lines. -/
theorem exists_review_linesWith (wellFormed : diff.WellFormed) (settings : ReviewSettings) :
    ∃ front behind, ∀ lines : List Text, (∀ line ∈ lines, OneLine line ∧ Unstructured line) →
      ∀ (text : Text) (r : Resolver) (memory : Memory), text.lines = diff.linesWith lines →
        ∃ review after, Review.ofDiff r settings memory text = .ok (review, after) ∧
          review.violations = front ++ diff.reported settings lines ++ behind := by
  obtain ⟨trimmed, trims⟩ := FileChange.exists_trimmedTo wellFormed.change wellFormed.hasHunk
    wellFormed.parts wellFormed.below
  obtain ⟨first, searchFirst⟩ := Violation.exists_find_readFile .git wellFormed.before settings
  obtain ⟨last, searchLast⟩ := Violation.exists_find_readFile .git wellFormed.after settings
  let own : List Violation := if IgnoreList.covers settings.ignorePaths diff.path then []
    else diff.change.added.filterMap (Violation.ofLine? diff.path)
  refine ⟨first ++ own, last, fun lines plain text r memory same => ?_⟩
  have trailer := wellFormed.trailer_below plain
  have cut := run_linesWith wellFormed trims trailer
  rw [← same] at cut
  have path : (trimmed.trailedFile (lines ++ diff.below)).path = diff.path := trims.path
  have here : Violation.find settings [trimmed.trailedFile (lines ++ diff.below)] =
      .ok (own ++ diff.reported settings lines) := by
    rw [Violation.find_singleton (added_with wellFormed trims trailer), path, reported]
    by_cases ignored : IgnoreList.covers settings.ignorePaths diff.path = true
    · simp [own, ignored]
    · simp [own, ignored]
  have search : Violation.find settings (diff.before.map (FileChange.readFile .git) ++
      [trimmed.trailedFile (lines ++ diff.below)] ++
        diff.after.map (FileChange.readFile .git)) =
      .ok (first ++ (own ++ diff.reported settings lines) ++ last) := by
    rw [Violation.find_append, Violation.find_append, searchFirst, here, searchLast]
    rfl
  obtain ⟨review, after, reviewed, violations⟩ :=
    Review.exists_ofDiff_of_find cut search r memory
  exact ⟨review, after, reviewed, by rw [violations]; simp⟩

end TrailedDiff

/-- **Where the two rules differ.**  A trailer behind the counted lines of a hunk is
read as part of it: the patch of the file adds the lines of its hunks, and every line
of the trailer with a plus sign.  So the violations of the diff with the trailer are
those of the diff without it and further ones for the trailer, and they are the same
exactly if the file is ignored or no such line has a directive. -/
theorem Review.ofDiff_trailed (diff : TrailedDiff) (wellFormed : diff.WellFormed)
    (r : Resolver) (settings : ReviewSettings) (memory : Memory) (plain trailed : Text)
    (plainLines : plain.lines =
      diff.preamble ++ renderedLines .git (diff.before ++ diff.change :: diff.after))
    (trailedLines : trailed.lines = diff.linesWith diff.trailer) :
    ∃ review after trailedReview trailedAfter,
      ofDiff r settings memory plain = .ok (review, after) ∧
      ofDiff r settings memory trailed = .ok (trailedReview, trailedAfter) ∧
      (∃ front behind, review.violations = front ++ behind ∧
        trailedReview.violations =
          front ++ diff.reported settings diff.trailer ++ behind) ∧
      (trailedReview.violations = review.violations ↔
        IgnoreList.covers settings.ignorePaths diff.path = true ∨
          ∀ line ∈ diff.trailer, BodyLine.of line = .added → Directive.rules? line = none) ∧
      Patch.added (unlines (diff.above ++ diff.trailer ++ diff.below)) =
        .ok (diff.change.added ++ Hunk.addedFrom diff.change.next diff.trailer) := by
  obtain ⟨front, behind, reviews⟩ := TrailedDiff.exists_review_linesWith wellFormed settings
  have noTrailer := plainLines.trans (TrailedDiff.linesWith_nil wellFormed).symm
  obtain ⟨review, after, reviewed, violations⟩ := reviews [] (by simp) plain r memory noTrailer
  obtain ⟨trailedReview, trailedAfter, trailedReviewed, trailedViolations⟩ :=
    reviews diff.trailer wellFormed.trailer trailed r memory trailedLines
  have without : review.violations = front ++ behind := by
    rw [violations, TrailedDiff.reported_nil, List.append_nil]
  refine ⟨review, after, trailedReview, trailedAfter, reviewed, trailedReviewed,
    ⟨front, behind, without, trailedViolations⟩, ?_, ?_⟩
  · rw [← diff.reported_eq_nil_iff, trailedViolations, without]
    simp
  · obtain ⟨trimmed, trims⟩ := FileChange.exists_trimmedTo wellFormed.change wellFormed.hasHunk
      wellFormed.parts wellFormed.below
    have behind := wellFormed.trailer_below wellFormed.trailer
    have read := TrailedDiff.added_with wellFormed trims behind
    rwa [FileChange.trailedFile, trims.lines, ← List.append_assoc] at read

def seriesChange : FileChange :=
  ⟨"x.rb".toList, "x.rb".toList, .both, ["index 1..2 100644".toList],
    [⟨⟨['1'], none, ['1'], none, []⟩,
      [⟨.removed, ['a']⟩, ⟨.added, ['b']⟩, ⟨.remark, " No newline at end of file".toList⟩]⟩]⟩

/-- Two patches of a series.  The message of the second lists what is new with plus
signs, and one of these lines has a directive. -/
def seriesDiff : TrailedDiff where
  preamble := ["Subject: [PATCH 1/2] first".toList, "---".toList]
  before := []
  change := seriesChange
  above := (seriesChange.lines .git).dropLast
  below := ["\\ No newline at end of file".toList]
  trailer := ["-- ".toList, "2.40.0".toList, [], "Subject: [PATCH 2/2] second".toList,
    "+ a note # rubocop:disable X".toList]
  after := [⟨"y.rb".toList, "y.rb".toList, .onlyNew, ["new file mode 100644".toList],
    [⟨⟨['0'], some ['0'], ['1'], none, []⟩, [⟨.added, ['c']⟩]⟩]⟩]

theorem Review.ofDiff_trailed_seriesDiff :
    seriesDiff.WellFormed ∧
      ∃ review after trailedReview trailedAfter,
        ofDiff ⟨Lookup.disabled, 1, Schedule.inOrder, by decide⟩ ⟨[], [], []⟩ Memory.empty
          (terminated (seriesDiff.linesWith [])) = .ok (review, after) ∧
        ofDiff ⟨Lookup.disabled, 1, Schedule.inOrder, by decide⟩ ⟨[], [], []⟩ Memory.empty
          (terminated (seriesDiff.linesWith seriesDiff.trailer)) =
            .ok (trailedReview, trailedAfter) ∧
        trailedReview.violations ≠ review.violations := by
  have wellFormed : seriesDiff.WellFormed :=
    ⟨by decide, by decide, by decide, by decide, by decide, by decide, by decide, by decide⟩
  have plainLines : (terminated (seriesDiff.linesWith [])).lines = _ :=
    (lines_terminated (by decide)).trans (TrailedDiff.linesWith_nil wellFormed)
  have trailedLines : (terminated (seriesDiff.linesWith seriesDiff.trailer)).lines = _ :=
    lines_terminated (by decide)
  obtain ⟨review, after, trailedReview, trailedAfter, reviewed, trailedReviewed, -, same, -⟩ :=
    ofDiff_trailed seriesDiff wellFormed ⟨Lookup.disabled, 1, Schedule.inOrder, by decide⟩
      ⟨[], [], []⟩ Memory.empty _ _ plainLines trailedLines
  have differs : trailedReview.violations ≠ review.violations := by
    rw [Ne, same]
    decide
  exact ⟨wellFormed, review, after, trailedReview, trailedAfter, reviewed, trailedReviewed, differs⟩

end DirectiveReview
