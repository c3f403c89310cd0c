/-
# Walking over a written diff

The lines of a well-formed change are walked part by part.  The invariant of a
hunk body is that the counts outstanding are the counts of the entries still to
come: as long as one of them belongs to a file the walk is inside the hunk, so no
text behind a mark can be taken for a header, and when none does only remarks are
left, which belong to the file under way like any line without structure.

A git section may be entered in any state.  A plain one must not be entered in
the middle of a hunk, and this is how the section before it is left.
-/

import DirectiveReview.Proofs.Diff.Sections

namespace DirectiveReview

open Text

namespace FileDiff.Cursor

/-- Add lines to the file under way. -/
def pushAll (c : Cursor) (ls : List Text) : Cursor :=
  { c with chunk := c.chunk ++ ls.toArray }

@[simp]
theorem pushAll_nil (c : Cursor) : c.pushAll [] = c := by
  simp [pushAll]

@[simp]
theorem pushAll_push (c : Cursor) (line : Text) (rest : List Text) :
    (c.push line).pushAll rest = c.pushAll (line :: rest) := by
  simp [pushAll, push]

/-- Lines without structure join the file under way. -/
theorem walk_unstructured {c : Cursor} {ls : List Text} (below : Option Text)
    (plain : ∀ line ∈ ls, Unstructured line) (outside : c.inHunk = false)
    (underWay : c.chunk.isEmpty = false) :
    c.walk below ls = .ok ([], c.pushAll ls) := by
  induction ls generalizing c with
  | nil => rw [walk_nil, pushAll_nil]
  | cons line rest ih =>
      have step : c.step line (rest.head?.or below) = .ok ([], c.push line) := by
        rw [step_of_unstructured (plain line List.mem_cons_self) outside, underWay]
        rfl
      have walked := ih (c := c.push line)
        (fun other inside => plain other (List.mem_cons_of_mem line inside)) outside
        (by simp [push])
      rw [walk_cons_of_step step walked, pushAll_push]
      rfl

/-- Lines without structure before the first file are left out. -/
theorem walk_preamble {ls : List Text} (below : Option Text)
    (plain : ∀ line ∈ ls, Unstructured line) : start.walk below ls = .ok ([], start) := by
  induction ls with
  | nil => rfl
  | cons line rest ih =>
      have step : start.step line (rest.head?.or below) = .ok ([], start) := by
        rw [step_of_unstructured (plain line List.mem_cons_self) rfl]
        rfl
      exact walk_cons_of_step step
        (ih fun other inside => plain other (List.mem_cons_of_mem line inside))

/-- Counting a body line takes one off for each file it belongs to. -/
theorem consume_line (c : Cursor) (entry : BodyEntry) :
    c.consume entry.line =
      { c with
        oldLeft := c.oldLeft - (if entry.kind.inOld then 1 else 0)
        newLeft := c.newLeft - (if entry.kind.inNew then 1 else 0) } := by
  obtain ⟨kind, text⟩ := entry
  cases kind <;> simp [consume, BodyLine.inOld, BodyLine.inNew]

/-- What one entry of a hunk body does.  While the counts outstanding are those of
the entry and the entries below it, the entry is a line of the hunk or a remark
behind it, and the counts left are those of the entries below. -/
theorem step_entry {c : Cursor} {below : Option Text} {entry : BodyEntry} {rest : List BodyEntry}
    (old : c.oldLeft = BodyEntry.oldLines (entry :: rest))
    (new : c.newLeft = BodyEntry.newLines (entry :: rest))
    (underWay : c.chunk.isEmpty = false) :
    c.step entry.line below = .ok ([], { c with
      oldLeft := BodyEntry.oldLines rest
      newLeft := BodyEntry.newLines rest }.push entry.line) := by
  rw [BodyEntry.oldLines_cons] at old
  rw [BodyEntry.newLines_cons] at new
  by_cases inside : c.inHunk = true
  · have oldRest : c.oldLeft - (if entry.kind.inOld then 1 else 0) = BodyEntry.oldLines rest := by
      rw [old]
      split <;> simp
    have newRest : c.newLeft - (if entry.kind.inNew then 1 else 0) = BodyEntry.newLines rest := by
      rw [new]
      split <;> simp
    rw [step_of_inHunk inside entry.opensGitSection_line entry.opens_line, consume_line, oldRest,
      newRest]
  · have used : c.oldLeft ≤ 0 ∧ c.newLeft ≤ 0 := by
      simpa [inHunk] using inside
    have noOld : entry.kind.inOld = false ∧ c.oldLeft = BodyEntry.oldLines rest := by
      cases belongs : entry.kind.inOld <;> simp [belongs] at old ⊢ <;> omega
    have noNew : entry.kind.inNew = false ∧ c.newLeft = BodyEntry.newLines rest := by
      cases belongs : entry.kind.inNew <;> simp [belongs] at new ⊢ <;> omega
    have remark : BodyLine.of entry.line = .remark :=
      entry.of_line.trans (BodyLine.eq_remark noOld.1 noNew.1)
    have plain := Unstructured.of_remark remark
    rw [step_of_unstructured plain (Bool.eq_false_iff.mpr inside), underWay, ← noOld.2, ← noNew.2]
    rfl

/-- Walking over a hunk body uses up the counts and adds all its lines to the file
under way. -/
theorem walk_entries {c : Cursor} {entries : List BodyEntry} (below : Option Text)
    (old : c.oldLeft = BodyEntry.oldLines entries) (new : c.newLeft = BodyEntry.newLines entries)
    (underWay : c.chunk.isEmpty = false) :
    c.walk below (entries.map BodyEntry.line) =
      .ok ([], { c with oldLeft := 0, newLeft := 0 }.pushAll (entries.map BodyEntry.line)) := by
  induction entries generalizing c with
  | nil =>
      obtain ⟨chunk, oldPath, newPath, seenHunk, oldLeft, newLeft⟩ := c
      obtain rfl : oldLeft = 0 := old
      obtain rfl : newLeft = 0 := new
      rw [List.map_nil, walk_nil, pushAll_nil]
  | cons entry rest ih =>
      have walked := ih (c := { c with
        oldLeft := BodyEntry.oldLines rest
        newLeft := BodyEntry.newLines rest }.push entry.line) rfl rfl (by simp [push])
      rw [List.map_cons, walk_cons_of_step (step_entry old new underWay) walked]
      simp [push, pushAll]

/-- Walking over a whole hunk, in any state: the header sets the counts that the
body uses up. -/
theorem walk_hunk (c : Cursor) (below : Option Text) {change : HunkChange}
    (wellFormed : change.WellFormed) :
    c.walk below change.lines =
      .ok ([], { c with seenHunk := true, oldLeft := 0, newLeft := 0 }.pushAll change.lines) := by
  let inside : Cursor := { c with
    seenHunk := true
    oldLeft := BodyEntry.oldLines change.entries
    newLeft := BodyEntry.newLines change.entries }.push change.header.text
  have step (below : Option Text) : c.step change.header.text below = .ok ([], inside) :=
    step_of_header change.header.opens_text change.header.opensGitSection_text
      (HunkHeader.countsOf_text wellFormed.header wellFormed.oldCount wellFormed.newCount)
  have walked : inside.walk below (change.entries.map BodyEntry.line) =
      .ok ([], { inside with oldLeft := 0, newLeft := 0 }.pushAll
        (change.entries.map BodyEntry.line)) :=
    walk_entries below rfl rfl (by simp [inside, push])
  refine (walk_cons_of_step (step _) walked).trans ?_
  simp [inside, push, pushAll, HunkChange.lines, Hunk.lines, HunkChange.hunk]

/-- Walking over a row of hunks outside a hunk. -/
theorem walk_hunks {c : Cursor} (old : c.oldLeft = 0) (new : c.newLeft = 0)
    (below : Option Text) {hunks : List HunkChange} (wellFormed : ∀ hunk ∈ hunks, hunk.WellFormed) :
    c.walk below (hunks.flatMap HunkChange.lines) =
      .ok ([], { c with seenHunk := c.seenHunk || !hunks.isEmpty }.pushAll
        (hunks.flatMap HunkChange.lines)) := by
  induction hunks generalizing c with
  | nil =>
      obtain ⟨chunk, oldPath, newPath, seenHunk, oldLeft, newLeft⟩ := c
      simp
  | cons hunk rest ih =>
      have first := walk_hunk c ((rest.flatMap HunkChange.lines).head?.or below)
        (wellFormed hunk List.mem_cons_self)
      have others := ih (c := { c with seenHunk := true, oldLeft := 0, newLeft := 0 }.pushAll
        hunk.lines) rfl rfl fun other inside => wellFormed other (List.mem_cons_of_mem hunk inside)
      rw [List.flatMap_cons, walk_append_of_walk first others]
      simp [pushAll, old, new]

/-- The state in which a pair of names is taken in: without the file that the pair
completes. -/
def beforeNames (c : Cursor) : Cursor :=
  if c.closedByNames then { c with chunk := #[], seenHunk := false } else c

/-- Walking over a pair of names outside a hunk. -/
theorem walk_names {c : Cursor} (outside : c.inHunk = false) (below : Option Text)
    (old new : Text) :
    c.walk below ["--- ".toList ++ old, "+++ ".toList ++ new] =
      .ok (if c.closedByNames then c.close else [],
        { c.beforeNames with
          oldPath := some (readName old)
          newPath := some (readName new) }.pushAll
            ["--- ".toList ++ old, "+++ ".toList ++ new]) := by
  have pair : (some ("+++ ".toList ++ new)).any namesNew = true := rfl
  by_cases closes : c.closedByNames = true
  · let named : Cursor := { c with
      chunk := #["--- ".toList ++ old], seenHunk := false, oldPath := some (readName old) }
    have first : c.step ("--- ".toList ++ old) (some ("+++ ".toList ++ new)) =
        .ok (c.close, named) := by
      rw [step_of_oldName old outside pair, if_pos closes]
    have second : named.step ("+++ ".toList ++ new) below = .ok ([], _) :=
      step_of_newName new outside
    refine (walk_cons_of_step first (walk_cons_of_step second (walk_nil _ _))).trans ?_
    simp [closes, beforeNames, named, push, pushAll]
  · let named : Cursor := { c with oldPath := some (readName old) }.push ("--- ".toList ++ old)
    have first : c.step ("--- ".toList ++ old) (some ("+++ ".toList ++ new)) =
        .ok ([], named) := by
      rw [step_of_oldName old outside pair, if_neg closes]
    have second : named.step ("+++ ".toList ++ new) below = .ok ([], _) :=
      step_of_newName new outside
    refine (walk_cons_of_step first (walk_cons_of_step second (walk_nil _ _))).trans ?_
    rw [if_neg closes, beforeNames, if_neg closes, ← pushAll_push, ← pushAll_push, pushAll_nil]
    rfl

end FileDiff.Cursor

namespace FileChange

open FileDiff

variable (style : DiffStyle) (change : FileChange)

/-- The old and the new path that are read off the lines of a change. -/
def readPaths : Option Text × Option Text :=
  if style = .git ∧ change.hunks = [] then gitPaths change.gitLine
  else (some (readName (change.oldName style)), some (readName (change.newName style)))

/-- The state behind the lines of a change. -/
def cursor : Cursor :=
  ⟨(change.lines style).toArray, (change.readPaths style).1, (change.readPaths style).2,
    !change.hunks.isEmpty, 0, 0⟩

/-- The file that is read off the lines of a change. -/
def readFile : FileDiff :=
  ⟨canonicalPath (change.readPaths style).1 (change.readPaths style).2, change.patch style⟩

theorem lines_ne_nil : change.lines style ≠ [] := by
  cases style <;> simp [lines, head, nameLines]

@[simp]
theorem close_cursor : (change.cursor style).close = [change.readFile style] := by
  simp [cursor, Cursor.close, readFile, patch, lines_ne_nil]

end FileChange

/-- A state in which the lines of a change can come.  A git section can come at any
time, a pair of names only outside a hunk, at the start or behind another pair. -/
def Ready (style : DiffStyle) (c : FileDiff.Cursor) : Prop :=
  style = .git ∨ c = .start ∨ c.oldLeft = 0 ∧ c.newLeft = 0 ∧ c.closedByNames = true

theorem ready_start (style : DiffStyle) : Ready style .start :=
  Or.inr (Or.inl rfl)

/-- Behind a change of some style another change of that style can come. -/
theorem FileChange.ready_cursor (style : DiffStyle) (change : FileChange) :
    Ready style (change.cursor style) := by
  cases style with
  | git => exact Or.inl rfl
  | plain sided =>
      refine Or.inr (Or.inr ⟨rfl, rfl, ?_⟩)
      have first : (change.cursor (.plain sided)).chunk[0]? =
          some ("--- ".toList ++ change.oldName (.plain sided)) := by
        simp [cursor, lines, head, nameLines]
      rw [FileDiff.Cursor.closedByNames, first]
      exact Bool.or_true _

namespace FileDiff.Cursor

/-- The head of a git section with names is its first line, any further lines, and the
pair of names; none of it completes a file but the first line. -/
theorem walk_namedHead (c : Cursor) (below : Option Text) {first : Text} {extended : List Text}
    (git : opensGitSection first = true) (plain : ∀ line ∈ extended, Unstructured line)
    (old new : Text) :
    c.walk below (first :: (extended ++ ["--- ".toList ++ old, "+++ ".toList ++ new])) =
      .ok (c.close,
        ⟨(first :: (extended ++ ["--- ".toList ++ old, "+++ ".toList ++ new])).toArray,
          some (readName old), some (readName new), false, 0, 0⟩) := by
  let opened : Cursor := ⟨#[first], (gitPaths first).1, (gitPaths first).2, false, 0, 0⟩
  have step (below : Option Text) : c.step first below = .ok (c.close, opened) :=
    step_of_git git
  have further (below : Option Text) :
      opened.walk below extended = .ok ([], opened.pushAll extended) :=
    walk_unstructured below plain rfl rfl
  have headed : (opened.pushAll extended).closedByNames = false := by
    have start : (opened.pushAll extended).chunk[0]? = some first := by
      simp [opened, pushAll]
    rw [closedByNames, start]
    simp [git, opened, pushAll]
  have names : (opened.pushAll extended).walk below
      ["--- ".toList ++ old, "+++ ".toList ++ new] =
        .ok ([], { opened.pushAll extended with
          oldPath := some (readName old)
          newPath := some (readName new) }.pushAll
            ["--- ".toList ++ old, "+++ ".toList ++ new]) := by
    have walked := walk_names (c := opened.pushAll extended) rfl below old new
    rwa [beforeNames, headed] at walked
  rw [walk_cons_of_step (step _) (walk_append_of_walk (further _) names)]
  simp [opened, pushAll]

/-- The head of the section of a change.  Without hunks the names are missing, and the
first line is all that tells the paths. -/
theorem walk_head_git (c : Cursor) (below : Option Text) {change : FileChange}
    (wellFormed : change.WellFormed) :
    c.walk below (change.head .git) = .ok (c.close,
      ⟨(change.head .git).toArray, (change.readPaths .git).1, (change.readPaths .git).2,
        false, 0, 0⟩) := by
  have plain : ∀ line ∈ change.extended, Unstructured line :=
    fun line inside => (wellFormed.extended line inside).2
  by_cases none : change.hunks = []
  · let opened : Cursor :=
      ⟨#[change.gitLine], (gitPaths change.gitLine).1, (gitPaths change.gitLine).2, false, 0, 0⟩
    have step (below : Option Text) : c.step change.gitLine below = .ok (c.close, opened) :=
      step_of_git rfl
    have further : opened.walk below change.extended = .ok ([], opened.pushAll change.extended) :=
      walk_unstructured below plain rfl rfl
    have written : change.head .git = change.gitLine :: change.extended := by
      simp [FileChange.head, none]
    rw [written, walk_cons_of_step (step _) further]
    simp [FileChange.readPaths, none, opened, pushAll]
  · have written : change.head .git =
        change.gitLine :: (change.extended ++ change.nameLines .git) := by
      simp [FileChange.head, none]
    have paths : change.readPaths .git =
        (some (readName (change.oldName .git)), some (readName (change.newName .git))) := by
      simp [FileChange.readPaths, none]
    rw [written, paths]
    exact walk_namedHead c below rfl plain (change.oldName .git) (change.newName .git)

/-- The head of a plain change completes the file before it. -/
theorem walk_head_plain {sided : Bool} {c : Cursor} (ready : Ready (.plain sided) c)
    (below : Option Text) (change : FileChange) :
    c.walk below (change.head (.plain sided)) = .ok (c.close,
      ⟨(change.head (.plain sided)).toArray, (change.readPaths (.plain sided)).1,
        (change.readPaths (.plain sided)).2, false, 0, 0⟩) := by
  have names (outside : c.inHunk = false) := walk_names outside below
    (change.oldName (.plain sided)) (change.newName (.plain sided))
  rcases ready with git | rfl | ⟨old, new, closes⟩
  · cases git
  · exact names rfl
  · refine (names (by simp [inHunk, old, new])).trans ?_
    simp [closes, beforeNames, pushAll, old, new, FileChange.readPaths, FileChange.head,
      FileChange.nameLines]

/-- Walking over the lines of a well-formed change closes the file before it and
has the change under way. -/
theorem walk_lines {style : DiffStyle} {c : Cursor} (ready : Ready style c) (below : Option Text)
    {change : FileChange} (wellFormed : change.WellFormed) :
    c.walk below (change.lines style) = .ok (c.close, change.cursor style) := by
  let headed : Cursor := ⟨(change.head style).toArray, (change.readPaths style).1,
    (change.readPaths style).2, false, 0, 0⟩
  have head (below : Option Text) :
      c.walk below (change.head style) = .ok (c.close, headed) := by
    cases style with
    | git => exact walk_head_git c below wellFormed
    | plain sided => exact walk_head_plain ready below change
  have hunks : headed.walk below change.hunkLines = .ok ([], _) :=
    walk_hunks rfl rfl below wellFormed.hunks
  rw [FileChange.lines, walk_append_of_walk (head _) hunks, List.append_nil]
  simp [headed, pushAll, FileChange.cursor, FileChange.lines, FileChange.hunkLines]

/-- Running over the lines of well-formed changes completes the file before them
and one file for each of them. -/
theorem run_renderedLines {style : DiffStyle} {c : Cursor} (ready : Ready style c)
    {changes : List FileChange} (wellFormed : ∀ change ∈ changes, change.WellFormed) :
    c.run (renderedLines style changes) =
      .ok (c.close ++ changes.map (FileChange.readFile style)) := by
  induction changes generalizing c with
  | nil => simp [renderedLines, run]
  | cons change rest ih =>
      have first := walk_lines ready (renderedLines style rest).head?
        (wellFormed change List.mem_cons_self)
      have others := ih (change.ready_cursor style)
        fun other inside => wellFormed other (List.mem_cons_of_mem change inside)
      show c.run (change.lines style ++ renderedLines style rest) = _
      rw [run_append, first]
      show (do
        let more ← (change.cursor style).run (renderedLines style rest)
        return c.close ++ more) = _
      rw [others, FileChange.close_cursor]
      rfl

end FileDiff.Cursor

end DirectiveReview
