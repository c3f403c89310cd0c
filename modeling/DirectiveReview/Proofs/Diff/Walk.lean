/-
# The walk over the lines of a diff

`Cursor.run` gives the files that the lines of a diff complete.  `Cursor.walk` is
the same walk with its last state, so that a diff can be cut at any line: running
over two parts is walking over the first and running over the second.  A walk
has to be told the line below its part, because the start of a plain file shows
only in a pair of lines.

What a single line can do is said once, one lemma for each kind of line.  The
lines of a whole hunk, of a section and of a diff are then walked by these
lemmas alone.
-/

import DirectiveReview.Proofs.Diff.Written

namespace DirectiveReview.FileDiff

/-- The path in a name as it stands behind `--- ` or `+++ `. -/
def readName (name : Text) : Text :=
  dropSide (Text.upTo '\t' (Text.trim name))

namespace Cursor

/-- Walk over some lines, the line below them being known: the files completed on
the way, and the state behind them. -/
def walk (c : Cursor) (below : Option Text) : List Text → Except DiffError (List FileDiff × Cursor)
  | [] => .ok ([], c)
  | line :: rest => do
    let (closed, next) ← c.step line (rest.head?.or below)
    let (more, last) ← next.walk below rest
    return (closed ++ more, last)

@[simp]
theorem walk_nil (c : Cursor) (below : Option Text) : c.walk below [] = .ok ([], c) := rfl

/-- The line below the first of two parts is the first line of the second, if it
has one. -/
theorem head?_append_or (first second : List Text) (below : Option Text) :
    (first ++ second).head?.or below = first.head?.or (second.head?.or below) := by
  cases first with
  | nil => rfl
  | cons line rest => rfl

/-- A walk goes line by line. -/
theorem walk_cons_of_step {c next last : Cursor} {below : Option Text} {line : Text}
    {rest : List Text} {closed more : List FileDiff}
    (step : c.step line (rest.head?.or below) = .ok (closed, next))
    (walked : next.walk below rest = .ok (more, last)) :
    c.walk below (line :: rest) = .ok (closed ++ more, last) := by
  rw [walk, step]
  show (do
    let (more, last) ← next.walk below rest
    return (closed ++ more, last)) = _
  rw [walked]
  rfl

/-- Walking over two parts is walking over one after the other. -/
theorem walk_append (c : Cursor) (below : Option Text) (first second : List Text) :
    c.walk below (first ++ second) = (do
      let (closed, middle) ← c.walk (second.head?.or below) first
      let (more, last) ← middle.walk below second
      return (closed ++ more, last)) := by
  induction first generalizing c with
  | nil =>
      show c.walk below second = (do
        let (more, last) ← c.walk below second
        return ([] ++ more, last))
      cases c.walk below second <;> rfl
  | cons line rest ih =>
      rw [List.cons_append, walk, walk, head?_append_or]
      simp only [ih, bind_assoc, pure_bind, List.append_assoc]

theorem walk_append_of_walk {c middle last : Cursor} {below : Option Text}
    {first second : List Text} {closed more : List FileDiff}
    (left : c.walk (second.head?.or below) first = .ok (closed, middle))
    (right : middle.walk below second = .ok (more, last)) :
    c.walk below (first ++ second) = .ok (closed ++ more, last) := by
  rw [walk_append, left]
  show (do
    let (more, last) ← middle.walk below second
    return (closed ++ more, last)) = _
  rw [right]
  rfl

/-- A run is a walk to the end, where the file under way is closed. -/
theorem run_eq_walk (c : Cursor) (ls : List Text) :
    c.run ls = (do
      let (closed, last) ← c.walk none ls
      return closed ++ last.close) := by
  induction ls generalizing c with
  | nil => rfl
  | cons line rest ih =>
      rw [run, walk, Option.or_none]
      simp only [ih, bind_assoc, pure_bind, List.append_assoc]

/-- Running over two parts is walking over the first and running over the
second. -/
theorem run_append (c : Cursor) (first second : List Text) :
    c.run (first ++ second) = (do
      let (closed, middle) ← c.walk second.head? first
      let more ← middle.run second
      return closed ++ more) := by
  simp only [run_eq_walk, walk_append, Option.or_none, bind_assoc, pure_bind, List.append_assoc]

/-- The line below a part matters only by whether it names a new file. -/
theorem walk_congr_below {below other : Option Text}
    (same : below.any namesNew = other.any namesNew) (c : Cursor) (ls : List Text) :
    c.walk below ls = c.walk other ls := by
  induction ls generalizing c with
  | nil => rfl
  | cons line rest ih =>
      have step : c.step line (rest.head?.or below) = c.step line (rest.head?.or other) := by
        cases rest with
        | nil =>
            unfold Cursor.step
            rw [List.head?_nil, Option.none_or, Option.none_or, same]
        | cons next more => rfl
      rw [walk, walk, step]
      simp only [ih]

/-! ## Single lines -/

section Step

variable {c : Cursor} {line : Text} {below : Option Text}

/-- A `diff --git` line starts afresh, whatever the state before it. -/
theorem step_of_git (git : opensGitSection line = true) :
    c.step line below =
      .ok (c.close, ⟨#[line], (gitPaths line).1, (gitPaths line).2, false, 0, 0⟩) := by
  unfold step
  rw [if_pos git]

/-- A hunk header sets both counts, whatever was outstanding. -/
theorem step_of_header (header : HunkHeader.opens line = true)
    (notGit : opensGitSection line = false) {old new : Nat}
    (counts : HunkHeader.countsOf line = .ok (old, new)) :
    c.step line below =
      .ok ([], { c with seenHunk := true, oldLeft := old, newLeft := new }.push line) := by
  unfold step
  rw [if_neg (ne_true_of_eq_false notGit), if_pos header, counts]
  rfl

/-- While lines are outstanding, a line is a line of the hunk. -/
theorem step_of_inHunk (inHunk : c.inHunk = true) (notGit : opensGitSection line = false)
    (notHunk : HunkHeader.opens line = false) :
    c.step line below = .ok ([], (c.consume line).push line) := by
  unfold step
  rw [if_neg (ne_true_of_eq_false notGit), if_neg (ne_true_of_eq_false notHunk), if_pos inHunk]

/-- Outside a hunk an old name above a new one completes the file under way,
unless the pair belongs to the head of that file's own section. -/
theorem step_of_oldName (name : Text) (outside : c.inHunk = false)
    (pair : below.any namesNew = true) :
    c.step ("--- ".toList ++ name) below = .ok (
      if c.closedByNames then
        (c.close, { c with
          chunk := #["--- ".toList ++ name], seenHunk := false, oldPath := some (readName name) })
      else ([], { c with oldPath := some (readName name) }.push ("--- ".toList ++ name))) := by
  have notGit : opensGitSection ("--- ".toList ++ name) = false := rfl
  have notHunk : HunkHeader.opens ("--- ".toList ++ name) = false := rfl
  have names : namesOld ("--- ".toList ++ name) = true := rfl
  unfold step
  rw [if_neg (ne_true_of_eq_false notGit), if_neg (ne_true_of_eq_false notHunk),
    if_neg (ne_true_of_eq_false outside), if_pos (by rw [names, pair]; rfl)]
  split <;> rfl

/-- Outside a hunk a new name is noted. -/
theorem step_of_newName (name : Text) (outside : c.inHunk = false) :
    c.step ("+++ ".toList ++ name) below =
      .ok ([], { c with newPath := some (readName name) }.push ("+++ ".toList ++ name)) := by
  have notGit : opensGitSection ("+++ ".toList ++ name) = false := rfl
  have notHunk : HunkHeader.opens ("+++ ".toList ++ name) = false := rfl
  have notOld : namesOld ("+++ ".toList ++ name) = false := rfl
  have names : namesNew ("+++ ".toList ++ name) = true := rfl
  unfold step
  rw [if_neg (ne_true_of_eq_false notGit), if_neg (ne_true_of_eq_false notHunk),
    if_neg (ne_true_of_eq_false outside), if_neg (by rw [notOld]; exact Bool.false_ne_true),
    if_pos names]
  rfl

/-- A line without structure belongs to the file under way, and is left out
before the first file. -/
theorem step_of_unstructured (plain : Unstructured line) (outside : c.inHunk = false) :
    c.step line below = .ok ([], if c.chunk.isEmpty then c else c.push line) := by
  unfold step
  rw [if_neg (ne_true_of_eq_false plain.notGit), if_neg (ne_true_of_eq_false plain.notHunk),
    if_neg (ne_true_of_eq_false outside), if_neg (by simp [plain.notOld]),
    if_neg (ne_true_of_eq_false plain.notNew)]
  split <;> rfl

end Step

end Cursor

end DirectiveReview.FileDiff
