/-
# The chunks of a diff

The files of a diff share out its lines.  From the first line with which a file can
start, every line goes to one chunk, no line to two, and the chunks follow one another
as their lines do.  This needs no order in the diff: counts may be wrong, hunks cut off
and names without a partner.

The first file may start in the middle of things, at a hunk header or at the name of a
new file.  A further file starts only where a section opens, and whether it does shows in
the first two lines of its chunk.  A pair of names is known by the line below its first,
so the chunk under way is looked at together with the lines to come.
-/

import DirectiveReview.Proofs.Diff.Failures
import Mathlib.Data.Nat.Find

namespace DirectiveReview

open Text

/-- Joining joined chunks joins their lines. -/
theorem Text.unlines_map_unlines {chunks : List (List Text)}
    (nonempty : ∀ chunk ∈ chunks, chunk ≠ []) :
    unlines (chunks.map unlines) = unlines chunks.flatten := by
  induction chunks with
  | nil => rfl
  | cons chunk rest ih =>
      have later : ∀ other ∈ rest, other ≠ [] := fun other inside =>
        nonempty other (List.mem_cons_of_mem chunk inside)
      cases rest with
      | nil => rw [List.map_singleton, unlines_singleton, List.flatten_singleton]
      | cons next more =>
          have behind : (next :: more).flatten ≠ [] := by
            rw [List.flatten_cons]
            exact List.append_ne_nil_of_left_ne_nil (later next List.mem_cons_self) _
          rw [List.map_cons, List.map_cons, unlines_cons_cons, ← List.map_cons, ih later,
            ← unlines_append (nonempty chunk List.mem_cons_self) behind]
          rfl

namespace FileDiff

/-- A section of a further file can open with these lines: with a `diff --git` line, or
with a pair of lines naming an old and a new file. -/
def opensSection : List Text → Bool
  | [] => false
  | line :: rest => opensGitSection line || namesOld line && rest.head?.any namesNew

/-- The first file of a diff can start with these lines.  A hunk header or the name of a
new file will do for it. -/
def opensFile : List Text → Bool
  | [] => false
  | line :: rest => opensSection (line :: rest) || HunkHeader.opens line || namesNew line

/-- Chunks share out lines: each line goes to one chunk, in order.  No chunk is empty,
and each but the first opens a section. -/
structure SharedOut (lines : List Text) (chunks : List (List Text)) : Prop where
  flatten : chunks.flatten = lines
  nonempty : ∀ chunk ∈ chunks, chunk ≠ []
  opened : ∀ chunk ∈ chunks.tail, opensSection chunk = true

/-- Lines that open a section open it with those of them that come before a line that
names no new file. -/
theorem opensSection_of_append {chunk rest : List Text} {line : Text} (nonempty : chunk ≠ [])
    (noName : namesNew line = false) (opens : opensSection (chunk ++ line :: rest) = true) :
    opensSection chunk = true := by
  match chunk, nonempty with
  | [only], _ => simpa [opensSection, noName] using opens
  | first :: second :: more, _ => exact opens

/-- The line that opens a section does not name a new file. -/
theorem namesNew_of_opensSection {line : Text} {rest : List Text}
    (opens : opensSection (line :: rest) = true) : namesNew line = false := by
  rw [opensSection, Bool.or_eq_true, Bool.and_eq_true] at opens
  rcases opens with git | ⟨old, -⟩
  · obtain ⟨tail, rfl⟩ := List.isPrefixOf_iff_prefix.mp git
    rfl
  · obtain ⟨tail, rfl⟩ := List.isPrefixOf_iff_prefix.mp old
    rfl

namespace Cursor

variable {c next : Cursor} {line : Text} {rest : List Text} {closed files : List FileDiff}

/-- What a step does with its line.  It closes the chunk under way and starts the next
one, at a line that opens a section; it adds the line to the chunk; or it leaves the line
out, before the first file. -/
theorem step_cases (stepped : c.step line rest.head? = .ok (closed, next)) :
    (closed = c.close ∧ next.chunk = #[line] ∧ opensSection (line :: rest) = true) ∨
      (closed = [] ∧ next.chunk = c.chunk.push line) ∨
      (closed = [] ∧ next = c ∧ c.chunk.isEmpty = true ∧ opensFile (line :: rest) = false) := by
  by_cases git : opensGitSection line = true
  · rw [step_of_git git] at stepped
    cases stepped
    exact Or.inl ⟨rfl, rfl, by rw [opensSection, git, Bool.true_or]⟩
  by_cases header : HunkHeader.opens line = true
  · unfold step at stepped
    rw [if_neg git, if_pos header, bind_eq_ok_iff] at stepped
    obtain ⟨counts, -, done⟩ := stepped
    cases done
    exact Or.inr (Or.inl ⟨rfl, rfl⟩)
  unfold step at stepped
  rw [if_neg git, if_neg header] at stepped
  by_cases inHunk : c.inHunk = true
  · rw [if_pos inHunk] at stepped
    cases stepped
    refine Or.inr (Or.inl ⟨rfl, ?_⟩)
    show (c.consume line).chunk.push line = c.chunk.push line
    rw [consume]
    split <;> rfl
  rw [if_neg inHunk] at stepped
  by_cases pair : (namesOld line && rest.head?.any namesNew) = true
  · rw [if_pos pair] at stepped
    split_ifs at stepped <;> cases stepped
    · exact Or.inl ⟨rfl, rfl, by rw [opensSection, pair, Bool.or_true]⟩
    · exact Or.inr (Or.inl ⟨rfl, rfl⟩)
  · rw [if_neg pair] at stepped
    split_ifs at stepped with names empty <;> cases stepped
    · exact Or.inr (Or.inl ⟨rfl, rfl⟩)
    · refine Or.inr (Or.inr ⟨rfl, rfl, empty, ?_⟩)
      simp only [opensFile, opensSection, Bool.eq_false_iff.mpr git, Bool.eq_false_iff.mpr header,
        Bool.eq_false_iff.mpr pair, Bool.eq_false_iff.mpr names, Bool.or_self]
    · exact Or.inr (Or.inl ⟨rfl, rfl⟩)

/-- Before the first file a line with which none can start is left out. -/
theorem step_start (noFile : opensFile (line :: rest) = false) :
    start.step line rest.head? = .ok ([], start) := by
  simp only [opensFile, opensSection, Bool.or_eq_false_iff] at noFile
  obtain ⟨⟨⟨git, pair⟩, header⟩, names⟩ := noFile
  unfold step
  simp only [git, header, pair, names]
  rfl

theorem run_start_drop {ls : List Text} {k : Nat}
    (noFile : ∀ j < k, opensFile (ls.drop j) = false) :
    start.run ls = start.run (ls.drop k) := by
  induction k generalizing ls with
  | zero => rw [List.drop_zero]
  | succ k ih =>
      cases ls with
      | nil => rw [List.drop_nil]
      | cons line rest =>
          have first : opensFile (line :: rest) = false := noFile 0 (Nat.succ_pos k)
          have left : start.run (line :: rest) = start.run rest := by
            rw [run, step_start first]
            show (do
              let more ← start.run rest
              return [] ++ more) = _
            cases start.run rest <;> rfl
          rw [left, List.drop_succ_cons]
          exact ih fun j below => noFile (j + 1) (Nat.succ_lt_succ below)

theorem close_of_nonempty (started : c.chunk.toList ≠ []) :
    c.close.map patch = [unlines c.chunk.toList] := by
  have some : c.chunk.isEmpty = false := by
    rw [← Array.isEmpty_toList, List.isEmpty_eq_false_iff]
    exact started
  rw [close, some]
  rfl

/-- A run that has a chunk under way completes chunks that share out the lines of this
chunk and those to come.  The first of them opens a section if those lines do. -/
theorem run_sharedOut {ls : List Text} (started : c.chunk.toList ≠ [])
    (completed : c.run ls = .ok files) :
    ∃ first more, files.map patch = (first :: more).map unlines ∧
      SharedOut (c.chunk.toList ++ ls) (first :: more) ∧
      (opensSection (c.chunk.toList ++ ls) = true → opensSection first = true) := by
  induction ls generalizing c files with
  | nil =>
      cases completed
      refine ⟨c.chunk.toList, [], close_of_nonempty started, ⟨?_, ?_, ?_⟩, ?_⟩
      · rw [List.flatten_singleton, List.append_nil]
      · simpa using started
      · simp
      · rw [List.append_nil]
        exact id
  | cons line rest ih =>
      rw [run, bind_eq_ok_iff] at completed
      obtain ⟨⟨closed, next⟩, stepped, behind⟩ := completed
      obtain ⟨later, ran, done⟩ := bind_eq_ok_iff.mp behind
      cases done
      rcases step_cases stepped with ⟨rfl, chunk, opens⟩ | ⟨rfl, chunk⟩ | ⟨-, -, empty, -⟩
      case inl =>
        obtain ⟨second, more, patches, shared, opened⟩ :=
          ih (c := next) (by rw [chunk]; exact List.cons_ne_nil _ _) ran
        rw [chunk] at shared opened
        refine ⟨c.chunk.toList, second :: more, ?_, ⟨?_, ?_, ?_⟩, ?_⟩
        · rw [List.map_append, close_of_nonempty started, patches]
          rfl
        · rw [List.flatten_cons, shared.flatten]
          rfl
        · exact List.forall_mem_cons.mpr ⟨started, shared.nonempty⟩
        · exact List.forall_mem_cons.mpr ⟨opened opens, shared.opened⟩
        · exact opensSection_of_append started (namesNew_of_opensSection opens)
      case inr.inl =>
        have grown : next.chunk.toList ++ rest = c.chunk.toList ++ line :: rest := by
          rw [chunk, Array.toList_push, List.append_assoc]
          rfl
        rw [List.nil_append, ← grown]
        exact ih (by rw [chunk, Array.toList_push]; exact List.concat_ne_nil _ _) ran
      case inr.inr =>
        rw [← Array.isEmpty_toList, List.isEmpty_iff] at empty
        exact absurd empty started

/-- A run from the start over lines with which a file can start. -/
theorem run_start_sharedOut {ls : List Text} (opens : opensFile ls = true)
    (completed : start.run ls = .ok files) :
    ∃ chunks, files.map patch = chunks.map unlines ∧ SharedOut ls chunks := by
  cases ls with
  | nil => cases opens
  | cons line rest =>
      rw [run, bind_eq_ok_iff] at completed
      obtain ⟨⟨closed, next⟩, stepped, behind⟩ := completed
      obtain ⟨later, ran, done⟩ := bind_eq_ok_iff.mp behind
      cases done
      -- Nothing is under way before the first line, so nothing is closed by it.
      have begun : closed = [] ∧ next.chunk = #[line] := by
        rcases step_cases stepped with ⟨rfl, chunk, -⟩ | added | ⟨-, -, -, noFile⟩
        · exact ⟨rfl, chunk⟩
        · exact added
        · cases opens.symm.trans noFile
      obtain ⟨rfl, chunk⟩ := begun
      obtain ⟨first, more, patches, shared, -⟩ :=
        run_sharedOut (c := next) (by rw [chunk]; exact List.cons_ne_nil _ _) ran
      rw [chunk] at shared
      exact ⟨first :: more, patches, shared⟩

end Cursor

/-- A diff without any line with which a file can start has no files. -/
theorem ofDiff_eq_nil {diff : Text} {files : List FileDiff} (cut : ofDiff diff = .ok files)
    (noFile : ∀ k, opensFile (diff.lines.drop k) = false) : files = [] := by
  have left := Cursor.run_start_drop (k := diff.lines.length) fun j _ => noFile j
  rw [ofDiff, left, List.drop_length] at cut
  exact (Except.ok.inj cut).symm

/-- The files of a diff share out the lines from some line on. -/
theorem exists_sharedOut_of_ofDiff {diff : Text} {files : List FileDiff}
    (cut : ofDiff diff = .ok files) :
    ∃ k chunks, files.map patch = chunks.map unlines ∧ SharedOut (diff.lines.drop k) chunks := by
  by_cases begins : ∃ k, opensFile (diff.lines.drop k) = true
  · have before (j : Nat) (below : j < Nat.find begins) : opensFile (diff.lines.drop j) = false :=
      Bool.eq_false_iff.mpr (Nat.find_min begins below)
    rw [ofDiff, Cursor.run_start_drop before] at cut
    exact ⟨Nat.find begins, Cursor.run_start_sharedOut (Nat.find_spec begins) cut⟩
  · rw [ofDiff_eq_nil cut fun k => Bool.eq_false_iff.mpr fun opens => begins ⟨k, opens⟩]
    refine ⟨diff.lines.length, [], rfl, ?_, ?_, ?_⟩
    · rw [List.drop_length, List.flatten_nil]
    · simp
    · simp

/-- **Cutting a diff loses, repeats and reorders no line.**  The files hold, in order and
each once, the lines of the diff from the first one with which a file can start: a
`diff --git` line, a hunk header, the name of a new file, or the name of an old one above
it.  Where there is no such line there is no file.  Every file has at least one line, and
every file but the first starts where a section opens. -/
theorem ofDiff_shares_out_lines {diff : Text} {files : List FileDiff}
    (cut : ofDiff diff = .ok files) :
    (∀ k, (∀ j < k, opensFile (diff.lines.drop j) = false) →
      opensFile (diff.lines.drop k) = true →
      unlines (files.map patch) = unlines (diff.lines.drop k) ∧
      ∃ chunks : List (List Text), files.map patch = chunks.map unlines ∧
        chunks.flatten = diff.lines.drop k ∧ (∀ chunk ∈ chunks, chunk ≠ []) ∧
        ∀ chunk ∈ chunks.tail, opensSection chunk = true) ∧
    ((∀ k, opensFile (diff.lines.drop k) = false) → files = []) := by
  refine ⟨fun k before begins => ?_, ofDiff_eq_nil cut⟩
  rw [ofDiff, Cursor.run_start_drop before] at cut
  obtain ⟨chunks, patches, shared⟩ := Cursor.run_start_sharedOut begins cut
  refine ⟨?_, chunks, patches, shared.flatten, shared.nonempty, shared.opened⟩
  rw [patches, unlines_map_unlines shared.nonempty, shared.flatten]

/-- A note, a hunk without a file whose body imitates names and is cut off, a section
with a header that has not its form, and a pair of names. -/
def disorderlyDiff : Text :=
  terminated ["note".toList, "@@ -1,3 +1 @@".toList, "--- y".toList, "+++ z".toList, "-a".toList,
    "diff --git a/z b/z".toList, "--- a/z".toList, "+++ b/z".toList, "@@ broken".toList,
    "--- p".toList, "+++ p".toList]

theorem ofDiff_shares_out_lines_disorderly :
    (∃ files, ofDiff disorderlyDiff = .ok files ∧ files.length = 3 ∧
      unlines (files.map patch) = unlines (disorderlyDiff.lines.drop 1) ∧
      ∃ chunks : List (List Text), files.map patch = chunks.map unlines ∧
        chunks.flatten = disorderlyDiff.lines.drop 1 ∧ (∀ chunk ∈ chunks, chunk ≠ []) ∧
        ∀ chunk ∈ chunks.tail, opensSection chunk = true) ∧
    ∃ files, ofDiff "note\n".toList = .ok files ∧ files = [] := by
  obtain ⟨files, cut, three⟩ : ∃ files, ofDiff disorderlyDiff = .ok files ∧ files.length = 3 :=
    ⟨_, rfl, rfl⟩
  have before : ∀ j < 1, opensFile (disorderlyDiff.lines.drop j) = false := by decide
  have begins : opensFile (disorderlyDiff.lines.drop 1) = true := by decide
  have bare (k : Nat) : opensFile (Text.lines "note\n".toList |>.drop k) = false := by
    match k with
    | 0 => rfl
    | k + 1 => exact congrArg opensFile (List.drop_nil (i := k))
  exact ⟨⟨files, cut, three, (ofDiff_shares_out_lines cut).1 1 before begins⟩,
    _, rfl, (ofDiff_shares_out_lines rfl).2 bare⟩

end FileDiff

end DirectiveReview
