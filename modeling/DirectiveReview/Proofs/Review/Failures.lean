/-
# Why a review fails

A review fails where its diff cannot be cut or a file that is looked at cannot be read,
and nowhere else: looking rules up and writing comments always comes to an end.  In each
case a line of the diff is to blame, and it opens a hunk.

A malformed header fails the review only in a file that is looked at.  The numerals of
line counts are converted in every file, before it is known which files are ignored.
-/

import DirectiveReview.Proofs.Diff.Shares
import DirectiveReview.Proofs.Review.Violations

namespace DirectiveReview

open Text

namespace Violation

variable {files : List FileDiff} {settings : ReviewSettings} {e : DiffError}

theorem inFile_eq_error_iff {file : FileDiff} :
    inFile file = .error e ↔ Patch.added file.patch = .error e := by
  rw [inFile, bind_eq_error_iff, or_iff_left]
  rintro ⟨_, -, done⟩
  cases done

theorem inFiles_eq_error_iff : inFiles files = .error e ↔
    (files.flatMap fun file => Patch.headers file.patch).findSome? HunkHeader.fault? = some e := by
  induction files with
  | nil => simp [inFiles]
  | cons file rest ih =>
      rw [inFiles, List.flatMap_cons, List.findSome?_append]
      cases here : inFile file with
      | error cause =>
          rw [Patch.added_eq_error_iff.mp (inFile_eq_error_iff.mp here), Option.some_or]
          constructor
          · intro failed
            exact congrArg some (Except.error.inj failed)
          · intro first
            exact congrArg Except.error (Option.some.inj first)
      | ok found =>
          have readable : (Patch.headers file.patch).findSome? HunkHeader.fault? = none := by
            rw [Option.eq_none_iff_forall_ne_some]
            intro cause fault
            cases here.symm.trans
              (inFile_eq_error_iff.mpr (Patch.added_eq_error_iff.mpr fault))
          rw [readable, Option.none_or, ← ih]
          show (do
            let more ← inFiles rest
            return found ++ more) = .error e ↔ _
          rw [bind_eq_error_iff, or_iff_left]
          rintro ⟨_, -, done⟩
          cases done

end Violation

/-- The hunk headers of the files that a search looks at, in order. -/
def FileDiff.headersLookedAt (settings : ReviewSettings) (files : List FileDiff) : List Text :=
  (IgnoreList.keep settings.ignorePaths files).flatMap fun file => Patch.headers file.patch

/-- A line of a diff opens a hunk of a file that is not ignored. -/
def HunkHeader.LookedAt (settings : ReviewSettings) (diff line : Text) : Prop :=
  line ∈ diff.lines ∧ opens line = true ∧
    ∃ files, FileDiff.ofDiff diff = .ok files ∧ ∃ file ∈ files,
      IgnoreList.covers settings.ignorePaths file.path = false ∧ line ∈ file.patch.lines

theorem FileDiff.mem_headersLookedAt {settings : ReviewSettings} {files : List FileDiff}
    {line : Text} : line ∈ headersLookedAt settings files ↔
      ∃ file ∈ files, IgnoreList.covers settings.ignorePaths file.path = false ∧
        line ∈ file.patch.lines ∧ HunkHeader.opens line = true := by
  simp only [headersLookedAt, List.mem_flatMap, IgnoreList.keep, List.mem_filter, Patch.headers,
    Bool.not_eq_true', and_assoc]

theorem HunkHeader.lookedAt_iff {settings : ReviewSettings} {diff line : Text}
    {files : List FileDiff} (cut : FileDiff.ofDiff diff = .ok files) :
    LookedAt settings diff line ↔ line ∈ FileDiff.headersLookedAt settings files := by
  rw [FileDiff.mem_headersLookedAt]
  constructor
  · rintro ⟨-, header, others, same, file, member, looked, inside⟩
    obtain rfl := Except.ok.inj (cut.symm.trans same)
    exact ⟨file, member, looked, inside, header⟩
  · rintro ⟨file, member, looked, inside, header⟩
    have among := (FileDiff.lines_sublist_of_mem_ofDiff cut member).subset inside
    exact ⟨among, header, files, cut, file, member, looked, inside⟩

namespace Review

variable {r : Resolver} {settings : ReviewSettings} {memory : Memory} {diff : Text}
  {files : List FileDiff} {e : DiffError}

/-- A review fails at a line count anywhere in the diff, or else at the first header
that is looked at and cannot be read. -/
theorem ofDiff_eq_error_iff : ofDiff r settings memory diff = .error e ↔
    FileDiff.ofDiff diff = .error e ∨ ∃ files, FileDiff.ofDiff diff = .ok files ∧
      (FileDiff.headersLookedAt settings files).findSome? HunkHeader.fault? = some e := by
  simp only [ofDiff_eq_map, map_eq_error_iff, Violation.ofDiff, bind_eq_error_iff, Violation.find,
    Violation.inFiles_eq_error_iff, FileDiff.headersLookedAt]

/-- The line that a failed review is blamed on. -/
theorem blame_of_ofDiff_eq_error (failed : ofDiff r settings memory diff = .error e) :
    (∃ line, e = .malformedHeader line ∧ HunkHeader.read? line = none ∧
      HunkHeader.LookedAt settings diff line) ∨
    (e = .numberTooLong ∧ ∃ line ∈ diff.lines, ∃ h, HunkHeader.read? line = some h ∧
      (h.CountTooLong ∨ h.StartTooLong ∧ HunkHeader.LookedAt settings diff line)) := by
  rcases ofDiff_eq_error_iff.mp failed with cut | ⟨files, cut, first⟩
  · obtain ⟨⟨line, inside, -, h, read, long⟩, rfl⟩ := FileDiff.ofDiff_eq_error_iff.mp cut
    exact Or.inr ⟨rfl, line, inside, h, read, Or.inl long⟩
  · obtain ⟨line, member, fault⟩ := List.exists_of_findSome?_eq_some first
    have looked := (HunkHeader.lookedAt_iff cut).mpr member
    rcases HunkHeader.fault?_eq_some_iff.mp fault with ⟨none, rfl⟩ | ⟨⟨h, read, long⟩, rfl⟩
    · exact Or.inl ⟨line, rfl, none, looked⟩
    · exact Or.inr ⟨rfl, line, looked.1, h, read, Or.inr ⟨long, looked⟩⟩

theorem exists_ofDiff_eq_error_of_lookedAt {line : Text}
    (looked : HunkHeader.LookedAt settings diff line)
    (unreadable : ∃ cause, HunkHeader.fault? line = some cause) (r : Resolver)
    (memory : Memory) : ∃ e, ofDiff r settings memory diff = .error e := by
  obtain ⟨cause, fault⟩ := unreadable
  obtain ⟨-, -, files, cut, -⟩ := id looked
  have member := (HunkHeader.lookedAt_iff cut).mp looked
  cases first : (FileDiff.headersLookedAt settings files).findSome? HunkHeader.fault? with
  | some e => exact ⟨e, ofDiff_eq_error_iff.mpr (Or.inr ⟨files, cut, first⟩)⟩
  | none =>
      have readable := List.findSome?_eq_none_iff.mp first line member
      cases readable.symm.trans fault

end Review

end DirectiveReview
