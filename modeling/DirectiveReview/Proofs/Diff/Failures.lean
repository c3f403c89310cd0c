/-
# Why a diff cannot be read

Two things can go wrong in the text of a diff, and both at a hunk header.  Cutting a
diff into files converts the line counts of every header that has the form of one,
whichever file it belongs to; a header without that form counts for nothing there.
Reading a patch converts the start of the new file, and it is here that a header has
to have its form.

A numeral can be too long to be converted while the header is well formed.  This
failure is told apart from a malformed header throughout.
-/

import DirectiveReview.Proofs.Diff.Numbering
import DirectiveReview.Proofs.Diff.Walk
import DirectiveReview.Proofs.Except

namespace DirectiveReview

open Text

namespace HunkHeader

/-- A line count has too many digits to be converted. -/
def CountTooLong (h : HunkHeader) : Prop :=
  ∃ digits, (h.oldCount = some digits ∨ h.newCount = some digits) ∧ maxDigits < digits.length

/-- The start of the new file has too many digits to be converted. -/
def StartTooLong (h : HunkHeader) : Prop :=
  maxDigits < h.newStart.length

/-- What is wrong with a line that is to give the start of the new file. -/
def fault? (line : Text) : Option DiffError :=
  match newStartOf line with
  | .ok _ => none
  | .error e => some e

variable {line digits : Text} {count : Option Text} {e : DiffError}

theorem opens_of_read? {h : HunkHeader} (read : read? line = some h) : opens line = true := by
  obtain ⟨rest, lead, -⟩ := Option.bind_eq_some_iff.mp read
  obtain rfl : line = "@@ -".toList ++ rest := eq_append_of_behind? lead
  rfl

theorem number_eq_error_iff :
    number digits = .error e ↔ maxDigits < digits.length ∧ e = .numberTooLong := by
  by_cases short : digits.length ≤ maxDigits
  · rw [number_of_length_le short]
    constructor
    · intro failed
      cases failed
    · rintro ⟨long, -⟩
      omega
  · rw [number, readNumeral?, if_neg short]
    constructor
    · intro failed
      exact ⟨by omega, (Except.error.inj failed).symm⟩
    · rintro ⟨-, rfl⟩
      rfl

theorem countNumber_eq_error_iff : countNumber count = .error e ↔
    (∃ digits, count = some digits ∧ maxDigits < digits.length) ∧ e = .numberTooLong := by
  cases count with
  | none => simp [countNumber]
  | some digits => simp [countNumber, number_eq_error_iff]

theorem countsOf_eq_error_iff : countsOf line = .error e ↔
    (∃ h, read? line = some h ∧ h.CountTooLong) ∧ e = .numberTooLong := by
  rw [countsOf]
  cases read? line with
  | none => simp
  | some h =>
      constructor
      · intro failed
        rcases bind_eq_error_iff.mp failed with old | ⟨_, -, behind⟩
        · obtain ⟨⟨digits, given, long⟩, rfl⟩ := countNumber_eq_error_iff.mp old
          exact ⟨⟨h, rfl, digits, Or.inl given, long⟩, rfl⟩
        · rcases bind_eq_error_iff.mp behind with new | ⟨_, -, done⟩
          · obtain ⟨⟨digits, given, long⟩, rfl⟩ := countNumber_eq_error_iff.mp new
            exact ⟨⟨h, rfl, digits, Or.inr given, long⟩, rfl⟩
          · cases done
      · rintro ⟨⟨_, same, digits, given, long⟩, rfl⟩
        obtain rfl := Option.some.inj same
        -- The old count is converted first; if it fails too, it fails alike.
        cases old : countNumber h.oldCount with
        | error cause =>
            obtain ⟨-, rfl⟩ := countNumber_eq_error_iff.mp old
            exact bind_eq_error_iff.mpr (Or.inl old)
        | ok n =>
            rcases given with given | given
            · have failed := countNumber_eq_error_iff.mpr ⟨⟨digits, given, long⟩, rfl⟩
              cases old.symm.trans failed
            · have failed := countNumber_eq_error_iff.mpr ⟨⟨digits, given, long⟩, rfl⟩
              exact bind_eq_error_iff.mpr (Or.inr ⟨n, old, bind_eq_error_iff.mpr (Or.inl failed)⟩)

theorem fault?_eq_some_iff : fault? line = some e ↔
    (read? line = none ∧ e = .malformedHeader line) ∨
      (∃ h, read? line = some h ∧ h.StartTooLong) ∧ e = .numberTooLong := by
  have fault : fault? line = some e ↔ newStartOf line = .error e := by
    rw [fault?]
    cases newStartOf line <;> simp
  rw [fault, newStartOf]
  cases read? line with
  | none => simp [eq_comm]
  | some h => simp [number_eq_error_iff, StartTooLong]

theorem exists_read?_of_newStartOf {start : Nat} (gives : newStartOf line = .ok start) :
    ∃ h, read? line = some h ∧ start = decimalValue h.newStart := by
  rw [newStartOf] at gives
  cases read : read? line with
  | none =>
      rw [read] at gives
      cases gives
  | some h =>
      rw [read] at gives
      replace gives : number h.newStart = .ok start := gives
      by_cases short : h.newStart.length ≤ maxDigits
      · rw [number_of_length_le short] at gives
        exact ⟨h, rfl, (Except.ok.inj gives).symm⟩
      · have failed : number h.newStart = .error .numberTooLong :=
          number_eq_error_iff.mpr ⟨by omega, rfl⟩
        cases gives.symm.trans failed

end HunkHeader

/-! ## Cutting a diff -/

namespace FileDiff

theorem opensGitSection_of_opens {line : Text} (header : HunkHeader.opens line = true) :
    opensGitSection line = false := by
  obtain ⟨rest, rfl⟩ := List.isPrefixOf_iff_prefix.mp header
  rfl

namespace Cursor

variable {c next : Cursor} {line : Text} {below : Option Text} {closed : List FileDiff}
  {e : DiffError}

theorem step_eq_ok_of_not_opens (c : Cursor) (below : Option Text)
    (notHeader : HunkHeader.opens line = false) :
    ∃ closed next, c.step line below = .ok (closed, next) := by
  unfold step
  rw [notHeader]
  split
  · exact ⟨_, _, rfl⟩
  · simp only [Bool.false_eq_true, if_false]
    split_ifs <;> exact ⟨_, _, rfl⟩

theorem step_eq_error_iff : c.step line below = .error e ↔
    HunkHeader.opens line = true ∧ HunkHeader.countsOf line = .error e := by
  cases header : HunkHeader.opens line with
  | false =>
      obtain ⟨closed, next, taken⟩ := step_eq_ok_of_not_opens c below header
      simp [taken]
  | true =>
      unfold step
      rw [if_neg (ne_true_of_eq_false (opensGitSection_of_opens header)), if_pos header,
        bind_eq_error_iff]
      constructor
      · rintro (failed | ⟨_, -, done⟩)
        · exact ⟨rfl, failed⟩
        · cases done
      · rintro ⟨-, failed⟩
        exact Or.inl failed

theorem run_eq_error_iff {ls : List Text} : c.run ls = .error e ↔
    (∃ line ∈ ls, HunkHeader.opens line = true ∧
      ∃ h, HunkHeader.read? line = some h ∧ h.CountTooLong) ∧ e = .numberTooLong := by
  induction ls generalizing c with
  | nil => simp [run]
  | cons line rest ih =>
      rw [run, bind_eq_error_iff, step_eq_error_iff, HunkHeader.countsOf_eq_error_iff]
      constructor
      · rintro (⟨header, long, rfl⟩ | ⟨⟨closed, next⟩, -, behind⟩)
        · exact ⟨⟨line, List.mem_cons_self, header, long⟩, rfl⟩
        · rcases bind_eq_error_iff.mp behind with failed | ⟨_, -, done⟩
          · obtain ⟨⟨other, inside, long⟩, rfl⟩ := ih.mp failed
            exact ⟨⟨other, List.mem_cons_of_mem line inside, long⟩, rfl⟩
          · cases done
      · rintro ⟨⟨other, inside, header, long⟩, rfl⟩
        cases stepped : c.step line rest.head? with
        | error cause =>
            obtain ⟨opens, counts⟩ := step_eq_error_iff.mp stepped
            obtain ⟨tooLong, rfl⟩ := HunkHeader.countsOf_eq_error_iff.mp counts
            exact Or.inl ⟨opens, tooLong, rfl⟩
        | ok result =>
            refine Or.inr ⟨result, rfl, bind_eq_error_iff.mpr (Or.inl (ih.mpr ⟨?_, rfl⟩))⟩
            rcases List.mem_cons.mp inside with rfl | later
            · have failed : c.step other rest.head? = .error .numberTooLong :=
                step_eq_error_iff.mpr ⟨header, HunkHeader.countsOf_eq_error_iff.mpr ⟨long, rfl⟩⟩
              cases stepped.symm.trans failed
            · exact ⟨other, later, header, long⟩

end Cursor

/-- **Cutting fails only at a line count.**  It does so wherever the header stands, also
in a file that nobody looks at. -/
theorem ofDiff_eq_error_iff {diff : Text} {e : DiffError} : ofDiff diff = .error e ↔
    (∃ line ∈ diff.lines, HunkHeader.opens line = true ∧
      ∃ h, HunkHeader.read? line = some h ∧ h.CountTooLong) ∧ e = .numberTooLong :=
  Cursor.run_eq_error_iff

end FileDiff

/-! ## Reading a patch -/

theorem Hunk.map_header_cutAtHeaders (ls : List Text) :
    (cutAtHeaders ls).2.map Hunk.header = ls.filter HunkHeader.opens := by
  induction ls with
  | nil => rfl
  | cons line rest ih =>
      rw [cutAtHeaders, List.filter_cons, ← ih]
      cases HunkHeader.opens line <;> rfl

namespace Patch

variable {hunks : List Hunk} {patch : Text} {e : DiffError}

/-- The hunk headers of a patch, in order. -/
def headers (patch : Text) : List Text :=
  patch.lines.filter HunkHeader.opens

theorem addedOfHunks_eq_error_iff : addedOfHunks hunks = .error e ↔
    (hunks.map Hunk.header).findSome? HunkHeader.fault? = some e := by
  induction hunks with
  | nil => simp [addedOfHunks]
  | cons hunk rest ih =>
      rw [addedOfHunks, List.map_cons, List.findSome?_cons, HunkHeader.fault?, Hunk.added]
      cases HunkHeader.newStartOf hunk.header with
      | error cause =>
          constructor
          · intro failed
            exact congrArg some (Except.error.inj failed)
          · intro first
            exact congrArg Except.error (Option.some.inj first)
      | ok start =>
          show (do
            let more ← addedOfHunks rest
            return Hunk.addedFrom start hunk.body ++ more) = .error e ↔ _
          rw [bind_eq_error_iff, ← ih, or_iff_left]
          rintro ⟨_, -, done⟩
          cases done

/-- A patch fails at the first of its headers that cannot be read, for its reason. -/
theorem added_eq_error_iff : added patch = .error e ↔
    (headers patch).findSome? HunkHeader.fault? = some e := by
  rw [added, addedOfHunks_eq_error_iff, Hunk.map_header_cutAtHeaders, headers]

end Patch

end DirectiveReview
