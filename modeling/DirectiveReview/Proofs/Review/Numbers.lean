/-
# Numbers that can be converted and written

A review converts the numbers of hunk headers and counts on from them.  Both ends have
their limit: a numeral can be too long to be converted, and a count can go past the last
number that can be written.

Lines are counted on no further than the diff is long.  So a diff whose headers stay well
below the limit has no line with a number that cannot be written.
-/

import DirectiveReview.Proofs.Report.Writable
import DirectiveReview.Proofs.Review.Failures

namespace DirectiveReview

open Text

/-- The numbers of a header can be converted. -/
structure HunkHeader.Convertible (h : HunkHeader) : Prop where
  counts : ¬ h.CountTooLong
  start : ¬ h.StartTooLong

instance (h : HunkHeader) : Decidable h.Convertible :=
  decidable_of_iff
    (((∀ digits ∈ h.oldCount, digits.length ≤ maxDigits) ∧
      ∀ digits ∈ h.newCount, digits.length ≤ maxDigits) ∧ h.newStart.length ≤ maxDigits) <| by
    constructor
    · rintro ⟨⟨old, new⟩, start⟩
      refine ⟨?_, Nat.not_lt.mpr start⟩
      rintro ⟨digits, given | given, long⟩
      · exact Nat.not_lt.mpr (old digits given) long
      · exact Nat.not_lt.mpr (new digits given) long
    · rintro ⟨counts, start⟩
      refine ⟨⟨fun digits given => ?_, fun digits given => ?_⟩, Nat.not_lt.mp start⟩
      · exact Nat.not_lt.mp fun long => counts ⟨digits, Or.inl given, long⟩
      · exact Nat.not_lt.mp fun long => counts ⟨digits, Or.inr given, long⟩

/-- The numbers of the headers of a diff can be converted. -/
def Convertible (diff : Text) : Prop :=
  ∀ line ∈ diff.lines, ∀ h, HunkHeader.read? line = some h → h.Convertible

instance (diff : Text) : Decidable (Convertible diff) :=
  inferInstanceAs (Decidable (∀ line ∈ diff.lines, ∀ h ∈ HunkHeader.read? line, h.Convertible))

/-- The numbers of the lines that the files of a diff add can be written. -/
def NumbersWritable (diff : Text) : Prop :=
  ∀ files, FileDiff.ofDiff diff = .ok files → ∀ file ∈ files,
    ∀ added, Patch.added file.patch = .ok added →
      ∀ line ∈ added, isWritable line.lineNumber = true

/-- Lines are counted on from the start of a header of the diff, and no further than the
diff has lines. -/
theorem numbersWritable_of_reach {diff : Text}
    (reach : ∀ line ∈ diff.lines, ∀ h, HunkHeader.read? line = some h →
      decimalValue h.newStart + diff.lines.length ≤ Nat.pow 10 maxDigits) :
    NumbersWritable diff := by
  intro files cut file member added read line inside
  obtain ⟨header, among, start, gives, bound⟩ := Patch.exists_header_of_mem_added read inside
  have shared := FileDiff.lines_sublist_of_mem_ofDiff cut member
  obtain ⟨h, parts, rfl⟩ := HunkHeader.exists_read?_of_newStartOf gives
  have near := reach header (shared.subset (List.mem_of_mem_filter among)) h parts
  have fits := shared.length_le
  rw [isWritable, decide_eq_true_eq, Int.natAbs_natCast]
  omega

/-- Numbers that are not above the number of digits allowed do not have that many. -/
theorem inReach_of_small {diff : Text}
    (small : ∀ line ∈ diff.lines, ∀ h ∈ HunkHeader.read? line,
      decimalValue h.newStart + diff.lines.length ≤ maxDigits) :
    ∀ line ∈ diff.lines, ∀ h, HunkHeader.read? line = some h →
      decimalValue h.newStart + diff.lines.length ≤ Nat.pow 10 maxDigits := by
  intro line inside h read
  have tower (k : Nat) : k ≤ Nat.pow 10 k := Nat.le_of_lt (Nat.lt_pow_self (by decide : 1 < 10))
  exact Nat.le_trans (small line inside h read) (tower maxDigits)

namespace Violation

variable {settings : ReviewSettings} {files : List FileDiff} {violations : List Violation}

theorem writable_of_numbersWritable {diff : Text} (writable : NumbersWritable diff)
    (cut : FileDiff.ofDiff diff = .ok files) (search : find settings files = .ok violations) :
    Writable violations := by
  intro violation inside
  obtain ⟨file, kept, added, read, line, member, same⟩ :=
    exists_added_of_mem_inFiles search inside
  obtain ⟨rules, -, rfl⟩ := Option.map_eq_some_iff.mp same
  exact writable files cut file (List.mem_of_mem_filter kept) added read line member

end Violation

end DirectiveReview
