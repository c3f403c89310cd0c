/-
# Reading a hunk header back

A header that is put together from rows of digits is read into the same parts.
Each part of the reader takes a chunk off the front of the text and leaves the
rest, so its law is stated with an arbitrary rest that cannot prolong the chunk.

The length of the rows plays no part in finding the parts.  It matters only when
a number is converted, and only for the numbers that are.
-/

import DirectiveReview.Diff.HunkHeader
import DirectiveReview.Proofs.Text.Lines
import DirectiveReview.Proofs.Text.Searches

namespace DirectiveReview

namespace Text

/-- A numeral as a header holds it: at least one digit, and digits only. -/
structure IsDigitRow (digits : Text) : Prop where
  nonempty : digits ≠ []
  decimal : ∀ c ∈ digits, isDecimal c = true

instance (digits : Text) : Decidable (IsDigitRow digits) :=
  decidable_of_iff (digits ≠ [] ∧ digits.all isDecimal = true)
    ⟨fun h => ⟨h.1, List.all_eq_true.mp h.2⟩,
      fun h => ⟨h.nonempty, List.all_eq_true.mpr h.decimal⟩⟩

/-- No boundary of lines is a digit. -/
theorem not_isLineBreak_of_isDecimal {c : Char} (h : isDecimal c = true) :
    isLineBreak c = false :=
  not_isLineBreak_of (by decide) h

theorem IsDigitRow.oneLine {digits : Text} (h : IsDigitRow digits) : OneLine digits :=
  fun c inside => not_isLineBreak_of_isDecimal (h.decimal c inside)

end Text

namespace HunkHeader

open Text

/-- The parts of a header are numerals where they have to be.  The heading is any
text. -/
structure WellFormed (h : HunkHeader) : Prop where
  oldStart : IsDigitRow h.oldStart
  oldCount : ∀ digits ∈ h.oldCount, IsDigitRow digits
  newStart : IsDigitRow h.newStart
  newCount : ∀ digits ∈ h.newCount, IsDigitRow digits

instance (h : HunkHeader) : Decidable h.WellFormed :=
  decidable_of_iff
    (IsDigitRow h.oldStart ∧ (∀ digits ∈ h.oldCount, IsDigitRow digits) ∧
      IsDigitRow h.newStart ∧ ∀ digits ∈ h.newCount, IsDigitRow digits)
    ⟨fun h => ⟨h.1, h.2.1, h.2.2.1, h.2.2.2⟩,
      fun h => ⟨h.oldStart, h.oldCount, h.newStart, h.newCount⟩⟩

/-- A count says how many lines there are: a numeral of that value that is short
enough to be converted, or nothing for one line. -/
def Tells (count : Option Text) (n : Nat) : Prop :=
  match count with
  | none => n = 1
  | some digits => digits.length ≤ maxDigits ∧ decimalValue digits = n

instance : (count : Option Text) → (n : Nat) → Decidable (Tells count n)
  | none, n => inferInstanceAs (Decidable (n = 1))
  | some digits, n =>
    inferInstanceAs (Decidable (digits.length ≤ maxDigits ∧ decimalValue digits = n))

/-! ## Taking the parts off the front -/

theorem takeDigits?_append {digits rest : Text} (row : IsDigitRow digits)
    (stop : ∀ c ∈ rest.head?, isDecimal c = false) :
    takeDigits? (digits ++ rest) = some (digits, rest) := by
  have taken : (digits ++ rest).takeWhile isDecimal = digits := by
    rw [List.takeWhile_append_of_pos row.decimal]
    cases rest with
    | nil => simp
    | cons c more => simp [stop c rfl]
  have left : (digits ++ rest).dropWhile isDecimal = rest := by
    rw [List.dropWhile_append_of_pos row.decimal]
    cases rest with
    | nil => rfl
    | cons c more => simp [stop c rfl]
  rw [takeDigits?, taken, left]
  cases digits with
  | nil => exact absurd rfl row.nonempty
  | cons c more => rfl

/-- A count is followed by a blank in a header, which neither prolongs a numeral
nor looks like the comma of a count. -/
theorem takeCount?_append {count : Option Text} (row : ∀ digits ∈ count, IsDigitRow digits)
    (rest : Text) : takeCount? (countText count ++ ' ' :: rest) = some (count, ' ' :: rest) := by
  cases count with
  | none => rfl
  | some digits =>
      have read : takeDigits? (digits ++ ' ' :: rest) = some (digits, ' ' :: rest) :=
        takeDigits?_append (row digits rfl) fun c first => by
          obtain rfl : ' ' = c := Option.some.inj first
          decide
      simp [countText, takeCount?, read]

/-- Behind a start stands a comma or a blank, and neither is a digit. -/
theorem head_countText_not_decimal (count : Option Text) (rest : Text) :
    ∀ c ∈ (countText count ++ ' ' :: rest).head?, isDecimal c = false := by
  intro c first
  cases count with
  | none =>
      obtain rfl : ' ' = c := Option.some.inj first
      decide
  | some digits =>
      obtain rfl : ',' = c := Option.some.inj first
      decide

/-- What stands behind the start of the new file. -/
def behindNewStart (h : HunkHeader) : Text :=
  countText h.newCount ++ ' ' :: '@' :: '@' :: h.heading

/-- What stands behind the start of the old file. -/
def behindOldStart (h : HunkHeader) : Text :=
  countText h.oldCount ++ ' ' :: '+' :: (h.newStart ++ h.behindNewStart)

/-- A header line, cut where its reader cuts it. -/
theorem text_eq (h : HunkHeader) :
    h.text = "@@ -".toList ++ (h.oldStart ++ h.behindOldStart) := by
  unfold text behindOldStart behindNewStart
  simp only [List.append_assoc]
  rfl

/-- The parts of a well-formed header are found in the line it is written as. -/
theorem read?_text {h : HunkHeader} (wellFormed : h.WellFormed) : read? h.text = some h := by
  have oldStart : takeDigits? (h.oldStart ++ h.behindOldStart) =
      some (h.oldStart, h.behindOldStart) :=
    takeDigits?_append wellFormed.oldStart (head_countText_not_decimal _ _)
  have oldCount : takeCount? h.behindOldStart =
      some (h.oldCount, " +".toList ++ (h.newStart ++ h.behindNewStart)) :=
    takeCount?_append wellFormed.oldCount _
  have newStart : takeDigits? (h.newStart ++ h.behindNewStart) =
      some (h.newStart, h.behindNewStart) :=
    takeDigits?_append wellFormed.newStart (head_countText_not_decimal _ _)
  have newCount : takeCount? h.behindNewStart = some (h.newCount, " @@".toList ++ h.heading) :=
    takeCount?_append wellFormed.newCount _
  rw [read?, text_eq]
  simp only [behind?_append, oldStart, oldCount, newStart, newCount, Option.bind_eq_bind,
    Option.bind_some]
  rfl

theorem eq_append_of_takeDigits? {text digits rest : Text}
    (taken : takeDigits? text = some (digits, rest)) :
    IsDigitRow digits ∧ text = digits ++ rest := by
  unfold takeDigits? at taken
  split at taken
  · cases taken
  · next row =>
      cases taken
      refine ⟨⟨row, fun c inside => ?_⟩, List.takeWhile_append_dropWhile.symm⟩
      exact List.all_eq_true.mp List.all_takeWhile c inside

theorem eq_append_of_takeCount? {text rest : Text} {count : Option Text}
    (taken : takeCount? text = some (count, rest)) :
    (∀ digits ∈ count, IsDigitRow digits) ∧ text = countText count ++ rest := by
  unfold takeCount? at taken
  split at taken
  · obtain ⟨⟨digits, more⟩, row, done⟩ := Option.map_eq_some_iff.mp taken
    cases done
    obtain ⟨isRow, rfl⟩ := eq_append_of_takeDigits? row
    exact ⟨fun other same => Option.some.inj same ▸ isRow, rfl⟩
  · cases taken
    exact ⟨fun digits none => (by cases none), rfl⟩

/-- What is read as a header was written as one, and its parts are well formed. -/
theorem eq_text_of_read? {line : Text} {h : HunkHeader} (read : read? line = some h) :
    h.WellFormed ∧ h.text = line := by
  obtain ⟨behindLead, lead, read⟩ := Option.bind_eq_some_iff.mp read
  obtain ⟨⟨oldStart, behindStart⟩, start, read⟩ := Option.bind_eq_some_iff.mp read
  obtain ⟨⟨oldCount, behindOld⟩, count, read⟩ := Option.bind_eq_some_iff.mp read
  obtain ⟨behindPlus, plus, read⟩ := Option.bind_eq_some_iff.mp read
  obtain ⟨⟨newStart, behindNext⟩, next, read⟩ := Option.bind_eq_some_iff.mp read
  obtain ⟨⟨newCount, behindNew⟩, others, read⟩ := Option.bind_eq_some_iff.mp read
  obtain ⟨heading, close, done⟩ := Option.bind_eq_some_iff.mp read
  cases done
  obtain ⟨oldStartRow, cutStart⟩ := eq_append_of_takeDigits? start
  obtain ⟨oldCountRow, cutCount⟩ := eq_append_of_takeCount? count
  obtain ⟨newStartRow, cutNext⟩ := eq_append_of_takeDigits? next
  obtain ⟨newCountRow, cutOthers⟩ := eq_append_of_takeCount? others
  refine ⟨⟨oldStartRow, oldCountRow, newStartRow, newCountRow⟩, ?_⟩
  rw [eq_append_of_behind? lead, cutStart, cutCount, eq_append_of_behind? plus, cutNext, cutOthers,
    eq_append_of_behind? close, text_eq]
  rfl

/-- A line has the form of a header: it is written as one whose numbers are rows of
digits. -/
def HasForm (line : Text) : Prop :=
  ∃ h : HunkHeader, h.WellFormed ∧ h.text = line

/-- Headers are read exactly where they have the form of one. -/
theorem read?_eq_none_iff {line : Text} : read? line = none ↔ ¬ HasForm line := by
  constructor
  · rintro unread ⟨h, wellFormed, rfl⟩
    cases unread.symm.trans (read?_text wellFormed)
  · intro noForm
    rw [Option.eq_none_iff_forall_ne_some]
    exact fun h read => noForm ⟨h, eq_text_of_read? read⟩

@[simp]
theorem opens_text (h : HunkHeader) : opens h.text = true := by
  rw [text_eq]
  rfl

/-- A header is one line if its heading is. -/
theorem oneLine_text {h : HunkHeader} (wellFormed : h.WellFormed) (heading : OneLine h.heading) :
    OneLine h.text := by
  have count {digits? : Option Text} (row : ∀ digits ∈ digits?, IsDigitRow digits) :
      OneLine (countText digits?) := by
    cases digits? with
    | none => exact oneLine_nil
    | some digits => exact oneLine_cons.mpr ⟨by decide, (row digits rfl).oneLine⟩
  have marker : OneLine "@@ -".toList := by decide
  rw [text_eq, behindOldStart, behindNewStart]
  simp only [oneLine_append, oneLine_cons]
  exact ⟨marker, wellFormed.oldStart.oneLine, count wellFormed.oldCount, by decide, by decide,
    wellFormed.newStart.oneLine, count wellFormed.newCount, by decide, by decide, by decide,
    heading⟩

/-! ## Converting the numbers -/

theorem number_of_length_le {digits : Text} (short : digits.length ≤ maxDigits) :
    number digits = .ok (decimalValue digits) := by
  rw [number, readNumeral?, if_pos short]

theorem countNumber_of_tells {count : Option Text} {n : Nat} (tells : Tells count n) :
    countNumber count = .ok n := by
  cases count with
  | none =>
      obtain rfl : n = 1 := tells
      rfl
  | some digits =>
      obtain ⟨short, rfl⟩ := tells
      exact number_of_length_le short

/-- The counts of a header come out as they were told. -/
theorem countsOf_text {h : HunkHeader} (wellFormed : h.WellFormed) {old new : Nat}
    (tellsOld : Tells h.oldCount old) (tellsNew : Tells h.newCount new) :
    countsOf h.text = .ok (old, new) := by
  rw [countsOf, read?_text wellFormed]
  simp only [countNumber_of_tells tellsOld, countNumber_of_tells tellsNew]
  rfl

/-- The start comes out as the value of its numeral. -/
theorem newStartOf_text {h : HunkHeader} (wellFormed : h.WellFormed)
    (short : h.newStart.length ≤ maxDigits) :
    newStartOf h.text = .ok (decimalValue h.newStart) := by
  rw [newStartOf, read?_text wellFormed]
  exact number_of_length_le short

end HunkHeader

end DirectiveReview
