/-
# Hunk headers by their form

The form of a header line is a grammar: markers that are always the same, rows of
digits between them, and a heading that can be any text.  A line has this form in at
most one way, and the two readers of a header, the one for the start of the new file
and the one for the line counts, both read that one way.  They differ in what they
make of a line without the form: for the first it is an error, for the second a hunk
of no lines.

The digits of a number may come from any script, with scripts mixed from place to
place, and may start with zeros.  A `Spelling` is one such way to write one number;
it is never longer than what can be converted.  A header in which numbers are spelt
is read as these numbers.
-/

import DirectiveReview.Proofs.Diff.Failures

namespace DirectiveReview

namespace Text

/-! ## Numbers in any script -/

/-- A script that has decimal digits, by its zero. -/
structure Script where
  zero : Nat
  listed : zero ∈ decimalZeros

/-- The digits of one script end before those of the next begin. -/
theorem pairwise_decimalZeros :
    decimalZeros.Pairwise fun first second => first + 10 ≤ second := by
  decide +kernel

/-- All digits of all scripts are characters. -/
theorem isValidChar_of_mem_decimalZeros :
    ∀ first ∈ decimalZeros, first + 10 ≤ 0xd800 ∨ 0xdfff < first ∧ first + 10 ≤ 0x110000 := by
  decide +kernel

/-- The script of a digit is found where the scripts are apart. -/
theorem find?_of_apart {zeros : List Nat} {first value : Nat}
    (apart : zeros.Pairwise fun first second => first + 10 ≤ second) (listed : first ∈ zeros)
    (small : value < 10) :
    zeros.find? (fun other => other ≤ first + value && first + value < other + 10) = some first := by
  induction zeros with
  | nil => cases listed
  | cons other rest ih =>
      rw [List.pairwise_cons] at apart
      rcases List.mem_cons.mp listed with rfl | behind
      · exact List.find?_cons_of_pos (by simpa using small)
      · have beyond := apart.1 first behind
        rw [List.find?_cons_of_neg (by simp; omega)]
        exact ih apart.2 behind

theorem toNat_ofNat {n : Nat} (valid : n.isValidChar) : (Char.ofNat n).toNat = n := by
  rw [Char.ofNat, dif_pos valid]
  rfl

/-- The digit that a script has for a value below ten. -/
def Script.digit (script : Script) (value : Nat) : Char :=
  Char.ofNat (script.zero + value)

/-- Every digit of every script is read as its value. -/
theorem Script.digitValue?_digit (script : Script) {value : Nat} (small : value < 10) :
    digitValue? (script.digit value) = some value := by
  have valid : (script.zero + value).isValidChar := by
    rcases isValidChar_of_mem_decimalZeros script.zero script.listed with low | ⟨above, high⟩
    · exact Or.inl (by omega)
    · exact Or.inr ⟨by omega, by omega⟩
  rw [digitValue?, digit, toNat_ofNat valid,
    find?_of_apart pairwise_decimalZeros script.listed small, Option.map_some,
    Nat.add_sub_cancel_left]

/-- Every digit is the digit of some script for its value. -/
theorem exists_digit_eq {c : Char} (decimal : isDecimal c = true) :
    ∃ (script : Script) (value : Nat), value < 10 ∧ script.digit value = c := by
  obtain ⟨_, read⟩ := Option.isSome_iff_exists.mp decimal
  obtain ⟨first, found, -⟩ := Option.map_eq_some_iff.mp read
  have near := List.find?_some found
  simp only [Bool.and_eq_true, decide_eq_true_eq] at near
  refine ⟨⟨first, List.mem_of_find?_eq_some found⟩, c.toNat - first, by omega, ?_⟩
  rw [Script.digit, Nat.add_sub_cancel' near.1, Char.ofNat_toNat]

/-- A number in so many places, counted from the front, with the digit of each place
in the script of that place.  A number with fewer digits has zeros in front. -/
def spell (scripts : Nat → Script) : (places value : Nat) → Text
  | 0, _ => []
  | places + 1, value => spell scripts places (value / 10) ++ [(scripts places).digit (value % 10)]

section Spell

variable (scripts : Nat → Script)

@[simp]
theorem length_spell (places value : Nat) : (spell scripts places value).length = places := by
  induction places generalizing value with
  | zero => rfl
  | succ places ih => rw [spell, List.length_append, ih, List.length_singleton]

theorem isDecimal_of_mem_spell {places value : Nat} {c : Char}
    (inside : c ∈ spell scripts places value) : isDecimal c = true := by
  induction places generalizing value with
  | zero => cases inside
  | succ places ih =>
      rcases List.mem_append.mp inside with front | last
      · exact ih front
      · obtain rfl := List.mem_singleton.mp last
        rw [isDecimal, (scripts places).digitValue?_digit (Nat.mod_lt value (by decide))]
        rfl

/-- One more digit at the end makes ten times the value and the digit. -/
theorem decimalValue_append_digit (digits : Text) (c : Char) :
    decimalValue (digits ++ [c]) = 10 * decimalValue digits + (digitValue? c).getD 0 :=
  List.foldl_append

/-- What is spelt has the value of the number, if there are enough places for it. -/
theorem decimalValue_spell {places value : Nat} (fits : value < Nat.pow 10 places) :
    decimalValue (spell scripts places value) = value := by
  induction places generalizing value with
  | zero =>
      obtain rfl : value = 0 := Nat.lt_one_iff.mp fits
      rfl
  | succ places ih =>
      have front : value / 10 < Nat.pow 10 places := Nat.div_lt_of_lt_mul (Nat.mul_comm _ _ ▸ fits)
      rw [spell, decimalValue_append_digit, ih front,
        (scripts places).digitValue?_digit (Nat.mod_lt value (by decide))]
      exact Nat.div_add_mod value 10

/-- The scripts of later places play no part. -/
theorem spell_congr {scripts others : Nat → Script} {places : Nat}
    (same : ∀ place < places, scripts place = others place) (value : Nat) :
    spell scripts places value = spell others places value := by
  induction places generalizing value with
  | zero => rfl
  | succ places ih =>
      rw [spell, spell, same places (Nat.lt_succ_self places),
        ih fun place before => same place (Nat.lt_succ_of_lt before)]

/-- Every row of digits spells a number in as many places. -/
theorem exists_spell_eq {digits : Text} (decimal : ∀ c ∈ digits, isDecimal c = true) :
    ∃ (scripts : Nat → Script) (value : Nat),
      value < Nat.pow 10 digits.length ∧ spell scripts digits.length value = digits := by
  induction digits using List.reverseRecOn with
  | nil => exact ⟨fun _ => ⟨0x30, by decide⟩, 0, Nat.one_pos, rfl⟩
  | append_singleton front last ih =>
      obtain ⟨scripts, value, fits, spelt⟩ :=
        ih fun c inside => decimal c (List.mem_append_left _ inside)
      obtain ⟨script, digit, small, same⟩ :=
        exists_digit_eq (decimal last (List.mem_append_right _ List.mem_cons_self))
      let placed (place : Nat) : Script := if place = front.length then script else scripts place
      have before : ∀ place < front.length, placed place = scripts place :=
        fun place inside => if_neg (Nat.ne_of_lt inside)
      refine ⟨placed, 10 * value + digit, ?fits, ?spelt⟩
      case fits =>
        rw [List.length_append, List.length_singleton]
        show 10 * value + digit < Nat.pow 10 front.length * 10
        omega
      case spelt =>
        have quotient : (10 * value + digit) / 10 = value := by omega
        have remainder : (10 * value + digit) % 10 = digit := by omega
        rw [List.length_append, List.length_singleton, spell, quotient, remainder,
          spell_congr before, spelt, show placed front.length = script from if_pos rfl, same]

end Spell

/-- A number and a way to write it that is short enough to be converted. -/
structure Spelling where
  value : Nat
  places : Nat
  /-- The script of the digit in each place. -/
  scripts : Nat → Script
  nonempty : 0 < places
  fits : value < Nat.pow 10 places
  short : places ≤ maxDigits

namespace Spelling

variable (spelling : Spelling)

/-- The number as it is written. -/
def text : Text :=
  spell spelling.scripts spelling.places spelling.value

theorem length_text_le : spelling.text.length ≤ maxDigits :=
  (length_spell _ _ _).trans_le spelling.short

theorem isDigitRow_text : IsDigitRow spelling.text where
  nonempty := by
    rw [← List.length_pos_iff, text, length_spell]
    exact spelling.nonempty
  decimal := fun _ => isDecimal_of_mem_spell spelling.scripts

theorem decimalValue_text : decimalValue spelling.text = spelling.value :=
  decimalValue_spell spelling.scripts spelling.fits

/-- Every row of digits that can be converted is the spelling of a number. -/
theorem exists_text_eq {digits : Text} (row : IsDigitRow digits)
    (short : digits.length ≤ maxDigits) : ∃ spelling : Spelling, spelling.text = digits := by
  obtain ⟨scripts, value, fits, spelt⟩ := exists_spell_eq row.decimal
  exact ⟨⟨value, digits.length, scripts, List.length_pos_iff.mpr row.nonempty, fits, short⟩, spelt⟩

end Spelling

end Text

namespace HunkHeader

open Text

variable {line : Text} {h : HunkHeader}

/-! ## The one way to read a line -/

/-- A line is written as at most one header. -/
theorem eq_of_text_eq {h k : HunkHeader} (first : h.WellFormed) (second : k.WellFormed)
    (same : h.text = k.text) : h = k := by
  have read := read?_text first
  rw [same, read?_text second] at read
  exact (Option.some.inj read).symm

theorem newStartOf_eq_malformed_iff :
    newStartOf line = .error (.malformedHeader line) ↔ ¬ HasForm line := by
  rw [← read?_eq_none_iff, newStartOf]
  cases read? line with
  | none => simp
  | some h => simp [number_eq_error_iff]

/-- The start of the new file is found exactly in the lines that have the form of a
header and spell it there. -/
theorem newStartOf_eq_ok_iff {start : Nat} : newStartOf line = .ok start ↔
    ∃ (h : HunkHeader) (spelling : Spelling), h.WellFormed ∧ h.text = line ∧
      spelling.text = h.newStart ∧ spelling.value = start := by
  constructor
  · intro gives
    obtain ⟨h, read, rfl⟩ := exists_read?_of_newStartOf gives
    obtain ⟨wellFormed, written⟩ := eq_text_of_read? read
    have short : h.newStart.length ≤ maxDigits := by
      by_contra long
      have failed : newStartOf line = .error .numberTooLong := by
        rw [newStartOf, read]
        exact number_eq_error_iff.mpr ⟨Nat.not_le.mp long, rfl⟩
      cases gives.symm.trans failed
    obtain ⟨spelling, spelt⟩ := Spelling.exists_text_eq wellFormed.newStart short
    exact ⟨h, spelling, wellFormed, written, spelt, spelt ▸ spelling.decimalValue_text.symm⟩
  · rintro ⟨h, spelling, wellFormed, rfl, spelt, rfl⟩
    rw [newStartOf_text wellFormed (spelt ▸ spelling.length_text_le), ← spelt,
      spelling.decimalValue_text]

/-- A count that can be converted tells its value, and one line if it is left out. -/
theorem tells_getD {count : Option Text} (short : ∀ digits ∈ count, digits.length ≤ maxDigits) :
    Tells count ((count.map decimalValue).getD 1) := by
  cases count with
  | none => exact rfl
  | some digits => exact ⟨short digits rfl, rfl⟩

/-- Both counts are read from the parts of the line that hold them. -/
theorem countsOf_text_of_short (wellFormed : h.WellFormed) (short : ¬ h.CountTooLong) :
    countsOf h.text =
      .ok ((h.oldCount.map decimalValue).getD 1, (h.newCount.map decimalValue).getD 1) := by
  have old : ∀ digits ∈ h.oldCount, digits.length ≤ maxDigits := fun digits given =>
    Nat.not_lt.mp fun long => short ⟨digits, Or.inl given, long⟩
  have new : ∀ digits ∈ h.newCount, digits.length ≤ maxDigits := fun digits given =>
    Nat.not_lt.mp fun long => short ⟨digits, Or.inr given, long⟩
  exact countsOf_text wellFormed (tells_getD old) (tells_getD new)

theorem countsOf_of_not_hasForm (noForm : ¬ HasForm line) : countsOf line = .ok (0, 0) := by
  rw [countsOf, read?_eq_none_iff.mpr noForm]

/-! ## Headers with spelt numbers -/

section Spelt

variable (oldStart newStart : Spelling) (oldCount newCount : Option Spelling) (heading : Text)

/-- The header with the given numbers as they are spelt; either count may be left out. -/
def spelt : HunkHeader where
  oldStart := oldStart.text
  oldCount := oldCount.map Spelling.text
  newStart := newStart.text
  newCount := newCount.map Spelling.text
  heading := heading

theorem wellFormed_spelt : (spelt oldStart newStart oldCount newCount heading).WellFormed := by
  have count {spelling? : Option Spelling} :
      ∀ digits ∈ spelling?.map Spelling.text, IsDigitRow digits := by
    intro digits given
    obtain ⟨spelling, -, rfl⟩ := Option.map_eq_some_iff.mp given
    exact spelling.isDigitRow_text
  exact ⟨oldStart.isDigitRow_text, count, newStart.isDigitRow_text, count⟩

theorem tells_spelt (count : Option Spelling) :
    Tells (count.map Spelling.text) ((count.map Spelling.value).getD 1) := by
  cases count with
  | none => exact rfl
  | some spelling => exact ⟨spelling.length_text_le, spelling.decimalValue_text⟩

end Spelt

/-- **Headers are read by their form.**  A line has the form of a header in at most one
way.  The start of the new file is found exactly where a line of this form spells it, and
a line without the form is itself blamed.  Start and counts are the values of the parts
that the line has in this one way, a count that is left out being one, and a line without
the form counts for no lines.  So numbers that are written into a header, in digits of any
scripts and with any zeros in front, are read out of it. -/
theorem reads_by_form (line heading : Text) (oldStart newStart : Spelling)
    (oldCount newCount : Option Spelling) :
    (∀ h k : HunkHeader, h.WellFormed → k.WellFormed → h.text = line → k.text = line → h = k) ∧
    (∀ start, newStartOf line = .ok start ↔
      ∃ (h : HunkHeader) (spelling : Spelling), h.WellFormed ∧ h.text = line ∧
        spelling.text = h.newStart ∧ spelling.value = start) ∧
    (newStartOf line = .error (.malformedHeader line) ↔ ¬ HasForm line) ∧
    (∀ h : HunkHeader, h.WellFormed → h.text = line →
      (¬ h.StartTooLong → newStartOf line = .ok (decimalValue h.newStart)) ∧
      (¬ h.CountTooLong → countsOf line =
        .ok ((h.oldCount.map decimalValue).getD 1, (h.newCount.map decimalValue).getD 1))) ∧
    (¬ HasForm line → countsOf line = .ok (0, 0)) ∧
    let written := spelt oldStart newStart oldCount newCount heading
    read? written.text = some written ∧
      decimalValue written.oldStart = oldStart.value ∧
      newStartOf written.text = .ok newStart.value ∧
      countsOf written.text =
        .ok ((oldCount.map Spelling.value).getD 1, (newCount.map Spelling.value).getD 1) := by
  refine ⟨?unique, fun _ => newStartOf_eq_ok_iff, newStartOf_eq_malformed_iff, ?parts,
    countsOf_of_not_hasForm, ?written⟩
  case unique =>
    intro h k first second same other
    exact eq_of_text_eq first second (same.trans other.symm)
  case parts =>
    rintro h wellFormed rfl
    exact ⟨fun short => newStartOf_text wellFormed (Nat.not_lt.mp short),
      countsOf_text_of_short wellFormed⟩
  case written =>
    have wellFormed := wellFormed_spelt oldStart newStart oldCount newCount heading
    have start := newStartOf_text wellFormed newStart.length_text_le
    rw [show (spelt oldStart newStart oldCount newCount heading).newStart = newStart.text from rfl,
      newStart.decimalValue_text] at start
    exact ⟨read?_text wellFormed, oldStart.decimalValue_text, start,
      countsOf_text wellFormed (tells_spelt oldCount) (tells_spelt newCount)⟩

/-- A header in digits of two scripts, with zeros in front and the old count left out. -/
def mixedHeader : HunkHeader :=
  ⟨"\u06601\u0662".toList, none, "\u0660\u06640".toList, some ['7'], " f() @@".toList⟩

/-- The number 40 in three places of two scripts. -/
def mixedForty : Spelling where
  value := 40
  places := 3
  scripts := fun place => if place = 2 then ⟨0x30, by decide⟩ else ⟨0x660, by decide⟩
  nonempty := by decide
  fits := by decide
  short := by decide

theorem reads_by_form_mixedScripts :
    mixedHeader.WellFormed ∧ ¬ mixedHeader.StartTooLong ∧ ¬ mixedHeader.CountTooLong ∧
      newStartOf mixedHeader.text = .ok 40 ∧ countsOf mixedHeader.text = .ok (1, 7) ∧
      newStartOf (spelt mixedForty mixedForty (some mixedForty) none []).text = .ok 40 := by
  have wellFormed : mixedHeader.WellFormed := by decide
  have startFits : ¬ mixedHeader.StartTooLong := by
    unfold StartTooLong
    decide
  have countFits : ¬ mixedHeader.CountTooLong := by
    rintro ⟨digits, given | given, long⟩
    · cases given
    · cases given
      exact absurd long (by decide)
  obtain ⟨-, -, -, parts, -, -, -, start, -⟩ :=
    reads_by_form mixedHeader.text [] mixedForty mixedForty (some mixedForty) none
  exact ⟨wellFormed, startFits, countFits, (parts mixedHeader wellFormed rfl).1 startFits,
    (parts mixedHeader wellFormed rfl).2 countFits, start⟩

end HunkHeader

end DirectiveReview
