/-
# Keys with unusable values

A key has requirements, and a table offends where it has a value for the key that does not
meet one of them.  This is said of each key by itself, apart from how and in which order the
keys are read.

Reading a table fails if it offends anywhere, and the error names an offence.  It fails for
one more reason: a value can be beyond what its reader can take.  The timeout is rounded,
and a format that is no string is written down; neither is possible for every value.
-/

import DirectiveReview.Proofs.Number.Rounding
import DirectiveReview.Proofs.Settings.Reading

namespace DirectiveReview

open Toml (Value Table)

/-! ## Requirements -/

/-- A value is what a requirement asks for.  A number that is not a number counts as
positive: it is not zero or less. -/
def Requirement.Meets (value : Value) : Requirement → Prop
  | .table => ∃ entries, value = .table entries
  | .listOfStrings => ∃ texts, value = Settings.stringArray texts
  | .string => ∃ text, value = .string text
  | .boolean => ∃ b, value = .boolean b
  | .number => (∃ i, value = .integer i) ∨ ∃ x, value = .float x
  | .integer => ∃ i, value = .integer i
  | .positive =>
    (∃ i, value = .integer i ∧ 0 < i) ∨ ∃ x, value = .float x ∧ x.le (.zero false) = false

namespace SettingsKey

/-- What the value of a key has to be. -/
def requirements : SettingsKey → List Requirement
  | .docs => [.table]
  | .ignorePaths => [.listOfStrings]
  | .message => [.string]
  | .tagReviewers => [.listOfStrings]
  | .failOnViolation => [.boolean]
  | .docsCommand => [.listOfStrings]
  | .docsTimeout => [.number, .positive]
  | .docsMaxWorkers => [.integer, .positive]
  | .docsEnabled => [.boolean]

/-- There is a value, and it does not meet a requirement of the key. -/
structure Refuses (key : SettingsKey) (v : Option Value) (requirement : Requirement) : Prop where
  asked : requirement ∈ key.requirements
  unmet : ∃ value, v = some value ∧ ¬ requirement.Meets value

/-- A table has a value for a key that does not meet a requirement of it. -/
def Offends (table : Table) (key : SettingsKey) (requirement : Requirement) : Prop :=
  key.Refuses (key.value? table) requirement

end SettingsKey

namespace Settings

open SettingsKey (Offends)

/-! ## Readers -/

theorem mem_pair {a b c : Requirement} : a ∈ [b, c] ↔ a = b ∨ a = c := by
  rw [List.mem_cons, List.mem_singleton]

/-- A reader of the value under a key fails exactly on what the key refuses, and says so. -/
structure Checks {α : Type} (key : SettingsKey) (v : Option Value)
    (run : Except TableError α) : Prop where
  accepts : ∀ result, run = .ok result → ∀ requirement, ¬ key.Refuses v requirement
  blames : ∀ e, run = .error e → ∃ requirement, key.Refuses v requirement ∧
    e = .unusable key requirement

section Readers

variable {key : SettingsKey} {v : Option Value}

/-- A reader that takes the values of one form and finds fault with all others. -/
theorem checks_of_form {α : Type} {run : Except TableError (Option α)} {form : α → Value}
    {requirement : Requirement} (only : key.requirements = [requirement])
    (meets : ∀ value, requirement.Meets value ↔ ∃ a, value = form a)
    (reads : ∀ result, run = .ok result ↔ v = result.map form)
    (fails : ∀ e, run = .error e → e = .unusable key requirement) : Checks key v run where
  accepts result read other refuses := by
    obtain ⟨asked, value, there, unmet⟩ := refuses
    rw [only, List.mem_singleton] at asked
    subst asked
    rw [(reads result).mp read, Option.map_eq_some_iff] at there
    obtain ⟨a, -, same⟩ := there
    exact unmet ((meets value).mpr ⟨a, same.symm⟩)
  blames e failed := by
    refine ⟨requirement, ⟨only ▸ List.mem_singleton_self _, ?_⟩, fails e failed⟩
    cases v with
    | none => cases failed.symm.trans ((reads none).mpr rfl)
    | some value =>
        refine ⟨value, rfl, fun met => ?_⟩
        obtain ⟨a, rfl⟩ := (meets value).mp met
        cases failed.symm.trans ((reads (some a)).mpr rfl)

theorem checks_stringList (only : key.requirements = [.listOfStrings]) :
    Checks key v (stringList key v) := by
  refine checks_of_form only (fun value => Iff.rfl) (fun result => stringList_eq_ok_iff) ?_
  intro e failed
  unfold stringList at failed
  split at failed
  · cases failed
  · split at failed <;> cases failed
    rfl
  · cases failed
    rfl

theorem checks_string (only : key.requirements = [.string]) : Checks key v (string key v) := by
  refine checks_of_form only (fun value => Iff.rfl) (fun result => string_eq_ok_iff) ?_
  intro e failed
  unfold string at failed
  split at failed <;> cases failed
  rfl

theorem checks_boolean (only : key.requirements = [.boolean]) : Checks key v (boolean key v) := by
  refine checks_of_form only (fun value => Iff.rfl) (fun result => boolean_eq_ok_iff) ?_
  intro e failed
  unfold boolean at failed
  split at failed <;> cases failed
  rfl

theorem checks_docsTable : Checks .docs v (docsTable v) where
  accepts inner read requirement refuses := by
    obtain ⟨asked, value, there, unmet⟩ := refuses
    rw [List.mem_singleton.mp asked] at unmet
    rcases docsTable_eq_ok_iff.mp read with ⟨missing, -⟩ | found
    · cases missing.symm.trans there
    · cases found.symm.trans there
      exact unmet ⟨inner, rfl⟩
  blames e failed := by
    unfold docsTable at failed
    split at failed <;> cases failed
    next value other =>
      refine ⟨.table, ⟨List.mem_singleton_self _, value, rfl, ?_⟩, rfl⟩
      rintro ⟨entries, rfl⟩
      exact other entries rfl

theorem checks_maxWorkersOf : Checks .docsMaxWorkers v (maxWorkersOf v) where
  accepts workers read requirement refuses := by
    obtain ⟨asked, value, there, unmet⟩ := refuses
    obtain ⟨⟨missing, -⟩ | found, positive⟩ := maxWorkersOf_eq_ok_iff.mp read
    · cases missing.symm.trans there
    · cases found.symm.trans there
      rcases mem_pair.mp asked with rfl | rfl
      · exact unmet ⟨workers, rfl⟩
      · exact unmet (Or.inl ⟨workers, rfl, positive⟩)
  blames e failed := by
    unfold maxWorkersOf at failed
    split at failed
    · cases failed
    · next i =>
        split at failed <;> cases failed
        next nonpositive =>
          refine ⟨.positive, ⟨by decide, .integer i, rfl, ?_⟩, rfl⟩
          rintro (⟨j, same, positive⟩ | ⟨x, same, -⟩) <;> cases same
          exact Int.not_lt.mpr nonpositive positive
    · next value other =>
        cases failed
        refine ⟨.integer, ⟨by decide, value, rfl, ?_⟩, rfl⟩
        rintro ⟨i, rfl⟩
        exact other i rfl

/-- An integer is beyond the largest finite number, rounding included. -/
def IsTooLarge (i : Int) : Prop :=
  Nat.pow 2 1024 ≤ i.natAbs + Nat.pow 2 970

theorem ofInt?_eq_none_iff_isTooLarge {i : Int} : Binary64.ofInt? i = none ↔ IsTooLarge i := by
  rw [Binary64.ofInt?_eq_none_iff, IsTooLarge]

theorem meets_positive_float_iff {x : Binary64} :
    Requirement.positive.Meets (.float x) ↔ x.le (.zero false) = false := by
  simp [Requirement.Meets]

theorem meets_positive_integer_iff {i : Int} :
    Requirement.positive.Meets (.integer i) ↔ 0 < i := by
  simp [Requirement.Meets]

/-- A timeout is compared with zero as a number, which comes to the same as comparing the
value that it is given by. -/
theorem meets_positive_iff {value : Value} {timeout : Binary64}
    (given : timeoutIn (some value) = .ok timeout) :
    Requirement.positive.Meets value ↔ timeout.le (.zero false) = false := by
  rcases timeoutIn_eq_ok_iff.mp given with ⟨missing, -⟩ | same | ⟨i, same, rounds⟩
  · cases missing
  · cases same
    exact meets_positive_float_iff
  · cases same
    rw [meets_positive_integer_iff, ← Bool.not_eq_true, Binary64.le_zero_ofInt?_iff rounds,
      Int.not_le]

theorem meets_number_of_timeoutIn {value : Value} {timeout : Binary64}
    (given : timeoutIn (some value) = .ok timeout) : Requirement.number.Meets value := by
  rcases timeoutIn_eq_ok_iff.mp given with ⟨missing, -⟩ | same | ⟨i, same, -⟩
  · cases missing
  · cases same
    exact Or.inr ⟨timeout, rfl⟩
  · cases same
    exact Or.inl ⟨i, rfl⟩

theorem timeoutIn_eq_error {e : TableError} (failed : timeoutIn v = .error e) :
    (∃ value, v = some value ∧ ¬ Requirement.number.Meets value ∧
      e = .unusable .docsTimeout .number) ∨
    ∃ i, v = some (.integer i) ∧ IsTooLarge i ∧ e = .timeoutTooLarge := by
  unfold timeoutIn at failed
  split at failed
  · cases failed
  · cases failed
  · next i =>
      cases rounds : Binary64.ofInt? i <;> rw [rounds] at failed <;> cases failed
      exact Or.inr ⟨i, rfl, ofInt?_eq_none_iff_isTooLarge.mp rounds, rfl⟩
  · next value noFloat noInteger =>
      cases failed
      refine Or.inl ⟨value, rfl, ?_, rfl⟩
      rintro (⟨i, rfl⟩ | ⟨x, rfl⟩)
      · exact noInteger i rfl
      · exact noFloat x rfl

/-- The timeout is checked like the other keys, unless it is too large to be compared. -/
theorem checks_timeoutOf (small : ∀ i, v = some (.integer i) → ¬ IsTooLarge i) :
    Checks .docsTimeout v (timeoutOf v) where
  accepts timeout read requirement refuses := by
    obtain ⟨asked, value, rfl, unmet⟩ := refuses
    obtain ⟨given, positive⟩ := timeoutOf_eq_ok_iff.mp read
    rcases mem_pair.mp asked with rfl | rfl
    · exact unmet (meets_number_of_timeoutIn given)
    · exact unmet ((meets_positive_iff given).mpr positive)
  blames e failed := by
    rw [timeoutOf_eq_timeoutIn, bind_eq_error_iff] at failed
    rcases failed with failed | ⟨timeout, given, failed⟩
    · rcases timeoutIn_eq_error failed with ⟨value, rfl, unmet, rfl⟩ | ⟨i, rfl, large, -⟩
      · exact ⟨.number, ⟨by decide, value, rfl, unmet⟩, rfl⟩
      · exact absurd large (small i rfl)
    · split at failed <;> cases failed
      next nonpositive =>
        refine ⟨.positive, ⟨by decide, ?_⟩, rfl⟩
        cases v with
        | none =>
            cases given
            exact absurd nonpositive (by decide +kernel)
        | some value =>
            refine ⟨value, rfl, fun met => ?_⟩
            cases nonpositive.symm.trans ((meets_positive_iff given).mp met)

theorem timeoutOf_of_isTooLarge {i : Int} (large : IsTooLarge i) :
    timeoutOf (some (.integer i)) = .error .timeoutTooLarge := by
  rw [timeoutOf_eq_timeoutIn, timeoutIn, ofInt?_eq_none_iff_isTooLarge.mpr large]
  rfl

end Readers

/-! ## Tables -/

/-- A value of a table is beyond what its reader can take, and this is what is said. -/
inductive Exceeds (room : Nat) (table : Table) : TableError → Prop where
  | timeout {i : Int} (given : SettingsKey.docsTimeout.value? table = some (.integer i))
      (large : IsTooLarge i) : Exceeds room table .timeoutTooLarge
  | formatTooLong {value : Value} (given : table.get? "format".toList = some value)
      (wordless : ∀ word, value ≠ .string word)
      (obstacle : value.obstacle? room = some .numberTooLong) : Exceeds room table .formatTooLong
  | formatTooDeep {value : Value} (given : table.get? "format".toList = some value)
      (wordless : ∀ word, value ≠ .string word)
      (obstacle : value.obstacle? room = some .tooDeep) : Exceeds room table .formatTooDeep

section Tables

variable {room : Nat} {source : Option Text} {table : Table} {settings : Settings} {e : TableError}

theorem exceeds_of_formatOf (failed : formatOf room (table.get? "format".toList) = .error e) :
    Exceeds room table e := by
  unfold formatOf at failed
  split at failed
  · cases failed
  · cases failed
  · next value wordless given =>
      split at failed <;> cases failed
      · next obstacle => exact .formatTooLong given wordless obstacle
      · next obstacle => exact .formatTooDeep given wordless obstacle

theorem obstacle?_eq_none_of_formatOf {format : ReportFormat} {value : Value}
    (read : formatOf room (some value) = .ok format) (wordless : ∀ word, value ≠ .string word) :
    value.obstacle? room = none := by
  unfold formatOf at read
  split at read
  · next missing => cases missing
  · next word same =>
      cases same
      exact absurd rfl (wordless word)
  · next same =>
      cases same
      split at read <;> first | assumption | cases read

theorem docsOfTable_error (failed : docsOfTable (docsEntries table) = .error e) :
    (∃ key requirement, Offends table key requirement ∧ e = .unusable key requirement) ∨
      Exceeds room table e := by
  rcases bind_eq_error_iff.mp failed with failed | ⟨command, -, failed⟩
  · exact Or.inl ⟨.docsCommand, (checks_stringList rfl).blames e failed⟩
  rcases bind_eq_error_iff.mp failed with failed | ⟨timeout, -, failed⟩
  · by_cases small : ∀ i, SettingsKey.docsTimeout.value? table = some (.integer i) → ¬ IsTooLarge i
    · exact Or.inl ⟨.docsTimeout, (checks_timeoutOf small).blames e failed⟩
    · push Not at small
      obtain ⟨i, given, large⟩ := small
      rw [← SettingsKey.value?, given, timeoutOf_of_isTooLarge large] at failed
      cases failed
      exact Or.inr (.timeout given large)
  rcases bind_eq_error_iff.mp failed with failed | ⟨workers, -, failed⟩
  · exact Or.inl ⟨.docsMaxWorkers, checks_maxWorkersOf.blames e failed⟩
  rcases bind_eq_error_iff.mp failed with failed | ⟨enabled, -, failed⟩
  · exact Or.inl ⟨.docsEnabled, (checks_boolean rfl).blames e failed⟩
  · cases failed

/-- A table that cannot be read offends, or it exceeds what can be read. -/
theorem ofTable_error (failed : ofTable room source table = .error e) :
    (∃ key requirement, Offends table key requirement ∧ e = .unusable key requirement) ∨
      Exceeds room table e := by
  -- The keys are read one after the other, so the first one that fails is to blame.
  rcases bind_eq_error_iff.mp failed with failed | ⟨inner, opens, failed⟩
  · exact Or.inl ⟨.docs, checks_docsTable.blames e failed⟩
  rcases bind_eq_error_iff.mp failed with failed | ⟨format, -, failed⟩
  · exact Or.inr (exceeds_of_formatOf failed)
  rcases bind_eq_error_iff.mp failed with failed | ⟨ignorePaths, -, failed⟩
  · exact Or.inl ⟨.ignorePaths, (checks_stringList rfl).blames e failed⟩
  rcases bind_eq_error_iff.mp failed with failed | ⟨message, -, failed⟩
  · exact Or.inl ⟨.message, (checks_string rfl).blames e failed⟩
  rcases bind_eq_error_iff.mp failed with failed | ⟨tagReviewers, -, failed⟩
  · exact Or.inl ⟨.tagReviewers, (checks_stringList rfl).blames e failed⟩
  rcases bind_eq_error_iff.mp failed with failed | ⟨failOnViolation, -, failed⟩
  · exact Or.inl ⟨.failOnViolation, (checks_boolean rfl).blames e failed⟩
  rcases bind_eq_error_iff.mp failed with failed | ⟨docs, -, failed⟩
  · rw [← docsEntries_of_docsTable opens] at failed
    exact docsOfTable_error failed
  · cases failed

theorem not_exceeds_of_ofTable (read : ofTable room source table = .ok settings)
    (e : TableError) : ¬ Exceeds room table e := by
  obtain ⟨inner, format, -, -, -, -, docs, opens, forms, -, -, -, -, describes, -⟩ :=
    ofTable_eq_ok_iff.mp read
  intro exceeds
  cases exceeds with
  | timeout given large =>
      obtain ⟨-, timeout, -, -, -, times, -⟩ := docsOfTable_eq_ok_iff.mp describes
      rw [← docsEntries_of_docsTable opens, ← SettingsKey.value?, given,
        timeoutOf_of_isTooLarge large] at times
      cases times
  | formatTooLong given wordless obstacle =>
      rw [given] at forms
      cases (obstacle?_eq_none_of_formatOf forms wordless).symm.trans obstacle
  | formatTooDeep given wordless obstacle =>
      rw [given] at forms
      cases (obstacle?_eq_none_of_formatOf forms wordless).symm.trans obstacle

theorem not_offends_of_ofTable (read : ofTable room source table = .ok settings)
    (key : SettingsKey) (requirement : Requirement) : ¬ Offends table key requirement := by
  have small (i : Int) (given : SettingsKey.docsTimeout.value? table = some (.integer i)) :
      ¬ IsTooLarge i :=
    fun large => not_exceeds_of_ofTable read _ (.timeout given large)
  obtain ⟨inner, format, ignorePaths, message, tagReviewers, failOnViolation, docs, opens, -,
    ignores, notes, tags, fails, describes, -⟩ := ofTable_eq_ok_iff.mp read
  rw [← docsEntries_of_docsTable opens] at describes
  obtain ⟨command, timeout, workers, enabled, commands, times, works, enables, -⟩ :=
    docsOfTable_eq_ok_iff.mp describes
  cases key with
  | docs => exact checks_docsTable.accepts inner opens requirement
  | ignorePaths => exact (checks_stringList rfl).accepts ignorePaths ignores requirement
  | message => exact (checks_string rfl).accepts message notes requirement
  | tagReviewers => exact (checks_stringList rfl).accepts tagReviewers tags requirement
  | failOnViolation => exact (checks_boolean rfl).accepts failOnViolation fails requirement
  | docsCommand => exact (checks_stringList rfl).accepts command commands requirement
  | docsTimeout => exact (checks_timeoutOf small).accepts timeout times requirement
  | docsMaxWorkers => exact checks_maxWorkersOf.accepts workers works requirement
  | docsEnabled => exact (checks_boolean rfl).accepts enabled enables requirement

/-- A table can be read exactly if it neither offends nor exceeds anything. -/
theorem exists_ofTable_eq_error_iff : (∃ e, ofTable room source table = .error e) ↔
    (∃ key requirement, Offends table key requirement) ∨ ∃ e, Exceeds room table e := by
  constructor
  · rintro ⟨e, failed⟩
    rcases ofTable_error failed with ⟨key, requirement, offends, -⟩ | exceeds
    · exact Or.inl ⟨key, requirement, offends⟩
    · exact Or.inr ⟨e, exceeds⟩
  · intro wrong
    cases read : ofTable room source table with
    | error e => exact ⟨e, rfl⟩
    | ok settings =>
        rcases wrong with ⟨key, requirement, offends⟩ | ⟨e, exceeds⟩
        · exact absurd offends (not_offends_of_ofTable read key requirement)
        · exact absurd exceeds (not_exceeds_of_ofTable read e)

end Tables

end Settings

end DirectiveReview
