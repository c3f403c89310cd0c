/-
# Malformed headers fail a check as a whole

Whether the headers of a diff have their form is seen twice.  Cutting the diff lets a
malformed header pass, as one that covers no lines; reading the patch of a file refuses it.
The ignore list stands between the two, so a malformed header fails a check exactly where
its file is looked at, and it is the first of them that is named.

The diff is read before any rule is looked up and before anything is printed.  So a check
that fails at a header has done neither, whatever violations stand before the header.
-/

import DirectiveReview.Proofs.CommandLine.Failures

namespace DirectiveReview

open Text

namespace HunkHeader

/-- The first of some lines that does not have the form of a header. -/
def FirstMalformed (headers : List Text) (line : Text) : Prop :=
  ∃ before behind, headers = before ++ line :: behind ∧
    (∀ other ∈ before, HasForm other) ∧ ¬ HasForm line

variable {line : Text} {headers : List Text} {e : DiffError}

/-- Where the start can be converted, a line is at fault for its form alone. -/
theorem fault?_eq_some_iff_of_convertible
    (convertible : ∀ h, read? line = some h → h.Convertible) :
    fault? line = some e ↔ ¬ HasForm line ∧ e = .malformedHeader line := by
  rw [fault?_eq_some_iff, read?_eq_none_iff, or_iff_left]
  rintro ⟨⟨h, read, long⟩, -⟩
  exact (convertible h read).start long

theorem fault?_eq_none_iff_of_convertible
    (convertible : ∀ h, read? line = some h → h.Convertible) :
    fault? line = none ↔ HasForm line := by
  rw [Option.eq_none_iff_forall_ne_some]
  constructor
  · intro faultless
    by_contra noForm
    exact faultless _ ((fault?_eq_some_iff_of_convertible convertible).mpr ⟨noForm, rfl⟩)
  · intro form e fault
    exact ((fault?_eq_some_iff_of_convertible convertible).mp fault).1 form

theorem findSome?_fault?_eq_some_iff
    (convertible : ∀ line ∈ headers, ∀ h, read? line = some h → h.Convertible) :
    headers.findSome? fault? = some e ↔
      ∃ line, FirstMalformed headers line ∧ e = .malformedHeader line := by
  rw [List.findSome?_eq_some_iff]
  constructor
  · rintro ⟨before, line, behind, rfl, fault, faultless⟩
    have here := convertible line (List.mem_append_right before List.mem_cons_self)
    obtain ⟨noForm, rfl⟩ := (fault?_eq_some_iff_of_convertible here).mp fault
    refine ⟨line, ⟨before, behind, rfl, fun other inside => ?_, noForm⟩, rfl⟩
    have there := convertible other (List.mem_append_left _ inside)
    exact (fault?_eq_none_iff_of_convertible there).mp (faultless other inside)
  · rintro ⟨line, ⟨before, behind, rfl, forms, noForm⟩, rfl⟩
    have here := convertible line (List.mem_append_right before List.mem_cons_self)
    refine ⟨before, line, behind, rfl,
      (fault?_eq_some_iff_of_convertible here).mpr ⟨noForm, rfl⟩, fun other inside => ?_⟩
    have there := convertible other (List.mem_append_left _ inside)
    exact (fault?_eq_none_iff_of_convertible there).mpr (forms other inside)

/-- Some line comes first among those that do not have the form of a header. -/
theorem exists_firstMalformed_iff :
    (∃ line, FirstMalformed headers line) ↔ ∃ line ∈ headers, ¬ HasForm line := by
  constructor
  · rintro ⟨line, before, behind, rfl, -, noForm⟩
    exact ⟨line, List.mem_append_right before List.mem_cons_self, noForm⟩
  · rintro ⟨line, inside, noForm⟩
    induction headers with
    | nil => cases inside
    | cons first rest ih =>
        by_cases form : HasForm first
        · rcases List.mem_cons.mp inside with rfl | later
          · exact absurd form noForm
          · obtain ⟨found, before, behind, rfl, forms, last⟩ := ih later
            exact ⟨found, first :: before, behind, rfl, List.forall_mem_cons.mpr ⟨form, forms⟩,
              last⟩
        · exact ⟨first, [], rest, rfl, by simp, form⟩

end HunkHeader

open HunkHeader

theorem FileDiff.exists_ofDiff_of_convertible {diff : Text} (convertible : Convertible diff) :
    ∃ files, ofDiff diff = .ok files := by
  cases cut : ofDiff diff with
  | ok files => exact ⟨files, rfl⟩
  | error e =>
      obtain ⟨⟨line, inside, -, h, read, long⟩, -⟩ := ofDiff_eq_error_iff.mp cut
      exact absurd long (convertible line inside h read).counts

theorem Review.ofDiff_eq_error_iff_of_convertible {r : Resolver} {settings : ReviewSettings}
    {memory : Memory} {diff : Text} {files : List FileDiff} {e : DiffError}
    (convertible : Convertible diff) (cut : FileDiff.ofDiff diff = .ok files) :
    ofDiff r settings memory diff = .error e ↔ ∃ line,
      FirstMalformed (FileDiff.headersLookedAt settings files) line ∧
        e = .malformedHeader line := by
  have headers : ∀ line ∈ FileDiff.headersLookedAt settings files, ∀ h,
      read? line = some h → h.Convertible := fun line inside =>
    convertible line ((lookedAt_iff cut).mpr inside).1
  rw [ofDiff_eq_error_iff, cut, ← findSome?_fault?_eq_some_iff headers]
  simp

namespace CommandLine

variable {s : Surroundings} {options : CheckOptions} {p : Preparation} {r : Resolver}
  {files : List FileDiff}

/-- A check fails at the first malformed header that is looked at, before anything is
looked up or printed. -/
theorem check_of_firstMalformed {line : Text} (prepared : Prepared s options p r)
    (convertible : Convertible p.diff) (cut : FileDiff.ofDiff p.diff = .ok files)
    (first : FirstMalformed (FileDiff.headersLookedAt p.review files) line) :
    check s options = { Outcome.failed s (.parameter (.diffHeader line)) with
      log := Narration.ofDiff r p.review Memory.empty p.diff } := by
  have failed : Review.ofDiff r p.review Memory.empty p.diff = .error (.malformedHeader line) :=
    (Review.ofDiff_eq_error_iff_of_convertible convertible cut).mpr ⟨line, first, rfl⟩
  exact check_of_unread prepared failed

/-- A check of a diff whose headers have their form, where they are looked at, is
reported. -/
theorem check_of_hasForm (prepared : Prepared s options p r) (convertible : Convertible p.diff)
    (writable : NumbersWritable p.diff) (cut : FileDiff.ofDiff p.diff = .ok files)
    (forms : ∀ line ∈ FileDiff.headersLookedAt p.review files, HasForm line) :
    (check s options).failure = none ∧
      ∃ violations, Violation.find p.review files = .ok violations ∧
        (check s options).exitCode = if p.failOnViolation && violations ≠ [] then 1 else 0 := by
  cases found : Violation.ofDiff p.review p.diff with
  | error e =>
      have failed := Review.ofDiff_eq_map r p.review Memory.empty p.diff
      rw [found] at failed
      obtain ⟨line, first, -⟩ :=
        (Review.ofDiff_eq_error_iff_of_convertible convertible cut).mp failed
      obtain ⟨other, inside, noForm⟩ := exists_firstMalformed_iff.mp ⟨line, first⟩
      exact absurd (forms other inside) noForm
  | ok violations =>
      obtain ⟨others, same, search⟩ := bind_eq_ok_iff.mp found
      obtain rfl := Except.ok.inj (cut.symm.trans same)
      have numbers := Violation.writable_of_numbersWritable writable cut search
      obtain ⟨passes, code, -⟩ := Finds.check_of_writable ⟨prepared.made, found⟩ numbers
      exact ⟨passes, violations, search, code⟩

/-- **A malformed header fails a check as a whole.**  A check that is ready is the fault of
the parameter that names the diff exactly if a file that is not ignored has a line that
opens a hunk and does not have the form of a header.  Then the first such line is named,
nothing is printed and no process is asked for.  Without such a line the check does not
fail: it ends with code one if violations are to fail it and there are any, and else with
code zero.  Headers of ignored files have no part in this. -/
theorem check_fails_at_first_malformed_header {settings : Settings} {diff : Text}
    (ready : Ready s options settings diff) (convertible : Convertible diff)
    (writable : NumbersWritable diff) :
    let review :=
      settings.review.override options.ignorePaths options.message options.tagReviewers
    let fails := options.failOnViolation.getD settings.failOnViolation
    ∃ files, FileDiff.ofDiff diff = .ok files ∧
      ((∃ error, (check s options).failure = some (.parameter error) ∧
          error.hint? = some "diff".toList) ↔
        ∃ file ∈ files, IgnoreList.covers review.ignorePaths file.path = false ∧
          ∃ line ∈ file.patch.lines, opens line = true ∧ ¬ HasForm line) ∧
      (∀ line, FirstMalformed (FileDiff.headersLookedAt review files) line →
        (∃ error, (check s options).failure = some (.parameter error) ∧
          error.hint? = some "diff".toList ∧
          error.message = "Invalid hunk header: ".toList ++ line) ∧
        (check s options).exitCode = 2 ∧ (check s options).stdout = [] ∧
        (check s options).requests = []) ∧
      ((∀ file ∈ files, IgnoreList.covers review.ignorePaths file.path = false →
          ∀ line ∈ file.patch.lines, opens line = true → HasForm line) →
        (check s options).failure = none ∧
        ∃ violations, Violation.find review files = .ok violations ∧
          (check s options).exitCode = if fails = true ∧ violations ≠ [] then 1 else 0) := by
  obtain ⟨p, r, prepared, rfl, rfl, review, -, fails⟩ := ready.exists_prepared
  rw [← review, ← fails]
  obtain ⟨files, cut⟩ := FileDiff.exists_ofDiff_of_convertible convertible
  have malformed (line : Text)
      (first : FirstMalformed (FileDiff.headersLookedAt p.review files) line) :=
    check_of_firstMalformed prepared convertible cut first
  have wellFormed (forms : ∀ line ∈ FileDiff.headersLookedAt p.review files, HasForm line) :=
    check_of_hasForm prepared convertible writable cut forms
  refine ⟨files, cut, ⟨?fault, ?blame⟩, ?first, ?passes⟩
  case fault =>
    rintro ⟨error, failed, -⟩
    by_contra none
    have forms : ∀ line ∈ FileDiff.headersLookedAt p.review files, HasForm line := by
      intro line inside
      obtain ⟨file, member, looked, among, opened⟩ := FileDiff.mem_headersLookedAt.mp inside
      by_contra noForm
      exact none ⟨file, member, looked, line, among, opened, noForm⟩
    cases (wellFormed forms).1.symm.trans failed
  case blame =>
    rintro ⟨file, member, looked, line, among, opened, noForm⟩
    have inside := FileDiff.mem_headersLookedAt.mpr ⟨file, member, looked, among, opened⟩
    obtain ⟨first, isFirst⟩ := exists_firstMalformed_iff.mpr ⟨line, inside, noForm⟩
    rw [malformed first isFirst]
    exact ⟨_, rfl, rfl⟩
  case first =>
    intro line first
    rw [malformed line first]
    exact ⟨⟨_, rfl, rfl, rfl⟩, rfl, rfl, rfl⟩
  case passes =>
    intro forms
    obtain ⟨passes, violations, search, exitCode⟩ := wellFormed fun line inside => by
      obtain ⟨file, member, looked, among, opened⟩ := FileDiff.mem_headersLookedAt.mp inside
      exact forms file member looked line among opened
    refine ⟨passes, violations, search, ?_⟩
    simpa using exitCode

/-- An ignored file with a malformed header, and a file with a directive. -/
def ignoredBreakDiff : Text :=
  terminated ["--- a/Dangerfile".toList, "+++ b/Dangerfile".toList, "@@ ignored".toList,
    "--- a/x.rb".toList, "+++ b/x.rb".toList, "@@ -1 +1 @@".toList, "-a".toList,
    "+b # rubocop:disable B".toList]

/-- Two malformed headers behind the directive. -/
def twiceBrokenDiff : Text :=
  ignoredBreakDiff ++ terminated ["@@ broken".toList, "@@ later".toList]

/-- A check of the diff on the input, with documentation, that violations fail. -/
def strictInput : CheckOptions :=
  { checkInput with docs := some true, failOnViolation := some true }

theorem check_fails_at_first_malformed_header_twiceBroken :
    (∃ error, (check (onInput twiceBrokenDiff) strictInput).failure = some (.parameter error) ∧
      error.hint? = some "diff".toList ∧
      error.message = "Invalid hunk header: @@ broken".toList) ∧
    (check (onInput twiceBrokenDiff) strictInput).exitCode = 2 ∧
    (check (onInput twiceBrokenDiff) strictInput).stdout = [] ∧
    (check (onInput twiceBrokenDiff) strictInput).requests = [] ∧
    (check (onInput ignoredBreakDiff) strictInput).failure = none ∧
    (check (onInput ignoredBreakDiff) strictInput).exitCode = 1 := by
  have ready (diff : Text) (bare : '\r' ∉ diff) :
      Ready (onInput diff) strictInput Settings.default diff :=
    ready_onInput bare rfl rfl rfl rfl nofun
  obtain ⟨files, cut, -, first, -⟩ :=
    check_fails_at_first_malformed_header (ready twiceBrokenDiff (by decide))
      (by decide +kernel) (numbersWritable_of_reach (inReach_of_small (by decide +kernel)))
  obtain ⟨others, cutOthers, -, -, passes⟩ :=
    check_fails_at_first_malformed_header (ready ignoredBreakDiff (by decide))
      (by decide +kernel) (numbersWritable_of_reach (inReach_of_small (by decide +kernel)))
  let review := Settings.default.review.override none none none
  have headers : (FileDiff.ofDiff twiceBrokenDiff).map (FileDiff.headersLookedAt review) =
      .ok ["@@ -1 +1 @@".toList, "@@ broken".toList, "@@ later".toList] := by
    decide +kernel
  have otherHeaders : (FileDiff.ofDiff ignoredBreakDiff).map (FileDiff.headersLookedAt review) =
      .ok ["@@ -1 +1 @@".toList] := by
    decide +kernel
  have violation : FileDiff.ofDiff ignoredBreakDiff >>= Violation.find review =
      .ok [⟨"x.rb".toList, 1, [['B']]⟩] := by
    decide +kernel
  rw [cut] at headers
  rw [cutOthers] at otherHeaders violation
  have form : HasForm "@@ -1 +1 @@".toList := ⟨⟨['1'], none, ['1'], none, []⟩, by decide, rfl⟩
  have broken : ¬ HasForm "@@ broken".toList := read?_eq_none_iff.mp rfl
  obtain ⟨fault, exitCode, silent, none⟩ := first _
    ⟨["@@ -1 +1 @@".toList], ["@@ later".toList], Except.ok.inj headers,
      List.forall_mem_singleton.mpr form, broken⟩
  obtain ⟨mended, violations, search, endsWith⟩ := passes fun file member looked line among opened => by
    have inside : line ∈ FileDiff.headersLookedAt review others :=
      FileDiff.mem_headersLookedAt.mpr ⟨file, member, looked, among, opened⟩
    rw [Except.ok.inj otherHeaders, List.mem_singleton] at inside
    exact inside ▸ form
  have found : violations ≠ [] := by
    rw [Except.ok.inj (search.symm.trans violation)]
    exact List.cons_ne_nil _ _
  refine ⟨fault, exitCode, silent, none, mended, ?_⟩
  rw [endsWith, if_pos ⟨rfl, found⟩]

end CommandLine

end DirectiveReview
