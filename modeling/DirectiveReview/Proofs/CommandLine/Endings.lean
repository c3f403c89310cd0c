/-
# How a check ends

A check ends in one of four ways: it cannot be prepared, its diff cannot be read, its
report cannot be written, or it is reported.  `Ending` says once what each of them leaves
behind.

There is no fifth way.  Settings that can be loaded name a worker, so a check that is
prepared has its resolver.  A diff that cannot be read leaves the memory of this resolver
as it was, so nothing has been looked up where a check ends in one of the first two ways.

Which way it is depends on the preparation and on the violations that are found, whatever
is shown for their rules: the diff is read before any rule is looked up, and a report can
be written unless a line number is too long.
-/

import DirectiveReview.CommandLine.Check
import DirectiveReview.Proofs.Report.Writable
import DirectiveReview.Proofs.Review.Links
import DirectiveReview.Proofs.Settings.Loaded

namespace DirectiveReview.CommandLine

variable {s : Surroundings} {options : CheckOptions} {p : Preparation} {r : Resolver}

/-! ## Being prepared -/

/-- Exactly one source is given for the diff, and what it holds is a text. -/
inductive Supplies (s : Surroundings) (options : CheckOptions) : (diff source : Text) → Prop where
  | file {path : Path} {bytes : List UInt8} {diff : Text} (given : options.diffFile = some path)
      (alone : options.stdin = false) (content : s.tree.content s.working path = .ok bytes)
      (text : decodeLines? bytes = some diff) :
      Supplies s options diff ("diff_file:".toList ++ path.text)
  | input {diff : Text} (given : options.stdin = true) (alone : options.diffFile = none)
      (text : decodeLines? s.stdin = some diff) : Supplies s options diff "stdin".toList

/-- A check has all it needs: settings that can be loaded, a format that is known, and a
diff. -/
structure Ready (s : Surroundings) (options : CheckOptions) (settings : Settings)
    (diff : Text) : Prop where
  loads : loadSettings s options.repository options.settingsFile = .ok settings
  format : ∀ word ∈ options.format, word = [] ∨ (ReportFormat.ofWord? word).isSome = true
  supplied : ∃ source, Supplies s options diff source

namespace Preparation

theorem readDiff_of_supplies {diff source : Text} (supplies : Supplies s options diff source) :
    readDiff s options = .ok (diff, source) := by
  cases supplies with
  | @file path bytes _ given alone content text =>
      have read : diffInFile s path = .ok diff := by
        refine bind_eq_ok_iff.mpr ⟨bytes, mapError_eq_ok_iff.mpr content, ?_⟩
        rw [text]
      rw [readDiff, given, alone]
      dsimp only
      rw [read]
      rfl
  | input given alone text =>
      have read : diffOnInput s = .ok diff := by
        rw [diffOnInput, text]
      rw [readDiff, given, alone]
      dsimp only
      rw [read]
      rfl

theorem exists_formatFor {option : Option Text}
    (known : ∀ word ∈ option, word = [] ∨ (ReportFormat.ofWord? word).isSome = true)
    (settings : Settings) : ∃ format, formatFor option settings = .ok format := by
  match option, known with
  | none, _ => exact ⟨_, rfl⟩
  | some [], _ => exact ⟨_, rfl⟩
  | some (c :: rest), known =>
      rcases known _ rfl with empty | word
      · cases empty
      · obtain ⟨format, found⟩ := Option.isSome_iff_exists.mp word
        refine ⟨format, ?_⟩
        unfold formatFor
        dsimp only
        rw [found]

/-- What a preparation is made of. -/
theorem make_eq_ok_iff : make s options = .ok p ↔
    ∃ settings format diff source,
      loadSettings s options.repository options.settingsFile = .ok settings ∧
      formatFor options.format settings = .ok format ∧
      readDiff s options = .ok (diff, source) ∧
      p = ⟨settings, format, diff, source,
        settings.review.override options.ignorePaths options.message options.tagReviewers,
        options.docs.getD settings.docs.enabled,
        options.failOnViolation.getD settings.failOnViolation⟩ := by
  simp only [make, bind_eq_ok_iff]
  constructor
  · rintro ⟨settings, loads, format, chosen, ⟨diff, source⟩, read, done⟩
    exact ⟨settings, format, diff, source, loads, chosen, read, (Except.ok.inj done).symm⟩
  · rintro ⟨settings, format, diff, source, loads, chosen, read, rfl⟩
    exact ⟨settings, loads, format, chosen, (diff, source), read, rfl⟩

theorem maxWorkers_pos_of_make (made : make s options = .ok p) :
    0 < p.settings.docs.maxWorkers := by
  obtain ⟨settings, -, -, -, loads, -, -, rfl⟩ := make_eq_ok_iff.mp made
  exact (Settings.fromTable_of_load (mapError_eq_ok_iff.mp loads)).usable.maxWorkers

end Preparation

/-- A check is prepared, and its resolver is at hand. -/
structure Prepared (s : Surroundings) (options : CheckOptions) (p : Preparation)
    (r : Resolver) : Prop where
  made : Preparation.make s options = .ok p
  resolver : Resolver.make (p.lookup s options.repository) p.settings.docs.maxWorkers
    s.schedule = .ok r

theorem exists_prepared (made : Preparation.make s options = .ok p) :
    ∃ r, Prepared s options p r :=
  ⟨_, made, dif_pos (Preparation.maxWorkers_pos_of_make made)⟩

/-- What is ready is prepared, with these settings and this diff. -/
theorem Ready.exists_prepared {settings : Settings} {diff : Text}
    (ready : Ready s options settings diff) :
    ∃ p r, Prepared s options p r ∧ p.settings = settings ∧ p.diff = diff ∧
      p.review =
        settings.review.override options.ignorePaths options.message options.tagReviewers ∧
      p.docs = options.docs.getD settings.docs.enabled ∧
      p.failOnViolation = options.failOnViolation.getD settings.failOnViolation := by
  obtain ⟨source, supplies⟩ := ready.supplied
  obtain ⟨format, chosen⟩ := Preparation.exists_formatFor ready.format settings
  have made := Preparation.make_eq_ok_iff.mpr ⟨settings, format, diff, source, ready.loads, chosen,
    Preparation.readDiff_of_supplies supplies, rfl⟩
  obtain ⟨r, prepared⟩ := CommandLine.exists_prepared made
  exact ⟨_, r, prepared, rfl, rfl, rfl, rfl, rfl⟩

/-! ## The endings -/

/-- What each way to end leaves behind. -/
inductive Ending (s : Surroundings) (options : CheckOptions) : Outcome → Prop where
  /-- The check cannot be prepared. -/
  | unprepared {failure : Failure} (failed : Preparation.make s options = .error failure) :
      Ending s options (Outcome.failed s failure)
  /-- The diff cannot be read. -/
  | unread {p : Preparation} {r : Resolver} {e : DiffError} (prepared : Prepared s options p r)
      (failed : Review.ofDiff r p.review Memory.empty p.diff = .error e) :
      Ending s options
        { Outcome.failed s (diffFailure e) with
          log := Narration.ofDiff r p.review Memory.empty p.diff }
  /-- The report cannot be written. -/
  | unwritten {p : Preparation} {r : Resolver} {review : Review} {memory : Memory}
      (prepared : Prepared s options p r)
      (reviewed : Review.ofDiff r p.review Memory.empty p.diff = .ok (review, memory))
      (unwritten : p.report? s review = none) :
      Ending s options
        { Outcome.failed s (.breakdown .numberTooLong) with
          log := Narration.ofDiff r p.review Memory.empty p.diff
          requests := memory.requests }
  /-- The check is reported. -/
  | reported {p : Preparation} {r : Resolver} {review : Review} {memory : Memory} {text : Text}
      (prepared : Prepared s options p r)
      (reviewed : Review.ofDiff r p.review Memory.empty p.diff = .ok (review, memory))
      (written : p.report? s review = some text) :
      Ending s options
        { Outcome.printed s text with
          log := Narration.ofDiff r p.review Memory.empty p.diff
          requests := memory.requests
          exitCode := if p.failOnViolation && review.violations ≠ [] then 1 else 0 }

theorem check_of_unprepared {failure : Failure}
    (failed : Preparation.make s options = .error failure) :
    check s options = Outcome.failed s failure := by
  rw [check, failed]

theorem check_of_prepared (prepared : Prepared s options p r) :
    check s options = checkPrepared s p r := by
  rw [check, prepared.made]
  dsimp only
  rw [prepared.resolver]

theorem check_of_unread {e : DiffError} (prepared : Prepared s options p r)
    (failed : Review.ofDiff r p.review Memory.empty p.diff = .error e) :
    check s options = { Outcome.failed s (diffFailure e) with
      log := Narration.ofDiff r p.review Memory.empty p.diff } := by
  rw [check_of_prepared prepared, checkPrepared, Review.attempt_of_ofDiff_eq_error failed]
  -- The memory is still the empty one, which holds no process.
  rfl

theorem check_of_unwritten {review : Review} {memory : Memory}
    (prepared : Prepared s options p r)
    (reviewed : Review.ofDiff r p.review Memory.empty p.diff = .ok (review, memory))
    (unwritten : p.report? s review = none) :
    check s options = { Outcome.failed s (.breakdown .numberTooLong) with
      log := Narration.ofDiff r p.review Memory.empty p.diff
      requests := memory.requests } := by
  rw [check_of_prepared prepared, checkPrepared, Review.attempt_of_ofDiff_eq_ok reviewed]
  dsimp only
  rw [unwritten]

theorem check_of_reported {review : Review} {memory : Memory} {text : Text}
    (prepared : Prepared s options p r)
    (reviewed : Review.ofDiff r p.review Memory.empty p.diff = .ok (review, memory))
    (written : p.report? s review = some text) :
    check s options = { Outcome.printed s text with
      log := Narration.ofDiff r p.review Memory.empty p.diff
      requests := memory.requests
      exitCode := if p.failOnViolation && review.violations ≠ [] then 1 else 0 } := by
  rw [check_of_prepared prepared, checkPrepared, Review.attempt_of_ofDiff_eq_ok reviewed]
  dsimp only
  rw [written]

/-- Every check ends in one of the four ways. -/
theorem ending_check (s : Surroundings) (options : CheckOptions) :
    Ending s options (check s options) := by
  cases made : Preparation.make s options with
  | error failure =>
      rw [check_of_unprepared made]
      exact .unprepared made
  | ok p =>
      obtain ⟨r, prepared⟩ := exists_prepared made
      cases reviewed : Review.ofDiff r p.review Memory.empty p.diff with
      | error e =>
          rw [check_of_unread prepared reviewed]
          exact .unread prepared reviewed
      | ok result =>
          obtain ⟨review, memory⟩ := result
          cases written : p.report? s review with
          | none =>
              rw [check_of_unwritten prepared reviewed written]
              exact .unwritten prepared reviewed written
          | some text =>
              rw [check_of_reported prepared reviewed written]
              exact .reported prepared reviewed written

/-! ## What is found -/

/-- A check gets as far as its violations. -/
structure Finds (s : Surroundings) (options : CheckOptions) (p : Preparation)
    (violations : List Violation) : Prop where
  made : Preparation.make s options = .ok p
  found : Violation.ofDiff p.review p.diff = .ok violations

/-- A check that is ready finds what is in its diff. -/
theorem Ready.exists_finds {settings : Settings} {diff : Text} {violations : List Violation}
    (ready : Ready s options settings diff)
    (found : Violation.ofDiff
      (settings.review.override options.ignorePaths options.message options.tagReviewers) diff =
        .ok violations) :
    ∃ p, Finds s options p violations ∧ p.settings = settings := by
  obtain ⟨p, r, prepared, same, rfl, review, -⟩ := ready.exists_prepared
  rw [← review] at found
  exact ⟨p, ⟨prepared.made, found⟩, same⟩

/-- What is found is reviewed, and shown in some way.  Every rule is called for once, and
the memory tells what the calls did. -/
theorem Finds.exists_reviewed {violations : List Violation}
    (finds : Finds s options p violations) : ∃ r display memory, Prepared s options p r ∧
      Review.ofDiff r p.review Memory.empty p.diff =
        .ok (Review.shown p.review violations display, memory) ∧
      (∀ rule, Shows rule (display rule)) ∧
      memory.calls.Perm (violations.flatMap Violation.rules).eraseDups ∧
      r.Faithful memory := by
  obtain ⟨r, prepared⟩ := exists_prepared finds.made
  obtain ⟨asked, same⟩ :=
    Review.ofViolations_eq_shown (r := r) Resolver.faithful_empty p.review violations
  have reviewed : Review.ofDiff r p.review Memory.empty p.diff =
      .ok (Review.ofViolations r p.review Memory.empty violations) := by
    rw [Review.ofDiff_eq_map, finds.found]
    rfl
  have faithful :=
    Review.faithful_ofViolations (r := r) Resolver.faithful_empty p.review violations
  generalize Review.ofViolations r p.review Memory.empty violations = result
    at asked same reviewed faithful
  obtain ⟨review, memory⟩ := result
  have shown : review = Review.shown p.review violations (r.displayIn memory.calls) := same
  rw [shown] at reviewed
  exact ⟨r, _, memory, prepared, reviewed, r.shows_displayIn _, asked.calls_perm, faithful⟩

/-- What is reviewed was found. -/
theorem Prepared.finds {review : Review} {memory : Memory} (prepared : Prepared s options p r)
    (reviewed : Review.ofDiff r p.review Memory.empty p.diff = .ok (review, memory)) :
    Finds s options p review.violations := by
  obtain ⟨files, cut, search, -⟩ := Review.ofDiff_eq_ok_iff.mp reviewed
  exact ⟨prepared.made, bind_eq_ok_iff.mpr ⟨files, cut, search⟩⟩

/-- Only a line number can keep the report of violations from being written. -/
theorem isSome_report?_shown_iff {settings : ReviewSettings} {violations : List Violation}
    {display : Text → Text} :
    (p.report? s (Review.shown settings violations display)).isSome = true ↔
      Violation.Writable violations := by
  rw [Preparation.report?]
  cases p.format with
  | human =>
      rw [Report.isSome_human?_iff, Review.violations_shown]
      by_cases found : violations = []
      · simp [found, Violation.Writable]
      · rw [or_iff_right found, Review.linesWritable_inline_shown_iff]
  | json =>
      rw [Report.isSome_json?_iff, Review.linesWritable_comments_shown_iff,
        Review.violations_shown, and_self_iff]

/-! ## What settles which way it is -/

section Verdict

variable {violations : List Violation}

theorem check_of_not_found {e : DiffError} (made : Preparation.make s options = .ok p)
    (failed : Violation.ofDiff p.review p.diff = .error e) :
    (check s options).failure = some (diffFailure e) ∧
      (check s options).exitCode = (diffFailure e).exitCode := by
  obtain ⟨r, prepared⟩ := exists_prepared made
  have unread : Review.ofDiff r p.review Memory.empty p.diff = .error e := by
    rw [Review.ofDiff_eq_map, failed]
    rfl
  rw [check_of_unread prepared unread]
  exact ⟨rfl, rfl⟩

theorem Finds.check_of_not_writable (finds : Finds s options p violations)
    (long : ¬ Violation.Writable violations) :
    (check s options).failure = some (.breakdown .numberTooLong) ∧
      (check s options).exitCode = 1 := by
  obtain ⟨r, display, memory, prepared, reviewed, -⟩ := finds.exists_reviewed
  have unwritten : p.report? s (Review.shown p.review violations display) = none := by
    rw [← Option.not_isSome_iff_eq_none, isSome_report?_shown_iff]
    exact long
  rw [check_of_unwritten prepared reviewed unwritten]
  exact ⟨rfl, rfl⟩

theorem Finds.check_of_writable (finds : Finds s options p violations)
    (writable : Violation.Writable violations) :
    (check s options).failure = none ∧
      ((check s options).exitCode = if p.failOnViolation && violations ≠ [] then 1 else 0) ∧
      ∃ display : Text → Text, (∀ rule, Shows rule (display rule)) ∧
        ∃ text, p.report? s (Review.shown p.review violations display) = some text ∧
          (check s options).stdout = Terminal.plain (text ++ ['\n']) := by
  obtain ⟨r, display, memory, prepared, reviewed, shows, -⟩ := finds.exists_reviewed
  have printed : (p.report? s (Review.shown p.review violations display)).isSome = true :=
    isSome_report?_shown_iff.mpr writable
  obtain ⟨text, written⟩ := Option.isSome_iff_exists.mp printed
  rw [check_of_reported prepared reviewed written]
  refine ⟨rfl, ?_, display, shows, text, written, rfl⟩
  dsimp only
  rw [Review.violations_shown]

theorem exists_finds_of_passes (made : Preparation.make s options = .ok p)
    (passes : (check s options).failure = none) :
    ∃ violations, Finds s options p violations ∧ Violation.Writable violations := by
  cases found : Violation.ofDiff p.review p.diff with
  | error e => cases passes.symm.trans (check_of_not_found made found).1
  | ok violations =>
      refine ⟨violations, ⟨made, found⟩, ?_⟩
      by_contra long
      cases passes.symm.trans (Finds.check_of_not_writable ⟨made, found⟩ long).1

end Verdict

end DirectiveReview.CommandLine
