/-
# Lookups have no part in the verdict

What a check says about a diff is settled before any rule is looked up.  So two checks that
differ in what the processes do, in the order in which lookups made side by side take
effect, or in whether documentation is wanted at all, end the same way: with the same
failure or none, and with the same exit code.  What they print differs in links alone.
-/

import DirectiveReview.Proofs.CommandLine.Failures
import DirectiveReview.Proofs.Report.Printed
import DirectiveReview.Proofs.Review.Links

namespace DirectiveReview.CommandLine

open Text

variable {s : Surroundings} {options : CheckOptions} {p : Preparation}
  {violations : List Violation}

/-- A report for programs is printed as it is. -/
theorem Finds.check_of_json (finds : Finds s options p violations)
    (writable : Violation.Writable violations) (json : p.format = .json) :
    ∃ display : Text → Text, (∀ rule, Shows rule (display rule)) ∧
      (check s options).stdout = (Report.document (Review.shown p.review violations display)
        ⟨p.inputSource, p.settings.source, s.now⟩).text ++ ['\n'] := by
  obtain ⟨-, -, display, shows, text, written, printed⟩ := finds.check_of_writable writable
  refine ⟨display, shows, ?_⟩
  rw [Preparation.report?, json] at written
  dsimp only at written
  rw [Report.json?, Json.text?, Option.ite_none_right_eq_some] at written
  rw [printed, ← Option.some.inj written.2, Report.plain_document]

/-! ## Two checks -/

/-- Checks of one diff under one set of review settings end the same way. -/
theorem check_ends_alike {t : Surroundings} {others : CheckOptions} {q : Preparation}
    (made : Preparation.make s options = .ok p) (madeToo : Preparation.make t others = .ok q)
    (diff : q.diff = p.diff) (review : q.review = p.review)
    (fails : q.failOnViolation = p.failOnViolation) :
    (check t others).failure = (check s options).failure ∧
      (check t others).exitCode = (check s options).exitCode := by
  have same : Violation.ofDiff q.review q.diff = Violation.ofDiff p.review p.diff := by
    rw [diff, review]
  cases found : Violation.ofDiff p.review p.diff with
  | error e =>
      obtain ⟨failure, code⟩ := check_of_not_found made found
      obtain ⟨failureToo, codeToo⟩ := check_of_not_found madeToo (same.trans found)
      exact ⟨failureToo.trans failure.symm, codeToo.trans code.symm⟩
  | ok violations =>
      have finds : Finds s options p violations := ⟨made, found⟩
      have findsToo : Finds t others q violations := ⟨madeToo, same.trans found⟩
      by_cases writable : Violation.Writable violations
      · obtain ⟨passes, code, -⟩ := finds.check_of_writable writable
        obtain ⟨passesToo, codeToo, -⟩ := findsToo.check_of_writable writable
        rw [passes, passesToo, code, codeToo, fails]
        exact ⟨rfl, rfl⟩
      · obtain ⟨failure, code⟩ := finds.check_of_not_writable writable
        obtain ⟨failureToo, codeToo⟩ := findsToo.check_of_not_writable writable
        exact ⟨failureToo.trans failure.symm, codeToo.trans code.symm⟩

/-- Preparing a check reads nothing of the processes, and decides about documentation
apart from everything else. -/
theorem make_of_lookups (s : Surroundings) (options : CheckOptions)
    (run : ToolRequest → ProcessOutcome) (schedule : Schedule) (docs : Option Bool) :
    Preparation.make { s with run, schedule } { options with docs } =
      (Preparation.make s options).map fun p =>
        { p with docs := docs.getD p.settings.docs.enabled } := by
  have diff : Preparation.readDiff { s with run, schedule } { options with docs } =
      Preparation.readDiff s options := rfl
  have settings : loadSettings { s with run, schedule } = loadSettings s := rfl
  rw [Preparation.make, Preparation.make, diff, settings]
  dsimp only [bind, Except.bind]
  cases loadSettings s options.repository options.settingsFile with
  | error failure => rfl
  | ok settings =>
      dsimp only
      cases Preparation.formatFor options.format settings with
      | error failure => rfl
      | ok format =>
          dsimp only
          cases Preparation.readDiff s options with
          | error failure => rfl
          | ok given => rfl

/-- **Lookups have no part in the verdict.**  Two checks that differ at most in what the
processes do, in the order of their lookups and in whether documentation is wanted end the
same way: with the same failure, or none, and the same exit code.  If they are reported
for programs, the reports are of reviews that differ in links alone, and say the same about
themselves. -/
theorem check_unmoved_by_lookups (s : Surroundings) (options : CheckOptions)
    (run : ToolRequest → ProcessOutcome) (schedule : Schedule) (docs : Option Bool) :
    let elsewhere := { s with run, schedule }
    let otherwise := { options with docs }
    (check elsewhere otherwise).failure = (check s options).failure ∧
    (check elsewhere otherwise).exitCode = (check s options).exitCode ∧
    ∀ p, Preparation.make s options = .ok p → p.format = .json →
      (check s options).failure = none → ∃ first second about,
        (check s options).stdout = (Report.document first about).text ++ ['\n'] ∧
        (check elsewhere otherwise).stdout = (Report.document second about).text ++ ['\n'] ∧
        first.SameButLinks p.review.message second := by
  intro elsewhere otherwise
  have makes := make_of_lookups s options run schedule docs
  cases made : Preparation.make s options with
  | error failure =>
      rw [made] at makes
      have madeToo : Preparation.make elsewhere otherwise = .error failure := makes
      rw [check_of_unprepared made, check_of_unprepared madeToo]
      refine ⟨rfl, rfl, fun p same => ?_⟩
      cases same
  | ok p =>
      rw [made] at makes
      let q : Preparation := { p with docs := docs.getD p.settings.docs.enabled }
      have madeToo : Preparation.make elsewhere otherwise = .ok q := makes
      obtain ⟨failure, code⟩ := check_ends_alike made madeToo rfl rfl rfl
      refine ⟨failure, code, fun given same json passes => ?_⟩
      obtain rfl := Except.ok.inj same
      obtain ⟨violations, finds, writable⟩ := exists_finds_of_passes made passes
      have findsToo : Finds elsewhere otherwise q violations := ⟨madeToo, finds.found⟩
      obtain ⟨display, shows, printed⟩ := finds.check_of_json writable json
      obtain ⟨other, showsToo, printedToo⟩ := findsToo.check_of_json writable json
      exact ⟨_, _, _, printed, printedToo, Review.sameButLinks_shown shows showsToo⟩

/-- An added line that names a rule. -/
def oneRuleDiff : Text :=
  terminated ["--- a/x.rb".toList, "+++ b/x.rb".toList, "@@ -1 +1 @@".toList, "-a".toList,
    "+b # rubocop:disable B".toList]

/-- A strict check of the diff on the input, reported for programs, with documentation. -/
def linkedInput : CheckOptions :=
  { checkInput with
    docs := some true, format := some "json".toList, failOnViolation := some true }

theorem check_unmoved_by_lookups_oneRule :
    let elsewhere := { onInput oneRuleDiff with run := fun _ => .exited 0 ['u'] [] }
    let otherwise := { linkedInput with docs := some false }
    (check elsewhere linkedInput).failure = none ∧
    (check elsewhere linkedInput).exitCode = (check (onInput oneRuleDiff) linkedInput).exitCode ∧
    (check (onInput oneRuleDiff) otherwise).failure = none ∧
    ∃ message first second about,
      (check (onInput oneRuleDiff) linkedInput).stdout =
        (Report.document first about).text ++ ['\n'] ∧
      (check elsewhere linkedInput).stdout = (Report.document second about).text ++ ['\n'] ∧
      first.SameButLinks message second := by
  intro elsewhere otherwise
  have bare : '\r' ∉ oneRuleDiff := by decide
  have found : Violation.ofDiff (Settings.default.review.override none none none) oneRuleDiff =
      .ok [⟨"x.rb".toList, 1, [['B']]⟩] := by
    decide +kernel
  have format : ∀ word ∈ linkedInput.format,
      word = [] ∨ (ReportFormat.ofWord? word).isSome = true := by
    decide
  have ready : Ready (onInput oneRuleDiff) linkedInput Settings.default oneRuleDiff :=
    ready_onInput bare rfl rfl rfl rfl format
  obtain ⟨p, finds, same⟩ := ready.exists_finds found
  have writable : Violation.Writable [⟨"x.rb".toList, 1, [['B']]⟩] :=
    List.forall_mem_singleton.mpr (by decide +kernel)
  have passes := (finds.check_of_writable writable).1
  have json : p.format = .json := by
    obtain ⟨settings, format, -, -, -, chosen, -, rfl⟩ :=
      Preparation.make_eq_ok_iff.mp finds.made
    exact (Except.ok.inj chosen).symm
  obtain ⟨failure, code, reports⟩ := check_unmoved_by_lookups (onInput oneRuleDiff) linkedInput
    elsewhere.run Schedule.inOrder (some true)
  obtain ⟨silent, -, -⟩ := check_unmoved_by_lookups (onInput oneRuleDiff) linkedInput
    (onInput oneRuleDiff).run Schedule.inOrder (some false)
  exact ⟨failure.trans passes, code, silent.trans passes, p.review.message,
    reports p finds.made json passes⟩

end DirectiveReview.CommandLine
