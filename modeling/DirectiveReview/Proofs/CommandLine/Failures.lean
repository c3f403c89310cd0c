/-
# How the text of a diff fails a check

A check that has read its settings and its diff can still fail because of what the diff
says.  A malformed header in a file that is looked at is reported as the fault of the
parameter that names the diff.  Numerals that are too long to be converted, and line
numbers that are too long to be written, are not: they break the check down.

So the text of a diff does no harm as long as its numerals can be converted and no line
can be counted on so far that its number cannot be written.
-/

import DirectiveReview.Proofs.CommandLine.Endings
import DirectiveReview.Proofs.Files.Encoding
import DirectiveReview.Proofs.Review.Numbers

namespace DirectiveReview

open Text

namespace CommandLine

variable {s : Surroundings}

/-- A check gets as far as reviewing a diff under given settings. -/
def Reviews (s : Surroundings) (options : CheckOptions) (settings : ReviewSettings)
    (diff : Text) : Prop :=
  ∃ p r, Preparation.make s options = .ok p ∧
    Resolver.make (p.lookup s options.repository) p.settings.docs.maxWorkers s.schedule = .ok r ∧
    p.review = settings ∧ p.diff = diff

/-- Such a check ends like its review, as long as line numbers can be written. -/
theorem failure_check_of_reviews {options : CheckOptions} {settings : ReviewSettings}
    {diff : Text} (reviews : Reviews s options settings diff)
    (reach : ∀ line ∈ diff.lines, ∀ h, HunkHeader.read? line = some h →
      decimalValue h.newStart + diff.lines.length ≤ Nat.pow 10 maxDigits) :
    ∃ r, (∃ e, Review.ofDiff r settings Memory.empty diff = .error e ∧
        (check s options).failure = some (diffFailure e)) ∨
      (∃ result, Review.ofDiff r settings Memory.empty diff = .ok result) ∧
        (check s options).failure = none := by
  obtain ⟨p, r, made, resolver, rfl, rfl⟩ := reviews
  have search := Review.ofDiff_eq_map r p.review Memory.empty p.diff
  refine ⟨r, ?_⟩
  cases found : Violation.ofDiff p.review p.diff with
  | error e =>
      rw [found] at search
      exact Or.inl ⟨e, search, (check_of_not_found made found).1⟩
  | ok violations =>
      rw [found] at search
      obtain ⟨files, cut, inFiles⟩ := bind_eq_ok_iff.mp found
      have writable :=
        Violation.writable_of_numbersWritable (numbersWritable_of_reach reach) cut inFiles
      exact Or.inr ⟨⟨_, search⟩, (Finds.check_of_writable ⟨made, found⟩ writable).1⟩

end CommandLine

namespace Review

open CommandLine HunkHeader

/-- **A diff fails at its hunk headers.**  A failed review is blamed on a malformed header
that is looked at, or on a numeral that is too long to be converted: a line count anywhere
in the diff or the start of a hunk that is looked at.  Each of these fails every review.
Where no numeral is that long, a malformed header is all that a review can fail at; and
where line numbers can be written as well, it is all that a check can fail at once it has
its settings and its diff. -/
theorem ofDiff_fails_by_header (settings : ReviewSettings) (diff : Text) :
    (∀ r memory e, ofDiff r settings memory diff = .error e →
      (∃ line, e = .malformedHeader line ∧ read? line = none ∧ LookedAt settings diff line) ∨
      (e = .numberTooLong ∧ ∃ line ∈ diff.lines, ∃ h, read? line = some h ∧
        (h.CountTooLong ∨ h.StartTooLong ∧ LookedAt settings diff line))) ∧
    (∀ line ∈ diff.lines, ∀ h, read? line = some h → h.CountTooLong →
      ∀ r memory, ofDiff r settings memory diff = .error .numberTooLong) ∧
    (∀ line, LookedAt settings diff line →
      (read? line = none ∨ ∃ h, read? line = some h ∧ h.StartTooLong) →
      ∀ r memory, ∃ e, ofDiff r settings memory diff = .error e) ∧
    ((∀ line ∈ diff.lines, ∀ h, read? line = some h → h.Convertible) →
      (∀ r memory, (∃ result, ofDiff r settings memory diff = .ok result) ∨
        ∃ line, ofDiff r settings memory diff = .error (.malformedHeader line) ∧
          LookedAt settings diff line) ∧
      ((∀ line ∈ diff.lines, ∀ h, read? line = some h →
          decimalValue h.newStart + diff.lines.length ≤ Nat.pow 10 maxDigits) →
        ∀ s options, Reviews s options settings diff →
          (check s options).failure = none ∨
          ∃ line, (check s options).failure = some (.parameter (.diffHeader line)) ∧
            LookedAt settings diff line)) := by
  have blame {r : Resolver} {memory : Memory} {e : DiffError}
      (convertible : ∀ line ∈ diff.lines, ∀ h, read? line = some h → h.Convertible)
      (failed : ofDiff r settings memory diff = .error e) :
      ∃ line, e = .malformedHeader line ∧ LookedAt settings diff line := by
    rcases blame_of_ofDiff_eq_error failed with
      ⟨line, rfl, -, looked⟩ | ⟨-, line, inside, h, read, long⟩
    · exact ⟨line, rfl, looked⟩
    · have fits := convertible line inside h read
      rcases long with count | ⟨start, -⟩
      · exact absurd count fits.counts
      · exact absurd start fits.start
  refine ⟨fun r memory e => blame_of_ofDiff_eq_error, ?counts, ?lookedAt, ?convertible⟩
  case counts =>
    intro line inside h read long r memory
    have cut : FileDiff.ofDiff diff = .error .numberTooLong :=
      FileDiff.ofDiff_eq_error_iff.mpr ⟨⟨line, inside, opens_of_read? read, h, read, long⟩, rfl⟩
    exact ofDiff_eq_error_iff.mpr (Or.inl cut)
  case lookedAt =>
    intro line looked unreadable
    apply exists_ofDiff_eq_error_of_lookedAt looked
    rcases unreadable with none | long
    · exact ⟨_, fault?_eq_some_iff.mpr (Or.inl ⟨none, rfl⟩)⟩
    · exact ⟨_, fault?_eq_some_iff.mpr (Or.inr ⟨long, rfl⟩)⟩
  case convertible =>
    intro convertible
    constructor
    · intro r memory
      cases reviewed : ofDiff r settings memory diff with
      | ok result => exact Or.inl ⟨result, rfl⟩
      | error e =>
          obtain ⟨line, rfl, looked⟩ := blame convertible reviewed
          exact Or.inr ⟨line, rfl, looked⟩
    · intro reach s options reviews
      obtain ⟨r, ⟨e, failed, fails⟩ | ⟨-, passes⟩⟩ := failure_check_of_reviews reviews reach
      · obtain ⟨line, rfl, looked⟩ := blame convertible failed
        exact Or.inr ⟨line, fails, looked⟩
      · exact Or.inl passes

end Review

/-! ## Two diffs that fail -/

/-- Behind a good hunk stands a header without its form. -/
def brokenDiff : Text :=
  "--- a/x.rb\n+++ b/x.rb\n@@ -1 +1,2 @@\n a\n+b\n@@ broken\n".toList

/-- A header with a line count of one digit too many. -/
def endlessHeader : HunkHeader :=
  ⟨['1'], none, ['1'], some (List.replicate (maxDigits + 1) '1'), []⟩

def endlessDiff : Text :=
  terminated (["--- a/x.rb".toList, "+++ b/x.rb".toList] ++ [endlessHeader.text])

theorem wellFormed_endlessHeader : endlessHeader.WellFormed where
  oldStart := by decide
  oldCount := by simp [endlessHeader]
  newStart := by decide
  newCount := by
    intro digits given
    obtain rfl := Option.some.inj given
    refine ⟨List.cons_ne_nil _ _, fun c inside => ?_⟩
    rw [List.eq_of_mem_replicate inside]
    decide

theorem endlessHeader_mem_lines : endlessHeader.text ∈ endlessDiff.lines := by
  have names : ∀ name ∈ ["--- a/x.rb".toList, "+++ b/x.rb".toList], OneLine name := by decide
  have header : ∀ line ∈ [endlessHeader.text], OneLine line :=
    List.forall_mem_singleton.mpr (HunkHeader.oneLine_text wellFormed_endlessHeader oneLine_nil)
  rw [endlessDiff, lines_terminated (List.forall_mem_append.mpr ⟨names, header⟩)]
  exact List.mem_append_right _ (List.mem_singleton_self _)

theorem brokenDiff_lookedAt :
    HunkHeader.LookedAt ReviewSettings.default brokenDiff "@@ broken".toList := by
  have cut : FileDiff.ofDiff brokenDiff = .ok [⟨"x.rb".toList, brokenDiff.dropLast⟩] := by
    decide +kernel
  exact ⟨by decide, by decide, _, cut, _, List.mem_cons_self, by decide +kernel, by decide +kernel⟩

namespace CommandLine

def onInput (diff : Text) : Surroundings where
  tree := ⟨[]⟩
  working := []
  room := 100
  stdin := encodeUtf8 diff
  now := ⟨2024, 1, 1, 0, 0, 0, 0⟩
  run _ := .timedOut
  schedule := Schedule.inOrder

/-- A check of the diff on the input, without documentation. -/
def checkInput : CheckOptions :=
  ⟨none, true, ⟨.working, []⟩, none, none, none, some false, none, none, none⟩

/-- A check that takes its diff from the input and needs nothing else is ready. -/
theorem ready_onInput {diff : Text} {options : CheckOptions} (bare : '\r' ∉ diff)
    (input : options.stdin = true)
    (noFile : options.diffFile = none) (here : options.repository = ⟨.working, []⟩)
    (noSettings : options.settingsFile = none)
    (format : ∀ word ∈ options.format, word = [] ∨ (ReportFormat.ofWord? word).isSome = true) :
    Ready (onInput diff) options Settings.default diff where
  loads := by
    have found : Settings.load 98 ⟨[]⟩ [] ⟨.working, []⟩ none = .ok Settings.default := rfl
    rw [here, noSettings]
    exact mapError_eq_ok_iff.mpr found
  format := format
  supplied := ⟨_, .input input noFile (decodeLines?_encodeUtf8 bare)⟩

theorem reviews_onInput {diff : Text} (bare : '\r' ∉ diff) :
    Reviews (onInput diff) checkInput ReviewSettings.default diff := by
  have ready : Ready (onInput diff) checkInput Settings.default diff :=
    ready_onInput bare rfl rfl rfl rfl nofun
  obtain ⟨p, r, prepared, -, same, review, -⟩ := ready.exists_prepared
  exact ⟨p, r, prepared.made, prepared.resolver,
    review.trans (ReviewSettings.override_none _), same⟩

end CommandLine

namespace Review

open CommandLine HunkHeader

theorem ofDiff_fails_by_header_brokenDiff :
    (∀ r memory, ofDiff r ReviewSettings.default memory endlessDiff = .error .numberTooLong ∧
      ∃ line ∈ endlessDiff.lines, ∃ h, read? line = some h ∧
        (h.CountTooLong ∨ h.StartTooLong ∧ LookedAt ReviewSettings.default endlessDiff line)) ∧
    (∀ r memory, ∃ e, ofDiff r ReviewSettings.default memory brokenDiff = .error e) ∧
    (∀ r memory, (∃ result, ofDiff r ReviewSettings.default memory brokenDiff = .ok result) ∨
      ∃ line, ofDiff r ReviewSettings.default memory brokenDiff =
        .error (.malformedHeader line) ∧ LookedAt ReviewSettings.default brokenDiff line) ∧
    ((check (onInput brokenDiff) checkInput).failure = none ∨
      ∃ line, (check (onInput brokenDiff) checkInput).failure =
        some (.parameter (.diffHeader line)) ∧
        LookedAt ReviewSettings.default brokenDiff line) := by
  obtain ⟨blame, counts, -, -⟩ := ofDiff_fails_by_header ReviewSettings.default endlessDiff
  obtain ⟨-, -, lookedAt, convertible⟩ := ofDiff_fails_by_header ReviewSettings.default brokenDiff
  have long : endlessHeader.CountTooLong :=
    ⟨_, Or.inr rfl, by rw [List.length_replicate]; exact Nat.lt_succ_self maxDigits⟩
  have endless (r : Resolver) (memory : Memory) :=
    counts _ endlessHeader_mem_lines _ (read?_text wellFormed_endlessHeader) long r memory
  have converts : Convertible brokenDiff := by decide +kernel
  have reach : ∀ line ∈ brokenDiff.lines, ∀ h, read? line = some h →
      decimalValue h.newStart + brokenDiff.lines.length ≤ Nat.pow 10 maxDigits :=
    inReach_of_small (by decide +kernel)
  have broken : read? "@@ broken".toList = none := by decide
  refine ⟨fun r memory => ⟨endless r memory, ?_⟩, lookedAt _ brokenDiff_lookedAt (Or.inl broken),
    (convertible converts).1, (convertible converts).2 reach _ _ (reviews_onInput (by decide))⟩
  rcases blame r memory _ (endless r memory) with ⟨line, malformed, -⟩ | ⟨-, found⟩
  · cases malformed
  · exact found

end Review

end DirectiveReview
