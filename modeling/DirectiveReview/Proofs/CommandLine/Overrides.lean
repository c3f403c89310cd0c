/-
# Options in place of entries

Six options of a check say what an entry of a settings table can say as well.  Giving such
an option comes to the same as writing its entry: a check with the options, under one table,
runs like a check without them under the table in which they have been written.

`WrittenInto` relates the two tables through the entries they have.  How the tables are
written down, and which entries they have besides, does not matter.
-/

import DirectiveReview.CommandLine.Program
import DirectiveReview.Proofs.CommandLine.Lookups
import DirectiveReview.Proofs.Settings.Reading
import DirectiveReview.Proofs.Settings.Sources
import DirectiveReview.Proofs.Toml.Values

namespace DirectiveReview

open Toml (Value Table)
open Settings (stringArray docsEntries)

theorem ReviewSettings.override_override (s : ReviewSettings) (paths newPaths : Option (List Text))
    (message newMessage : Option Text) (tags newTags : Option (List Text)) :
    (s.override paths message tags).override newPaths newMessage newTags =
      s.override (newPaths.or paths) (newMessage.or message) (newTags.or tags) := by
  simp only [override, Option.getD_or]

namespace CommandLine

namespace CheckOptions

/-- The options without those that a settings table can stand in for. -/
def plain (options : CheckOptions) : CheckOptions :=
  { options with
    ignorePaths := none, message := none, tagReviewers := none
    docs := none, format := none, failOnViolation := none }

/-- The table under `docs` with a word on whether documentation is wanted, if there is one. -/
inductive DocsWritten (before after : Table) : Option Bool → Prop where
  | kept (same : after.get? "docs".toList = before.get? "docs".toList) :
      DocsWritten before after none
  | switched {b : Bool} {inner : Table} (there : after.get? "docs".toList = some (.table inner))
      (enabled : inner.get? "enabled".toList = some (.boolean b))
      (others : ∀ key, key ≠ "enabled".toList → inner.get? key = (docsEntries before).get? key) :
      DocsWritten before after (some b)

/-- A table has what the options give, and else what another one has. -/
structure WrittenInto (options : CheckOptions) (before after : Table) : Prop where
  ignorePaths : after.get? "ignore_paths".toList =
    (options.ignorePaths.map stringArray).or (before.get? "ignore_paths".toList)
  message : after.get? "message".toList =
    (options.message.map Value.string).or (before.get? "message".toList)
  tagReviewers : after.get? "tag_reviewers".toList =
    (options.tagReviewers.map stringArray).or (before.get? "tag_reviewers".toList)
  format : after.get? "format".toList =
    (options.format.map Value.string).or (before.get? "format".toList)
  failOnViolation : after.get? "fail_on_violation".toList =
    (options.failOnViolation.map Value.boolean).or (before.get? "fail_on_violation".toList)
  docs : DocsWritten before after options.docs

/-- A table with a value under a key, if there is one. -/
def put (key : String) (v : Option Value) (table : Table) : Table :=
  v.elim table (table.set key.toList)

/-- Write what the options give into a table. -/
def writeInto (options : CheckOptions) (table : Table) : Table :=
  put "ignore_paths" (options.ignorePaths.map stringArray) <|
  put "message" (options.message.map .string) <|
  put "tag_reviewers" (options.tagReviewers.map stringArray) <|
  put "format" (options.format.map .string) <|
  put "fail_on_violation" (options.failOnViolation.map .boolean) <|
  put "docs" (options.docs.map fun b =>
    .table ((docsEntries table).set "enabled".toList (.boolean b))) table

theorem get?_put_self (key : String) (v : Option Value) (table : Table) :
    (put key v table).get? key.toList = v.or (table.get? key.toList) := by
  cases v with
  | none => rfl
  | some value =>
      rw [put, Option.elim, Toml.Table.get?_set, if_pos rfl]
      rfl

theorem get?_put_of_ne {key other : String} (apart : other ≠ key) (v : Option Value)
    (table : Table) : (put key v table).get? other.toList = table.get? other.toList := by
  have listed : other.toList ≠ key.toList := fun same => apart (String.toList_injective same)
  cases v with
  | none => rfl
  | some value => rw [put, Option.elim, Toml.Table.get?_set, if_neg listed]

/-- Options can be written into every table. -/
theorem writtenInto_writeInto (options : CheckOptions) (table : Table) :
    options.WrittenInto table (options.writeInto table) := by
  constructor
  case docs =>
    have there : (options.writeInto table).get? "docs".toList =
        (options.docs.map fun b =>
          Value.table ((docsEntries table).set "enabled".toList (.boolean b))).or
          (table.get? "docs".toList) := by
      simp (disch := decide) only [writeInto, get?_put_self, get?_put_of_ne]
    cases given : options.docs with
    | none =>
        rw [given] at there
        exact .kept there
    | some b =>
        rw [given] at there
        refine .switched there ?_ fun key other => ?_
        · rw [Toml.Table.get?_set, if_pos rfl]
        · rw [Toml.Table.get?_set, if_neg other]
  all_goals simp (disch := decide) only [writeInto, get?_put_self, get?_put_of_ne]

/-- Settings with what the options give. -/
def overridden (options : CheckOptions) (settings : Settings) : Settings where
  review := settings.review.override options.ignorePaths options.message options.tagReviewers
  format := (options.format.bind ReportFormat.ofWord?).getD settings.format
  failOnViolation := options.failOnViolation.getD settings.failOnViolation
  docs := { settings.docs with enabled := options.docs.getD settings.docs.enabled }
  source := settings.source

/-- The word for the format, if there is one, is known. -/
def NamesFormat (options : CheckOptions) : Prop :=
  ∀ word ∈ options.format, (ReportFormat.ofWord? word).isSome = true

end CheckOptions

open CheckOptions (DocsWritten WrittenInto)

/-! ## Reading the tables -/

section Tables

open Settings

variable {room : Nat} {source : Option Text} {options : CheckOptions} {before after : Table}
  {settings : Settings}

/-- Read what is given in place of what was there. -/
theorem get?_eq_map_or {α : Type} {encode : α → Value} {given read : Option α}
    {v w : Option Value} (written : w = (given.map encode).or v) (there : v = read.map encode) :
    w = (given.or read).map encode := by
  rw [written, there, Option.map_or]

theorem formatOf_written {format : ReportFormat} (known : options.NamesFormat)
    (written : after.get? "format".toList =
      (options.format.map Value.string).or (before.get? "format".toList))
    (read : formatOf room (before.get? "format".toList) = .ok format) :
    formatOf room (after.get? "format".toList) =
      .ok ((options.format.bind ReportFormat.ofWord?).getD format) := by
  cases given : options.format with
  | none =>
      rw [given] at written
      rw [written]
      exact read
  | some word =>
      rw [given] at written
      obtain ⟨asked, found⟩ := Option.isSome_iff_exists.mp (known word given)
      rw [written]
      change formatOf room (some (.string word)) = _
      rw [formatOf, Option.bind_some, found]
      rfl

theorem docs_written {inner : Table} {docs : DocsSettings} {switch : Option Bool}
    (written : DocsWritten before after switch)
    (opens : docsTable (before.get? "docs".toList) = .ok inner)
    (describes : docsOfTable inner = .ok docs) :
    ∃ newInner, docsTable (after.get? "docs".toList) = .ok newInner ∧
      docsOfTable newInner = .ok { docs with enabled := switch.getD docs.enabled } := by
  cases written with
  | kept same =>
      rw [same]
      exact ⟨inner, opens, describes⟩
  | @switched b newInner there enabled others =>
      refine ⟨newInner, docsTable_eq_ok_iff.mpr (Or.inr there), ?_⟩
      rw [docsEntries_of_docsTable opens] at others
      obtain ⟨command, timeout, workers, enabledBefore, commands, times, works, -, rfl⟩ :=
        docsOfTable_eq_ok_iff.mp describes
      refine docsOfTable_eq_ok_iff.mpr ⟨command, timeout, workers, some b, ?_, ?_, ?_,
        boolean_eq_ok_iff.mpr enabled, rfl⟩
      · rw [others _ (by decide)]
        exact commands
      · rw [others _ (by decide)]
        exact times
      · rw [others _ (by decide)]
        exact works

/-- The table in which options have been written describes the settings with what they
give. -/
theorem ofTable_of_writtenInto (written : options.WrittenInto before after)
    (known : options.NamesFormat) (read : ofTable room source before = .ok settings) :
    ofTable room source after = .ok (options.overridden settings) := by
  obtain ⟨inner, format, ignorePaths, message, tagReviewers, failOnViolation, docs, opens, forms,
    ignores, notes, tags, fails, describes, rfl⟩ := ofTable_eq_ok_iff.mp read
  obtain ⟨newInner, newOpens, newDescribes⟩ := docs_written written.docs opens describes
  refine ofTable_eq_ok_iff.mpr ⟨newInner, _, options.ignorePaths.or ignorePaths,
    options.message.or message, options.tagReviewers.or tagReviewers,
    options.failOnViolation.or failOnViolation, _, newOpens,
    formatOf_written known written.format forms, ?ignorePaths, ?message, ?tagReviewers,
    ?failOnViolation, newDescribes, ?same⟩
  case ignorePaths =>
    exact stringList_eq_ok_iff.mpr
      (get?_eq_map_or written.ignorePaths (stringList_eq_ok_iff.mp ignores))
  case message =>
    exact string_eq_ok_iff.mpr (get?_eq_map_or written.message (string_eq_ok_iff.mp notes))
  case tagReviewers =>
    exact stringList_eq_ok_iff.mpr
      (get?_eq_map_or written.tagReviewers (stringList_eq_ok_iff.mp tags))
  case failOnViolation =>
    exact boolean_eq_ok_iff.mpr
      (get?_eq_map_or written.failOnViolation (boolean_eq_ok_iff.mp fails))
  case same =>
    rw [CheckOptions.overridden, ReviewSettings.override_override, Option.getD_or]

end Tables

/-! ## Running -/

section Runs

variable {s : Surroundings} {tree : FileTree} {options : CheckOptions} {settings : Settings}

/-- The settings of a check are those that a table describes, which stands in the document
at a path. -/
def ReadsSettings (s : Surroundings) (options : CheckOptions) (path : Path) (table : Table) :
    Prop :=
  Settings.ReadFrom (s.room - loadingRoom) s.tree
    (Path.ofLocation (options.repository.resolve s.working)) options.settingsFile path table

theorem loadSettings_eq_ok_iff {path : Path} {table : Table}
    (bare : options.repository.hasNul = false) (reads : ReadsSettings s options path table) :
    loadSettings s options.repository options.settingsFile = .ok settings ↔
      Settings.ofTable (s.room - loadingRoom - Settings.tableRoom) (some path.text) table =
        .ok settings := by
  rw [loadSettings, Settings.load_eq_loadAt bare, Settings.loadAt_of_readFrom reads,
    mapError_eq_ok_iff, mapError_eq_ok_iff]

theorem loadSettings_of_writtenInto {path : Path} {before after : Table}
    (known : options.NamesFormat) (written : options.WrittenInto before after)
    (readsBefore : ReadsSettings s options path before)
    (readsAfter : ReadsSettings { s with tree } options path after)
    (loads : loadSettings s options.repository options.settingsFile = .ok settings) :
    loadSettings { s with tree } options.repository options.settingsFile =
      .ok (options.overridden settings) := by
  have bare := Settings.hasNul_of_load (mapError_eq_ok_iff.mp loads)
  rw [loadSettings_eq_ok_iff bare readsBefore] at loads
  rw [loadSettings_eq_ok_iff bare readsAfter]
  exact ofTable_of_writtenInto written known loads

theorem formatFor_plain (known : options.NamesFormat) (settings : Settings) :
    Preparation.formatFor options.format settings =
      .ok (options.overridden settings).format := by
  unfold Preparation.formatFor CheckOptions.overridden
  cases given : options.format with
  | none => rfl
  | some word =>
      obtain ⟨asked, found⟩ := Option.isSome_iff_exists.mp (known word given)
      cases word with
      -- An empty word asks for nothing, and it is the word for no format.
      | nil => cases found
      | cons c rest =>
          dsimp only
          rw [Option.bind_some, found]
          rfl

/-- With the options in the settings, the rest of the preparation is the same. -/
theorem make_plain (known : options.NamesFormat)
    (loads : loadSettings s options.repository options.settingsFile = .ok settings)
    (overrides : loadSettings { s with tree } options.repository options.settingsFile =
      .ok (options.overridden settings))
    (diff : Preparation.readDiff { s with tree } options = Preparation.readDiff s options) :
    Preparation.make { s with tree } options.plain =
      (Preparation.make s options).map fun p =>
        { p with settings := options.overridden p.settings } := by
  have plainDiff : Preparation.readDiff { s with tree } options.plain =
      Preparation.readDiff s options := diff
  have plainLoads : loadSettings { s with tree } options.plain.repository
      options.plain.settingsFile = .ok (options.overridden settings) := overrides
  rw [Preparation.make, Preparation.make, loads, plainLoads, plainDiff]
  dsimp only [bind, Except.bind]
  rw [formatFor_plain known]
  dsimp only [CheckOptions.plain, Preparation.formatFor]
  cases Preparation.readDiff s options with
  | error failure => rfl
  | ok read => rfl

/-- A check does not look at the settings that options have taken the place of, once it is
prepared. -/
theorem checkPrepared_overridden (s : Surroundings) (tree : FileTree) (options : CheckOptions)
    (p : Preparation) (r : Resolver) :
    checkPrepared { s with tree } { p with settings := options.overridden p.settings } r =
      { checkPrepared s p r with tree } := by
  unfold checkPrepared
  dsimp only
  cases (Review.attempt r p.review Memory.empty p.diff).1 with
  | error e => rfl
  | ok review =>
      -- Of the settings only the source is read from here on.
      have report : Preparation.report? { p with settings := options.overridden p.settings }
          { s with tree } review = p.report? s review := rfl
      dsimp only
      rw [report]
      cases p.report? s review <;> rfl

theorem check_plain (known : options.NamesFormat)
    (loads : loadSettings s options.repository options.settingsFile = .ok settings)
    (overrides : loadSettings { s with tree } options.repository options.settingsFile =
      .ok (options.overridden settings))
    (diff : Preparation.readDiff { s with tree } options = Preparation.readDiff s options) :
    check { s with tree } options.plain = { check s options with tree } := by
  rw [check, check, make_plain known loads overrides diff]
  cases Preparation.make s options with
  | error failure => rfl
  | ok p =>
      have lookup : Preparation.lookup { p with settings := options.overridden p.settings }
          { s with tree } options.plain.repository = p.lookup s options.repository := rfl
      dsimp only [Except.map, CheckOptions.overridden] at lookup ⊢
      rw [lookup]
      cases Resolver.make (p.lookup s options.repository) p.settings.docs.maxWorkers
          s.schedule with
      | error e => rfl
      | ok r => exact checkPrepared_overridden s tree options p r

/-- **Giving an option is writing its entry.**  Take a check whose settings are read from a
table, and which can load them; and take the same check without the options that a table
can stand in for, where these have been written into the table, and where the diff is the
same.  The two run alike: they end with the same failure or none and with the same exit code,
print the same, log the same and ask for the same processes. -/
theorem run_plain_of_writtenInto {arguments others rest plainRest : List Text} {level : Text}
    {path : Path} {before after : Table}
    (asks : Request.read arguments = .ok (.command .check level rest))
    (given : CheckOptions.read rest = .ok options)
    (asksPlain : Request.read others = .ok (.command .check level plainRest))
    (givenPlain : CheckOptions.read plainRest = .ok options.plain)
    (known : options.NamesFormat) (written : options.WrittenInto before after)
    (readsBefore : ReadsSettings s options path before)
    (loads : loadSettings s options.repository options.settingsFile = .ok settings)
    (readsAfter : ReadsSettings { s with tree } options path after)
    (diff : Preparation.readDiff { s with tree } options = Preparation.readDiff s options) :
    run { s with tree } others = { run s arguments with tree } := by
  have same : check { s with tree } options.plain = { check s options with tree } :=
    check_plain known loads
      (loadSettings_of_writtenInto known written readsBefore readsAfter loads) diff
  rw [run, run, asks, asksPlain]
  dsimp only
  cases LogLevel.ofWord? level with
  | none => rfl
  | some shown =>
      rw [runCommand, runCommand, given, givenPlain]
      dsimp only [Except.map]
      rw [same]

end Runs

theorem readDiff_of_input {s : Surroundings} {options : CheckOptions} (tree : FileTree)
    (noFile : options.diffFile = none) :
    Preparation.readDiff { s with tree } options = Preparation.readDiff s options := by
  rw [Preparation.readDiff, Preparation.readDiff, noFile]
  cases options.stdin <;> rfl

/-- A note that is empty and documentation that is not wanted. -/
def muted : CheckOptions :=
  ⟨none, true, ⟨.working, []⟩, none, some [], none, some false, none, none, none⟩

/-- The table with another note. -/
def noteTable : Table :=
  [("message".toList, .string ['a'])]

/-- The table in which the options have been written. -/
def mutedTable : Table :=
  [("message".toList, .string []), ("docs".toList, .table [("enabled".toList, .boolean false)])]

theorem writeInto_noteTable : muted.writeInto noteTable = mutedTable := by
  decide +kernel

theorem ofTable_noteTable (room : Nat) (source : Option Text) :
    ∃ settings, Settings.ofTable room source noteTable = .ok settings :=
  ⟨_, Settings.ofTable_eq_ok_iff.mpr ⟨[], .human, none, some ['a'], none, none,
    DocsSettings.default, rfl, rfl, rfl, rfl, rfl, rfl, Settings.docsOfTable_nil, rfl⟩⟩

theorem run_plain_of_writtenInto_muted :
    let s := { onInput oneRuleDiff with tree := Settings.withDocument "message = 'a'".toList }
    let tree := Settings.withDocument "message = ''\ndocs.enabled = false".toList
    run { s with tree } (["check", "--stdin"].map String.toList) =
      { run s (["check", "--stdin", "--message", "", "--no-docs"].map String.toList) with tree } := by
  intro s tree
  have readBefore : Toml.read (98 - Settings.readingRoom) "message = 'a'".toList =
      .ok noteTable :=
    toOption_eq_some_iff.mp (by decide +kernel)
  have readAfter : Toml.read (98 - Settings.readingRoom)
      "message = ''\ndocs.enabled = false".toList = .ok mutedTable :=
    toOption_eq_some_iff.mp (by decide +kernel)
  have readsBefore : ReadsSettings s muted Settings.documentPath noteTable :=
    Settings.readFrom_withDocument readBefore
  have readsAfter : ReadsSettings { s with tree } muted Settings.documentPath mutedTable :=
    Settings.readFrom_withDocument readAfter
  have written : muted.WrittenInto noteTable mutedTable :=
    writeInto_noteTable ▸ muted.writtenInto_writeInto noteTable
  obtain ⟨settings, described⟩ := ofTable_noteTable (98 - Settings.tableRoom)
    (some Settings.documentPath.text)
  have loads := (loadSettings_eq_ok_iff rfl readsBefore).mpr described
  have known : muted.NamesFormat := by
    intro word given
    cases given
  have asks : Request.read (["check", "--stdin", "--message", "", "--no-docs"].map String.toList) =
      .ok (.command .check "warning".toList
        (["--stdin", "--message", "", "--no-docs"].map String.toList)) :=
    toOption_eq_some_iff.mp (by decide +kernel)
  have asksPlain : Request.read (["check", "--stdin"].map String.toList) =
      .ok (.command .check "warning".toList (["--stdin"].map String.toList)) :=
    toOption_eq_some_iff.mp (by decide +kernel)
  have given : CheckOptions.read
      (["--stdin", "--message", "", "--no-docs"].map String.toList) = .ok muted :=
    toOption_eq_some_iff.mp (by decide +kernel)
  have givenPlain : CheckOptions.read (["--stdin"].map String.toList) = .ok muted.plain :=
    toOption_eq_some_iff.mp (by decide +kernel)
  exact run_plain_of_writtenInto asks given asksPlain givenPlain known written
    readsBefore loads readsAfter (readDiff_of_input tree rfl)

end CommandLine

end DirectiveReview
