/-
# What loading can give

Settings that have been loaded are those of a repository without configuration, or they
were read from a table.  Which documents were looked for, and in which order, has no part
in this, so what is true of the settings that a table can describe is true of all loaded
ones.

They can be used: there are a command and a worker for the lookup, and its timeout is
positive or not a number.  The latter is let through because the timeout is held against
zero from the wrong side: a number that is not a number is not found to be zero or less.
-/

import DirectiveReview.Proofs.Number.Rounding
import DirectiveReview.Proofs.Settings.Reading
import DirectiveReview.Proofs.Settings.Sources
import DirectiveReview.Proofs.Toml.Values

namespace DirectiveReview

/-- A lookup can be made: there are a command and a worker, and the timeout is not found to
be zero or less. -/
structure DocsSettings.Usable (docs : DocsSettings) : Prop where
  command : docs.command ≠ []
  timeout : docs.timeout.le (.zero false) = false
  maxWorkers : 0 < docs.maxWorkers

namespace Settings

open Toml (Value Table)

/-- Settings come out of a table, or nothing is configured. -/
def FromTable (settings : Settings) : Prop :=
  settings = default ∨ ∃ room source table, ofTable room source table = .ok settings

variable {room : Nat} {tree : FileTree} {working : Location} {repository : Path}
  {explicit : Option Path} {source : Option Text} {table : Table} {settings : Settings}

theorem fromTable_of_load
    (loaded : load room tree working repository explicit = .ok settings) :
    settings.FromTable := by
  rcases default_or_readFrom (loadAt_of_load loaded) with unconfigured | ⟨path, table, -, read⟩
  · exact Or.inl unconfigured
  · exact Or.inr ⟨_, _, table, read⟩

theorem docs_of_ofTable (read : ofTable room source table = .ok settings) :
    docsOfTable (docsEntries table) = .ok settings.docs := by
  obtain ⟨inner, -, -, -, -, -, docs, opens, -, -, -, -, -, described, rfl⟩ :=
    ofTable_eq_ok_iff.mp read
  rw [docsEntries_of_docsTable opens]
  exact described

theorem usable_of_docsOfTable {docs : DocsSettings} (read : docsOfTable table = .ok docs) :
    docs.Usable := by
  obtain ⟨command, timeout, workers, enabled, -, times, works, -, rfl⟩ :=
    docsOfTable_eq_ok_iff.mp read
  exact ⟨commandOf_ne_nil command, (timeoutOf_eq_ok_iff.mp times).2,
    (maxWorkersOf_eq_ok_iff.mp works).2⟩

theorem FromTable.usable (loaded : settings.FromTable) : settings.docs.Usable := by
  rcases loaded with rfl | ⟨room, source, table, read⟩
  · exact usable_of_docsOfTable docsOfTable_nil
  · exact usable_of_docsOfTable (docs_of_ofTable read)

/-! ## A timeout that is not a number -/

theorem timeoutIn_eq_nan_iff {v : Option Value} :
    timeoutIn v = .ok .nan ↔ v = some (.float .nan) := by
  rw [timeoutIn_eq_ok_iff]
  constructor
  · rintro (⟨-, undefined⟩ | given | ⟨i, -, rounds⟩)
    · cases undefined
    · exact given
    · -- An integer is rounded to a finite number, if at all.
      obtain ⟨_, _, _, same⟩ := Binary64.finite_of_ofInt? rounds
      cases same
  · exact fun given => Or.inr (Or.inl given)

theorem timeout_eq_nan_iff (read : ofTable room source table = .ok settings) :
    settings.docs.timeout = .nan ↔
      SettingsKey.docsTimeout.value? table = some (.float .nan) := by
  obtain ⟨command, timeout, workers, enabled, -, times, -, -, described⟩ :=
    docsOfTable_eq_ok_iff.mp (docs_of_ofTable read)
  have given := (timeoutOf_eq_ok_iff.mp times).1
  rw [described, SettingsKey.value?, ← timeoutIn_eq_nan_iff, given, Except.ok.injEq]

/-- **Loaded settings can be used.**  The format is one of the two there are, the lookup
has a command and enough workers for a resolver, and its timeout is positive unless it is
not a number, which is so exactly if the document that was read says so itself. -/
theorem usable_of_load (loaded : load room tree working repository explicit = .ok settings) :
    (settings.format.word = "human".toList ∨ settings.format.word = "json".toList) ∧
    settings.docs.command ≠ [] ∧ 0 < settings.docs.maxWorkers ∧
    (∀ lookup schedule, ∃ r,
      Resolver.make lookup settings.docs.maxWorkers schedule = .ok r) ∧
    ((Binary64.zero false).lt settings.docs.timeout = false ↔ settings.docs.timeout = .nan) ∧
    (settings.docs.timeout = .nan ↔ ∃ path table,
      ReadFrom room tree (Path.ofLocation (repository.resolve working)) explicit path table ∧
      SettingsKey.docsTimeout.value? table = some (.float .nan)) := by
  have usable := (fromTable_of_load loaded).usable
  refine ⟨?format, usable.command, usable.maxWorkers, ?resolver, ?timeout, ?document⟩
  case format =>
    cases settings.format with
    | human => exact Or.inl rfl
    | json => exact Or.inr rfl
  case resolver => exact fun lookup schedule => ⟨_, dif_pos usable.maxWorkers⟩
  case timeout =>
    rcases Binary64.le_zero_eq_false_iff.mp usable.timeout with undefined | positive
    · rw [undefined]
      exact iff_of_true rfl rfl
    · refine iff_of_false (by rw [positive]; exact nofun) fun undefined => ?_
      rw [undefined] at positive
      cases positive
  case document =>
    constructor
    · intro undefined
      rcases default_or_readFrom (loadAt_of_load loaded) with rfl | ⟨path, table, from_, read⟩
      · cases undefined
      · exact ⟨path, table, from_, (timeout_eq_nan_iff read).mp undefined⟩
    · rintro ⟨path, table, from_, value⟩
      have described := (loadAt_of_readFrom from_).symm.trans (loadAt_of_load loaded)
      exact (timeout_eq_nan_iff (mapError_eq_ok_iff.mp described)).mpr value

/-- A document with a timeout that is not a number. -/
def timelessText : Text :=
  "docs.timeout_seconds = nan".toList

/-- The table in it. -/
def timelessTable : Table :=
  [("docs".toList, .table [("timeout_seconds".toList, .float .nan)])]

/-- The settings that it describes. -/
def timeless : Settings :=
  { default with
    docs := { DocsSettings.default with timeout := .nan }
    source := some "/rubocop-disable-checker.toml".toList }

theorem readFrom_timeless : ReadFrom 983 (withDocument timelessText) (Path.ofLocation []) none
    documentPath timelessTable := by
  have read : Toml.read (983 - readingRoom) timelessText = .ok timelessTable :=
    toOption_eq_some_iff.mp (by decide +kernel)
  exact readFrom_withDocument read

theorem ofTable_timeless :
    ofTable 982 (some "/rubocop-disable-checker.toml".toList) timelessTable = .ok timeless := by
  refine ofTable_eq_ok_iff.mpr ⟨_, .human, none, none, none, none, timeless.docs,
    rfl, rfl, rfl, rfl, rfl, rfl, rfl, ?_⟩
  rw [ReviewSettings.override_none]
  rfl

theorem usable_of_load_timeless :
    load 983 (withDocument timelessText) [] ⟨.working, []⟩ none = .ok timeless ∧
    timeless.docs.command ≠ [] ∧ 0 < timeless.docs.maxWorkers ∧
    (Binary64.zero false).lt timeless.docs.timeout = false ∧
    ∃ path table, ReadFrom 983 (withDocument timelessText) (Path.ofLocation []) none path table ∧
      SettingsKey.docsTimeout.value? table = some (.float .nan) := by
  have loaded : load 983 (withDocument timelessText) [] ⟨.working, []⟩ none = .ok timeless := by
    rw [load_eq_loadAt rfl]
    refine (loadAt_of_readFrom readFrom_timeless).trans ?_
    exact mapError_eq_ok_iff.mpr ofTable_timeless
  obtain ⟨-, command, workers, -, timeout, undefined⟩ := usable_of_load loaded
  exact ⟨loaded, command, workers, timeout.mpr rfl, undefined.mp rfl⟩

end Settings

end DirectiveReview
