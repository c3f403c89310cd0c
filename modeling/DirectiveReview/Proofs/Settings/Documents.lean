/-
# Documents that cannot be loaded

Why a document that is in the format cannot be loaded: its settings table offends, or it
holds something that is beyond what can be read.  There are four limits of the latter kind.
An integer may have only so many digits, values may be nested only so deeply, the timeout has
to be a number that is not too large, and a format that is no string has to be short and
shallow enough to be written down.
-/

import DirectiveReview.CommandLine.Outcome
import DirectiveReview.Proofs.Settings.Keys
import DirectiveReview.Proofs.Settings.Sources
import DirectiveReview.Proofs.Toml.Values

namespace DirectiveReview.Settings

open SettingsKey (Offends)
open Toml (Value Table)

variable {room : Nat} {tree : FileTree} {working : Location} {path repository : Path}
  {explicit : Option Path}

/-- The document at a path holds something beyond what can be read, and this is what is said:
a number that is too long or too large, or values that are nested too deeply. -/
inductive BeyondLimits (room : Nat) (tree : FileTree) (path : Path) : LoadError → Prop where
  | number (read : tableAt room tree path = .error .numberTooLong) :
      BeyondLimits room tree path .numberTooLong
  | depth {step : Toml.Step} (read : tableAt room tree path = .error (.tooDeep step)) :
      BeyondLimits room tree path (.tooDeep step)
  | value {table : Table} {cause : TableError} (read : tableAt room tree path = .ok table)
      (exceeds : Exceeds (room - tableRoom) table cause) :
      BeyondLimits room tree path (.table cause)

theorem beyondLimits_of_tableAt {bytes : List UInt8} {text : Text} {e : LoadError}
    (content : tree.content [] path = .ok bytes) (decoded : decodeUtf8? bytes = some text)
    (valid : Toml.read (room - readingRoom) text ≠ .error .malformed)
    (failed : tableAt room tree path = .error e) : BeyondLimits room tree path e := by
  have whole := failed
  rw [tableAt, document_of_text content decoded] at whole
  cases read : Toml.read (room - readingRoom) text with
  | ok document =>
      rw [read] at whole
      cases whole
  | error fault =>
      rw [read] at whole valid
      cases whole
      cases fault with
      | malformed => exact absurd rfl valid
      | numberTooLong => exact .number failed
      | tooDeep step => exact .depth failed

theorem loadFrom_error {bytes : List UInt8} {text : Text} {e : LoadError}
    (content : tree.content [] path = .ok bytes) (decoded : decodeUtf8? bytes = some text)
    (valid : Toml.read (room - readingRoom) text ≠ .error .malformed)
    (failed : loadFrom room tree path = .error e) :
    BeyondLimits room tree path e ∨ ∃ table key requirement,
      tableAt room tree path = .ok table ∧ Offends table key requirement ∧
        e = .table (.unusable key requirement) := by
  cases read : tableAt room tree path with
  | error cause =>
      rw [loadFrom, read] at failed
      cases failed
      exact Or.inl (beyondLimits_of_tableAt content decoded valid read)
  | ok table =>
      rw [loadFrom_of_tableAt read] at failed
      cases described : ofTable (room - tableRoom) (some path.text) table with
      | ok settings =>
          rw [described] at failed
          cases failed
      | error cause =>
          rw [described] at failed
          cases failed
          rcases ofTable_error described with ⟨key, requirement, offends, rfl⟩ | exceeds
          · exact Or.inr ⟨table, key, requirement, rfl, offends, rfl⟩
          · exact Or.inl (.value read exceeds)

theorem exists_loadFrom_eq_error {table : Table} (read : tableAt room tree path = .ok table)
    (wrong : (∃ key requirement, Offends table key requirement) ∨
      ∃ e, Exceeds (room - tableRoom) table e) :
    ∃ e, loadFrom room tree path = .error e := by
  obtain ⟨e, failed⟩ := exists_ofTable_eq_error_iff.mpr wrong
  rw [loadFrom_of_tableAt read, failed]
  exact ⟨.table e, rfl⟩

/-- **A document in the format that cannot be loaded offends, or is beyond the limits.**
Loading it fails exactly if its settings table offends or it holds something that is beyond
what can be read.  Whatever is not of the latter kind is an error that starts with the name
of a key that offends, and is put down to the parameter that names the document. -/
theorem load_fails_by_key {bytes : List UInt8} {text : Text}
    (bare : repository.hasNul = false)
    (looks : LooksAt tree (Path.ofLocation (repository.resolve working)) explicit path)
    (content : tree.content [] path = .ok bytes) (decoded : decodeUtf8? bytes = some text)
    (valid : Toml.read (room - readingRoom) text ≠ .error .malformed) :
    let loaded := load room tree working repository explicit
    ((∃ e, loaded = .error e) ↔
      (∃ table key requirement,
        tableAt room tree path = .ok table ∧ Offends table key requirement) ∨
      ∃ e, BeyondLimits room tree path e) ∧
    ∀ e, loaded = .error e → ¬ BeyondLimits room tree path e → ∃ table key requirement,
      tableAt room tree path = .ok table ∧ Offends table key requirement ∧
      e = .table (.unusable key requirement) ∧ key.name <+: e.message ∧
      CommandLine.loadFailure e = .parameter (.settings e) := by
  intro loaded
  have same : loaded = loadFrom room tree path :=
    (load_eq_loadAt bare).trans (loadAt_of_looksAt looks)
  rw [same]
  refine ⟨⟨?wrong, ?fails⟩, ?named⟩
  case wrong =>
    rintro ⟨e, failed⟩
    rcases loadFrom_error content decoded valid failed with
      beyond | ⟨table, key, requirement, read, offends, -⟩
    · exact Or.inr ⟨e, beyond⟩
    · exact Or.inl ⟨table, key, requirement, read, offends⟩
  case fails =>
    rintro (⟨table, key, requirement, read, offends⟩ | ⟨e, beyond⟩)
    · exact exists_loadFrom_eq_error read (Or.inl ⟨key, requirement, offends⟩)
    · cases beyond with
      | number read =>
          rw [loadFrom, read]
          exact ⟨_, rfl⟩
      | depth read =>
          rw [loadFrom, read]
          exact ⟨_, rfl⟩
      | value read exceeds => exact exists_loadFrom_eq_error read (Or.inr ⟨_, exceeds⟩)
  case named =>
    intro e failed within
    rcases loadFrom_error content decoded valid failed with
      beyond | ⟨table, key, requirement, read, offends, rfl⟩
    · exact absurd beyond within
    · exact ⟨table, key, requirement, read, offends, rfl,
        ⟨_, (List.append_assoc _ _ _).symm⟩, rfl⟩

/-- A document without workers. -/
def idleText : Text :=
  "docs.max_workers = 0".toList

/-- The table in it. -/
def idleTable : Table :=
  [("docs".toList, .table [("max_workers".toList, .integer 0)])]

theorem read_idleText : Toml.read (983 - readingRoom) idleText = .ok idleTable :=
  toOption_eq_some_iff.mp (by decide +kernel)

theorem tableAt_idleText : tableAt 983 (withDocument idleText) documentPath = .ok idleTable :=
  tableAt_withDocument read_idleText

theorem not_beyondLimits_idleText (e : LoadError) :
    ¬ BeyondLimits 983 (withDocument idleText) documentPath e := by
  have timeless : SettingsKey.docsTimeout.value? idleTable = none := by rfl
  have formless : idleTable.get? "format".toList = none := by rfl
  intro beyond
  cases beyond with
  | number read => cases tableAt_idleText.symm.trans read
  | depth read => cases tableAt_idleText.symm.trans read
  | value read exceeds =>
      obtain rfl := Except.ok.inj (tableAt_idleText.symm.trans read)
      cases exceeds with
      | timeout given => cases timeless.symm.trans given
      | formatTooLong given => cases formless.symm.trans given
      | formatTooDeep given => cases formless.symm.trans given

theorem load_fails_by_key_idleText :
    let loaded := load 983 (withDocument idleText) [] ⟨.working, []⟩ none
    Offends idleTable .docsMaxWorkers .positive ∧
    ∃ e, loaded = .error e ∧ ∃ table key requirement,
      tableAt 983 (withDocument idleText) documentPath = .ok table ∧
      Offends table key requirement ∧ e = .table (.unusable key requirement) ∧
      key.name <+: e.message ∧ CommandLine.loadFailure e = .parameter (.settings e) := by
  intro loaded
  have offends : Offends idleTable .docsMaxWorkers .positive :=
    ⟨by decide, .integer 0, rfl, fun met => by cases meets_positive_integer_iff.mp met⟩
  have valid : Toml.read (983 - readingRoom) idleText ≠ .error .malformed := by
    rw [read_idleText]
    nofun
  have looks : LooksAt (withDocument idleText)
      (Path.ofLocation ((⟨.working, []⟩ : Path).resolve [])) none documentPath :=
    looksAt_withDocument idleText
  obtain ⟨fails, named⟩ := load_fails_by_key rfl looks (content_withDocument idleText)
    (decodeUtf8?_encodeUtf8 idleText) valid
  obtain ⟨e, failed⟩ := fails.mpr
    (Or.inl ⟨idleTable, .docsMaxWorkers, .positive, tableAt_idleText, offends⟩)
  exact ⟨offends, e, failed, named e failed (not_beyondLimits_idleText e)⟩

end DirectiveReview.Settings
