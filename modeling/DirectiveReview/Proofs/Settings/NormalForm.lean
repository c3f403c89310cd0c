/-
# Loaded settings are in normal form

Loading fills in what is missing, puts the default for an empty command, reads the word for
a format in letters of either case and makes binary64 numbers of integers.  All this is done
once: settings that have been loaded are described by a table in which every value passes
its own check and stands for itself.  An empty list and an empty text are values in it, and
are kept apart from a key that is missing.

What a table describes is told here by the values under its keys, so the order of its
entries has no part in it, nor have entries that are not looked at.

The text that settings are shown as is read back as well.  The timeout is the one number in
it that may have been rounded, and it is in its one form: it was rounded when the document
was read, or it is the default.
-/

import DirectiveReview.Proofs.Json.Numerals
import DirectiveReview.Proofs.Settings.Loaded
import DirectiveReview.Proofs.Toml.Rounded
import DirectiveReview.Settings.Listing

namespace DirectiveReview

open Toml (Value Table)

/-! ## Tables that describe settings -/

/-- The values of a table are those of the settings of a lookup. -/
structure DocsSettings.DescribedBy (docs : DocsSettings) (table : Table) : Prop where
  command : table.get? "command".toList = some (Settings.stringArray docs.command)
  timeout : table.get? "timeout_seconds".toList = some (.float docs.timeout)
  maxWorkers : table.get? "max_workers".toList = some (.integer docs.maxWorkers)
  enabled : table.get? "enabled".toList = some (.boolean docs.enabled)

namespace Settings

/-- The values of a table are those of settings. -/
structure DescribedBy (settings : Settings) (table : Table) : Prop where
  ignorePaths : table.get? "ignore_paths".toList = some (stringArray settings.review.ignorePaths)
  message : table.get? "message".toList = some (.string settings.review.message)
  tagReviewers :
    table.get? "tag_reviewers".toList = some (stringArray settings.review.tagReviewers)
  format : table.get? "format".toList = some (.string settings.format.word)
  failOnViolation : table.get? "fail_on_violation".toList = some (.boolean settings.failOnViolation)
  docs : ∃ inner, table.get? "docs".toList = some (.table inner) ∧ settings.docs.DescribedBy inner

end Settings

theorem ReportFormat.ofWord?_word (format : ReportFormat) : ofWord? format.word = some format := by
  cases format <;> rfl

theorem Settings.commandOf_some {command : List Text} (nonempty : command ≠ []) :
    commandOf (some command) = command := by
  cases command with
  | nil => exact absurd rfl nonempty
  | cons word words => rfl

/-- Settings of a lookup that can be used are read from every table that describes them. -/
theorem DocsSettings.DescribedBy.docsOfTable_eq {docs : DocsSettings} {table : Table}
    (described : docs.DescribedBy table) (usable : docs.Usable) :
    Settings.docsOfTable table = .ok docs := by
  refine Settings.docsOfTable_eq_ok_iff.mpr ⟨some docs.command, docs.timeout, docs.maxWorkers,
    some docs.enabled, ?command, ?timeout, ?workers, ?enabled, ?same⟩
  case command => exact Settings.stringList_eq_ok_iff.mpr described.command
  case timeout =>
    exact Settings.timeoutOf_eq_ok_iff.mpr
      ⟨Settings.timeoutIn_eq_ok_iff.mpr (Or.inr (Or.inl described.timeout)), usable.timeout⟩
  case workers =>
    exact Settings.maxWorkersOf_eq_ok_iff.mpr ⟨Or.inr described.maxWorkers, usable.maxWorkers⟩
  case enabled => exact Settings.boolean_eq_ok_iff.mpr described.enabled
  case same => rw [Settings.commandOf_some usable.command, Option.getD_some]

namespace Settings

/-- Settings whose lookup can be used are read from every table that describes them. -/
theorem DescribedBy.ofTable_eq {settings : Settings} {table : Table}
    (described : settings.DescribedBy table) (usable : settings.docs.Usable) (room : Nat) :
    ofTable room settings.source table = .ok settings := by
  obtain ⟨inner, opens, docs⟩ := described.docs
  refine ofTable_eq_ok_iff.mpr ⟨inner, settings.format, some settings.review.ignorePaths,
    some settings.review.message, some settings.review.tagReviewers,
    some settings.failOnViolation, settings.docs, ?docs, ?format, ?ignore, ?message, ?tags, ?fails,
    docs.docsOfTable_eq usable, rfl⟩
  case docs => exact docsTable_eq_ok_iff.mpr (Or.inr opens)
  case format =>
    have word := settings.format.ofWord?_word
    rw [described.format, formatOf, word]
    rfl
  case ignore => exact stringList_eq_ok_iff.mpr described.ignorePaths
  case message => exact string_eq_ok_iff.mpr described.message
  case tags => exact stringList_eq_ok_iff.mpr described.tagReviewers
  case fails => exact boolean_eq_ok_iff.mpr described.failOnViolation

/-! ## The tables that settings are written as -/

theorem describedBy_table (settings : Settings) : settings.DescribedBy settings.table :=
  ⟨rfl, rfl, rfl, rfl, rfl, docsTableOf settings.docs, rfl, ⟨rfl, rfl, rfl, rfl⟩⟩

end Settings

/-! ## Settings that are shown -/

mutual

/-- A JSON value as a value of a document.  A document has no null, so a field without a
value is left out, and there is no row with one in it. -/
def Json.asToml? : Json → Option Value
  | .null => none
  | .bool value => some (.boolean value)
  | .integer value => some (.integer value)
  | .number value => some (.float value)
  | .string value => some (.string value)
  | .array items => (itemsAsToml? items).map .array
  | .object fields => (fieldsAsToml? fields).map .table

/-- A row of JSON values as values of a document. -/
def Json.itemsAsToml? : List Json → Option (List Value)
  | [] => some []
  | item :: rest => do
    let value ← asToml? item
    let more ← itemsAsToml? rest
    return value :: more

/-- The fields of a JSON object as the entries of a table. -/
def Json.fieldsAsToml? : List (Text × Json) → Option Table
  | [] => some []
  | (_, .null) :: rest => fieldsAsToml? rest
  | (name, json) :: rest => do
    let value ← asToml? json
    let more ← fieldsAsToml? rest
    return (name, value) :: more

end

theorem Json.asToml?_strings (texts : List Text) :
    (strings texts).asToml? = some (Settings.stringArray texts) := by
  have items : itemsAsToml? (texts.map .string) = some (texts.map .string) := by
    induction texts with
    | nil => rfl
    | cons text rest ih => rw [List.map_cons, itemsAsToml?, ih]; rfl
  rw [strings, asToml?, items]
  rfl

namespace Json

variable {fields : List (Text × Json)}

theorem fieldsAsToml?_cons {json : Json} {value : Value} (stands : json.asToml? = some value)
    (name : Text) (rest : List (Text × Json)) :
    fieldsAsToml? ((name, json) :: rest) = (fieldsAsToml? rest).map ((name, value) :: ·) := by
  cases json with
  | null => cases stands
  | _ =>
      rw [fieldsAsToml?, stands]
      · cases fieldsAsToml? rest <;> rfl
      · exact nofun

/-- A field in front of an object that is a table is null or a value in front of the entries. -/
theorem cases_fieldsAsToml?_cons {name : Text} {json : Json} {rest : List (Text × Json)}
    {table : Table} (read : fieldsAsToml? ((name, json) :: rest) = some table) :
    ∃ more, fieldsAsToml? rest = some more ∧ (json = .null ∧ table = more ∨
      ∃ value, json.asToml? = some value ∧ table = (name, value) :: more) := by
  cases stands : json.asToml? with
  | some value =>
      rw [fieldsAsToml?_cons stands] at read
      obtain ⟨more, behind, rfl⟩ := Option.map_eq_some_iff.mp read
      exact ⟨more, behind, Or.inr ⟨value, rfl, rfl⟩⟩
  | none =>
      by_cases null : json = .null
      · subst null
        exact ⟨table, read, Or.inl ⟨rfl, rfl⟩⟩
      · rw [fieldsAsToml?, stands] at read
        · cases read
        · exact null

/-- An object is a table if each of its fields is null or a value of a document. -/
theorem exists_fieldsAsToml? (each : ∀ field ∈ fields,
    field.2 = .null ∨ ∃ value, field.2.asToml? = some value) :
    ∃ table, fieldsAsToml? fields = some table := by
  induction fields with
  | nil => exact ⟨[], rfl⟩
  | cons field rest ih =>
      obtain ⟨name, json⟩ := field
      obtain ⟨here, later⟩ := List.forall_mem_cons.mp each
      obtain ⟨table, read⟩ := ih later
      rcases here with rfl | ⟨value, stands⟩
      · exact ⟨table, by rw [fieldsAsToml?, read]⟩
      · exact ⟨(name, value) :: table, by rw [fieldsAsToml?_cons stands, read]; rfl⟩

/-- The value of a field that is not null is the value under its key. -/
theorem get?_of_fieldsAsToml? {table : Table} (read : fieldsAsToml? fields = some table)
    {name : Text} {json : Json} {value : Value} (found : fields.lookup name = some json)
    (stands : json.asToml? = some value) : table.get? name = some value := by
  induction fields generalizing table with
  | nil => cases found
  | cons field rest ih =>
      obtain ⟨key, other⟩ := field
      rw [List.lookup_cons] at found
      obtain ⟨more, behind, front⟩ := cases_fieldsAsToml?_cons read
      by_cases here : name = key
      · subst here
        rw [beq_self_eq_true] at found
        obtain rfl := Option.some.inj found
        rcases front with ⟨rfl, -⟩ | ⟨same, stood, rfl⟩
        · cases stands
        · rw [Table.get?, List.lookup_cons_self, ← stood, stands]
      · rw [beq_false_of_ne here] at found
        rcases front with ⟨-, rfl⟩ | ⟨entry, -, rfl⟩
        · exact ih behind found
        · rw [Table.get?, List.lookup_cons, beq_false_of_ne here]
          exact ih behind found

/-- An object is a table if each of its fields is null or a value of a document.  The values
of its other fields are those under their keys. -/
theorem exists_asToml?_object (each : ∀ field ∈ fields,
    field.2 = .null ∨ ∃ value, field.2.asToml? = some value) :
    ∃ table : Table, (Json.object fields).asToml? = some (.table table) ∧
      ∀ (json : Json) {name : Text} {value : Value}, fields.lookup name = some json →
        json.asToml? = some value → table.get? name = some value := by
  obtain ⟨table, read⟩ := exists_fieldsAsToml? each
  refine ⟨table, ?_, fun json name value => get?_of_fieldsAsToml? read⟩
  rw [asToml?, read]
  rfl

end Json

namespace Settings

open Json

/-- The object that the settings of a lookup are shown as is a table that describes them. -/
theorem docsJson_asToml? (docs : DocsSettings) :
    ∃ shown, (docsJson docs).asToml? = some (.table shown) ∧ docs.DescribedBy shown := by
  have command := asToml?_strings docs.command
  obtain ⟨shown, read, values⟩ : ∃ shown, (docsJson docs).asToml? = some (.table shown) ∧ _ :=
    exists_asToml?_object <| by
      simp only [List.forall_mem_cons]
      exact ⟨Or.inr ⟨_, command⟩, Or.inr ⟨_, rfl⟩, Or.inr ⟨_, rfl⟩, Or.inr ⟨_, rfl⟩,
        List.forall_mem_nil _⟩
  exact ⟨shown, read, values _ rfl command, values (.number docs.timeout) rfl rfl,
    values (.integer docs.maxWorkers) rfl rfl, values (.bool docs.enabled) rfl rfl⟩

/-- The object that settings are shown as is a table that describes them. -/
theorem json_asToml? (settings : Settings) :
    ∃ shown, settings.json.asToml? = some (.table shown) ∧ settings.DescribedBy shown := by
  obtain ⟨docsShown, docs, docsDescribed⟩ := docsJson_asToml? settings.docs
  have ignorePaths := asToml?_strings settings.review.ignorePaths
  have tagReviewers := asToml?_strings settings.review.tagReviewers
  have source : orNull .string settings.source = .null ∨
      ∃ value, (orNull .string settings.source).asToml? = some value := by
    cases settings.source with
    | none => exact Or.inl rfl
    | some path => exact Or.inr ⟨_, rfl⟩
  obtain ⟨shown, read, values⟩ : ∃ shown, settings.json.asToml? = some (.table shown) ∧ _ :=
    exists_asToml?_object <| by
      simp only [List.forall_mem_cons]
      exact ⟨Or.inr ⟨_, docs⟩, Or.inr ⟨_, rfl⟩, Or.inr ⟨_, rfl⟩, Or.inr ⟨_, ignorePaths⟩,
        Or.inr ⟨_, rfl⟩, source, Or.inr ⟨_, tagReviewers⟩, List.forall_mem_nil _⟩
  exact ⟨shown, read, values _ rfl ignorePaths, values (.string settings.review.message) rfl rfl,
    values _ rfl tagReviewers, values (.string settings.format.word) rfl rfl,
    values (.bool settings.failOnViolation) rfl rfl, docsShown, values _ rfl docs, docsDescribed⟩

/-! ## The timeout -/

section Timeout

variable {room : Nat} {tree : FileTree} {working : Location} {path repository : Path}
  {explicit : Option Path} {source : Option Text} {table : Table} {settings : Settings}

theorem rounded_of_document (read : document room tree path = .ok table) : table.Rounded := by
  obtain ⟨bytes, -, read⟩ := bind_eq_ok_iff.mp read
  split at read
  · cases read
  · split at read
    · next whole => exact Except.ok.inj read ▸ Toml.rounded_of_read whole
    · cases read
    · cases read
    · cases read

theorem rounded_tableIn (rounded : table.Rounded) (name : Text) : (tableIn name table).Rounded := by
  rw [tableIn]
  cases found : toolTable? table with
  | none =>
      rw [Option.getD_none]
      split
      · exact .nil
      · exact rounded
  | some inner =>
      obtain ⟨value, there, opens⟩ := Option.bind_eq_some_iff.mp found
      obtain ⟨tool, same, search⟩ := Option.bind_eq_some_iff.mp opens
      obtain ⟨name, -, stands⟩ := List.exists_of_findSome?_eq_some search
      have outer : (table.get? "tool".toList).bind Value.table? = some tool := by
        rw [there]
        exact same
      exact (rounded.inner outer).inner stands

theorem rounded_of_readFrom (read : ReadFrom room tree repository explicit path table) :
    table.Rounded := by
  have there {path : Path} (standing : tableAt room tree path = .ok table) : table.Rounded := by
    obtain ⟨whole, opened, rfl⟩ := map_eq_ok_iff.mp standing
    exact rounded_tableIn (rounded_of_document opened) _
  cases read with
  | document looks read => exact there read
  | project undedicated found read filled => exact there read

theorem canonical_of_docsOfTable {docs : DocsSettings} (rounded : table.Rounded)
    (read : docsOfTable table = .ok docs) : docs.timeout.Canonical := by
  obtain ⟨command, timeout, workers, enabled, -, times, -, -, rfl⟩ :=
    docsOfTable_eq_ok_iff.mp read
  have given := (timeoutOf_eq_ok_iff.mp times).1
  rcases timeoutIn_eq_ok_iff.mp given with ⟨-, rfl⟩ | given | ⟨i, -, rounds⟩
  · exact ⟨by decide, by decide, by decide, Or.inl (by decide)⟩
  · exact Toml.Value.rounded_float_iff.mp (rounded.get? given)
  · exact Binary64.canonical_of_ofInt? rounds

/-- The timeout of loaded settings is a number in its one form. -/
theorem canonical_timeout_of_load
    (loaded : load room tree working repository explicit = .ok settings) :
    settings.docs.timeout.Canonical := by
  rcases default_or_readFrom (loadAt_of_load loaded) with rfl | ⟨path, table, from_, read⟩
  · exact canonical_of_docsOfTable .nil docsOfTable_nil
  · have docs : (docsEntries table).Rounded := by
      rw [docsEntries]
      cases found : (table.get? "docs".toList).bind Value.table? with
      | none => exact .nil
      | some inner => exact (rounded_of_readFrom from_).inner found
    exact canonical_of_docsOfTable docs (docs_of_ofTable read)

end Timeout

/-- The object that settings are shown as is read back from its text. -/
theorem read?_json {settings : Settings} (canonical : settings.docs.timeout.Canonical) :
    Json.read? settings.json.text = some settings.json := by
  have texts (values : List Text) : (Json.strings values).numbers = [] :=
    itemNumbers_map (fun _ => rfl) values
  have source : (orNull .string settings.source).numbers = [] := numbers_orNull (fun _ => rfl) _
  have only : settings.json.numbers = [settings.docs.timeout] := by
    simp [json, docsJson, numbers, fieldNumbers, texts, source]
  apply read?_text
  rw [only]
  exact List.forall_mem_singleton.mpr (readsBack_of_canonical canonical)

/-- **Loaded settings are in normal form.**  Settings that have been loaded are read without
an error, and unchanged, from the table that they are written as; whatever room there is for
it, and whatever loading made of the document that was read.  So they are from the text that
they are shown as: it is JSON for the object they are shown as, and the object is a table that
they are read from. -/
theorem load_normalForm {room : Nat} {tree : FileTree} {working : Location} {repository : Path}
    {explicit : Option Path} {settings : Settings}
    (loaded : load room tree working repository explicit = .ok settings) :
    (∀ otherRoom, ofTable otherRoom settings.source settings.table = .ok settings) ∧
    Json.read? settings.json.text = some settings.json ∧
    ∃ shown, settings.json.asToml? = some (.table shown) ∧
      ∀ otherRoom, ofTable otherRoom settings.source shown = .ok settings := by
  have usable := (fromTable_of_load loaded).usable
  obtain ⟨shown, read, described⟩ := json_asToml? settings
  exact ⟨fun otherRoom => (describedBy_table settings).ofTable_eq usable otherRoom,
    read?_json (canonical_timeout_of_load loaded), shown, read,
    fun otherRoom => described.ofTable_eq usable otherRoom⟩

/-- A document from which every kind of value is made into another one: an empty list and an
empty text stand for themselves, an empty command for the default, capital letters for small
ones, and an integer for a binary64 number. -/
def untidyText : Text :=
  Text.unlines ["ignore_paths = []".toList, "message = ''".toList, "format = 'JsOn'".toList,
    "docs.command = []".toList, "docs.timeout_seconds = 3".toList]

/-- The table in it. -/
def untidyTable : Table :=
  [("ignore_paths".toList, .array []), ("message".toList, .string []),
    ("format".toList, .string "JsOn".toList),
    ("docs".toList, .table [("command".toList, .array []), ("timeout_seconds".toList, .integer 3)])]

/-- The settings that it describes. -/
def untidy : Settings :=
  ⟨⟨[], [], []⟩, .json, false,
    ⟨true, DocsTool.defaultCommand, .finite false 6755399441055744 (-51), 4⟩,
    some "/rubocop-disable-checker.toml".toList⟩

theorem load_normalForm_untidy :
    load 983 (withDocument untidyText) [] ⟨.working, []⟩ none = .ok untidy ∧
    ofTable 0 untidy.source untidy.table = .ok untidy ∧
    Json.read? untidy.json.text = some untidy.json ∧
    ∃ shown, untidy.json.asToml? = some (.table shown) ∧
      ofTable 7 untidy.source shown = .ok untidy := by
  have document : Toml.read (983 - readingRoom) untidyText = .ok untidyTable :=
    toOption_eq_some_iff.mp (by decide +kernel)
  have read : ofTable (983 - tableRoom) (some documentPath.text) untidyTable = .ok untidy :=
    toOption_eq_some_iff.mp (by decide +kernel)
  have loaded : load 983 (withDocument untidyText) [] ⟨.working, []⟩ none = .ok untidy := by
    rw [load_eq_loadAt rfl]
    refine (loadAt_of_readFrom (readFrom_withDocument document)).trans ?_
    exact mapError_eq_ok_iff.mpr read
  obtain ⟨again, json, shown, fields, back⟩ := load_normalForm loaded
  exact ⟨loaded, again 0, json, shown, fields, back 7⟩

end Settings

end DirectiveReview
