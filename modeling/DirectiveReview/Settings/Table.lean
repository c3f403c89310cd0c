/-
# Settings as a table

Settings are written as a TOML table.  Reading it checks every key it knows, in a
fixed order, and the first key with an unusable value is the one reported; keys
it does not know are passed over.  A key that is missing, and an empty command,
stand for the default.  An unknown word for the format stands for the human one.

`Settings.table` writes settings back as a table.
-/

import DirectiveReview.Settings.Basic
import DirectiveReview.Toml.Value

namespace DirectiveReview

/-- What the value of a key has to be. -/
inductive Requirement where
  | table
  | listOfStrings
  | string
  | boolean
  | number
  | integer
  | positive
  deriving DecidableEq, Repr

/-- The words for a requirement. -/
def Requirement.words : Requirement → Text
  | .table => "a table/object".toList
  | .listOfStrings => "a list of strings".toList
  | .string => "a string".toList
  | .boolean => "a boolean".toList
  | .number => "a number".toList
  | .integer => "an integer".toList
  | .positive => "> 0".toList

/-- The keys whose values are checked. -/
inductive SettingsKey where
  | docs
  | ignorePaths
  | message
  | tagReviewers
  | failOnViolation
  | docsCommand
  | docsTimeout
  | docsMaxWorkers
  | docsEnabled
  deriving DecidableEq, Repr

/-- The name of a key, with the table it stands in. -/
def SettingsKey.name : SettingsKey → Text
  | .docs => "docs".toList
  | .ignorePaths => "ignore_paths".toList
  | .message => "message".toList
  | .tagReviewers => "tag_reviewers".toList
  | .failOnViolation => "fail_on_violation".toList
  | .docsCommand => "docs.command".toList
  | .docsTimeout => "docs.timeout_seconds".toList
  | .docsMaxWorkers => "docs.max_workers".toList
  | .docsEnabled => "docs.enabled".toList

/-- Why a table cannot be read as settings. -/
inductive TableError where
  /-- The value of a key is not what it has to be. -/
  | unusable (key : SettingsKey) (requirement : Requirement)
  /-- The timeout is an integer beyond the largest binary64 number. -/
  | timeoutTooLarge
  /-- The word for the format was to be found in a value with an integer that is
  too long to be written. -/
  | formatTooLong
  /-- The word for the format was to be found in values that are nested too deeply
  to be written. -/
  | formatTooDeep
  deriving DecidableEq, Repr

/-- What is said about a table that cannot be read. -/
def TableError.message : TableError → Text
  | .unusable key requirement => key.name ++ " must be ".toList ++ requirement.words
  | .timeoutTooLarge => "docs.timeout_seconds is too large".toList
  | .formatTooLong => "format holds a number with too many digits".toList
  | .formatTooDeep => "format holds values that are nested too deeply".toList

namespace Settings

open Toml (Value Table)

/-- The strings of an array that holds nothing else. -/
def strings? : List Value → Option (List Text)
  | [] => some []
  | .string text :: rest => (strings? rest).map (text :: ·)
  | _ :: _ => none

/-- The value of a key that has to be a list of strings, where there is one. -/
def stringList (key : SettingsKey) : Option Value → Except TableError (Option (List Text))
  | none => .ok none
  | some (.array items) =>
    match strings? items with
    | some texts => .ok (some texts)
    | none => .error (.unusable key .listOfStrings)
  | some _ => .error (.unusable key .listOfStrings)

/-- The value of a key that has to be a string, where there is one. -/
def string (key : SettingsKey) : Option Value → Except TableError (Option Text)
  | none => .ok none
  | some (.string text) => .ok (some text)
  | some _ => .error (.unusable key .string)

/-- The value of a key that has to be a boolean, where there is one. -/
def boolean (key : SettingsKey) : Option Value → Except TableError (Option Bool)
  | none => .ok none
  | some (.boolean b) => .ok (some b)
  | some _ => .error (.unusable key .boolean)

/-- The table under `docs`; empty where there is none. -/
def docsTable : Option Value → Except TableError Table
  | none => .ok []
  | some (.table entries) => .ok entries
  | some _ => .error (.unusable .docs .table)

/-- The format.  A value that is no string is looked at in its written form,
which is never the word for a format; there has to be room to write it. -/
def formatOf (room : Nat) : Option Value → Except TableError ReportFormat
  | none => .ok .human
  | some (.string word) => .ok ((ReportFormat.ofWord? word).getD .human)
  | some value =>
    match value.obstacle? room with
    | none => .ok .human
    | some .numberTooLong => .error .formatTooLong
    | some .tooDeep => .error .formatTooDeep

/-- The timeout: a number that is not zero or less.  A number that is not a
number passes. -/
def timeoutOf (v : Option Value) : Except TableError Binary64 := do
  let timeout ←
    match v with
    | none => .ok DocsTool.defaultTimeout
    | some (.float x) => .ok x
    | some (.integer i) =>
      match Binary64.ofInt? i with
      | some x => .ok x
      | none => .error .timeoutTooLarge
    | some _ => .error (.unusable .docsTimeout .number)
  if timeout.le (.zero false) then .error (.unusable .docsTimeout .positive)
  else .ok timeout

/-- The number of workers, which is positive. -/
def maxWorkersOf : Option Value → Except TableError Int
  | none => .ok Resolver.defaultMaxWorkers
  | some (.integer i) =>
    if i ≤ 0 then .error (.unusable .docsMaxWorkers .positive) else .ok i
  | some _ => .error (.unusable .docsMaxWorkers .integer)

/-- The command, unless it is left out or empty. -/
def commandOf (command : Option (List Text)) : List Text :=
  match command with
  | some (word :: words) => word :: words
  | _ => DocsTool.defaultCommand

/-- The settings of the lookup in the table under `docs`. -/
def docsOfTable (table : Table) : Except TableError DocsSettings := do
  let command ← stringList .docsCommand (table.get? "command".toList)
  let timeout ← timeoutOf (table.get? "timeout_seconds".toList)
  let maxWorkers ← maxWorkersOf (table.get? "max_workers".toList)
  let enabled ← boolean .docsEnabled (table.get? "enabled".toList)
  return ⟨enabled.getD true, commandOf command, timeout, maxWorkers⟩

/-- The settings that a table describes, with the file it was read from, if any.
The room is what there is for writing a value. -/
def ofTable (room : Nat) (source : Option Text) (table : Table) :
    Except TableError Settings := do
  let docsTable ← docsTable (table.get? "docs".toList)
  let format ← formatOf room (table.get? "format".toList)
  let ignorePaths ← stringList .ignorePaths (table.get? "ignore_paths".toList)
  let message ← string .message (table.get? "message".toList)
  let tagReviewers ← stringList .tagReviewers (table.get? "tag_reviewers".toList)
  let failOnViolation ← boolean .failOnViolation (table.get? "fail_on_violation".toList)
  let docs ← docsOfTable docsTable
  return {
    review := ReviewSettings.default.override ignorePaths message tagReviewers
    format
    failOnViolation := failOnViolation.getD false
    docs
    source }

/-- An array of strings. -/
def stringArray (texts : List Text) : Value :=
  .array (texts.map .string)

/-- The settings of the lookup as a table. -/
def docsTableOf (docs : DocsSettings) : Table :=
  [("enabled".toList, .boolean docs.enabled),
    ("command".toList, stringArray docs.command),
    ("timeout_seconds".toList, .float docs.timeout),
    ("max_workers".toList, .integer docs.maxWorkers)]

/-- Settings as a table.  Their source is not part of it. -/
def table (s : Settings) : Table :=
  [("ignore_paths".toList, stringArray s.review.ignorePaths),
    ("message".toList, .string s.review.message),
    ("tag_reviewers".toList, stringArray s.review.tagReviewers),
    ("format".toList, .string s.format.word),
    ("fail_on_violation".toList, .boolean s.failOnViolation),
    ("docs".toList, .table (docsTableOf s.docs))]

end Settings

end DirectiveReview
