/-
# Commands and their options

The three commands of the program and what can be said about each on the command
line.

Help screens and the completion of shells are left out.  The options that ask for
them, `--help`, `--install-completion` and `--show-completion`, are unknown options
here, and without any arguments the command is missing.  So these are errors of usage,
where the program prints what is asked for, or its help.
-/

import DirectiveReview.CommandLine.Arguments
import DirectiveReview.Files.Path

namespace DirectiveReview.CommandLine

/-- The commands. -/
inductive Command where
  /-- Review a diff. -/
  | check
  /-- Show the settings. -/
  | settings
  /-- Write the starter document. -/
  | start
  deriving DecidableEq, Repr

/-- The name of a command. -/
def Command.name : Command → Text
  | .check => "check".toList
  | .settings => "config".toList
  | .start => "config-init".toList

/-- The command of a name. -/
def Command.ofName? (name : Text) : Option Command :=
  [check, settings, start].find? fun command => command.name = name

/-- The options before the command. -/
def rootOptions : List (Text × Arity) :=
  [("--version".toList, .flag), ("--log-level".toList, .value)]

/-- What is asked for before the command's own options are read. -/
inductive Request where
  /-- The version of the program. -/
  | version
  /-- A command, with its arguments, and the word for the level of the log. -/
  | command (command : Command) (logLevel : Text) (arguments : List Text)
  deriving DecidableEq, Repr

/-- Read what is asked for.  A wish for the version comes before everything
behind it. -/
def Request.read (arguments : List Text) : Except UsageError Request := do
  let (given, others) ← Given.scan rootOptions false arguments
  if given.has "--version" then return .version
  match others with
  | [] => .error .missingCommand
  | name :: rest =>
    match Command.ofName? name with
    | none => .error (.unknownCommand name)
    | some chosen =>
      return .command chosen ((given.last? "--log-level").getD "warning".toList) rest

/-- What is said about a review. -/
structure CheckOptions where
  diffFile : Option Path
  stdin : Bool
  repository : Path
  ignorePaths : Option (List Text)
  message : Option Text
  tagReviewers : Option (List Text)
  docs : Option Bool
  format : Option Text
  failOnViolation : Option Bool
  settingsFile : Option Path
  deriving DecidableEq, Repr

/-- The path of an option, or the working directory. -/
def pathOr (value : Option Text) : Path :=
  (value.map Path.read).getD ⟨.working, []⟩

namespace CheckOptions

/-- The options of a review. -/
def table : List (Text × Arity) :=
  [("--diff-file".toList, .path), ("--stdin".toList, .flag), ("--no-stdin".toList, .flag),
    ("--repo".toList, .path), ("--ignore-path".toList, .value), ("--message".toList, .value),
    ("--tag-reviewer".toList, .value), ("--docs".toList, .flag), ("--no-docs".toList, .flag),
    ("--format".toList, .value), ("--fail-on-violation".toList, .flag),
    ("--no-fail-on-violation".toList, .flag), ("--config".toList, .path)]

/-- Read the options of a review. -/
def read (arguments : List Text) : Except UsageError CheckOptions := do
  let given ← Given.only table arguments
  return {
    diffFile := (given.last? "--diff-file").map Path.read
    stdin := (given.switch? "--stdin" "--no-stdin").getD false
    repository := pathOr (given.last? "--repo")
    ignorePaths := given.all? "--ignore-path"
    message := given.last? "--message"
    tagReviewers := given.all? "--tag-reviewer"
    docs := given.switch? "--docs" "--no-docs"
    format := given.last? "--format"
    failOnViolation := given.switch? "--fail-on-violation" "--no-fail-on-violation"
    settingsFile := (given.last? "--config").map Path.read }

end CheckOptions

/-- What is said about showing the settings. -/
structure SettingsOptions where
  repository : Path
  format : Text
  settingsFile : Option Path
  deriving DecidableEq, Repr

namespace SettingsOptions

/-- The options for showing the settings. -/
def table : List (Text × Arity) :=
  [("--repo".toList, .path), ("--format".toList, .value), ("--config".toList, .path)]

/-- Read the options for showing the settings. -/
def read (arguments : List Text) : Except UsageError SettingsOptions := do
  let given ← Given.only table arguments
  return {
    repository := pathOr (given.last? "--repo")
    format := (given.last? "--format").getD "human".toList
    settingsFile := (given.last? "--config").map Path.read }

end SettingsOptions

/-- What is said about writing the starter document. -/
structure StartOptions where
  out : Path
  force : Bool
  deriving DecidableEq, Repr

namespace StartOptions

/-- The options for writing the starter document. -/
def table : List (Text × Arity) :=
  [("--out".toList, .path), ("--force".toList, .flag)]

/-- Read the options for writing the starter document. -/
def read (arguments : List Text) : Except UsageError StartOptions := do
  let given ← Given.only table arguments
  return {
    out := ((given.last? "--out").map Path.read).getD
      ⟨.working, [".rubocop-disable-checker.toml".toList]⟩
    force := given.has "--force" }

end StartOptions

end DirectiveReview.CommandLine
