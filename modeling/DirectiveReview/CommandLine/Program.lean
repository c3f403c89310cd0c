/-
# The program

The commands that are not a check, and the choice between all of them.  The
arguments of a command are read only once the command is known and the level of
the log is in order, so of several faults the one nearest to the front counts.
-/

import DirectiveReview.CommandLine.Check
import DirectiveReview.Settings.Listing
import DirectiveReview.Settings.Template

namespace DirectiveReview.CommandLine

/-- Show the settings. -/
def showSettings (s : Surroundings) (options : SettingsOptions) : Outcome :=
  match ReportFormat.ofWord? options.format with
  | none => Outcome.failed s (.parameter .format)
  | some format =>
    match loadSettings s options.repository options.settingsFile with
    | .error failure => Outcome.failed s failure
    | .ok settings =>
      match format with
      | .human => Outcome.printed s settings.listing
      | .json =>
        match settings.json.text? with
        | some text => Outcome.printed s text
        | none => Outcome.failed s (.breakdown .numberTooLong)

/-- Write the starter document at a location.  Directories that were made stay when
the document cannot be written. -/
def startAt (s : Surroundings) (location : Location) : Outcome :=
  match s.tree.write s.room location (encodeUtf8 Settings.template) with
  | (tree, some e) => { Outcome.failed s (.breakdown (.file e)) with tree }
  | (tree, none) =>
    let path := Path.ofLocation location
    { Outcome.printed s ("Wrote starter config: ".toList ++ path.text) with tree }

/-- Write the starter document.  What exists is kept unless the command line says
otherwise. -/
def start (s : Surroundings) (options : StartOptions) : Outcome :=
  let location := options.out.resolve s.working
  let path := Path.ofLocation location
  match s.tree.hasPath [] path with
  | .error e => Outcome.failed s (.breakdown (.file e))
  | .ok found =>
    if found && !options.force then Outcome.failed s (.parameter (.outExists path.text))
    else startAt s location

/-- Run a command with its arguments. -/
def runCommand (s : Surroundings) (command : Command) (arguments : List Text) :
    Except UsageError Outcome :=
  match command with
  | .check => (CheckOptions.read arguments).map (check s)
  | .settings => (SettingsOptions.read arguments).map (showSettings s)
  | .start => (StartOptions.read arguments).map (start s)

/-- Run the program. -/
def run (s : Surroundings) (arguments : List Text) : Outcome :=
  match Request.read arguments with
  | .error e => Outcome.failed s (.usage e)
  | .ok .version => Outcome.printed s Report.version
  | .ok (.command command logLevel rest) =>
    match LogLevel.ofWord? logLevel with
    | none => Outcome.failed s (.parameter .logLevel)
    | some level =>
      match runCommand s command rest with
      | .error e => Outcome.failed s (usageFailure e)
      | .ok outcome => { outcome with log := LogRecord.shown level outcome.log }

end DirectiveReview.CommandLine
