/-
# What a run can reach

The paths that a run may follow, by its arguments alone, and what has changed
between two file trees.  With these a run needs to be given only a small part of
the files there are, and its changes can be carried out afterwards.
-/

import DirectiveReview.CommandLine.Options
import DirectiveReview.Settings.Load

namespace DirectiveReview.CommandLine

/-- The documents in which the settings of a repository may be found. -/
def settingsPaths (working : Location) (repository : Path) (explicit : Option Path) :
    List Path :=
  let repository := Path.ofLocation (repository.resolve working)
  let names := Settings.dedicatedNames ++ [Settings.projectName]
  (explicit.toList ++ names.map fun name => Path.mk .working [name]).map repository.under

/-- The paths that a run with these arguments may follow.  Arguments that are not
understood lead nowhere. -/
def reachablePaths (working : Location) (arguments : List Text) : List Path :=
  match Request.read arguments with
  | .ok (.command .check _ rest) =>
    match CheckOptions.read rest with
    | .ok options =>
      options.diffFile.toList ++ settingsPaths working options.repository options.settingsFile
    | .error _ => []
  | .ok (.command .settings _ rest) =>
    match SettingsOptions.read rest with
    | .ok options => settingsPaths working options.repository options.settingsFile
    | .error _ => []
  | .ok (.command .start _ rest) =>
    match StartOptions.read rest with
    | .ok options => [Path.ofLocation (options.out.resolve working)]
    | .error _ => []
  | .ok .version => []
  | .error _ => []

/-- A run with these arguments reads the standard input. -/
def readsInput (arguments : List Text) : Bool :=
  match Request.read arguments with
  | .ok (.command .check _ rest) =>
    match CheckOptions.read rest with
    | .ok options => options.stdin
    | .error _ => false
  | _ => false

/-- The locations passed on the way along names, the last one included. -/
def passed (location : Location) : List Text → List Location
  | [] => [location]
  | name :: rest =>
    location ::
      passed (if name = Path.above then location.dropLast else location ++ [name]) rest

/-- All locations that a run with these arguments may look at. -/
def reachableLocations (working : Location) (arguments : List Text) : List Location :=
  let ways := (reachablePaths working arguments).flatMap fun path =>
    match path.anchor with
    | .working => passed working path.names
    | _ => passed [] path.names
  ways.eraseDups

/-- The entries of a tree that differ from those of an earlier one. -/
def changes (before after : FileTree) : List (Location × Entry) :=
  after.entries.filter fun e => before.entry? e.1 ≠ some e.2

end DirectiveReview.CommandLine
