/-
# The executable

Gives the program its surroundings and carries out what it leaves behind.  The
files that the arguments can lead to are read beforehand, and the changes to them
are written afterwards.

This executable starts no processes.  Every lookup of documentation is answered
as though its program did not exist, so rules are shown without links.
-/

import DirectiveReview.CommandLine.Program
import DirectiveReview.CommandLine.Reach
import Std.Time.DateTime.Timestamp

namespace DirectiveReview.Main

open CommandLine

/-- A text as a string. -/
def string (text : Text) : String :=
  String.ofList text

/-- The path to a location as a string. -/
def pathString (location : Location) : String :=
  string (Path.ofLocation location).text

/-- What stands at a location now. -/
def entryAt? (location : Location) : IO (Option Entry) := do
  let path := (← IO.currentDir) / pathString location
  if ← path.isDir then return some .directory
  if ← path.pathExists then
    let bytes ← IO.FS.readBinFile path
    return some (.file bytes.toList)
  return none

/-- The part of the files that is at the given locations. -/
def treeAt (locations : List Location) : IO FileTree := do
  let entries ← locations.filterMapM fun location => do
    return (← entryAt? location).map fun entry => (location, entry)
  return ⟨entries⟩

/-- All that is left on the standard input. -/
partial def readAll (input : IO.FS.Stream) (before : ByteArray) : IO ByteArray := do
  let bytes ← input.read 65536
  if bytes.isEmpty then return before
  readAll input (before ++ bytes)

/-- Write a changed entry. -/
def carryOut (change : Location × Entry) : IO Unit := do
  let path := (← IO.currentDir) / pathString change.1
  match change.2 with
  | .directory => IO.FS.createDirAll path
  | .file content => IO.FS.writeBinFile path ⟨content.toArray⟩

/-- The words for a failure. -/
def failureText : Failure → Text
  | .usage error => error.message
  | .parameter error => error.message
  | .breakdown (.file error) => error.message
  | .breakdown .notUtf8 => "the diff is not in UTF-8".toList
  | .breakdown .numberTooLong => DiffError.numberTooLong.message
  | .breakdown (.settings error) => error.message
  | .breakdown (.resolver error) => error.message

/-- Run the program on arguments. -/
def runArguments (arguments : List Text) : IO UInt32 := do
  let working := (← IO.currentDir).toString.toList
  let working := (Path.read working).resolve []
  let tree ← treeAt (reachableLocations working arguments)
  let stdin ←
    if readsInput arguments then readAll (← IO.getStdin) ByteArray.empty
    else pure ByteArray.empty
  let now ← Std.Time.Timestamp.now
  let outcome := CommandLine.run
    { tree, working, room := 984, stdin := stdin.toList
      now := Timestamp.ofSeconds now.toSecondsSinceUnixEpoch.toInt.toNat
      run := ProcessOutcome.noSuchProgram, schedule := Schedule.inOrder } arguments
  for change in changes tree outcome.tree do
    carryOut change
  for record in outcome.log do
    IO.eprintln (string record.line)
  if let some failure := outcome.failure then
    IO.eprintln (string ("Error: ".toList ++ failureText failure))
  IO.print (string outcome.stdout)
  return UInt32.ofNat outcome.exitCode

end DirectiveReview.Main

/-- The entry point. -/
def main (arguments : List String) : IO UInt32 :=
  DirectiveReview.Main.runArguments (arguments.map String.toList)
