/-
# Arguments

The grammar of a command line: options that are flags, options that take a value,
and other arguments.  A value follows its option as the next argument, whatever it
looks like, or stands behind an equals sign.  A double dash ends the options.

A value may be a path, and a path cannot hold the NUL character.

The grammar knows the options that it is given and no others.  In particular there is
none that asks for help wherever it stands.

`Given.scan` turns arguments into the options given and the other arguments.  The
functions behind it read single options off that: where an option may be given
once, the last one counts.
-/

import DirectiveReview.Text.Basic

namespace DirectiveReview.CommandLine

/-- What an option takes. -/
inductive Arity where
  /-- Nothing. -/
  | flag
  /-- Any value. -/
  | value
  /-- A value that is a path. -/
  | path
  deriving DecidableEq, Repr

/-- Why arguments are not understood. -/
inductive UsageError where
  | unknownOption (name : Text)
  | missingValue (name : Text)
  | unexpectedValue (name : Text)
  | nulInPath (name : Text)
  | unexpectedArgument (argument : Text)
  | missingCommand
  | unknownCommand (name : Text)
  deriving DecidableEq, Repr

/-- What is said about arguments that are not understood. -/
def UsageError.message : UsageError → Text
  | .unknownOption name => "No such option: ".toList ++ name
  | .missingValue name => "An option requires an argument: ".toList ++ name
  | .unexpectedValue name => "An option does not take a value: ".toList ++ name
  | .nulInPath name => "Got a path with a null byte: ".toList ++ name
  | .unexpectedArgument argument => "Got unexpected extra argument: ".toList ++ argument
  | .missingCommand => "Missing command.".toList
  | .unknownCommand name => "No such command: ".toList ++ name

/-- The options given, each with its value, in order.  A flag has an empty
value. -/
abbrev Given := List (Text × Text)

namespace Given

/-- An argument that is an option: it starts with a dash and is not just that. -/
def isOption (argument : Text) : Bool :=
  argument.head? == some '-' && 1 < argument.length

/-- The value that stands behind an equals sign in an option. -/
def attached? (argument : Text) : Option Text :=
  Text.after? ['='] argument

/-- Put an option in front of those found behind it. -/
def onto {ε : Type} (name value : Text) (found : Except ε (Given × List Text)) :
    Except ε (Given × List Text) :=
  found.map fun (given, others) => ((name, value) :: given, others)

/-- Read arguments by the options there are.  If `mixed`, options may stand behind
other arguments; if not, the first other argument ends the options. -/
def scan (options : List (Text × Arity)) (mixed : Bool) :
    List Text → Except UsageError (Given × List Text)
  | [] => .ok ([], [])
  | argument :: rest =>
    if argument = "--".toList then .ok ([], rest)
    else if isOption argument then
      let name := Text.upTo '=' argument
      match options.lookup name, attached? argument with
      | none, _ => .error (.unknownOption name)
      | some .flag, none => onto name [] (scan options mixed rest)
      | some .flag, some _ => .error (.unexpectedValue name)
      | some _, some value => onto name value (scan options mixed rest)
      | some _, none =>
        match rest with
        | [] => .error (.missingValue name)
        | value :: rest => onto name value (scan options mixed rest)
    else if mixed then
      (scan options mixed rest).map fun (given, others) => (given, argument :: others)
    else .ok ([], argument :: rest)

/-- The values of an option, in order. -/
def values (given : Given) (name : Text) : List Text :=
  (given.filter fun option => option.1 = name).map Prod.snd

/-- The value of an option that counts once. -/
def last? (given : Given) (name : String) : Option Text :=
  (given.values name.toList).getLast?

/-- The value of an option that is given is a path with a NUL character.  Only the
value that counts is looked at. -/
def hasNulIn (given : Given) (option : Text × Arity) : Bool :=
  option.2 = .path ∧ (given.values option.1).getLast?.any fun value => '\x00' ∈ value

/-- The options given where no other argument is allowed.  Paths are looked at
before the other arguments are. -/
def only (options : List (Text × Arity)) (arguments : List Text) : Except UsageError Given := do
  let (given, others) ← scan options true arguments
  match options.find? given.hasNulIn, others with
  | some option, _ => .error (.nulInPath option.1)
  | none, [] => return given
  | none, argument :: _ => .error (.unexpectedArgument argument)

/-- The values of an option that may be given several times, if it is given. -/
def all? (given : Given) (name : String) : Option (List Text) :=
  match given.values name.toList with
  | [] => none
  | values => some values

/-- A flag is given. -/
def has (given : Given) (name : String) : Bool :=
  given.any fun option => option.1 = name.toList

/-- Which of a flag and its opposite is given last, if any. -/
def switch? (given : Given) (on off : String) : Option Bool :=
  ((given.filter fun option => option.1 = on.toList ∨ option.1 = off.toList).getLast?).map
    fun option => decide (option.1 = on.toList)

end Given

end DirectiveReview.CommandLine
