/-
# Log records

What the library tells beside its results.  A record has a level, the part of
the library that speaks, and a text; a threshold decides by level alone whether
the record is shown.
-/

import DirectiveReview.Text.Basic

namespace DirectiveReview

/-- How much a record matters, least first. -/
inductive LogLevel where
  | debug
  | info
  | warning
  | error
  deriving DecidableEq, Repr

namespace LogLevel

/-- The position of a level in the order of importance. -/
def rank : LogLevel → Nat
  | .debug => 0
  | .info => 1
  | .warning => 2
  | .error => 3

/-- The name of a level in a log line. -/
def name : LogLevel → Text
  | .debug => "DEBUG".toList
  | .info => "INFO".toList
  | .warning => "WARNING".toList
  | .error => "ERROR".toList

/-- All levels, least first. -/
def all : List LogLevel :=
  [.debug, .info, .warning, .error]

/-- The word that selects a level on the command line. -/
def word (level : LogLevel) : Text :=
  level.name.lowerAscii

/-- The level that a word selects, in letters of either case. -/
def ofWord? (word : Text) : Option LogLevel :=
  all.find? fun level => level.word = word.lowerAscii

end LogLevel

/-- The parts of the library that write log records. -/
inductive LogSource where
  /-- The search for directives. -/
  | checker
  /-- The lookup of documentation. -/
  | resolver
  deriving DecidableEq, Repr

/-- The name of a source in a log line. -/
def LogSource.name : LogSource → Text
  | .checker => "rubocop_disable_checker.checker".toList
  | .resolver => "rubocop_disable_checker.resolver".toList

/-- One record. -/
structure LogRecord where
  level : LogLevel
  source : LogSource
  message : Text
  deriving DecidableEq, Repr

namespace LogRecord

/-- A record as a line of the log. -/
def line (record : LogRecord) : Text :=
  record.level.name ++ " ".toList ++ record.source.name ++ ": ".toList ++ record.message

/-- The records at a threshold or above it. -/
def shown (threshold : LogLevel) (records : List LogRecord) : List LogRecord :=
  records.filter fun record => threshold.rank ≤ record.level.rank

end LogRecord

end DirectiveReview
