/-
# TOML values

The values of a TOML document.  A table keeps its entries in the order in which
they were made, and no key occurs twice in a table that was read from a document.

Values are nested into each other only so far.  A value takes up room while what is
inside it is read or written, and there is only so much room.

Tables are changed at a path of keys.  A path leads through tables, and through a
row of tables into its last one; where a key is missing a table is made.
-/

import DirectiveReview.Number.Binary64
import DirectiveReview.Text.Numeral

namespace DirectiveReview.Toml

/-- A calendar date. -/
structure Date where
  year : Nat
  month : Nat
  day : Nat
  deriving DecidableEq, Repr

/-- A time of day. -/
structure Time where
  hour : Nat
  minute : Nat
  second : Nat
  microsecond : Nat
  deriving DecidableEq, Repr

/-- The distance from universal time. -/
inductive Offset where
  /-- The letter Z: none. -/
  | universal
  /-- A number of minutes with its sign. -/
  | minutes (minutes : Int)
  deriving DecidableEq, Repr

/-- A date, a time, or both, the latter perhaps with an offset. -/
inductive Moment where
  | date (date : Date)
  | time (time : Time)
  | dateTime (date : Date) (time : Time) (offset : Option Offset)
  deriving DecidableEq, Repr

/-- A value of a document. -/
inductive Value where
  | string (text : Text)
  | integer (value : Int)
  | float (value : Binary64)
  | boolean (value : Bool)
  | moment (value : Moment)
  | array (items : List Value)
  | table (entries : List (Text × Value))

/-- The entries of a table. -/
abbrev Table := List (Text × Value)

/-- A key as written with dots: the keys on the way, and the last one. -/
abbrev Key := List Text

/-- What keeps a value from being written. -/
inductive Obstacle where
  /-- A whole number has too many digits. -/
  | numberTooLong
  /-- Values are nested too deeply. -/
  | tooDeep
  deriving DecidableEq, Repr

/-- The room that writing what is inside a moment takes up: the zone of an offset,
and in it the distance unless there is none. -/
def Moment.insideRoom : Moment → Nat
  | .dateTime _ _ (some (.minutes minutes)) => if minutes = 0 then 1 else 2
  | .dateTime _ _ (some .universal) => 1
  | _ => 0

namespace Value

mutual

/-- What keeps a value from being written in the room there is, and is come upon
first.  A value takes up one unit of room. -/
def obstacle? : (room : Nat) → Value → Option Obstacle
  | 0, _ => some .tooDeep
  | _ + 1, .integer value => if Text.isWritable value then none else some .numberTooLong
  | room + 1, .moment m => if room < m.insideRoom then some .tooDeep else none
  | room + 1, .array items => itemsObstacle? room items
  | room + 1, .table entries => entriesObstacle? room entries
  | _ + 1, _ => none

/-- What keeps a row of values from being written. -/
def itemsObstacle? (room : Nat) : List Value → Option Obstacle
  | [] => none
  | item :: rest => (obstacle? room item).or (itemsObstacle? room rest)

/-- What keeps the entries of a table from being written. -/
def entriesObstacle? (room : Nat) : List (Text × Value) → Option Obstacle
  | [] => none
  | (_, value) :: rest => (obstacle? room value).or (entriesObstacle? room rest)

end

/-- The entries of a value that is a table. -/
def table? : Value → Option Table
  | .table entries => some entries
  | _ => none

/-- An array or an inline table: a value whose inside is complete once it has been
read. -/
def isContainer : Value → Bool
  | .array _ => true
  | .table _ => true
  | _ => false

end Value

namespace Table

/-- The value under a key. -/
def get? (table : Table) (key : Text) : Option Value :=
  table.lookup key

/-- Put a value under a key, in the place of the one there or at the end. -/
def set (table : Table) (key : Text) (value : Value) : Table :=
  if (table.get? key).isSome then
    table.map fun entry => if entry.1 = key then (key, value) else entry
  else table ++ [(key, value)]

/-- Put a value under a key that is not in use. -/
def add? (key : Text) (value : Value) (table : Table) : Option Table :=
  if (table.get? key).isSome then none else some (table.set key value)

/-- Append an empty table to the row of tables under a key, which may be missing. -/
def addRow? (key : Text) (table : Table) : Option Table :=
  match table.get? key with
  | none => some (table.set key (.array [.table []]))
  | some (.array items) => some (table.set key (.array (items ++ [.table []])))
  | some _ => none

/-- Change the table at a path.  `intoRows` says whether the path may lead into
the last table of a row. -/
def change? (intoRows : Bool) (f : Table → Option Table) : Key → Table → Option Table
  | [], table => f table
  | key :: path, table =>
    match table.get? key with
    | none => do
      let inner ← change? intoRows f path []
      return table.set key (.table inner)
    | some (.table entries) => do
      let inner ← change? intoRows f path entries
      return table.set key (.table inner)
    | some (.array items) =>
      if intoRows then
        match items.getLast? with
        | some (.table entries) => do
          let inner ← change? intoRows f path entries
          return table.set key (.array (items.dropLast ++ [.table inner]))
        | _ => none
      else none
    | some _ => none

end Table

end DirectiveReview.Toml
