/-
# Timestamps

The instant at which a report is made, in universal time.  Reports show it to the
second.
-/

import DirectiveReview.Text.Numeral

namespace DirectiveReview

/-- A calendar date and a time of day in universal time. -/
structure Timestamp where
  year : Nat
  month : Nat
  day : Nat
  hour : Nat
  minute : Nat
  second : Nat
  microsecond : Nat
  deriving DecidableEq, Repr

namespace Timestamp

/-- The year, month and day that lie a number of days after the first of January
1970.  Years are counted from the first of March, so that the leap day ends one,
in cycles of 400 years. -/
def dateOfDay (days : Nat) : Nat × Nat × Nat :=
  let sinceMarch := days + 719468
  let cycle := sinceMarch / 146097
  let dayOfCycle := sinceMarch % 146097
  let yearOfCycle :=
    (dayOfCycle - dayOfCycle / 1460 + dayOfCycle / 36524 - dayOfCycle / 146096) / 365
  let dayOfYear := dayOfCycle - (365 * yearOfCycle + yearOfCycle / 4 - yearOfCycle / 100)
  let monthFromMarch := (5 * dayOfYear + 2) / 153
  let day := dayOfYear - (153 * monthFromMarch + 2) / 5 + 1
  let month := if monthFromMarch < 10 then monthFromMarch + 3 else monthFromMarch - 9
  (400 * cycle + yearOfCycle + (if month ≤ 2 then 1 else 0), month, day)

/-- The instant a number of seconds after the start of 1970. -/
def ofSeconds (seconds : Nat) : Timestamp :=
  let (year, month, day) := dateOfDay (seconds / 86400)
  let time := seconds % 86400
  ⟨year, month, day, time / 3600, time / 60 % 60, time % 60, 0⟩

/-- Date and time to the second, with a Z for universal time. -/
def text (t : Timestamp) : Text :=
  Text.padded 4 t.year ++ ['-'] ++ Text.padded 2 t.month ++ ['-'] ++ Text.padded 2 t.day ++
    ['T'] ++ Text.padded 2 t.hour ++ [':'] ++ Text.padded 2 t.minute ++ [':'] ++
    Text.padded 2 t.second ++ ['Z']

end Timestamp

end DirectiveReview
