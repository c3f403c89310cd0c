/-
# Terminal styles

Styled text is written with escape sequences around it.  Where the output is not
a terminal the sequences are taken out again, and with them everything in the
text that has the same form, whoever wrote it.
-/

import DirectiveReview.Text.Basic

namespace DirectiveReview.Terminal

/-- The sequence that selects a style by number. -/
def select (number : String) : Text :=
  '\x1b' :: '[' :: number.toList ++ ['m']

/-- Bold text. -/
def bold (text : Text) : Text :=
  select "1" ++ text ++ select "0"

/-- Bold text in green. -/
def boldGreen (text : Text) : Text :=
  select "32" ++ bold text

/-- Bold text in yellow. -/
def boldYellow (text : Text) : Text :=
  select "33" ++ bold text

/-- A character that may stand between the start of a sequence and its last
letter. -/
def isParameter (c : Char) : Bool :=
  c == ';' || c == '?' || c.isDigit

/-- The number of characters of the escape sequence at the front of a text, or
zero when there is none there. -/
def sequenceLength : Text → Nat
  | '\x1b' :: '[' :: rest =>
    match rest.dropWhile isParameter with
    | last :: _ => if last.isAlpha then 3 + (rest.takeWhile isParameter).length else 0
    | [] => 0
  | _ => 0

/-- Leave out a number of characters, then every escape sequence. -/
def plainAfter : (skip : Nat) → Text → Text
  | _, [] => []
  | skip + 1, _ :: rest => plainAfter skip rest
  | 0, c :: rest =>
    match sequenceLength (c :: rest) with
    | 0 => c :: plainAfter 0 rest
    | skip + 1 => plainAfter skip rest

/-- A text without escape sequences. -/
def plain (text : Text) : Text :=
  plainAfter 0 text

end DirectiveReview.Terminal
