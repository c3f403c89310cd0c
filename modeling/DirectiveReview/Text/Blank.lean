/-
# Blanks

The characters that separate words and that trimming removes.  The set is the
white space of Unicode together with the four information separators, which
Unicode itself classes as controls.  Around numbers white space alone counts.
-/

import DirectiveReview.Text.Basic

namespace DirectiveReview.Text

/-- White space. -/
def isWhite (c : Char) : Bool :=
  let n := c.toNat
  (0x09 ≤ n && n ≤ 0x0d) || n == 0x20 || n == 0x85 || n == 0xa0 || n == 0x1680 ||
    (0x2000 ≤ n && n ≤ 0x200a) || n == 0x2028 || n == 0x2029 || n == 0x202f || n == 0x205f ||
    n == 0x3000

/-- White space and the information separators. -/
def isBlank (c : Char) : Bool :=
  isWhite c || (0x1c ≤ c.toNat && c.toNat ≤ 0x1f)

/-- A text without its leading and trailing blanks. -/
def trim (text : Text) : Text :=
  dropTrailing isBlank (text.dropWhile isBlank)

/-- A text without the white space at its start and its end. -/
def trimWhite (text : Text) : Text :=
  dropTrailing isWhite (text.dropWhile isWhite)

/-- The first words of a text, at most `limit` of them, followed by the rest of
the text when there is any.  The rest starts at a word and keeps its own blanks,
trailing ones included. -/
def wordsThenRest : (limit : Nat) → Text → List Text
  | 0, text =>
    match text.dropWhile isBlank with
    | [] => []
    | rest => [rest]
  | limit + 1, text =>
    match text.dropWhile isBlank with
    | [] => []
    | start => start.takeWhile (!isBlank ·) :: wordsThenRest limit (start.dropWhile (!isBlank ·))

end DirectiveReview.Text
