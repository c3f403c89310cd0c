/-
# Lines

A text is cut into lines at every line boundary Unicode knows, not at the line
feed alone.  A carriage return followed by a line feed is one boundary.  A final
boundary ends the last line and starts no further one, so a text and the same
text with a final line feed have the same lines.
-/

import DirectiveReview.Text.Basic

namespace DirectiveReview.Text

/-- The characters that end a line on their own: line feed, line tabulation,
form feed, carriage return, the file, group and record separators, next line,
and the line and paragraph separators. -/
def isLineBreak (c : Char) : Bool :=
  c == '\n' || c == '\x0b' || c == '\x0c' || c == '\r' || c == '\x1c' || c == '\x1d' ||
    c == '\x1e' || c == '\u0085' || c == '\u2028' || c == '\u2029'

/-- The lines of a text, without the boundaries that end them. -/
def lines : Text → List Text
  | [] => []
  | '\r' :: '\n' :: rest => [] :: lines rest
  | c :: rest =>
    if isLineBreak c then [] :: lines rest
    else
      match lines rest with
      | [] => [[c]]
      | line :: more => (c :: line) :: more

/-- Lines joined by line feeds, with none after the last. -/
def unlines (ls : List Text) : Text :=
  join ['\n'] ls

/-- Write every line end as a single line feed: a carriage return is a line end
on its own and together with the line feed that follows it. -/
def normalizeLineEnds : Text → Text
  | [] => []
  | '\r' :: '\n' :: rest => '\n' :: normalizeLineEnds rest
  | c :: rest => (if c = '\r' then '\n' else c) :: normalizeLineEnds rest

end DirectiveReview.Text
