/-
# Room for reading

Values are nested into each other, and so are their readers: each waits for the
one that it has entered.  Only so many can wait at once.  The *room* of a reader is
the number of places that are left below it.

Entering a reader takes a place for as long as the reader is at work, and so do
calling a function, comparing two values and quoting a character.  A *demand* is
such a step together with the places that must be there for it, counted from a
given reader.  What a reader asks for depends on the text in front of it, and the
demands are listed in the order in which they are made, up to where the reader is
done or finds the text malformed and has said where.  The first one that is not met
decides what reading fails with, so a list leaves out a demand that an earlier one
covers.
-/

import DirectiveReview.Toml.Lexeme

namespace DirectiveReview.Toml

/-- What a step of reading does. -/
inductive Step where
  /-- It enters a reader. -/
  | entering
  /-- It calls a function. -/
  | calling
  /-- It compares two values. -/
  | comparing
  /-- It quotes a character, to say what is wrong. -/
  | quoting
  deriving DecidableEq, Repr

/-- A step, and the places that must be there for it. -/
structure Demand where
  places : Nat
  step : Step
  deriving DecidableEq, Repr

namespace Demand

/-- To enter a reader, the innermost of so many. -/
def entering (places : Nat) : Demand :=
  ⟨places, .entering⟩

/-- To call a function, which takes the last of so many places. -/
def calling (places : Nat) : Demand :=
  ⟨places, .calling⟩

/-- To compare two values, which takes the last of so many places. -/
def comparing (places : Nat) : Demand :=
  ⟨places, .comparing⟩

/-- To quote a character, which takes the last of so many places. -/
def quoting (places : Nat) : Demand :=
  ⟨places, .quoting⟩

/-- The demand as it is counted from the outermost of so many readers around it. -/
def behind (readers : Nat) (demand : Demand) : Demand :=
  { demand with places := readers + demand.places }

/-- The step of the first demand that a room does not meet. -/
def firstUnmet? (room : Nat) (demands : List Demand) : Option Step :=
  (demands.find? fun demand => room < demand.places).map (·.step)

/-! ## Gaps, numbers and the like -/

/-- Say where a text is malformed: in front of the given rest.  Lines are counted
unless that is the end of the text. -/
def ofPlace (rest : Text) : List Demand :=
  if rest = [] then [entering 2] else [entering 2, calling 3]

/-- A comment is the first thing in a gap. -/
def beginsWithComment (text : Text) : Bool :=
  (text.dropWhile fun c => isSpace c || c == '\n').head? == some '#'

/-- Skip a gap in an array.  A comment is searched for its end and checked; where the
text ends instead of going on, the missing character is still compared with the one
that starts a comment. -/
def ofGap (text : Text) : List Demand :=
  match skipGap? false text with
  | none => [entering 3, calling 4] ++ (ofPlace text).map (behind 3)
  | some rest =>
    if beginsWithComment text then [entering 3, calling 4]
    else if rest = [] then [entering 2, comparing 3]
    else [entering 2]

/-- Begin an inline table. -/
def ofTable : List Demand :=
  [calling 1, entering 2]

/-- Look at a value that is no string, no array and no table. -/
def ofScalar (text : Text) : List Demand :=
  if text = [] then [entering 1, comparing 2] else [entering 1, calling 2]

/-- Take apart a number. -/
def ofNumeral : List Demand :=
  [calling 3]

/-- Take apart a date or a time.  An offset in minutes is looked for among those
that are known. -/
def ofMoment : Moment → List Demand
  | .dateTime _ _ (some (.minutes _)) => [calling 3, comparing 4, comparing 5]
  | _ => [calling 3]

/-! ## Strings -/

/-- Replace a code point in hexadecimal, the digits of which are at the front.  It is
held against the bounds of the code space. -/
def ofHexChar (count : Nat) (text : Text) : List Demand :=
  let digits := text.take count
  if digits.length < count then entering 2 :: (ofPlace text).map (behind 2)
  else if digits.any fun c => (hexDigit? c).isNone then
    [entering 2, calling 3] ++ (ofPlace text).map (behind 2)
  else if (hexCharAt? count text).isNone then
    [entering 2, calling 3, comparing 4] ++ (ofPlace (text.drop count)).map (behind 2)
  else [entering 2, calling 3, comparing 4]

/-- Replace what stands behind a backslash. -/
def ofEscape : Text → List Demand
  | 'u' :: rest => ofHexChar 4 rest
  | 'U' :: rest => ofHexChar 8 rest
  | c :: rest =>
    if (shortEscape? c).isSome then [entering 1]
    else entering 1 :: (ofPlace rest).map (behind 1)
  | [] => entering 1 :: (ofPlace []).map (behind 1)

/-- What stands behind a backslash can be replaced. -/
def isEscape : Text → Bool
  | 'u' :: rest => (hexCharAt? 4 rest).isSome
  | 'U' :: rest => (hexCharAt? 8 rest).isSome
  | c :: _ => (shortEscape? c).isSome
  | [] => false

/-- Read a basic string on one line, from behind its opening quote. -/
def ofBasicString : Text → List Demand
  | [] => ofPlace []
  | '"' :: _ => []
  | '\\' :: c :: rest =>
    ofEscape (c :: rest) ++ if isEscape (c :: rest) then ofBasicString rest else []
  | ['\\'] => ofEscape []
  | c :: rest => if isLegal c then ofBasicString rest else quoting 1 :: ofPlace (c :: rest)

/-- Read a basic string of several lines, from behind its opening quotes.  Every
quote is looked at for being the first of the closing ones.  A backslash may stand
before a line end, with blanks in between. -/
def ofLongBasicString : Text → List Demand
  | [] => ofPlace []
  | '"' :: '"' :: '"' :: _ => [calling 1]
  | '"' :: rest => calling 1 :: ofLongBasicString rest
  | '\\' :: c :: rest =>
    if c = '\n' then entering 3 :: ofLongBasicString rest
    else if isSpace c then
      entering 3 ::
        match skipSpaces rest with
        | [] => ofPlace []
        | d :: more =>
          if d = '\n' then ofLongBasicString rest else (ofPlace (d :: more)).map (behind 2)
    else
      (ofEscape (c :: rest)).map (behind 1) ++
        if isEscape (c :: rest) then ofLongBasicString rest else []
  | ['\\'] => (ofEscape []).map (behind 1)
  | c :: rest =>
    if isLegalOrLineEnd c then ofLongBasicString rest else quoting 1 :: ofPlace (c :: rest)

/-- Read a literal string, from behind its opening quotes.  The closing ones are
searched for in the whole text before the characters in between are checked. -/
def ofLiteralString (closing : Text) (isWellFormed : Bool) (text : Text) : List Demand :=
  calling 1 ::
    if isWellFormed then []
    else ofPlace (if Text.contains closing text then text else [])

/-- Read a value that is a string. -/
def ofString : Text → List Demand
  | '"' :: '"' :: '"' :: rest =>
    [entering 1, calling 2, calling 3] ++ (ofLongBasicString rest).map (behind 3)
  | '"' :: rest => [entering 1, calling 2, entering 3] ++ (ofBasicString rest).map (behind 3)
  | '\'' :: '\'' :: '\'' :: rest =>
    let text := dropFirstLineEnd rest
    let closing := List.replicate 3 '\''
    [entering 1, calling 2, calling 3] ++
      (ofLiteralString closing (longLiteralString? text).isSome text).map (behind 3)
  | '\'' :: rest =>
    [entering 1, calling 2, entering 3] ++
      (ofLiteralString ['\''] (literalString? rest).isSome rest).map (behind 3)
  | _ => []

/-! ## Keys -/

/-- Read a part of a key.  A character that is missing is still compared with the
quotes. -/
def ofKeyPart : Text → List Demand
  | '"' :: rest => entering 4 :: (ofBasicString rest).map (behind 4)
  | '\'' :: rest =>
    entering 4 :: (ofLiteralString ['\''] (literalString? rest).isSome rest).map (behind 4)
  | [] => [entering 2, comparing 3] ++ (ofPlace []).map (behind 2)
  | c :: rest =>
    if isBare c then [entering 3] else entering 2 :: (ofPlace (c :: rest)).map (behind 2)

end Demand

end DirectiveReview.Toml
