/-
# TOML lexemes

The smallest parts of a document: blanks and comments, strings, keys, numbers,
dates and times.  Each reader takes the text from where its lexeme starts and
gives what it read together with the text behind it, or nothing when no such
lexeme stands there.  All of them recurse on the text.
-/

import DirectiveReview.Number.Decimal
import DirectiveReview.Toml.Value

namespace DirectiveReview.Toml

/-! ## Blanks and comments -/

/-- The blanks within a line. -/
def isSpace (c : Char) : Bool :=
  c == ' ' || c == '\t'

/-- A character that may stand in a comment or in a string on one line: anything
but a control other than the tab. -/
def isLegal (c : Char) : Bool :=
  c == '\t' || (0x20 ≤ c.toNat && c.toNat != 0x7f)

/-- A character that may stand in a string of several lines. -/
def isLegalOrLineEnd (c : Char) : Bool :=
  isLegal c || c == '\n'

/-- Write every pair of carriage return and line feed as a line feed. -/
def joinLineEnds : Text → Text
  | [] => []
  | '\r' :: '\n' :: rest => '\n' :: joinLineEnds rest
  | c :: rest => c :: joinLineEnds rest

/-- Drop the blanks at the front. -/
def skipSpaces (text : Text) : Text :=
  text.dropWhile isSpace

/-- Skip the rest of a line, from inside a comment; the line end stays. -/
def skipComment? : Text → Option Text
  | [] => some []
  | c :: rest => if c = '\n' then some (c :: rest) else if isLegal c then skipComment? rest else none

/-- Skip blanks, line ends and comments. -/
def skipGap? (inComment : Bool) : Text → Option Text
  | [] => some []
  | c :: rest =>
    if c = '\n' then skipGap? false rest
    else if inComment then if isLegal c then skipGap? true rest else none
    else if isSpace c then skipGap? false rest
    else if c = '#' then skipGap? true rest
    else some (c :: rest)

/-! ## Strings -/

/-- Put a character in front of the string that was read. -/
def onto (c : Char) (read : Option (Text × Text)) : Option (Text × Text) :=
  read.map fun (string, rest) => (c :: string, rest)

/-- The character that a backslash and one letter stand for. -/
def shortEscape? : Char → Option Char
  | 'b' => some '\x08'
  | 't' => some '\t'
  | 'n' => some '\n'
  | 'f' => some '\x0c'
  | 'r' => some '\r'
  | '"' => some '"'
  | '\\' => some '\\'
  | _ => none

/-- The value of a hexadecimal digit. -/
def hexDigit? (c : Char) : Option Nat :=
  if c.isDigit then some (c.toNat - '0'.toNat)
  else if 'a' ≤ c ∧ c ≤ 'f' then some (c.toNat - 'a'.toNat + 10)
  else if 'A' ≤ c ∧ c ≤ 'F' then some (c.toNat - 'A'.toNat + 10)
  else none

/-- The character with a code point given in hexadecimal. -/
def hexChar? (digits : List Char) : Option Char := do
  let values ← digits.mapM hexDigit?
  let code := values.foldl (fun code digit => 16 * code + digit) 0
  if code.isValidChar then some (Char.ofNat code) else none

/-- The character with a code point given by so many hexadecimal digits at the front
of a text. -/
def hexCharAt? (count : Nat) (text : Text) : Option Char :=
  let digits := text.take count
  if digits.length = count then hexChar? digits else none

/-- A basic string on one line, from behind its opening quote. -/
def basicString? : Text → Option (Text × Text)
  | [] => none
  | '"' :: rest => some ([], rest)
  | '\\' :: 'u' :: a :: b :: c :: d :: rest =>
    match hexChar? [a, b, c, d] with
    | some char => onto char (basicString? rest)
    | none => none
  | '\\' :: 'U' :: a :: b :: c :: d :: e :: f :: g :: h :: rest =>
    match hexChar? [a, b, c, d, e, f, g, h] with
    | some char => onto char (basicString? rest)
    | none => none
  | '\\' :: c :: rest =>
    match shortEscape? c with
    | some char => onto char (basicString? rest)
    | none => none
  | c :: rest => if c ≠ '\\' ∧ isLegal c then onto c (basicString? rest) else none

/-- Where the reader of a basic string of several lines stands. -/
inductive Continuation where
  /-- In the text of the string. -/
  | inText
  /-- Behind a backslash and blanks, with the line end still to come. -/
  | beforeLineEnd
  /-- Behind a backslash and a line end, where blanks and line ends are dropped. -/
  | afterLineEnd
  deriving DecidableEq, Repr

/-- A basic string of several lines, up to its three closing quotes. -/
def longBasicString? : Continuation → Text → Option (Text × Text)
  | _, [] => none
  | .beforeLineEnd, c :: rest =>
    if c = '\n' then longBasicString? .afterLineEnd rest
    else if isSpace c then longBasicString? .beforeLineEnd rest
    else none
  | .afterLineEnd, ' ' :: rest => longBasicString? .afterLineEnd rest
  | .afterLineEnd, '\t' :: rest => longBasicString? .afterLineEnd rest
  | .afterLineEnd, '\n' :: rest => longBasicString? .afterLineEnd rest
  | _, '"' :: '"' :: '"' :: rest => some ([], rest)
  | _, '\\' :: 'u' :: a :: b :: c :: d :: rest =>
    match hexChar? [a, b, c, d] with
    | some char => onto char (longBasicString? .inText rest)
    | none => none
  | _, '\\' :: 'U' :: a :: b :: c :: d :: e :: f :: g :: h :: rest =>
    match hexChar? [a, b, c, d, e, f, g, h] with
    | some char => onto char (longBasicString? .inText rest)
    | none => none
  | _, '\\' :: c :: rest =>
    if c = '\n' then longBasicString? .afterLineEnd rest
    else if isSpace c then longBasicString? .beforeLineEnd rest
    else
      match shortEscape? c with
      | some char => onto char (longBasicString? .inText rest)
      | none => none
  | _, c :: rest =>
    if c ≠ '\\' ∧ isLegalOrLineEnd c then onto c (longBasicString? .inText rest) else none

/-- A literal string on one line, from behind its opening quote. -/
def literalString? : Text → Option (Text × Text)
  | [] => none
  | '\'' :: rest => some ([], rest)
  | c :: rest => if isLegal c then onto c (literalString? rest) else none

/-- A literal string of several lines, up to its three closing quotes. -/
def longLiteralString? : Text → Option (Text × Text)
  | [] => none
  | '\'' :: '\'' :: '\'' :: rest => some ([], rest)
  | c :: rest => if isLegalOrLineEnd c then onto c (longLiteralString? rest) else none

/-- A line end directly behind the opening quotes is not part of a string. -/
def dropFirstLineEnd : Text → Text
  | '\n' :: rest => rest
  | rest => rest

/-- Up to two quotes directly behind the closing ones belong to the string. -/
def takeClosingQuotes (quote : Char) (string rest : Text) : Text × Text :=
  let extra := (rest.take 2).takeWhile (· == quote)
  (string ++ extra, rest.drop extra.length)

/-- A string of any kind. -/
def string? : Text → Option (Text × Text)
  | '"' :: '"' :: '"' :: rest =>
    (longBasicString? .inText (dropFirstLineEnd rest)).map fun (s, rest) =>
      takeClosingQuotes '"' s rest
  | '"' :: rest => basicString? rest
  | '\'' :: '\'' :: '\'' :: rest =>
    (longLiteralString? (dropFirstLineEnd rest)).map fun (s, rest) =>
      takeClosingQuotes '\'' s rest
  | '\'' :: rest => literalString? rest
  | _ => none

/-! ## Keys -/

/-- A character that needs no quotes in a key. -/
def isBare (c : Char) : Bool :=
  c.isAlphanum || c == '-' || c == '_'

/-- One part of a key: bare, or a string on one line. -/
def keyPart? : Text → Option (Text × Text)
  | '"' :: rest => basicString? rest
  | '\'' :: rest => literalString? rest
  | text =>
    match text.takeWhile isBare with
    | [] => none
    | bare => some (bare, text.dropWhile isBare)

/-! ## Numbers -/

/-- A number as written. -/
inductive Numeral where
  /-- Digits in base ten, with a sign. -/
  | decimal (negative : Bool) (digits : Text)
  /-- A natural number in another base. -/
  | based (value : Nat)
  /-- A number with a fraction or an exponent, as it is written. -/
  | fractional (numeral : Text)
  deriving DecidableEq, Repr

/-- Further digits, each perhaps behind a single underscore. -/
def moreDigits (isDigit : Char → Bool) : Text → Text × Text
  | [] => ([], [])
  | '_' :: c :: rest =>
    if isDigit c then
      let (digits, rest) := moreDigits isDigit rest
      (c :: digits, rest)
    else ([], '_' :: c :: rest)
  | c :: rest =>
    if isDigit c then
      let (digits, rest) := moreDigits isDigit rest
      (c :: digits, rest)
    else ([], c :: rest)

/-- At least one digit; underscores are dropped. -/
def digits? (isDigit : Char → Bool) : Text → Option (Text × Text)
  | [] => none
  | c :: rest =>
    if isDigit c then
      let (digits, rest) := moreDigits isDigit rest
      some (c :: digits, rest)
    else none

/-- A natural number in a base of at most sixteen, behind its mark. -/
def based? (base : Nat) (text : Text) : Option (Numeral × Text) := do
  let isDigit (c : Char) : Bool := (hexDigit? c).any (· < base)
  let (digits, rest) ← digits? isDigit text
  let value := digits.foldl (fun value c => base * value + (hexDigit? c).getD 0) 0
  return (.based value, rest)

/-- The digits before the point: zero alone, or digits not starting with zero. -/
def wholePart? : Text → Option (Text × Text)
  | '0' :: rest => some (['0'], rest)
  | text => digits? Char.isDigit text

/-- What stands behind a fraction, which is a point with digits behind it.  Without
one it is the whole text. -/
def behindFraction : Text → Text
  | '.' :: rest => ((digits? Char.isDigit rest).map Prod.snd).getD ('.' :: rest)
  | rest => rest

/-- What stands behind an exponent.  Without one it is the whole text. -/
def behindExponent : Text → Text
  | c :: rest =>
    if c = 'e' ∨ c = 'E' then
      ((digits? Char.isDigit (Decimal.takeSign rest).2).map Prod.snd).getD (c :: rest)
    else c :: rest
  | [] => []

/-- A number in base ten. -/
def decimal? (text : Text) : Option (Numeral × Text) := do
  let (negative, rest) := Decimal.takeSign text
  let (whole, rest) ← wholePart? rest
  let behind := behindExponent (behindFraction rest)
  if behind.length = rest.length then return (.decimal negative whole, rest)
  else return (.fractional (text.take (text.length - behind.length)), behind)

/-- A number.  A zero that is no mark of a base is read as the number zero. -/
def numeral? (text : Text) : Option (Numeral × Text) :=
  let other :=
    match text with
    | '0' :: 'x' :: rest => based? 16 rest
    | '0' :: 'o' :: rest => based? 8 rest
    | '0' :: 'b' :: rest => based? 2 rest
    | _ => none
  other.or (decimal? text)

/-- One of the words for the numbers that have no decimal. -/
def specialNumber? (text : Text) : Option (Binary64 × Text) :=
  let (negative, rest) := Decimal.takeSign text
  match rest with
  | 'i' :: 'n' :: 'f' :: rest => some (.infinite negative, rest)
  | 'n' :: 'a' :: 'n' :: rest => some (.nan, rest)
  | _ => none

/-! ## Dates and times -/

/-- A number of two digits within bounds. -/
def twoDigits? (least most : Nat) : Text → Option (Nat × Text)
  | a :: b :: rest =>
    let value := Decimal.digitsValue [a, b]
    if a.isDigit ∧ b.isDigit ∧ least ≤ value ∧ value ≤ most then some (value, rest) else none
  | _ => none

/-- A given character. -/
def mark? (c : Char) : Text → Option Text
  | d :: rest => if c = d then some rest else none
  | [] => none

/-- A year, a month and a day, each within its bounds. -/
def date? (text : Text) : Option (Date × Text) := do
  let (century, rest) ← twoDigits? 0 99 text
  let (year, rest) ← twoDigits? 0 99 rest
  let (month, rest) ← twoDigits? 1 12 (← mark? '-' rest)
  let (day, rest) ← twoDigits? 1 31 (← mark? '-' rest)
  return (⟨100 * century + year, month, day⟩, rest)

/-- A fraction of a second in microseconds; further digits are dropped. -/
def microseconds (text : Text) : Nat × Text :=
  match text with
  | '.' :: rest =>
    match rest.takeWhile Char.isDigit with
    | [] => (0, text)
    | digits =>
      let six := digits.take 6
      (Decimal.digitsValue six * Nat.pow 10 (6 - six.length), rest.dropWhile Char.isDigit)
  | _ => (0, text)

/-- A time of day. -/
def time? (text : Text) : Option (Time × Text) := do
  let (hour, rest) ← twoDigits? 0 23 text
  let (minute, rest) ← twoDigits? 0 59 (← mark? ':' rest)
  let (second, rest) ← twoDigits? 0 59 (← mark? ':' rest)
  let (microsecond, rest) := microseconds rest
  return (⟨hour, minute, second, microsecond⟩, rest)

/-- The distance from universal time in minutes, with its sign. -/
def shift? (text : Text) : Option (Int × Text) := do
  let (hour, rest) ← twoDigits? 0 23 text
  let (minute, rest) ← twoDigits? 0 59 (← mark? ':' rest)
  return (60 * hour + minute, rest)

/-- The offset from universal time, if there is one. -/
def offset : Text → Option Offset × Text
  | [] => (none, [])
  | c :: rest =>
    let shifted (sign : Int) : Option Offset × Text :=
      match shift? rest with
      | some (minutes, behind) => (some (.minutes (sign * minutes)), behind)
      | none => (none, c :: rest)
    if c = 'Z' ∨ c = 'z' then (some .universal, rest)
    else if c = '+' then shifted 1
    else if c = '-' then shifted (-1)
    else (none, c :: rest)

/-- The number of days in a month. -/
def daysIn (year month : Nat) : Nat :=
  if month = 2 then
    if year % 4 = 0 ∧ (year % 100 ≠ 0 ∨ year % 400 = 0) then 29 else 28
  else if month = 4 ∨ month = 6 ∨ month = 9 ∨ month = 11 then 30
  else 31

/-- The calendar has this date.  Years count from one. -/
def Date.exists (date : Date) : Bool :=
  1 ≤ date.year && date.day ≤ daysIn date.year date.month

/-- The time behind a date, with its offset, where a letter T or a blank is
followed by one. -/
def timeBehindDate? : Text → Option ((Time × Option Offset) × Text)
  | c :: rest =>
    if c = 'T' ∨ c = 't' ∨ c = ' ' then
      (time? rest).map fun (time, rest) =>
        let (offset, rest) := offset rest
        ((time, offset), rest)
    else none
  | [] => none

/-- A date, a time, or a date with a time. -/
def moment? (text : Text) : Option (Moment × Text) :=
  match date? text with
  | some (date, rest) =>
    match timeBehindDate? rest with
    | some ((time, offset), rest) => some (.dateTime date time offset, rest)
    | none => some (.date date, rest)
  | none => (time? text).map fun (time, rest) => (.time time, rest)

/-- The date of a moment, if it has one, is in the calendar. -/
def Moment.exists : Moment → Bool
  | .date day => day.exists
  | .dateTime day _ _ => day.exists
  | .time _ => true

end DirectiveReview.Toml
