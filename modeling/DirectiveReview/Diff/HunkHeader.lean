/-
# Hunk headers

A hunk of a unified diff is headed by a line such as `@@ -12,3 +14,5 @@ heading`:
where the hunk starts in the old and in the new file and how many lines of each
it covers.  A header is read in two steps.  `HunkHeader.read?` finds its parts and
keeps the four numbers as rows of digits; the numbers are converted only where
they are used, because a numeral can be too long to be converted while the
header as such is well formed.
-/

import DirectiveReview.Text.Numeral

namespace DirectiveReview

/-- What can be wrong with a diff. -/
inductive DiffError where
  /-- A line that starts like a hunk header but does not have its form. -/
  | malformedHeader (line : Text)
  /-- A number of a hunk header has too many digits to be converted. -/
  | numberTooLong
  deriving DecidableEq, Repr

/-- What is said about a diff that cannot be read. -/
def DiffError.message : DiffError → Text
  | .malformedHeader line => "Invalid hunk header: ".toList ++ line
  | .numberTooLong => "a number of a hunk header has too many digits".toList

/-- The parts of a hunk header.  The numbers are rows of decimal digits of any
script; a line count that is left out stands for one. -/
structure HunkHeader where
  /-- First line of the hunk in the old file. -/
  oldStart : Text
  /-- Number of lines of the old file. -/
  oldCount : Option Text
  /-- First line of the hunk in the new file. -/
  newStart : Text
  /-- Number of lines of the new file. -/
  newCount : Option Text
  /-- All that follows the closing marker. -/
  heading : Text
  deriving DecidableEq, Repr

namespace HunkHeader

/-- A line that starts with two at signs opens a hunk, well formed or not. -/
def opens (line : Text) : Bool :=
  "@@".toList.isPrefixOf line

/-- A non-empty row of digits at the front of a text, and what follows it. -/
def takeDigits? (text : Text) : Option (Text × Text) :=
  match text.takeWhile Text.isDecimal with
  | [] => none
  | digits => some (digits, text.dropWhile Text.isDecimal)

/-- A line count behind its comma, if there is a comma, and what follows it.  A
comma without digits is no count. -/
def takeCount? : Text → Option (Option Text × Text)
  | ',' :: rest => (takeDigits? rest).map fun (digits, more) => (some digits, more)
  | rest => some (none, rest)

/-- The parts of a hunk header line. -/
def read? (line : Text) : Option HunkHeader := do
  let rest ← Text.behind? "@@ -".toList line
  let (oldStart, rest) ← takeDigits? rest
  let (oldCount, rest) ← takeCount? rest
  let rest ← Text.behind? " +".toList rest
  let (newStart, rest) ← takeDigits? rest
  let (newCount, rest) ← takeCount? rest
  let heading ← Text.behind? " @@".toList rest
  return { oldStart, oldCount, newStart, newCount, heading }

/-- A count with its comma; nothing for a count that is left out. -/
def countText : Option Text → Text
  | none => []
  | some digits => ',' :: digits

/-- The line that a header is written as. -/
def text (h : HunkHeader) : Text :=
  "@@ -".toList ++ h.oldStart ++ countText h.oldCount ++ " +".toList ++ h.newStart ++
    countText h.newCount ++ " @@".toList ++ h.heading

/-- The number that a row of digits stands for. -/
def number (digits : Text) : Except DiffError Nat :=
  match Text.readNumeral? digits with
  | some n => .ok n
  | none => .error .numberTooLong

/-- The number of lines that a count stands for. -/
def countNumber : Option Text → Except DiffError Nat
  | none => .ok 1
  | some digits => number digits

/-- The line of the new file at which the hunk headed by a line starts. -/
def newStartOf (line : Text) : Except DiffError Nat :=
  match read? line with
  | none => .error (.malformedHeader line)
  | some header => number header.newStart

/-- How many lines of the old and of the new file the hunk headed by a line
covers.  A malformed header covers none; it is refused only when the hunk is
read. -/
def countsOf (line : Text) : Except DiffError (Nat × Nat) :=
  match read? line with
  | none => .ok (0, 0)
  | some header => do
    let old ← countNumber header.oldCount
    let new ← countNumber header.newCount
    return (old, new)

end HunkHeader

end DirectiveReview
