/-
# Numerals

Conversion between whole numbers and their decimal numerals.  Both directions
are limited to numerals of `maxDigits` digits, leading zeros included, because
the cost of a conversion grows faster than the numeral's length.  Numbers
themselves are not limited: counting can pass the largest number that can still
be written.
-/

import DirectiveReview.Text.Digits

namespace DirectiveReview.Text

/-- The most digits a numeral may have to be converted in either direction. -/
def maxDigits : Nat := 4300

/-- The number that a row of decimal digits of any script stands for, unless the
row is too long to be converted. -/
def readNumeral? (digits : Text) : Option Nat :=
  if digits.length ≤ maxDigits then some (decimalValue digits) else none

/-- The decimal numeral of a natural number. -/
def natural (n : Nat) : Text :=
  Nat.toDigits 10 n

/-- The decimal numeral of an integer. -/
def integer : Int → Text
  | .ofNat n => natural n
  | .negSucc n => '-' :: natural (n + 1)

/-- An integer whose numeral is short enough to be written. -/
def isWritable (i : Int) : Bool :=
  decide (i.natAbs < Nat.pow 10 maxDigits)

/-- The numeral of a natural number, with zeros in front up to a given width. -/
def padded (width n : Nat) : Text :=
  let digits := natural n
  List.replicate (width - digits.length) '0' ++ digits

/-- The hexadecimal numeral of a number in small letters, with zeros in front up
to a given width. -/
def hexPadded (width n : Nat) : Text :=
  let digits := Nat.toDigits 16 n
  List.replicate (width - digits.length) '0' ++ digits

end DirectiveReview.Text
