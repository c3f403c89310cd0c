/-
# Decimal numerals of binary64 numbers

Reading takes a decimal numeral to the nearest binary64 number.  It is generous
about spelling: the digits of every script count, letters may be capital ones, and
white space around a numeral and single underscores within it are passed over.
Writing takes a number to the shortest decimal that reads back as it, and among
the shortest to the one nearest to it.

Both sides go through `Decimal`, a row of digits with a power of ten, so the two
questions, which digits and how they are laid out, stay apart.  The layout is
`Decimal.text`: positional notation for a leading digit from `10 ^ -4` up to
`10 ^ 15`, and scientific notation outside.
-/

import DirectiveReview.Number.Binary64
import DirectiveReview.Text.Blank
import DirectiveReview.Text.Numeral

namespace DirectiveReview

/-- A decimal number: a row of digits, read as a natural number, times a power of
ten. -/
structure Decimal where
  negative : Bool
  digits : Nat
  exponent : Int
  deriving DecidableEq, Repr

namespace Decimal

/-- The nearest binary64 number.  Powers of ten that are certain to leave the
range of finite numbers are not computed. -/
def toBinary64 (d : Decimal) : Binary64 :=
  let leading : Int := (Text.natural d.digits).length + d.exponent
  if d.digits = 0 then .zero d.negative
  else if leading > 400 then .infinite d.negative
  else if leading < -400 then .zero d.negative
  else
    .ofQuotient d.negative (d.digits * Nat.pow 10 d.exponent.toNat)
      (Nat.pow 10 (-d.exponent).toNat)

/-- A sign at the front of a numeral, if there is one. -/
def takeSign : Text → Bool × Text
  | '-' :: rest => (true, rest)
  | '+' :: rest => (false, rest)
  | rest => (false, rest)

/-- The number that a row of digits stands for. -/
def digitsValue (digits : Text) : Nat :=
  digits.foldl (fun value c => 10 * value + (c.toNat - '0'.toNat)) 0

/-- The exponent at the end of a numeral: a letter e, a sign if wanted, and
digits.  Without the letter it is zero. -/
def readExponent? : Text → Option Int
  | [] => some 0
  | c :: rest =>
    let (negative, digits) := takeSign rest
    if (c = 'e' ∨ c = 'E') ∧ digits ≠ [] ∧ digits.all Char.isDigit then
      let size : Int := digitsValue digits
      some (if negative then -size else size)
    else none

/-- Read a numeral: a sign if wanted, digits with at most one point among or
beside them, and an exponent if wanted. -/
def read? (text : Text) : Option Decimal := do
  let (negative, rest) := takeSign text
  let whole := rest.takeWhile Char.isDigit
  let rest := rest.dropWhile Char.isDigit
  let (fraction, rest) :=
    match rest with
    | '.' :: more => (more.takeWhile Char.isDigit, more.dropWhile Char.isDigit)
    | more => ([], more)
  if whole = [] ∧ fraction = [] then none
  let exponent ← readExponent? rest
  return ⟨negative, digitsValue (whole ++ fraction), exponent - fraction.length⟩

/-- A numeral with every digit, of whatever script, written as the one of the same
value between 0 and 9. -/
def plainDigits (numeral : Text) : Text :=
  numeral.map fun c =>
    match Text.digitValue? c with
    | some value => value.digitChar
    | none => c

/-- A numeral without its underscores, each of which has to stand between two
digits. -/
def withoutUnderscores? : (behindDigit : Bool) → Text → Option Text
  | _, [] => some []
  | behindDigit, '_' :: c :: rest =>
    if behindDigit && c.isDigit then (withoutUnderscores? true rest).map (c :: ·) else none
  | _, c :: rest =>
    if c = '_' then none else (withoutUnderscores? c.isDigit rest).map (c :: ·)

/-- The power of ten of the leading digit of a positive quotient. -/
def leadingPower (num den : Nat) : Int :=
  let guess : Int := (Text.natural num).length - (Text.natural den).length
  if den * Nat.pow 10 guess.toNat ≤ num * Nat.pow 10 (-guess).toNat then guess else guess - 1

/-- The decimal with a given last place that reads back as `x` and is nearest to
the quotient `x` is.  Only the two neighbours of the quotient on that place can
be nearest; of two equally near ones the even one is taken. -/
def atPlace? (x : Binary64) (negative : Bool) (num den : Nat) (place : Int) : Option Decimal :=
  let num := num * Nat.pow 10 (-place).toNat
  let den := den * Nat.pow 10 place.toNat
  let below : Decimal := ⟨negative, num / den, place⟩
  let above : Decimal := ⟨negative, num / den + 1, place⟩
  if below.toBinary64 = x then
    if above.toBinary64 = x ∧ Binary64.roundQuotient num den ≠ num / den then some above
    else some below
  else if above.toBinary64 = x then some above
  else none

/-- The shortest decimal that reads back as a finite number, the nearest of
those.  Seventeen digits always suffice. -/
def shortest (negative : Bool) (significand : Nat) (exponent : Int) : Decimal :=
  if significand = 0 then ⟨negative, 0, 0⟩
  else
    let x : Binary64 := .finite negative significand exponent
    let num := significand * Nat.pow 2 exponent.toNat
    let den := Nat.pow 2 (-exponent).toNat
    let leading := leadingPower num den
    let found := (List.range 17).findSome? fun (n : Nat) => atPlace? x negative num den (leading - n)
    found.getD ⟨negative, significand, exponent⟩

/-- The scientific exponent, with a sign and at least two digits. -/
def exponentText (power : Int) : Text :=
  'e' :: (if power < 0 then '-' else '+') :: Text.padded 2 power.natAbs

/-- Digits with a point behind the first `places` of them, filled up with zeros
so that at least one digit stands on either side of the point. -/
def positional (digits : Text) (places : Int) : Text :=
  let digits := List.replicate (1 - places).toNat '0' ++ digits
  let places := (max 1 places).toNat
  let digits := digits ++ List.replicate (places + 1 - digits.length) '0'
  digits.take places ++ '.' :: digits.drop places

/-- Write a decimal. -/
def text (d : Decimal) : Text :=
  let digits := Text.natural d.digits
  let places : Int := digits.length + d.exponent
  let digits := if d.digits = 0 then digits else Text.dropTrailing (· == '0') digits
  let sign : Text := if d.negative then ['-'] else []
  if d.digits = 0 ∨ (-4 < places ∧ places ≤ 16) then sign ++ positional digits places
  else
    let fraction := digits.drop 1
    sign ++ digits.take 1 ++ (if fraction = [] then [] else '.' :: fraction) ++
      exponentText (places - 1)

end Decimal

namespace Binary64

/-- The words for the numbers that have no decimal. -/
structure SpecialNames where
  nan : Text
  infinity : Text
  deriving DecidableEq, Repr

/-- The words used in running text. -/
def plainNames : SpecialNames :=
  ⟨"nan".toList, "inf".toList⟩

/-- Write a number. -/
def text (names : SpecialNames) : Binary64 → Text
  | .nan => names.nan
  | .infinite negative => (if negative then ['-'] else []) ++ names.infinity
  | .finite negative significand exponent => (Decimal.shortest negative significand exponent).text

/-- The words for infinity that are read. -/
def infinityWords : List Text :=
  [plainNames.infinity, "infinity".toList]

/-- Read a number: a decimal numeral, or a word for a number that has none, with a
sign if wanted. -/
def read? (text : Text) : Option Binary64 := do
  let numeral := Decimal.plainDigits (Text.trimWhite text)
  let numeral ← Decimal.withoutUnderscores? false numeral
  let (negative, word) := Decimal.takeSign (Text.lowerAscii numeral)
  if word = plainNames.nan then return .nan
  else if infinityWords.contains word then return .infinite negative
  else (Decimal.read? numeral).map Decimal.toBinary64

end Binary64

end DirectiveReview
