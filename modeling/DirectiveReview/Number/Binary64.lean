/-
# Binary64 numbers

The double-precision numbers of IEEE 754, as exact values.  A finite number is a
significand times a power of two and keeps the sign of its zero, so every
question about it is a question about integers.  Rounding a quotient of natural
numbers goes to the nearest number and, from halfway, to the even significand;
beyond the largest finite number it goes to infinity.
-/

namespace DirectiveReview

/-- A double-precision number.  In a finite one the significand is below `2 ^ 53`
and the exponent is at least `-1074`; it is `-1074` if the significand is below
`2 ^ 52`, so each number has one form. -/
inductive Binary64 where
  | nan
  | infinite (negative : Bool)
  | finite (negative : Bool) (significand : Nat) (exponent : Int)
  deriving DecidableEq, Repr

namespace Binary64

/-- The exponent of the smallest positive number. -/
def minExponent : Int := -1074

/-- The exponent of the largest finite number. -/
def maxExponent : Int := 971

/-- Zero with a sign. -/
def zero (negative : Bool) : Binary64 :=
  .finite negative 0 minExponent

/-- The natural number nearest to a quotient, the even one from halfway. -/
def roundQuotient (num den : Nat) : Nat :=
  let below := num / den
  let twice := 2 * (num % den)
  if twice < den || (twice == den && below % 2 == 0) then below else below + 1

/-- The nearest number with the exponent given, or with the next one when the
significand rounds up to `2 ^ 53`. -/
def roundAt (negative : Bool) (num den : Nat) (exponent : Int) : Binary64 :=
  let significand :=
    roundQuotient (num * Nat.pow 2 (-exponent).toNat) (den * Nat.pow 2 exponent.toNat)
  let (significand, exponent) :=
    if significand = Nat.pow 2 53 then (Nat.pow 2 52, exponent + 1) else (significand, exponent)
  if exponent > maxExponent then .infinite negative else .finite negative significand exponent

/-- The exponent at which a positive quotient has a significand of 53 bits. -/
def fullExponent (num den : Nat) : Int :=
  let guess : Int := (num.log2 : Int) - den.log2 - 52
  if num * Nat.pow 2 (-guess).toNat < den * Nat.pow 2 guess.toNat * Nat.pow 2 52 then guess - 1
  else guess

/-- The number nearest to a quotient. -/
def ofQuotient (negative : Bool) (num den : Nat) : Binary64 :=
  if num = 0 then zero negative
  else roundAt negative num den (max minExponent (fullExponent num den))

/-- The number nearest to an integer, unless that is beyond the largest finite
number. -/
def ofInt? (i : Int) : Option Binary64 :=
  match ofQuotient (i < 0) i.natAbs 1 with
  | .finite negative significand exponent => some (.finite negative significand exponent)
  | _ => none

/-- A finite number as a multiple of the smallest positive one. -/
def units (negative : Bool) (significand : Nat) (exponent : Int) : Int :=
  let size : Int := significand * Nat.pow 2 (exponent - minExponent).toNat
  if negative then -size else size

/-- The order of two numbers.  A number that is not a number has no place in it,
and the two zeros are equal. -/
def compare? : Binary64 → Binary64 → Option Ordering
  | .nan, _ => none
  | _, .nan => none
  | .infinite x, .infinite y => some (compare y.toNat x.toNat)
  | .infinite x, .finite _ _ _ => some (if x then .lt else .gt)
  | .finite _ _ _, .infinite y => some (if y then .gt else .lt)
  | .finite x m e, .finite y n f => some (compare (units x m e) (units y n f))

/-- Less than or equal.  It fails whenever either side is not a number. -/
def le (x y : Binary64) : Bool :=
  match compare? x y with
  | some .lt => true
  | some .eq => true
  | _ => false

/-- Less than.  It fails whenever either side is not a number. -/
def lt (x y : Binary64) : Bool :=
  compare? x y == some .lt

end Binary64

end DirectiveReview
