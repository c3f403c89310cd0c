/-
# Integers as binary64 numbers

An integer that is not zero is rounded to a number with a full significand and the same
sign, so rounding keeps it on its side of zero.  There is no number for it exactly if it is
at least halfway from the largest finite number to the next power of two: a number halfway
would go to the even significand, which is the one beyond.

Of two numbers the one comes before the other or the other way round, unless one of them is
not a number.
-/

import DirectiveReview.Number.Binary64
import Mathlib.Data.Nat.Log

namespace DirectiveReview.Binary64

/-! ## Rounding a quotient -/

section Quotient

variable {num den : Nat}

theorem div_le_roundQuotient (num den : Nat) : num / den ≤ roundQuotient num den := by
  unfold roundQuotient
  dsimp only
  split <;> omega

theorem roundQuotient_le (num den : Nat) : roundQuotient num den ≤ num / den + 1 := by
  unfold roundQuotient
  dsimp only
  split <;> omega

/-- An odd number is reached from halfway below. -/
theorem roundQuotient_eq_succ_iff {below : Nat} (whole : num / den = below)
    (odd : below % 2 = 1) : roundQuotient num den = below + 1 ↔ den ≤ 2 * (num % den) := by
  subst whole
  unfold roundQuotient
  simp only [odd]
  split
  · next down => simp at down; omega
  · next up => simp at up; omega

/-- A quotient in the range of a full significand has one. -/
theorem roundQuotient_mem_of_full {size : Nat} (positive : 0 < den)
    (least : den * size ≤ num) (most : num < den * (2 * size)) :
    size ≤ roundQuotient num den ∧ roundQuotient num den ≤ 2 * size := by
  have low : size ≤ num / den := (Nat.le_div_iff_mul_le positive).mpr (by rwa [Nat.mul_comm])
  have high : num / den < 2 * size := (Nat.div_lt_iff_lt_mul positive).mpr (by rwa [Nat.mul_comm])
  have up := div_le_roundQuotient num den
  have down := roundQuotient_le num den
  omega

/-- The next power of two is reached from halfway below, its significand being even. -/
theorem roundQuotient_eq_top_iff {size : Nat} (positive : 0 < den) (most : num < den * (2 * size)) :
    roundQuotient num den = 2 * size ↔ 2 * (den * (2 * size)) ≤ 2 * num + den := by
  have high : num / den < 2 * size := (Nat.div_lt_iff_lt_mul positive).mpr (by rwa [Nat.mul_comm])
  have cut := Nat.div_add_mod num den
  have rest := Nat.mod_lt num positive
  by_cases next : num / den + 1 = 2 * size
  · have odd : num / den % 2 = 1 := by omega
    have reach : den * (2 * size) = den * (num / den) + den := by rw [← next, Nat.mul_succ]
    rw [← next, roundQuotient_eq_succ_iff rfl odd, next, reach]
    omega
  · have reach : den * (num / den + 2) ≤ den * (2 * size) := Nat.mul_le_mul_left den (by omega)
    have split : den * (num / den + 2) = den * (num / den) + 2 * den := by
      rw [Nat.mul_add, Nat.mul_comm den 2]
    have down := roundQuotient_le num den
    omega

end Quotient

/-! ## Rounding an integer -/

section Integer

variable {n : Nat}

theorem pow_add_two (a b : Nat) : Nat.pow 2 (a + b) = Nat.pow 2 a * Nat.pow 2 b :=
  Nat.pow_add 2 a b

theorem pow_two_pos (a : Nat) : 0 < Nat.pow 2 a :=
  Nat.pow_pos (by decide)

/-- The exponent at which a natural number has a full significand. -/
def integerExponent (n : Nat) : Int :=
  n.log2 - 52

/-- At its exponent a natural number lies between two powers of two that are next to each
other. -/
theorem scaled_bounds (positive : n ≠ 0) :
    Nat.pow 2 (integerExponent n).toNat * Nat.pow 2 52 ≤
        n * Nat.pow 2 (-integerExponent n).toNat ∧
      n * Nat.pow 2 (-integerExponent n).toNat <
        Nat.pow 2 (integerExponent n).toNat * (2 * Nat.pow 2 52) := by
  have low : Nat.pow 2 n.log2 ≤ n := Nat.log2_self_le positive
  have high : n < Nat.pow 2 (n.log2 + 1) := Nat.lt_log2_self
  have balance : n.log2 + (-integerExponent n).toNat = (integerExponent n).toNat + 52 := by
    unfold integerExponent
    omega
  constructor
  · calc Nat.pow 2 (integerExponent n).toNat * Nat.pow 2 52
        = Nat.pow 2 n.log2 * Nat.pow 2 (-integerExponent n).toNat := by
          rw [← pow_add_two, ← pow_add_two, balance]
      _ ≤ n * Nat.pow 2 (-integerExponent n).toNat := Nat.mul_le_mul_right _ low
  · calc n * Nat.pow 2 (-integerExponent n).toNat
        < Nat.pow 2 (n.log2 + 1) * Nat.pow 2 (-integerExponent n).toNat :=
          Nat.mul_lt_mul_of_pos_right high (pow_two_pos _)
      _ = Nat.pow 2 ((integerExponent n).toNat + 53) := by
          rw [← pow_add_two]
          congr 1
          omega
      _ = Nat.pow 2 (integerExponent n).toNat * (2 * Nat.pow 2 52) := by
          rw [pow_add_two]

theorem fullExponent_one (positive : n ≠ 0) : fullExponent n 1 = integerExponent n := by
  have bounds := (scaled_bounds positive).1
  have guess : (n.log2 : Int) - (1 : Nat).log2 - 52 = integerExponent n := by
    rw [show (1 : Nat).log2 = 0 from rfl]
    unfold integerExponent
    omega
  unfold fullExponent
  rw [guess]
  dsimp only
  rw [Nat.one_mul]
  exact if_neg (Nat.not_lt.mpr bounds)

/-- The significand of an integer, before it is seen whether it is rounded up to the next
power of two. -/
def integerSignificand (n : Nat) : Nat :=
  roundQuotient (n * Nat.pow 2 (-integerExponent n).toNat) (Nat.pow 2 (integerExponent n).toNat)

theorem integerSignificand_bounds (positive : n ≠ 0) :
    Nat.pow 2 52 ≤ integerSignificand n ∧ integerSignificand n ≤ 2 * Nat.pow 2 52 :=
  roundQuotient_mem_of_full (pow_two_pos _) (scaled_bounds positive).1 (scaled_bounds positive).2

theorem ofQuotient_one (negative : Bool) (positive : n ≠ 0) :
    ofQuotient negative n 1 =
      if integerSignificand n = Nat.pow 2 53 then
        if integerExponent n + 1 > maxExponent then .infinite negative
        else .finite negative (Nat.pow 2 52) (integerExponent n + 1)
      else if integerExponent n > maxExponent then .infinite negative
      else .finite negative (integerSignificand n) (integerExponent n) := by
  have least : max minExponent (integerExponent n) = integerExponent n := by
    unfold minExponent integerExponent
    omega
  rw [ofQuotient, if_neg positive, fullExponent_one positive, least, roundAt, Nat.one_mul,
    ← integerSignificand]
  by_cases top : integerSignificand n = Nat.pow 2 53
  · rw [if_pos top, if_pos top]
  · rw [if_neg top, if_neg top]

theorem ofInt?_of_ne_zero {i : Int} (nonzero : i ≠ 0) :
    ofInt? i =
      if integerSignificand i.natAbs = Nat.pow 2 53 then
        if integerExponent i.natAbs + 1 > maxExponent then none
        else some (.finite (i < 0) (Nat.pow 2 52) (integerExponent i.natAbs + 1))
      else if integerExponent i.natAbs > maxExponent then none
      else some (.finite (i < 0) (integerSignificand i.natAbs) (integerExponent i.natAbs)) := by
  rw [ofInt?, ofQuotient_one _ (Int.natAbs_ne_zero.mpr nonzero)]
  by_cases top : integerSignificand i.natAbs = Nat.pow 2 53
  · rw [if_pos top, if_pos top]
    by_cases beyond : integerExponent i.natAbs + 1 > maxExponent
    · rw [if_pos beyond, if_pos beyond]
    · rw [if_neg beyond, if_neg beyond]
  · rw [if_neg top, if_neg top]
    by_cases beyond : integerExponent i.natAbs > maxExponent
    · rw [if_pos beyond, if_pos beyond]
    · rw [if_neg beyond, if_neg beyond]

/-- An integer below `2 ^ (half + 54)` is rounded up to this power of two from `2 ^ half`
below it. -/
theorem integerSignificand_eq_top_iff {half : Nat} (last : n.log2 = half + 53) :
    integerSignificand n = Nat.pow 2 53 ↔ Nat.pow 2 (half + 54) ≤ n + Nat.pow 2 half := by
  have positive : n ≠ 0 := by
    rintro rfl
    rw [Nat.log2_zero] at last
    omega
  have up : (integerExponent n).toNat = half + 1 := by
    unfold integerExponent
    omega
  have down : (-integerExponent n).toNat = 0 := by
    unfold integerExponent
    omega
  have most := (scaled_bounds positive).2
  have unscaled : n * Nat.pow 2 0 = n := Nat.mul_one n
  rw [up, down, unscaled] at most
  have top := roundQuotient_eq_top_iff (pow_two_pos _) most
  have double : Nat.pow 2 (half + 1) = 2 * Nat.pow 2 half := by
    rw [Nat.add_comm, pow_add_two]
  have whole : Nat.pow 2 (half + 1) * (2 * Nat.pow 2 52) = Nat.pow 2 (half + 54) := by
    rw [show half + 54 = half + 1 + 53 from rfl, pow_add_two (half + 1)]
  rw [whole] at top
  unfold integerSignificand
  rw [up, down, unscaled, show Nat.pow 2 53 = 2 * Nat.pow 2 52 from rfl, top, double]
  omega

/-- The exponent of an integer, rounding included, is beyond `half + 1` exactly if the
integer is at least halfway to the power of two where this is so. -/
theorem exceeds_iff {half : Nat} (positive : n ≠ 0) :
    (if integerSignificand n = Nat.pow 2 53 then integerExponent n + 1 > half + 1
      else integerExponent n > half + 1) ↔ Nat.pow 2 (half + 54) ≤ n + Nat.pow 2 half := by
  have low : Nat.pow 2 n.log2 ≤ n := Nat.log2_self_le positive
  have high : n < Nat.pow 2 (n.log2 + 1) := Nat.lt_log2_self
  have grows {a b : Nat} (le : a ≤ b) : Nat.pow 2 a ≤ Nat.pow 2 b :=
    Nat.pow_le_pow_right (by decide) le
  rcases Nat.lt_trichotomy n.log2 (half + 53) with small | last | large
  · have short : ¬ integerExponent n + 1 > half + 1 ∧ ¬ integerExponent n > half + 1 := by
      unfold integerExponent
      omega
    have most : Nat.pow 2 (n.log2 + 1) ≤ Nat.pow 2 (half + 53) := grows small
    have least : Nat.pow 2 half ≤ Nat.pow 2 (half + 53) := grows (by omega)
    have double : Nat.pow 2 (half + 54) = 2 * Nat.pow 2 (half + 53) := by
      rw [show half + 54 = 1 + (half + 53) by omega, pow_add_two]
    split <;> omega
  · have exponent : integerExponent n = half + 1 := by
      unfold integerExponent
      omega
    rw [← integerSignificand_eq_top_iff last, exponent]
    split
    · next top => exact iff_of_true (by omega) top
    · next other => exact iff_of_false (by omega) other
  · have long : integerExponent n + 1 > half + 1 ∧ integerExponent n > half + 1 := by
      unfold integerExponent
      omega
    have least : Nat.pow 2 (half + 54) ≤ Nat.pow 2 n.log2 := grows large
    split <;> omega

/-- There is no number for an integer exactly if it is at least halfway from the largest
finite number to the next power of two. -/
theorem ofInt?_eq_none_iff {i : Int} :
    ofInt? i = none ↔ Nat.pow 2 1024 ≤ i.natAbs + Nat.pow 2 970 := by
  have largest : maxExponent = (970 : Nat) + 1 := rfl
  rw [show (1024 : Nat) = 970 + 54 from rfl]
  generalize 970 = half at largest ⊢
  by_cases nonzero : i = 0
  · subst nonzero
    have grows : Nat.pow 2 half < Nat.pow 2 (half + 54) :=
      Nat.pow_lt_pow_right (by decide) (by omega)
    have zero : ofInt? 0 = some (.zero false) := rfl
    rw [zero, Int.natAbs_zero]
    exact iff_of_false nofun (by omega)
  · rw [ofInt?_of_ne_zero nonzero, largest, ← exceeds_iff (Int.natAbs_ne_zero.mpr nonzero)]
    split <;> split <;> simp_all

end Integer

theorem finite_of_ofInt? {i : Int} {x : Binary64} (rounded : ofInt? i = some x) :
    ∃ negative significand exponent, x = .finite negative significand exponent := by
  unfold ofInt? at rounded
  split at rounded
  · exact ⟨_, _, _, (Option.some.inj rounded).symm⟩
  · cases rounded

/-! ## The order around zero -/

section Order

variable {negative : Bool} {significand : Nat} {exponent : Int}

theorem units_zero (negative : Bool) (exponent : Int) : units negative 0 exponent = 0 := by
  unfold units
  cases negative <;> simp

theorem units_nonpos_iff (nonzero : 0 < significand) :
    units negative significand exponent ≤ 0 ↔ negative = true := by
  have size : 0 < (significand : Int) * Nat.pow 2 (exponent - minExponent).toNat :=
    Int.mul_pos (by omega) (Int.ofNat_lt.mpr (pow_two_pos _))
  unfold units
  cases negative with
  | true => exact iff_of_true (Int.neg_nonpos_of_nonneg (Int.le_of_lt size)) rfl
  | false => exact iff_of_false (Int.not_le.mpr size) nofun

theorem le_zero_finite_iff :
    le (.finite negative significand exponent) (zero false) = true ↔
      units negative significand exponent ≤ 0 := by
  rw [le, zero, compare?, units_zero]
  generalize units negative significand exponent = size
  rcases Int.lt_trichotomy size 0 with less | rfl | greater
  · rw [compare_lt_iff_lt.mpr less]
    exact iff_of_true rfl (Int.le_of_lt less)
  · exact iff_of_true rfl (Int.le_refl 0)
  · rw [compare_gt_iff_gt.mpr greater]
    exact iff_of_false nofun (Int.not_le.mpr greater)

theorem zero_lt_finite_iff :
    lt (zero false) (.finite negative significand exponent) = true ↔
      0 < units negative significand exponent := by
  rw [lt, zero, compare?, units_zero]
  generalize units negative significand exponent = size
  rcases Int.lt_trichotomy size 0 with less | rfl | greater
  · rw [compare_gt_iff_gt.mpr less]
    exact iff_of_false nofun (Int.lt_asymm less)
  · exact iff_of_false nofun (Int.lt_irrefl 0)
  · rw [compare_lt_iff_lt.mpr greater]
    exact iff_of_true rfl greater

end Order

/-- What is not less than or equal to zero is greater, or not a number. -/
theorem le_zero_eq_false_iff {x : Binary64} :
    x.le (zero false) = false ↔ x = .nan ∨ (zero false).lt x = true := by
  cases x with
  | nan => exact iff_of_true rfl (Or.inl rfl)
  | infinite negative =>
      cases negative with
      | true => exact iff_of_false nofun nofun
      | false => exact iff_of_true rfl (Or.inr rfl)
  | finite negative significand exponent =>
      rw [← Bool.not_eq_true, le_zero_finite_iff, zero_lt_finite_iff, Int.not_le]
      exact ⟨Or.inr, fun either => either.resolve_left nofun⟩

/-- Rounding keeps an integer on its side of zero. -/
theorem le_zero_ofInt?_iff {i : Int} {x : Binary64} (rounded : ofInt? i = some x) :
    x.le (zero false) = true ↔ i ≤ 0 := by
  by_cases nonzero : i = 0
  · subst nonzero
    obtain rfl := Option.some.inj rounded
    exact iff_of_true rfl (Int.le_refl 0)
  · have full := (integerSignificand_bounds (Int.natAbs_ne_zero.mpr nonzero)).1
    have some := pow_two_pos 52
    have side {significand : Nat} {exponent : Int} (nonzero : 0 < significand)
        (same : .finite (i < 0) significand exponent = x) :
        x.le (zero false) = true ↔ i ≤ 0 := by
      rw [← same, le_zero_finite_iff, units_nonpos_iff nonzero, decide_eq_true_iff]
      omega
    rw [ofInt?_of_ne_zero nonzero] at rounded
    split at rounded
    · split at rounded
      · cases rounded
      · exact side some (Option.some.inj rounded)
    · split at rounded
      · cases rounded
      · exact side (by omega) (Option.some.inj rounded)

end DirectiveReview.Binary64
