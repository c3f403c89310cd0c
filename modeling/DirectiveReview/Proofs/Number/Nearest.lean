/-
# Rounding to the nearest number

How a quotient is rounded depends on its value alone, and the value decides it as soon as it
is close enough to a number.  Here values are rational numbers, and the two shifts by which
significands are brought to an exponent are one power of two.

A number has one form: its significand is full, or its exponent is the smallest.  Below a
significand that is the smallest full one the numbers lie closer together than above it, so a
value has to be closer to it from below in order to be rounded to it.  A quarter of the
distance is enough on either side, and a fraction of `2 ^ -54` of a number is less than that.
-/

import DirectiveReview.Proofs.Number.Rounding
import Mathlib.Algebra.Order.Field.Power
import Mathlib.Algebra.Order.Field.Rat
import Mathlib.Data.Nat.Cast.Order.Field
import Mathlib.Tactic.FieldSimp
import Mathlib.Tactic.Linarith
import Mathlib.Tactic.NormNum
import Mathlib.Tactic.Positivity
import Mathlib.Tactic.Ring

namespace DirectiveReview.Binary64

/-! ## Shifts -/

/-- Two powers of which one is trivial are one power with a sign in its exponent. -/
theorem pow_toNat_div_pow_toNat (base : ℚ) (e : ℤ) :
    base ^ e.toNat / base ^ (-e).toNat = base ^ e := by
  obtain ⟨n, rfl | rfl⟩ := e.eq_nat_or_neg
  · simp
  · simp

/-- A quotient that is shifted by an exponent is divided by the power of it. -/
theorem shifted_quotient (base num den : ℕ) (e : ℤ) :
    ((num * Nat.pow base (-e).toNat : ℕ) : ℚ) / (den * Nat.pow base e.toNat : ℕ) =
      (num / den : ℚ) / (base : ℚ) ^ e := by
  have power (n : ℕ) : ((Nat.pow base n : ℕ) : ℚ) = (base : ℚ) ^ n := Nat.cast_pow base n
  rw [Nat.cast_mul, Nat.cast_mul, power, power, ← pow_toNat_div_pow_toNat, mul_div_mul_comm,
    div_div_eq_mul_div, mul_div_assoc]

/-- A natural number that is scaled by an exponent is multiplied by the power of it. -/
theorem scaled_quotient (base num : ℕ) (e : ℤ) :
    ((num * Nat.pow base e.toNat : ℕ) : ℚ) / (Nat.pow base (-e).toNat : ℕ) =
      num * (base : ℚ) ^ e := by
  have shifted := shifted_quotient base num 1 (-e)
  rwa [neg_neg, Nat.one_mul, Nat.cast_one, div_one, zpow_neg, div_inv_eq_mul] at shifted

/-! ## The nearest integer -/

section Quotient

variable {num den : ℕ}

/-- An integer that is nearer than one half is the nearest one. -/
theorem roundQuotient_of_near {nearest : ℕ} (positive : 0 < den)
    (near : |(num / den : ℚ) - nearest| < 1 / 2) : roundQuotient num den = nearest := by
  have some : (0 : ℚ) < den := by exact_mod_cast positive
  obtain ⟨low, high⟩ := abs_lt.mp near
  have least : 2 * (nearest * den) < 2 * num + den := by
    have bound : ((nearest : ℚ) - 1 / 2) * den < num := by
      rw [← lt_div_iff₀ some]
      linarith
    have : (2 * (nearest * den) : ℚ) < 2 * num + den := by linarith
    exact_mod_cast this
  have most : 2 * num < 2 * (nearest * den) + den := by
    have bound : (num : ℚ) < (nearest + 1 / 2) * den := by
      rw [← div_lt_iff₀ some]
      linarith
    have : (2 * num : ℚ) < 2 * (nearest * den) + den := by linarith
    exact_mod_cast this
  have cut := Nat.div_add_mod num den
  unfold roundQuotient
  dsimp only
  by_cases below : nearest * den ≤ num
  · have whole : num / den = nearest := Nat.div_eq_of_lt_le below (by rw [Nat.succ_mul]; omega)
    rw [whole, Nat.mul_comm] at cut
    have down : 2 * (num % den) < den := by omega
    simp [whole, down]
  · cases nearest with
    | zero => omega
    | succ before =>
        have next : (before + 1) * den = before * den + den := Nat.succ_mul before den
        have whole : num / den = before := Nat.div_eq_of_lt_le (by omega) (by omega)
        rw [whole, Nat.mul_comm] at cut
        have up : ¬ 2 * (num % den) < den := by omega
        have uneven : ¬ 2 * (num % den) = den := by omega
        simp [whole, up, uneven]

theorem roundQuotient_mul {factor : ℕ} (positive : 0 < factor) (num den : ℕ) :
    roundQuotient (num * factor) (den * factor) = roundQuotient num den := by
  have less : 2 * (num % den * factor) < den * factor ↔ 2 * (num % den) < den := by
    rw [← Nat.mul_assoc, Nat.mul_lt_mul_right positive]
  have half : 2 * (num % den * factor) = den * factor ↔ 2 * (num % den) = den := by
    rw [← Nat.mul_assoc, Nat.mul_left_inj positive.ne']
  unfold roundQuotient
  dsimp only
  rw [Nat.mul_div_mul_right _ _ positive, Nat.mul_mod_mul_right]
  simp only [less, beq_iff_eq, Bool.or_eq_true, Bool.and_eq_true, decide_eq_true_eq, half]

/-- Rounding depends on the value of a quotient alone. -/
theorem roundQuotient_congr {other divisor : ℕ} (positive : 0 < den) (positiveToo : 0 < divisor)
    (same : (num / den : ℚ) = other / divisor) :
    roundQuotient num den = roundQuotient other divisor := by
  have nonzero : (den : ℚ) ≠ 0 := by positivity
  have nonzeroToo : (divisor : ℚ) ≠ 0 := by positivity
  have crossed : num * divisor = other * den := by
    have crossed := (div_eq_div_iff nonzero nonzeroToo).mp same
    exact_mod_cast crossed
  rw [← roundQuotient_mul positiveToo num den, ← roundQuotient_mul positive other divisor, crossed,
    Nat.mul_comm den]

/-! ## The exponent of a quotient -/

/-- Whether a significand is below a bound is a question about the value of the quotient. -/
theorem shifted_lt_iff (bottom : 0 < den) (e : ℤ) (bound : ℕ) :
    num * Nat.pow 2 (-e).toNat < den * Nat.pow 2 e.toNat * bound ↔
      (num / den : ℚ) < bound * 2 ^ e := by
  have shifted := shifted_quotient 2 num den e
  have some : (0 : ℚ) < (den * Nat.pow 2 e.toNat : ℕ) := by
    exact_mod_cast Nat.mul_pos bottom (pow_two_pos _)
  rw [Nat.cast_ofNat] at shifted
  rw [← div_lt_iff₀ (by positivity), ← shifted, div_lt_iff₀ some, ← Nat.cast_mul, Nat.cast_lt,
    Nat.mul_comm bound]

theorem log2_bounds {n : ℕ} (positive : 0 < n) :
    (2 : ℚ) ^ (n.log2 : ℤ) ≤ n ∧ (n : ℚ) < 2 ^ ((n.log2 : ℤ) + 1) := by
  have low : 2 ^ n.log2 ≤ n := Nat.log2_self_le positive.ne'
  have high : n < 2 ^ (n.log2 + 1) := Nat.lt_log2_self
  constructor
  · exact_mod_cast low
  · exact_mod_cast high

/-- At its exponent the significand of a quotient is full. -/
theorem fullExponent_bounds (top : 0 < num) (bottom : 0 < den) :
    (2 : ℚ) ^ (fullExponent num den + 52) ≤ num / den ∧
      (num / den : ℚ) < 2 ^ (fullExponent num den + 53) := by
  have two : (2 : ℚ) ≠ 0 := by norm_num
  have some : (0 : ℚ) < den := by exact_mod_cast bottom
  obtain ⟨numLow, numHigh⟩ := log2_bounds top
  obtain ⟨denLow, denHigh⟩ := log2_bounds bottom
  let guess : ℤ := (num.log2 : ℤ) - den.log2 - 52
  have least : (2 : ℚ) ^ (guess + 51) ≤ num / den := by
    rw [le_div_iff₀ some]
    calc (2 : ℚ) ^ (guess + 51) * den ≤ 2 ^ (guess + 51) * 2 ^ ((den.log2 : ℤ) + 1) := by gcongr
      _ = 2 ^ (num.log2 : ℤ) := by
          rw [← zpow_add₀ two]
          congr 1
          simp only [guess]
          ring
      _ ≤ num := numLow
  have most : (num / den : ℚ) < 2 ^ (guess + 53) := by
    rw [div_lt_iff₀ some]
    calc (num : ℚ) < 2 ^ ((num.log2 : ℤ) + 1) := numHigh
      _ = 2 ^ (guess + 53) * 2 ^ (den.log2 : ℤ) := by
          rw [← zpow_add₀ two]
          congr 1
          simp only [guess]
          ring
      _ ≤ 2 ^ (guess + 53) * den := by gcongr
  have small : num * Nat.pow 2 (-guess).toNat < den * Nat.pow 2 guess.toNat * Nat.pow 2 52 ↔
      (num / den : ℚ) < 2 ^ (guess + 52) := by
    have full : (2 : ℚ) ^ (guess + 52) = (Nat.pow 2 52 : ℕ) * 2 ^ guess := by
      rw [zpow_add₀ two, mul_comm]
      norm_num
    rw [full]
    exact shifted_lt_iff bottom guess (Nat.pow 2 52)
  unfold fullExponent
  dsimp only
  rw [show (num.log2 : ℤ) - den.log2 - 52 = guess from rfl]
  by_cases less : (num / den : ℚ) < 2 ^ (guess + 52)
  · rw [if_pos (small.mpr less)]
    have down : guess - 1 + 52 = guess + 51 := by ring
    have up : guess - 1 + 53 = guess + 52 := by ring
    rw [down, up]
    exact ⟨least, less⟩
  · rw [if_neg (mt small.mp less)]
    exact ⟨not_lt.mp less, most⟩

/-- Where the significand of a quotient is full its exponent is its full one. -/
theorem fullExponent_le {e : ℤ} (top : 0 < num) (bottom : 0 < den)
    (most : (num / den : ℚ) < 2 ^ (e + 53)) : fullExponent num den ≤ e := by
  have less := (fullExponent_bounds top bottom).1.trans_lt most
  have exponents := (zpow_lt_zpow_iff_right₀ one_lt_two).mp less
  omega

theorem le_fullExponent {e : ℤ} (top : 0 < num) (bottom : 0 < den)
    (least : (2 : ℚ) ^ (e + 52) ≤ num / den) : e ≤ fullExponent num den := by
  have less := least.trans_lt (fullExponent_bounds top bottom).2
  have exponents := (zpow_lt_zpow_iff_right₀ one_lt_two).mp less
  omega

/-! ## Rounding at an exponent -/

/-- The exponent at which a quotient is rounded. -/
theorem ofQuotient_eq_roundAt {negative : Bool} {e : ℤ} (top : 0 < num) (bottom : 0 < den)
    (inRange : minExponent ≤ e) (least : (2 : ℚ) ^ (e + 52) ≤ num / den ∨ e = minExponent)
    (most : (num / den : ℚ) < 2 ^ (e + 53)) :
    ofQuotient negative num den = roundAt negative num den e := by
  have notAbove := fullExponent_le top bottom most
  have exponent : max minExponent (fullExponent num den) = e := by
    rcases least with full | smallest
    · have notBelow := le_fullExponent top bottom full
      omega
    · omega
  rw [ofQuotient, if_neg top.ne', exponent]

/-- A significand with its exponent, or with the next one if it is a power of two too large. -/
def carried (negative : Bool) (significand : ℕ) (e : ℤ) : Binary64 :=
  if significand = Nat.pow 2 53 then
    if e + 1 > maxExponent then .infinite negative else .finite negative (Nat.pow 2 52) (e + 1)
  else if e > maxExponent then .infinite negative else .finite negative significand e

theorem roundAt_eq_carried (negative : Bool) (num den : ℕ) (e : ℤ) :
    roundAt negative num den e = carried negative
      (roundQuotient (num * Nat.pow 2 (-e).toNat) (den * Nat.pow 2 e.toNat)) e := by
  rw [roundAt, carried]
  by_cases full : roundQuotient (num * Nat.pow 2 (-e).toNat) (den * Nat.pow 2 e.toNat) =
      Nat.pow 2 53
  · rw [if_pos full, if_pos full]
  · rw [if_neg full, if_neg full]

/-- A quotient is rounded to the significand that is nearest to it at an exponent. -/
theorem roundAt_of_near {negative : Bool} {e : ℤ} {nearest : ℕ} (bottom : 0 < den)
    (near : |(num / den : ℚ) / 2 ^ e - nearest| < 1 / 2) :
    roundAt negative num den e = carried negative nearest e := by
  have shifted := shifted_quotient 2 num den e
  rw [Nat.cast_ofNat] at shifted
  rw [← shifted] at near
  rw [roundAt_eq_carried, roundQuotient_of_near (Nat.mul_pos bottom (pow_two_pos _)) near]

/-! ## Numbers in their one form -/

/-- A number in its one form. -/
def Canonical : Binary64 → Prop
  | .finite _ significand exponent =>
    significand < Nat.pow 2 53 ∧ minExponent ≤ exponent ∧ exponent ≤ maxExponent ∧
      (Nat.pow 2 52 ≤ significand ∨ exponent = minExponent)
  | _ => True

theorem Canonical.carried_eq {negative : Bool} {significand : ℕ} {e : ℤ}
    (canonical : (finite negative significand e).Canonical) :
    carried negative significand e = .finite negative significand e := by
  rw [carried, if_neg canonical.1.ne, if_neg (not_lt.mpr canonical.2.2.1)]

theorem canonical_carried {negative : Bool} {significand : ℕ} {e : ℤ} (inRange : minExponent ≤ e)
    (bounded : significand ≤ Nat.pow 2 53) (full : Nat.pow 2 52 ≤ significand ∨ e = minExponent) :
    (carried negative significand e).Canonical := by
  rw [carried]
  by_cases top : significand = Nat.pow 2 53
  · rw [if_pos top]
    by_cases beyond : e + 1 > maxExponent
    · rw [if_pos beyond]
      trivial
    · rw [if_neg beyond]
      exact ⟨by decide, by omega, not_lt.mp beyond, Or.inl (Nat.le_refl _)⟩
  · rw [if_neg top]
    by_cases beyond : e > maxExponent
    · rw [if_pos beyond]
      trivial
    · rw [if_neg beyond]
      exact ⟨lt_of_le_of_ne bounded top, inRange, not_lt.mp beyond, full⟩

/-- **A value close to a number is rounded to it.** -/
theorem ofQuotient_of_near {negative : Bool} {significand : ℕ} {e : ℤ}
    (canonical : (finite negative significand e).Canonical) (nonzero : 0 < significand)
    (bottom : 0 < den)
    (near : |(num / den : ℚ) - significand * 2 ^ e| < significand * 2 ^ e / 2 ^ 54) :
    ofQuotient negative num den = .finite negative significand e := by
  have ⟨bounded, inRange, notBeyond, full⟩ := canonical
  have unit : (0 : ℚ) < 2 ^ e := by positivity
  have some : (0 : ℚ) < significand := by exact_mod_cast nonzero
  have largest : (significand : ℚ) ≤ 2 ^ 53 - 1 := by
    have next : (significand : ℚ) + 1 ≤ 2 ^ 53 := by exact_mod_cast bounded
    linarith
  -- The value in units of the last place of the number.
  obtain ⟨scaled, value⟩ : ∃ scaled : ℚ, (num / den : ℚ) = scaled * 2 ^ e :=
    ⟨num / den / 2 ^ e, by field_simp⟩
  have close : |scaled - significand| < significand / 2 ^ 54 := by
    rw [value, ← sub_mul, abs_mul, abs_of_pos unit, mul_div_right_comm] at near
    exact lt_of_mul_lt_mul_right near unit.le
  obtain ⟨low, high⟩ := abs_lt.mp close
  have top : 0 < num := by
    have positive : (0 : ℚ) < num / den := by
      rw [value]
      exact mul_pos (by linarith) unit
    by_contra none
    obtain rfl : num = 0 := by omega
    simp at positive
  have unscaled (exponent : ℤ) (places : ℤ) :
      (2 : ℚ) ^ (exponent + places) = 2 ^ places * 2 ^ exponent := by
    rw [zpow_add₀ two_ne_zero, mul_comm]
  by_cases lowest : (2 : ℚ) ^ 52 ≤ scaled ∨ e = minExponent
  · have most : (num / den : ℚ) < 2 ^ (e + 53) := by
      rw [value, unscaled, mul_lt_mul_iff_left₀ unit]
      norm_num
      linarith
    have least : (2 : ℚ) ^ (e + 52) ≤ num / den ∨ e = minExponent := by
      rw [value, unscaled, mul_le_mul_iff_left₀ unit]
      exact_mod_cast lowest
    have nearest : |(num / den : ℚ) / 2 ^ e - significand| < 1 / 2 := by
      rw [value, mul_div_cancel_right₀ _ unit.ne']
      exact close.trans_le (by linarith)
    rw [ofQuotient_eq_roundAt top bottom inRange least most, roundAt_of_near bottom nearest]
    exact canonical.carried_eq
  · -- The number is the smallest with a full significand, and the value lies below it.
    obtain ⟨below, notLeast⟩ := not_or.mp lowest
    have fullHere : 2 ^ 52 ≤ significand := full.resolve_right notLeast
    have smallest : significand = 2 ^ 52 := by
      have bound : (significand : ℚ) < 2 ^ 52 + 1 := by linarith
      have bound : significand < 2 ^ 52 + 1 := by exact_mod_cast bound
      omega
    subst smallest
    push_cast at low high
    have half : (2 : ℚ) ^ (e - 1) = 2 ^ e / 2 := zpow_sub_one₀ two_ne_zero e
    have most : (num / den : ℚ) < 2 ^ (e - 1 + 53) := by
      have whole : (2 : ℚ) ^ (e - 1 + 53) = 2 ^ 52 * 2 ^ e := by
        rw [unscaled, half]
        ring
      rw [value, whole, mul_lt_mul_iff_left₀ unit]
      exact not_le.mp below
    have least : (2 : ℚ) ^ (e - 1 + 52) ≤ num / den := by
      have whole : (2 : ℚ) ^ (e - 1 + 52) = 2 ^ 51 * 2 ^ e := by
        rw [unscaled, half]
        ring
      rw [value, whole, mul_le_mul_iff_left₀ unit]
      linarith
    have nearest : |(num / den : ℚ) / 2 ^ (e - 1) - (2 ^ 53 : ℕ)| < 1 / 2 := by
      have twice : (num / den : ℚ) / 2 ^ (e - 1) = 2 * scaled := by
        rw [value, half]
        field_simp
      rw [twice, abs_lt]
      push_cast
      constructor <;> linarith
    have beyondFull : 2 ^ 53 = Nat.pow 2 53 := rfl
    rw [ofQuotient_eq_roundAt top bottom (by omega) (Or.inl least) most,
      roundAt_of_near bottom nearest, carried, if_pos beyondFull, sub_add_cancel,
      if_neg (not_lt.mpr notBeyond)]
    rfl

/-- Rounding depends on the value of a quotient alone. -/
theorem ofQuotient_congr (negative : Bool) {other divisor : ℕ} (bottom : 0 < den)
    (bottomToo : 0 < divisor) (same : (num / den : ℚ) = other / divisor) :
    ofQuotient negative num den = ofQuotient negative other divisor := by
  have zero : num = 0 ↔ other = 0 := by
    have nonzero : (den : ℚ) ≠ 0 := by positivity
    have nonzeroToo : (divisor : ℚ) ≠ 0 := by positivity
    have crossed := (div_eq_div_iff nonzero nonzeroToo).mp same
    constructor
    · rintro rfl
      simpa [nonzero] using crossed.symm
    · rintro rfl
      simpa [nonzeroToo] using crossed
  by_cases none : num = 0
  · rw [ofQuotient, ofQuotient, if_pos none, if_pos (zero.mp none)]
  · have top : 0 < num := Nat.pos_of_ne_zero none
    have topToo : 0 < other := Nat.pos_of_ne_zero (mt zero.mpr none)
    obtain ⟨least, most⟩ := fullExponent_bounds topToo bottomToo
    rw [← same] at least most
    have exponents : fullExponent num den = fullExponent other divisor :=
      le_antisymm (fullExponent_le top bottom most) (le_fullExponent top bottom least)
    have significands (e : ℤ) :
        roundQuotient (num * Nat.pow 2 (-e).toNat) (den * Nat.pow 2 e.toNat) =
          roundQuotient (other * Nat.pow 2 (-e).toNat) (divisor * Nat.pow 2 e.toNat) := by
      apply roundQuotient_congr (Nat.mul_pos bottom (pow_two_pos _))
        (Nat.mul_pos bottomToo (pow_two_pos _))
      rw [shifted_quotient, shifted_quotient, same]
    rw [ofQuotient, ofQuotient, if_neg none, if_neg topToo.ne', exponents, roundAt_eq_carried,
      roundAt_eq_carried, significands]

/-- Rounding gives numbers in their one form. -/
theorem canonical_ofQuotient (negative : Bool) (num : ℕ) (bottom : 0 < den) :
    (ofQuotient negative num den).Canonical := by
  by_cases none : num = 0
  · rw [ofQuotient, if_pos none]
    exact ⟨by decide, by decide, by decide, Or.inr rfl⟩
  obtain ⟨least, most⟩ := fullExponent_bounds (Nat.pos_of_ne_zero none) bottom
  rw [ofQuotient, if_neg none]
  generalize exponent : max minExponent (fullExponent num den) = e
  -- The significand at this exponent, from below and from above.
  have divisor : 0 < den * Nat.pow 2 e.toNat := Nat.mul_pos bottom (pow_two_pos _)
  have up := div_le_roundQuotient (num * Nat.pow 2 (-e).toNat) (den * Nat.pow 2 e.toNat)
  have down := roundQuotient_le (num * Nat.pow 2 (-e).toNat) (den * Nat.pow 2 e.toNat)
  have bounded : num * Nat.pow 2 (-e).toNat / (den * Nat.pow 2 e.toNat) < Nat.pow 2 53 := by
    have power : (2 : ℚ) ^ (fullExponent num den + 53) ≤ 2 ^ (e + 53) :=
      zpow_le_zpow_right₀ one_le_two (by omega)
    rw [Nat.div_lt_iff_lt_mul divisor, Nat.mul_comm (Nat.pow 2 53), shifted_lt_iff bottom]
    refine (most.trans_le power).trans_eq ?_
    rw [zpow_add₀ two_ne_zero, mul_comm]
    norm_num
  have full : Nat.pow 2 52 ≤ num * Nat.pow 2 (-e).toNat / (den * Nat.pow 2 e.toNat) ∨
      e = minExponent := by
    by_cases smallest : e = minExponent
    · exact Or.inr smallest
    · have here : fullExponent num den = e := by omega
      rw [here, zpow_add₀ two_ne_zero, mul_comm] at least
      rw [Nat.le_div_iff_mul_le divisor, Nat.mul_comm (Nat.pow 2 52), ← not_lt,
        shifted_lt_iff bottom, not_lt]
      exact Or.inl (by exact_mod_cast least)
  rw [roundAt_eq_carried]
  exact canonical_carried (by omega) (Nat.le_trans down bounded)
    (full.imp_left (Nat.le_trans · up))

end Quotient

end DirectiveReview.Binary64
