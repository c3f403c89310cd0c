/-
# The shortest decimal

How a decimal is read depends on its size alone, and a decimal that is closer to a number
than a fraction of `2 ^ -54` of it is read as the number.

Whatever decimal with fewer digits is found for a number is read as it, since it has been
tried.  With seventeen digits there always is one: of the two neighbours of a number on the
seventeenth place one is at most half a unit of that place away.  That is a fraction of the
number of at most one in `2 * 10 ^ 16`, which is more than `2 ^ 54`.  So every number is
read from the decimal that is written for it.
-/

import DirectiveReview.Number.Decimal
import DirectiveReview.Proofs.Number.Nearest

namespace DirectiveReview.Decimal

open Binary64 Text

/-! ## Sizes -/

theorem pow_ten_pos (n : ℕ) : 0 < Nat.pow 10 n :=
  Nat.pow_pos (by decide)

/-- A decimal without its sign, as a rational number. -/
def size (d : Decimal) : ℚ :=
  d.digits * 10 ^ d.exponent

/-- The power of ten that a decimal is just below, if it is not zero. -/
def leading (d : Decimal) : ℤ :=
  (natural d.digits).length + d.exponent

theorem natural_bounds {n : ℕ} (positive : 0 < n) :
    (10 : ℚ) ^ ((natural n).length - 1 : ℤ) ≤ n ∧ (n : ℚ) < 10 ^ ((natural n).length : ℤ) := by
  have some : 0 < (natural n).length := List.length_pos_of_ne_nil Nat.toDigits_ne_nil
  have high : n < 10 ^ (natural n).length :=
    (Nat.length_toDigits_le_iff (by decide) some).mp (Nat.le_refl _)
  have low : 10 ^ ((natural n).length - 1) ≤ n := by
    by_contra less
    by_cases single : (natural n).length = 1
    · rw [single] at less
      omega
    · have shorter : (natural n).length ≤ (natural n).length - 1 :=
        (Nat.length_toDigits_le_iff (by decide) (by omega)).mpr (not_le.mp less)
      omega
  have places : ((natural n).length - 1 : ℤ) = ((natural n).length - 1 : ℕ) := by omega
  rw [places]
  constructor
  · exact_mod_cast low
  · exact_mod_cast high

variable {d other : Decimal}

theorem size_eq_zero_iff : d.size = 0 ↔ d.digits = 0 := by
  rw [size, mul_eq_zero, Nat.cast_eq_zero, or_iff_left (by positivity)]

/-- A decimal lies between two powers of ten that are next to each other. -/
theorem leading_bounds (nonzero : d.digits ≠ 0) :
    (10 : ℚ) ^ (d.leading - 1) ≤ d.size ∧ d.size < 10 ^ d.leading := by
  obtain ⟨low, high⟩ := natural_bounds (Nat.pos_of_ne_zero nonzero)
  have ten : (10 : ℚ) ≠ 0 := by norm_num
  have unit : (0 : ℚ) < 10 ^ d.exponent := by positivity
  have places : d.leading - 1 = ((natural d.digits).length - 1 : ℤ) + d.exponent := by
    rw [leading]
    ring
  rw [places, leading, zpow_add₀ ten, zpow_add₀ ten, size]
  exact ⟨(mul_le_mul_iff_left₀ unit).mpr low, (mul_lt_mul_iff_left₀ unit).mpr high⟩

theorem leading_le {place : ℤ} (nonzero : d.digits ≠ 0) (below : d.size < 10 ^ place) :
    d.leading ≤ place := by
  have less := (leading_bounds nonzero).1.trans_lt below
  have places := (zpow_lt_zpow_iff_right₀ (by norm_num)).mp less
  omega

theorem lt_leading {place : ℤ} (nonzero : d.digits ≠ 0) (above : 10 ^ place ≤ d.size) :
    place < d.leading :=
  (zpow_lt_zpow_iff_right₀ (by norm_num)).mp (above.trans_lt (leading_bounds nonzero).2)

/-! ## Reading -/

/-- The quotient that is rounded is the size of the decimal. -/
theorem quotient_eq_size (d : Decimal) :
    ((d.digits * Nat.pow 10 d.exponent.toNat : ℕ) : ℚ) / (Nat.pow 10 (-d.exponent).toNat : ℕ) =
      d.size :=
  scaled_quotient 10 d.digits d.exponent

theorem toBinary64_of_leading (nonzero : d.digits ≠ 0) (low : -400 ≤ d.leading)
    (high : d.leading ≤ 400) :
    d.toBinary64 = .ofQuotient d.negative (d.digits * Nat.pow 10 d.exponent.toNat)
      (Nat.pow 10 (-d.exponent).toNat) := by
  rw [leading] at low high
  rw [toBinary64]
  rw [if_neg nonzero, if_neg (not_lt.mpr high), if_neg (not_lt.mpr low)]

/-- How a decimal is read depends on its sign and its size alone. -/
theorem toBinary64_congr (sign : d.negative = other.negative) (same : d.size = other.size) :
    d.toBinary64 = other.toBinary64 := by
  by_cases none : d.digits = 0
  · have noneToo : other.digits = 0 := by
      rwa [← size_eq_zero_iff, ← same, size_eq_zero_iff]
    rw [toBinary64, toBinary64, if_pos none, if_pos noneToo, sign]
  · have some : other.digits ≠ 0 := by
      rwa [ne_eq, ← size_eq_zero_iff, ← same, size_eq_zero_iff]
    have places : d.leading = other.leading := by
      apply le_antisymm
      · exact leading_le none (same ▸ (leading_bounds some).2)
      · exact leading_le some (same ▸ (leading_bounds none).2)
    have quotients := (quotient_eq_size d).trans (same.trans (quotient_eq_size other).symm)
    have rounded := ofQuotient_congr d.negative (pow_ten_pos _) (pow_ten_pos _) quotients
    rw [leading, leading] at places
    rw [toBinary64, toBinary64]
    rw [if_neg none, if_neg some, places, rounded, sign]

section Number

variable {negative : Bool} {significand : ℕ} {e : ℤ}

/-- A number that is not zero lies between two powers of ten that are read without a look at
their digits. -/
theorem value_bounds (canonical : (finite negative significand e).Canonical)
    (nonzero : 0 < significand) :
    2 * (10 : ℚ) ^ (-400 : ℤ) ≤ significand * 2 ^ e ∧
      2 * (significand * 2 ^ e : ℚ) ≤ 10 ^ (400 : ℤ) := by
  obtain ⟨bounded, inRange, notBeyond, -⟩ := canonical
  have least : (1 : ℚ) ≤ significand := by exact_mod_cast nonzero
  have most : (significand : ℚ) ≤ 2 ^ (53 : ℤ) := by exact_mod_cast bounded.le
  have powers : (2 : ℚ) ^ (1200 : ℤ) ≤ 10 ^ (400 : ℤ) := by
    have thrice : (2 : ℚ) ^ (1200 : ℤ) = (2 ^ (3 : ℤ)) ^ (400 : ℤ) := by
      rw [← zpow_mul]
      rfl
    rw [thrice]
    exact zpow_le_zpow_left₀ (by decide) (by norm_num) (by norm_num)
  have inverses : (10 : ℚ) ^ (-400 : ℤ) ≤ 2 ^ (-1200 : ℤ) := by
    rw [zpow_neg, zpow_neg]
    exact inv_anti₀ (by positivity) powers
  have low : (2 : ℚ) ^ (-1199 : ℤ) ≤ 2 ^ e :=
    zpow_le_zpow_right₀ one_le_two (le_trans (by decide) inRange)
  have high : (2 : ℚ) ^ e ≤ 2 ^ (1146 : ℤ) :=
    zpow_le_zpow_right₀ one_le_two (le_trans notBeyond (by decide))
  constructor
  · calc 2 * (10 : ℚ) ^ (-400 : ℤ) ≤ 2 ^ (1 : ℤ) * 2 ^ (-1200 : ℤ) := by
          rw [zpow_one]
          gcongr
      _ = 1 * 2 ^ (-1199 : ℤ) := by
          rw [one_mul, ← zpow_add₀ two_ne_zero]
          rfl
      _ ≤ significand * 2 ^ e := by gcongr
  · calc 2 * (significand * 2 ^ e : ℚ) ≤ 2 ^ (1 : ℤ) * (2 ^ (53 : ℤ) * 2 ^ (1146 : ℤ)) := by
          rw [zpow_one]
          gcongr
      _ = 2 ^ (1200 : ℤ) := by
          rw [← zpow_add₀ two_ne_zero, ← zpow_add₀ two_ne_zero]
          rfl
      _ ≤ 10 ^ (400 : ℤ) := powers

/-- **A decimal close to a number is read as it.** -/
theorem toBinary64_of_near (canonical : (finite negative significand e).Canonical)
    (nonzero : 0 < significand) (sign : d.negative = negative)
    (near : |d.size - significand * 2 ^ e| < significand * 2 ^ e / 2 ^ 54) :
    d.toBinary64 = .finite negative significand e := by
  obtain ⟨least, most⟩ := value_bounds canonical nonzero
  have rounds := ofQuotient_of_near canonical nonzero (pow_ten_pos (-d.exponent).toNat)
    (by rwa [quotient_eq_size])
  have positive : (0 : ℚ) < significand * 2 ^ e := by
    have some : (0 : ℚ) < significand := by exact_mod_cast nonzero
    positivity
  generalize (significand : ℚ) * 2 ^ e = value at least most positive near
  obtain ⟨low, high⟩ := abs_lt.mp near
  have below : d.size < 10 ^ (400 : ℤ) := lt_of_lt_of_le (by linarith) most
  have above : (10 : ℚ) ^ (-400 : ℤ) ≤ d.size := by
    have half : (10 : ℚ) ^ (-400 : ℤ) ≤ value / 2 := by rwa [le_div_iff₀ two_pos, mul_comm]
    exact half.trans (by linarith)
  have some : d.digits ≠ 0 := by
    intro none
    rw [size_eq_zero_iff.mpr none] at low
    linarith
  rw [toBinary64_of_leading some (lt_leading some above).le (leading_le some below), sign, rounds]

/-! ## Writing -/

/-- The power of the leading digit of a quotient is at most the quotient. -/
theorem leadingPower_le {num den : ℕ} (top : 0 < num) (bottom : 0 < den) :
    (10 : ℚ) ^ leadingPower num den ≤ num / den := by
  have ten : (10 : ℚ) ≠ 0 := by norm_num
  have some : (0 : ℚ) < den := by exact_mod_cast bottom
  rw [leadingPower]
  generalize length : ((natural num).length : ℤ) - (natural den).length = guess
  by_cases reached : den * Nat.pow 10 guess.toNat ≤ num * Nat.pow 10 (-guess).toNat
  · have shifted := shifted_quotient 10 num den guess
    have divisor : (0 : ℚ) < (den * Nat.pow 10 guess.toNat : ℕ) := by
      exact_mod_cast Nat.mul_pos bottom (pow_ten_pos _)
    have whole : (1 : ℚ) ≤ (num / den : ℚ) / 10 ^ guess := by
      rw [← Nat.cast_ofNat (R := ℚ) (n := 10), ← shifted, one_le_div divisor]
      exact_mod_cast reached
    rw [if_pos reached]
    rwa [one_le_div (by positivity)] at whole
  · rw [if_neg reached, le_div_iff₀ some]
    calc (10 : ℚ) ^ (guess - 1) * den ≤ 10 ^ (guess - 1) * 10 ^ ((natural den).length : ℤ) := by
          gcongr
          exact (natural_bounds bottom).2.le
      _ = 10 ^ ((natural num).length - 1 : ℤ) := by
          rw [← zpow_add₀ ten, ← length]
          congr 1
          ring
      _ ≤ num := (natural_bounds top).1

/-- What is found at a place is read as the number. -/
theorem toBinary64_of_atPlace? {x : Binary64} {num den : ℕ} {place : ℤ}
    (found : atPlace? x negative num den place = some d) : d.toBinary64 = x := by
  rw [atPlace?] at found
  split at found
  · next below =>
      split at found
      · next above => rw [← Option.some.inj found, above.1]
      · rw [← Option.some.inj found, below]
  · split at found
    · next above => rw [← Option.some.inj found, above]
    · cases found

/-- At a place that is fine enough there is a decimal for a number. -/
theorem atPlace?_ne_none {num den : ℕ} {place : ℤ}
    (canonical : (finite negative significand e).Canonical) (nonzero : 0 < significand)
    (bottom : 0 < den) (value : (num / den : ℚ) = significand * 2 ^ e)
    (fine : (10 : ℚ) ^ place / 2 < significand * 2 ^ e / 2 ^ 54) :
    atPlace? (.finite negative significand e) negative num den place ≠ none := by
  have unit : (0 : ℚ) < 10 ^ place := by positivity
  have shifted := shifted_quotient 10 num den place
  rw [value, Nat.cast_ofNat] at shifted
  have divisor : 0 < den * Nat.pow 10 place.toNat := Nat.mul_pos bottom (pow_ten_pos _)
  rw [atPlace?]
  generalize num * Nat.pow 10 (-place).toNat = top at shifted ⊢
  generalize den * Nat.pow 10 place.toNat = base at shifted divisor ⊢
  have some : (0 : ℚ) < base := by exact_mod_cast divisor
  have read {digits : ℕ} (near : |digits - (top / base : ℚ)| ≤ 1 / 2) :
      toBinary64 ⟨negative, digits, place⟩ = .finite negative significand e := by
    refine toBinary64_of_near canonical nonzero rfl (lt_of_le_of_lt ?_ fine)
    have distance : digits * (10 : ℚ) ^ place - significand * 2 ^ e =
        (digits - top / base) * 10 ^ place := by
      rw [shifted]
      field_simp
    calc |digits * (10 : ℚ) ^ place - significand * 2 ^ e|
        = |digits - (top / base : ℚ)| * 10 ^ place := by rw [distance, abs_mul, abs_of_pos unit]
      _ ≤ 1 / 2 * 10 ^ place := by gcongr
      _ = 10 ^ place / 2 := by ring
  -- The nearer one of the two neighbours is at most half a unit away.
  have least : ((top / base : ℕ) : ℚ) ≤ top / base := Nat.cast_div_le
  have most : (top / base : ℚ) < (top / base + 1 : ℕ) := by
    rw [div_lt_iff₀ some, mul_comm]
    exact_mod_cast Nat.lt_mul_div_succ top divisor
  have either : toBinary64 ⟨negative, top / base, place⟩ = .finite negative significand e ∨
      toBinary64 ⟨negative, top / base + 1, place⟩ = .finite negative significand e := by
    generalize (top / base : ℚ) = scaled at least most read
    push_cast at most
    by_cases lower : scaled ≤ (top / base : ℕ) + 1 / 2
    · left
      apply read
      rw [abs_le]
      constructor <;> linarith
    · right
      apply read
      rw [not_le] at lower
      push_cast
      rw [abs_le]
      constructor <;> linarith
  by_cases below : toBinary64 ⟨negative, top / base, place⟩ = .finite negative significand e
  · rw [if_pos below]
    split <;> exact Option.some_ne_none _
  · rw [if_neg below, if_pos (either.resolve_left below)]
    exact Option.some_ne_none _

/-- **A number is read from the decimal that is written for it.** -/
theorem toBinary64_shortest (canonical : (finite negative significand e).Canonical) :
    (shortest negative significand e).toBinary64 = .finite negative significand e := by
  by_cases zero : significand = 0
  · subst zero
    have lowest : e = minExponent := canonical.2.2.2.resolve_left (by decide)
    rw [lowest]
    rfl
  have positive : 0 < significand := Nat.pos_of_ne_zero zero
  have top : 0 < significand * Nat.pow 2 e.toNat := Nat.mul_pos positive (pow_two_pos _)
  have bottom : 0 < Nat.pow 2 (-e).toNat := pow_two_pos _
  have value : ((significand * Nat.pow 2 e.toNat : ℕ) : ℚ) / (Nat.pow 2 (-e).toNat : ℕ) =
      significand * 2 ^ e :=
    scaled_quotient 2 significand e
  rw [shortest, if_neg zero]
  dsimp only
  generalize significand * Nat.pow 2 e.toNat = num at *
  generalize Nat.pow 2 (-e).toNat = den at *
  cases found : (List.range 17).findSome? fun (n : ℕ) =>
      atPlace? (.finite negative significand e) negative num den (leadingPower num den - n) with
  | some d =>
      obtain ⟨n, -, here⟩ := List.exists_of_findSome?_eq_some found
      exact toBinary64_of_atPlace? here
  | none =>
      have leading := leadingPower_le top bottom
      have fine : (10 : ℚ) ^ (leadingPower num den - 16) / 2 < significand * 2 ^ e / 2 ^ 54 := by
        have ten : (10 : ℚ) ≠ 0 := by norm_num
        have sixteen : (10 : ℚ) ^ (16 : ℤ) = 10000000000000000 := by norm_num
        have some : (0 : ℚ) < 10 ^ leadingPower num den := by positivity
        rw [value] at leading
        rw [zpow_sub₀ ten, sixteen]
        linarith
      exact absurd (List.findSome?_eq_none_iff.mp found 16 (by decide))
        (atPlace?_ne_none canonical positive bottom value fine)

end Number

end DirectiveReview.Decimal
