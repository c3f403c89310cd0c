/-
# Numerals of binary64 numbers

A number is written as the digits of its shortest decimal with a point among them or with an
exponent behind them, and with zeros where the point is outside of the digits.  Either layout
is a JSON numeral, and what it spells has the size of the decimal, whichever zeros stand in
it.  So the number is read back, because how a decimal is read depends on its size alone.
-/

import DirectiveReview.Proofs.Json.Reader
import DirectiveReview.Proofs.Number.Shortest

namespace DirectiveReview

open Text

/-! ## Rows of digits -/

namespace Decimal

theorem digitsValue_append_digit (digits : Text) (c : Char) :
    digitsValue (digits ++ [c]) = 10 * digitsValue digits + (c.toNat - '0'.toNat) :=
  List.foldl_append

theorem digitsValue_append_zeros (digits : Text) (count : ℕ) :
    digitsValue (digits ++ List.replicate count '0') = digitsValue digits * 10 ^ count := by
  induction count with
  | zero => simp
  | succ count ih =>
      rw [List.replicate_succ', ← List.append_assoc, digitsValue_append_digit, ih, Nat.pow_succ,
        Nat.sub_self, Nat.add_zero, Nat.mul_comm, Nat.mul_assoc]

theorem digitsValue_zeros_append (count : ℕ) (digits : Text) :
    digitsValue (List.replicate count '0' ++ digits) = digitsValue digits := by
  induction count with
  | zero => rfl
  | succ count ih => exact ih

theorem isDigit_of_mem_replicate {count : ℕ} {c : Char}
    (inside : c ∈ List.replicate count '0') : c.isDigit = true := by
  rw [List.eq_of_mem_replicate inside]
  rfl

end Decimal

namespace Json

/-- A numeral that stands for a binary64 number: digits in front of a point and behind it and
an exponent, and at least one of the last two. -/
structure Numeral where
  negative : Bool
  whole : Text
  fraction : Text
  power : Option ℤ
  wholeDigits : ∀ c ∈ whole, c.isDigit = true
  fractionDigits : ∀ c ∈ fraction, c.isDigit = true
  nonempty : whole ≠ []
  unpadded : whole.head? = some '0' → whole.length = 1
  marked : fraction ≠ [] ∨ power ≠ none

namespace Numeral

/-- The fraction of a numeral with the point. -/
def pointed (numeral : Numeral) : Text :=
  if numeral.fraction = [] then [] else '.' :: numeral.fraction

/-- The exponent of a numeral with the letter. -/
def scale (numeral : Numeral) : Text :=
  match numeral.power with
  | none => []
  | some power => Decimal.exponentText power

/-- A numeral without its sign. -/
def unsigned (numeral : Numeral) : Text :=
  numeral.whole ++ (numeral.pointed ++ numeral.scale)

/-- Write a numeral. -/
def text (numeral : Numeral) : Text :=
  (if numeral.negative then ['-'] else []) ++ numeral.unsigned

/-- The decimal that a numeral spells. -/
def decimal (numeral : Numeral) : Decimal :=
  ⟨numeral.negative, Decimal.digitsValue (numeral.whole ++ numeral.fraction),
    numeral.power.getD 0 - numeral.fraction.length⟩

end Numeral

end Json

open Decimal

theorem Decimal.isDigit_of_mem_padded {width n : ℕ} {c : Char} (inside : c ∈ padded width n) :
    c.isDigit = true := by
  rcases List.mem_append.mp inside with zero | digit
  · exact isDigit_of_mem_replicate zero
  · exact Json.isDigit_of_mem_natural digit

theorem Decimal.digitsValue_padded (width n : ℕ) : digitsValue (padded width n) = n :=
  (digitsValue_zeros_append _ _).trans (Json.digitsValue_natural n)

theorem Decimal.readExponent?_exponentText (power : ℤ) :
    readExponent? (exponentText power) = some power := by
  have nonempty : padded 2 power.natAbs ≠ [] := by
    exact List.append_ne_nil_of_right_ne_nil _ Nat.toDigits_ne_nil
  have digits : (padded 2 power.natAbs).all Char.isDigit = true :=
    List.all_eq_true.mpr fun c => isDigit_of_mem_padded
  have size := digitsValue_padded 2 power.natAbs
  rw [exponentText, readExponent?]
  generalize padded 2 power.natAbs = shown at *
  by_cases less : power < 0
  · rw [if_pos less]
    show (if ('e' = 'e' ∨ 'e' = 'E') ∧ shown ≠ [] ∧ shown.all Char.isDigit = true then
      some (-(digitsValue shown : ℤ)) else none) = some power
    rw [if_pos ⟨Or.inl rfl, nonempty, digits⟩, size]
    congr 1
    omega
  · rw [if_neg less]
    show (if ('e' = 'e' ∨ 'e' = 'E') ∧ shown ≠ [] ∧ shown.all Char.isDigit = true then
      some (digitsValue shown : ℤ) else none) = some power
    rw [if_pos ⟨Or.inl rfl, nonempty, digits⟩, size]
    congr 1
    omega

/-- The fraction at the front of a text, behind a point, and what follows it. -/
def Decimal.cutFraction : Text → Text × Text
  | '.' :: more => (more.takeWhile Char.isDigit, more.dropWhile Char.isDigit)
  | more => ([], more)

/-- A numeral is read part by part. -/
theorem Decimal.read?_of_parts {text rest whole behind fraction tail : Text} {negative : Bool}
    {power : ℤ} (sign : takeSign text = (negative, rest))
    (front : rest.takeWhile Char.isDigit = whole) (left : rest.dropWhile Char.isDigit = behind)
    (cut : cutFraction behind = (fraction, tail)) (nonempty : whole ≠ [])
    (scale : readExponent? tail = some power) :
    read? text = some ⟨negative, digitsValue (whole ++ fraction), power - fraction.length⟩ := by
  have parts : read? text =
      if whole = [] ∧ (cutFraction behind).1 = [] then none
      else (readExponent? (cutFraction behind).2).bind fun power =>
        some ⟨negative, digitsValue (whole ++ (cutFraction behind).1),
          power - (cutFraction behind).1.length⟩ := by
    rw [read?, sign, ← front, ← left]
    rfl
  rw [parts, if_neg (fun none => nonempty none.1), cut, scale]
  rfl

namespace Json.Numeral

variable (numeral : Numeral)

theorem cases_scale : numeral.scale = [] ∨ ∃ rest, numeral.scale = 'e' :: rest := by
  rw [scale]
  cases numeral.power with
  | none => exact Or.inl rfl
  | some power => exact Or.inr ⟨_, rfl⟩

/-- Nothing that belongs to the digits is in front of an exponent. -/
theorem head?_scale : ∀ c ∈ numeral.scale.head?, c.isDigit = false := by
  rcases numeral.cases_scale with none | ⟨rest, letter⟩
  · rw [none]
    nofun
  · rw [letter]
    intro c first
    obtain rfl := Option.some.inj first
    rfl

theorem head?_pointed_append :
    ∀ c ∈ (numeral.pointed ++ numeral.scale).head?, c.isDigit = false := by
  rw [pointed]
  by_cases empty : numeral.fraction = []
  · rw [if_pos empty]
    exact numeral.head?_scale
  · rw [if_neg empty]
    intro c first
    obtain rfl := Option.some.inj first
    rfl

theorem takeWhile_unsigned : numeral.unsigned.takeWhile Char.isDigit = numeral.whole := by
  rw [unsigned, List.takeWhile_append_of_pos numeral.wholeDigits,
    takeWhile_of_head? numeral.head?_pointed_append, List.append_nil]

theorem dropWhile_unsigned :
    numeral.unsigned.dropWhile Char.isDigit = numeral.pointed ++ numeral.scale := by
  rw [unsigned, List.dropWhile_append_of_pos numeral.wholeDigits,
    dropWhile_of_head? numeral.head?_pointed_append]

/-- A numeral without its sign begins with a digit. -/
theorem exists_unsigned_eq_cons :
    ∃ c rest, numeral.unsigned = c :: rest ∧ c.isDigit = true := by
  obtain ⟨c, more, cut⟩ := List.exists_cons_of_ne_nil numeral.nonempty
  refine ⟨c, more ++ (numeral.pointed ++ numeral.scale), ?_, ?_⟩
  · rw [unsigned, cut, List.cons_append]
  · exact numeral.wholeDigits c (cut ▸ List.mem_cons_self)

theorem takeSign_text : takeSign numeral.text = (numeral.negative, numeral.unsigned) := by
  rw [text]
  cases numeral.negative with
  | true => rfl
  | false =>
      obtain ⟨c, rest, cut, digit⟩ := numeral.exists_unsigned_eq_cons
      rw [if_neg Bool.false_ne_true, List.nil_append, cut]
      unfold takeSign
      split
      · next same => cases (List.cons.inj same).1 ▸ digit
      · next same => cases (List.cons.inj same).1 ▸ digit
      · rfl

theorem readExponent?_scale : readExponent? numeral.scale = some (numeral.power.getD 0) := by
  rw [scale]
  cases numeral.power with
  | none => rfl
  | some power => exact readExponent?_exponentText power

theorem cutFraction_pointed_append :
    cutFraction (numeral.pointed ++ numeral.scale) = (numeral.fraction, numeral.scale) := by
  rw [pointed]
  by_cases empty : numeral.fraction = []
  · rw [if_pos empty, List.nil_append, empty]
    rcases numeral.cases_scale with none | ⟨rest, letter⟩
    · rw [none]
      rfl
    · rw [letter]
      rfl
  · rw [if_neg empty]
    show ((numeral.fraction ++ numeral.scale).takeWhile Char.isDigit,
      (numeral.fraction ++ numeral.scale).dropWhile Char.isDigit) = _
    rw [List.takeWhile_append_of_pos numeral.fractionDigits,
      takeWhile_of_head? numeral.head?_scale, List.append_nil,
      List.dropWhile_append_of_pos numeral.fractionDigits,
      dropWhile_of_head? numeral.head?_scale]

/-- A numeral is read as the decimal that it spells. -/
theorem read?_text : Decimal.read? numeral.text = some numeral.decimal :=
  read?_of_parts numeral.takeSign_text numeral.takeWhile_unsigned numeral.dropWhile_unsigned
    numeral.cutFraction_pointed_append numeral.nonempty numeral.readExponent?_scale

theorem pointed_append_ne_nil : numeral.pointed ++ numeral.scale ≠ [] := by
  intro nothing
  obtain ⟨point, letter⟩ := List.append_eq_nil_iff.mp nothing
  rcases numeral.marked with some | some
  · rw [pointed, if_neg some] at point
    cases point
  · obtain ⟨power, shown⟩ := Option.ne_none_iff_exists'.mp some
    rw [scale, shown] at letter
    cases letter

/-- A point is followed by a digit. -/
theorem pointed_complete : ¬ ((numeral.pointed ++ numeral.scale).head? = some '.' ∧
    (!(numeral.pointed ++ numeral.scale).tail.head?.any Char.isDigit) = true) := by
  rintro ⟨point, bare⟩
  by_cases empty : numeral.fraction = []
  · rw [pointed, if_pos empty, List.nil_append] at point
    rcases numeral.cases_scale with none | ⟨rest, letter⟩
    · rw [none] at point
      cases point
    · rw [letter] at point
      cases point
  · obtain ⟨c, more, cut⟩ := List.exists_cons_of_ne_nil empty
    have digit : c.isDigit = true := numeral.fractionDigits c (cut ▸ List.mem_cons_self)
    rw [pointed, if_neg empty, cut] at bare
    have closed : (!c.isDigit) = true := bare
    rw [digit] at closed
    cases closed

/-- **A numeral is the number that its decimal is read as.** -/
theorem ofNumeral?_text :
    ofNumeral? numeral.text = some (.number numeral.decimal.toBinary64) := by
  have sign : numeral.text.head? = some '-' ↔ numeral.negative = true := by
    rw [text]
    cases numeral.negative with
    | true => exact iff_of_true rfl rfl
    | false =>
        obtain ⟨c, rest, cut, digit⟩ := numeral.exists_unsigned_eq_cons
        rw [if_neg Bool.false_ne_true, List.nil_append, cut]
        refine iff_of_false (fun same => ?_) Bool.false_ne_true
        rw [Option.some.inj same] at digit
        cases digit
  have size : (if numeral.text.head? = some '-' then numeral.text.tail else numeral.text) =
      numeral.unsigned := by
    by_cases negative : numeral.negative = true
    · rw [if_pos (sign.mpr negative), text, if_pos negative]
      rfl
    · rw [if_neg (mt sign.mp negative), text, if_neg negative]
      rfl
  have plain : ¬ (numeral.whole = [] ∨
      (numeral.whole.head? = some '0' ∧ numeral.whole.length ≠ 1)) := by
    rintro (empty | ⟨zero, longer⟩)
    · exact numeral.nonempty empty
    · exact longer (numeral.unpadded zero)
  rw [ofNumeral?, size]
  dsimp only
  rw [takeWhile_unsigned, dropWhile_unsigned, if_neg plain, if_neg numeral.pointed_append_ne_nil,
    if_neg numeral.pointed_complete, read?_text]
  rfl

end Json.Numeral

/-! ## Layouts -/

namespace Decimal

section Layout

variable {digits : Text}

theorem size_of_digits (negative : Bool) (digits : Text) {count : ℕ} {power places : ℤ}
    (balance : count + power = places) :
    size ⟨negative, digitsValue (digits ++ List.replicate count '0'), power⟩ =
      digitsValue digits * 10 ^ places := by
  have ten : (10 : ℚ) ≠ 0 := by norm_num
  rw [size, digitsValue_append_zeros, ← balance, zpow_add₀ ten, zpow_natCast]
  push_cast
  ring

/-- A row of digits with a point in it is a numeral. -/
theorem exists_pointed (negative : Bool) {row : Text} {point : ℕ}
    (all : ∀ c ∈ row, c.isDigit = true) (positive : 0 < point) (proper : point < row.length)
    (single : row.head? = some '0' → point = 1) :
    ∃ numeral : Json.Numeral,
      numeral.text = (if negative then ['-'] else []) ++ (row.take point ++ '.' :: row.drop point) ∧
      numeral.decimal = ⟨negative, digitsValue row, point - row.length⟩ := by
  have wholeLength : (row.take point).length = point := by
    rw [List.length_take]
    omega
  have fractionLength : (row.drop point).length = row.length - point := List.length_drop
  have whole : row.take point ≠ [] := by
    apply List.ne_nil_of_length_pos
    omega
  have fraction : row.drop point ≠ [] := by
    apply List.ne_nil_of_length_pos
    omega
  have unpadded : (row.take point).head? = some '0' → (row.take point).length = 1 := by
    intro zero
    rw [List.head?_take, if_neg positive.ne'] at zero
    rw [wholeLength, single zero]
  refine ⟨⟨negative, row.take point, row.drop point, none,
    fun c among => all c (List.mem_of_mem_take among),
    fun c among => all c (List.mem_of_mem_drop among), whole, unpadded, Or.inl fraction⟩,
    ?text, ?decimal⟩
  case text =>
    rw [Json.Numeral.text, Json.Numeral.unsigned, Json.Numeral.pointed, if_neg fraction]
    exact congrArg (_ ++ ·) (congrArg (_ ++ ·) (List.append_nil _))
  case decimal =>
    have power : (0 : ℤ) - (row.length - point : ℕ) = point - row.length := by omega
    rw [Json.Numeral.decimal, List.take_append_drop, fractionLength, Option.getD_none, power]

/-- Digits with a point among them, or between zeros, are a numeral. -/
theorem exists_positional (negative : Bool) (all : ∀ c ∈ digits, c.isDigit = true)
    (nonempty : digits ≠ []) (solid : digits.head? ≠ some '0') (places : ℤ) :
    ∃ numeral : Json.Numeral,
      numeral.text = (if negative then ['-'] else []) ++ positional digits places ∧
      numeral.decimal.negative = negative ∧
      numeral.decimal.size = digitsValue digits * 10 ^ (places - digits.length) := by
  have long : 0 < digits.length := List.length_pos_of_ne_nil nonempty
  rw [positional]
  generalize leadIs : (1 - places).toNat = lead
  generalize pointIs : (max 1 places).toNat = point
  generalize restIs : point + 1 - (List.replicate lead '0' ++ digits).length = rest
  generalize rowIs : List.replicate lead '0' ++ digits ++ List.replicate rest '0' = row
  have length : row.length = lead + digits.length + rest := by
    rw [← rowIs, List.length_append, List.length_append, List.length_replicate,
      List.length_replicate]
  rw [List.length_append, List.length_replicate] at restIs
  have inside : ∀ c ∈ row, c.isDigit = true := by
    rw [← rowIs]
    exact List.forall_mem_append.mpr ⟨List.forall_mem_append.mpr
      ⟨fun c => isDigit_of_mem_replicate, all⟩, fun c => isDigit_of_mem_replicate⟩
  -- There is a zero in front only where the point is behind the first digit.
  have single : row.head? = some '0' → point = 1 := by
    intro zero
    by_contra more
    obtain rfl : lead = 0 := by omega
    obtain ⟨c, others, rfl⟩ := List.exists_cons_of_ne_nil nonempty
    rw [← rowIs] at zero
    exact solid zero
  obtain ⟨numeral, same, spelled⟩ :=
    exists_pointed negative inside (by omega) (by omega) single
  refine ⟨numeral, same, congrArg Decimal.negative spelled, ?_⟩
  have value : digitsValue row = digitsValue (digits ++ List.replicate rest '0') := by
    rw [← rowIs, List.append_assoc, digitsValue_zeros_append]
  have balance : (rest : ℤ) + (point - row.length) = places - digits.length := by omega
  rw [spelled, value, size_of_digits negative digits balance]

/-- Digits with an exponent behind them are a numeral. -/
theorem exists_scientific (negative : Bool) (all : ∀ c ∈ digits, c.isDigit = true)
    (nonempty : digits ≠ []) (places : ℤ) :
    ∃ numeral : Json.Numeral,
      numeral.text = (if negative then ['-'] else []) ++ digits.take 1 ++
        (if digits.drop 1 = [] then [] else '.' :: digits.drop 1) ++ exponentText (places - 1) ∧
      numeral.decimal.negative = negative ∧
      numeral.decimal.size = digitsValue digits * 10 ^ (places - digits.length) := by
  obtain ⟨c, fraction, rfl⟩ := List.exists_cons_of_ne_nil nonempty
  refine ⟨⟨negative, [c], fraction, some (places - 1),
    List.forall_mem_singleton.mpr (all c List.mem_cons_self),
    fun d among => all d (List.mem_cons_of_mem c among), List.cons_ne_nil c [], fun _ => rfl,
    Or.inr (Option.some_ne_none _)⟩, ?text, rfl, ?size⟩
  case text =>
    rw [Json.Numeral.text, Json.Numeral.unsigned, List.append_assoc, List.append_assoc]
    rfl
  case size =>
    have balance : (0 : ℕ) + (places - 1 - fraction.length) = places - (c :: fraction).length := by
      rw [List.length_cons]
      omega
    have value := size_of_digits negative (c :: fraction) balance
    rw [List.replicate_zero, List.append_nil] at value
    exact value

/-- A decimal that is not zero is written as a numeral that spells a decimal of its size. -/
theorem exists_numeral {d : Decimal} (nonzero : d.digits ≠ 0) :
    ∃ numeral : Json.Numeral, numeral.text = d.text ∧ numeral.decimal.negative = d.negative ∧
      numeral.decimal.size = d.size := by
  obtain ⟨count, cut⟩ := exists_dropTrailing_append '0' (natural d.digits)
  rw [text]
  dsimp only
  rw [if_neg nonzero]
  generalize dropTrailing (· == '0') (natural d.digits) = shown at cut ⊢
  generalize placesIs : ((natural d.digits).length + d.exponent : ℤ) = places
  have all : ∀ c ∈ shown, c.isDigit = true := fun c among =>
    Json.isDigit_of_mem_natural (cut ▸ List.mem_append_left _ among)
  have value : d.digits = digitsValue (shown ++ List.replicate count '0') := by
    rw [← cut, Json.digitsValue_natural]
  have nonempty : shown ≠ [] := by
    rintro rfl
    rw [digitsValue_append_zeros] at value
    exact nonzero (value.trans (Nat.zero_mul _))
  have solid : shown.head? ≠ some '0' := by
    intro zero
    have front : (natural d.digits).head? = some '0' := by
      rw [cut, List.head?_append, zero]
      rfl
    have single := congrArg digitsValue (Json.natural_of_head front)
    rw [Json.digitsValue_natural] at single
    exact nonzero single
  have size : digitsValue shown * (10 : ℚ) ^ (places - shown.length) = d.size := by
    have balance : count + d.exponent = places - shown.length := by
      rw [← placesIs, cut, List.length_append, List.length_replicate]
      omega
    rw [← size_of_digits d.negative shown balance, ← value]
  by_cases near : d.digits = 0 ∨ (-4 < places ∧ places ≤ 16)
  · rw [if_pos near]
    obtain ⟨numeral, same, sign, sized⟩ := exists_positional d.negative all nonempty solid places
    exact ⟨numeral, same, sign, sized.trans size⟩
  · rw [if_neg near]
    obtain ⟨numeral, same, sign, sized⟩ := exists_scientific d.negative all nonempty places
    exact ⟨numeral, same, sign, sized.trans size⟩

end Layout

end Decimal

/-! ## Numbers -/

namespace Json

/-- A zero as a numeral. -/
def Numeral.zero (negative : Bool) : Numeral where
  negative := negative
  whole := ['0']
  fraction := ['0']
  power := none
  wholeDigits := List.forall_mem_singleton.mpr rfl
  fractionDigits := List.forall_mem_singleton.mpr rfl
  nonempty := List.cons_ne_nil _ _
  unpadded := fun _ => rfl
  marked := Or.inl (List.cons_ne_nil _ _)

/-- A finite number is written as a numeral that is read as it. -/
theorem exists_numeral_of_canonical {negative : Bool} {significand : ℕ} {e : ℤ}
    (canonical : (Binary64.finite negative significand e).Canonical) :
    ∃ numeral : Numeral, numeral.text = (Decimal.shortest negative significand e).text ∧
      numeral.decimal.toBinary64 = .finite negative significand e := by
  have back := toBinary64_shortest canonical
  by_cases none : significand = 0
  · subst none
    have shown : Decimal.shortest negative 0 e = ⟨negative, 0, 0⟩ := by
      rw [Decimal.shortest, if_pos rfl]
    have nothing : (Numeral.zero negative).decimal.digits = 0 := rfl
    rw [shown, toBinary64, if_pos rfl] at back
    rw [shown]
    refine ⟨.zero negative, ?_, ?_⟩
    · cases negative <;> rfl
    · rw [toBinary64, if_pos nothing]
      exact back
  · have nonzero : (Decimal.shortest negative significand e).digits ≠ 0 := by
      intro zero
      rw [toBinary64, if_pos zero] at back
      exact none (Binary64.finite.inj back).2.1.symm
    obtain ⟨numeral, same, sign, size⟩ := Decimal.exists_numeral nonzero
    exact ⟨numeral, same, (toBinary64_congr sign size).trans back⟩

theorem isNumeral_of_isDigit {c : Char} (digit : c.isDigit = true) : isNumeral c = true := by
  simp [isNumeral, digit]

theorem isNumeral_of_mem_exponentText {power : ℤ} {c : Char}
    (inside : c ∈ exponentText power) : isNumeral c = true := by
  rw [exponentText, List.mem_cons, List.mem_cons] at inside
  rcases inside with rfl | sign | digit
  · rfl
  · rw [sign]
    split <;> rfl
  · exact isNumeral_of_isDigit (isDigit_of_mem_padded digit)

namespace Numeral

variable (numeral : Numeral)

theorem isNumeral_of_mem_text : ∀ c ∈ numeral.text, isNumeral c = true := by
  have sign : ∀ c ∈ (if numeral.negative then ['-'] else []), isNumeral c = true := by
    cases numeral.negative with
    | true => exact List.forall_mem_singleton.mpr rfl
    | false => exact List.forall_mem_nil _
  have whole : ∀ c ∈ numeral.whole, isNumeral c = true :=
    fun c inside => isNumeral_of_isDigit (numeral.wholeDigits c inside)
  have pointed : ∀ c ∈ numeral.pointed, isNumeral c = true := by
    rw [Numeral.pointed]
    by_cases empty : numeral.fraction = []
    · rw [if_pos empty]
      exact List.forall_mem_nil _
    · rw [if_neg empty]
      exact List.forall_mem_cons.mpr
        ⟨rfl, fun c inside => isNumeral_of_isDigit (numeral.fractionDigits c inside)⟩
  have scale : ∀ c ∈ numeral.scale, isNumeral c = true := by
    rw [Numeral.scale]
    cases numeral.power with
    | none => exact List.forall_mem_nil _
    | some power => exact fun c => isNumeral_of_mem_exponentText
  exact List.forall_mem_append.mpr ⟨sign, List.forall_mem_append.mpr
    ⟨whole, List.forall_mem_append.mpr ⟨pointed, scale⟩⟩⟩

theorem begins_text : Begins OpensScalar numeral.text := by
  rw [text]
  cases numeral.negative with
  | true => exact ⟨'-', numeral.unsigned, rfl, by decide⟩
  | false =>
      obtain ⟨c, rest, cut, digit⟩ := numeral.exists_unsigned_eq_cons
      exact ⟨c, rest, cut, opensScalar_of_isDigit digit⟩

theorem scalar?_text {rest : Text} (ends : EndsNumeral rest) :
    scalar? (numeral.text ++ rest) = some (.number numeral.decimal.toBinary64, rest) := by
  rw [scalar?, number?_append numeral.isNumeral_of_mem_text ends, ofNumeral?_text]
  rfl

end Numeral

/-- **What is written for a number in its one form is read as it.** -/
theorem readsBack_of_canonical {x : Binary64} (canonical : x.Canonical) : ReadsBack x := by
  cases x with
  | nan => exact readsBack_nan
  | infinite negative => exact readsBack_infinite negative
  | finite negative significand e =>
      obtain ⟨numeral, same, back⟩ := exists_numeral_of_canonical canonical
      have shown : (Binary64.finite negative significand e).text specialNames = numeral.text :=
        same.symm
      refine ⟨?_, fun rest ends => ?_⟩
      · rw [shown]
        exact numeral.begins_text
      · rw [shown, numeral.scalar?_text ends, back]

end Json

end DirectiveReview
