/-
# Reading strings of JSON

A string is read in two stages.  First it is cut into code units: a character that is
written as itself gives its code point, an escape by number gives the sixteen bits it
spells, and a short escape gives the character it stands for.  Then the two halves of a
pair are joined to the one character beyond sixteen bits that they stand for.  A half of a
pair without the other stands for no character, so no text is read from it.

The writer escapes every character on its own.  What it writes is therefore read back
character by character, in both stages.
-/

import DirectiveReview.Json.Value
import DirectiveReview.Toml.Lexeme
import Mathlib.Data.Nat.Digits.Defs

namespace DirectiveReview.Json

open Text Toml

/-! ## Code units -/

/-- The number that hexadecimal digits stand for. -/
def hexValue? (digits : Text) : Option Nat :=
  digits.foldlM (fun value c => (hexDigit? c).map (16 * value + ·)) 0

/-- The character that a backslash and one letter stand for. -/
def shortEscape? : Char → Option Char
  | '"' => some '"'
  | '\\' => some '\\'
  | '/' => some '/'
  | 'b' => some '\x08'
  | 'f' => some '\x0c'
  | 'n' => some '\n'
  | 'r' => some '\r'
  | 't' => some '\t'
  | _ => none

/-- Put code units in front of those that were read. -/
def onto (units : List Nat) (read : Option (List Nat × Text)) : Option (List Nat × Text) :=
  read.map fun (more, rest) => (units ++ more, rest)

/-- The code units of a string, from behind its opening quote, with what follows its
closing one.  Controls have to be escaped. -/
def units? : Text → Option (List Nat × Text)
  | [] => none
  | '"' :: rest => some ([], rest)
  | '\\' :: 'u' :: a :: b :: c :: d :: rest =>
    match hexValue? [a, b, c, d] with
    | some unit => onto [unit] (units? rest)
    | none => none
  | '\\' :: c :: rest =>
    match shortEscape? c with
    | some char => onto [char.toNat] (units? rest)
    | none => none
  | c :: rest => if c ≠ '\\' ∧ 0x20 ≤ c.toNat then onto [c.toNat] (units? rest) else none

/-! ## Pairs -/

/-- The first half of a pair. -/
def isHigh (unit : Nat) : Bool :=
  0xd800 ≤ unit && unit < 0xdc00

/-- The second half of a pair. -/
def isLow (unit : Nat) : Bool :=
  0xdc00 ≤ unit && unit < 0xe000

/-- The text that code units stand for, unless a half of a pair stands alone. -/
def joinPairs? : List Nat → Option Text
  | [] => some []
  | [unit] => if unit.isValidChar then some [Char.ofNat unit] else none
  | unit :: next :: rest =>
    if isHigh unit ∧ isLow next then
      (joinPairs? rest).map
        (Char.ofNat (0x10000 + (unit - 0xd800) * 0x400 + (next - 0xdc00)) :: ·)
    else if unit.isValidChar then (joinPairs? (next :: rest)).map (Char.ofNat unit :: ·)
    else none

/-- A string, from behind its opening quote, with what follows its closing one. -/
def string? (text : Text) : Option (Text × Text) := do
  let (units, rest) ← units? text
  let value ← joinPairs? units
  return (value, rest)

/-- The code units of a character. -/
def unitsOf (c : Char) : List Nat :=
  if c.toNat < 0x10000 then [c.toNat]
  else [0xd800 + (c.toNat - 0x10000) / 0x400, 0xdc00 + (c.toNat - 0x10000) % 0x400]

/-! ## Escapes are read back -/

theorem hexDigit?_digitChar {d : Nat} (small : d < 16) : hexDigit? d.digitChar = some d := by
  revert d
  decide

theorem hexValue?_concat (digits : Text) (last : Char) : hexValue? (digits ++ [last]) =
    (hexValue? digits).bind fun value => (hexDigit? last).map (16 * value + ·) := by
  rw [hexValue?, List.foldlM_append]
  simp only [List.foldlM_cons, List.foldlM_nil, bind_pure]
  rfl

theorem hexValue?_toDigits (n : Nat) : hexValue? (Nat.toDigits 16 n) = some n := by
  induction n using Nat.strongRecOn with
  | ind n ih =>
      have last : hexDigit? (n % 16).digitChar = some (n % 16) :=
        hexDigit?_digitChar (Nat.mod_lt n (by decide))
      rw [Nat.toDigits_eq_if (by decide)]
      split
      · next small => simp [hexValue?, hexDigit?_digitChar small]
      · next large =>
          rw [hexValue?_concat, ih (n / 16) (Nat.div_lt_self (by omega) (by decide)), last]
          exact congrArg some (Nat.div_add_mod n 16)

theorem hexValue?_replicate_append (zeros : Nat) (digits : Text) :
    hexValue? (List.replicate zeros '0' ++ digits) = hexValue? digits := by
  induction zeros with
  | zero => rfl
  | succ zeros ih => exact ih

/-- The escape of a code unit has four digits, which spell it. -/
theorem exists_hexPadded {unit : Nat} (small : unit < 0x10000) :
    ∃ a b c d, hexPadded 4 unit = [a, b, c, d] ∧ hexValue? [a, b, c, d] = some unit := by
  have value : hexValue? (hexPadded 4 unit) = some unit := by
    rw [hexPadded, hexValue?_replicate_append, hexValue?_toDigits]
  have length : (hexPadded 4 unit).length = 4 := by
    have short : (Nat.toDigits 16 unit).length ≤ 4 :=
      Nat.toDigits_length 16 unit 4 (by decide) small
    simp only [hexPadded, List.length_append, List.length_replicate]
    omega
  match written : hexPadded 4 unit, length with
  | [a, b, c, d], _ => exact ⟨a, b, c, d, rfl, written ▸ value⟩

theorem units?_unitEscape {unit : Nat} (small : unit < 0x10000) (rest : Text) :
    units? (unitEscape unit ++ rest) = onto [unit] (units? rest) := by
  obtain ⟨a, b, c, d, written, value⟩ := exists_hexPadded small
  have escape : unitEscape unit ++ rest = '\\' :: 'u' :: a :: b :: c :: d :: rest := by
    rw [unitEscape, written]
    rfl
  rw [escape, units?, value]

/-- A character is no half of a pair. -/
theorem toNat_cases (c : Char) :
    c.toNat < 0xd800 ∨ 0xdfff < c.toNat ∧ c.toNat < 0x110000 :=
  c.valid

/-- A character that needs no escape is read as its code point. -/
theorem units?_cons {c : Char} (noQuote : c ≠ '"') (noEscape : c ≠ '\\') (visible : 0x20 ≤ c.toNat)
    (rest : Text) : units? (c :: rest) = onto [c.toNat] (units? rest) := by
  conv_lhs => unfold units?
  split
  · next same => cases same
  · next same => exact absurd (List.cons.inj same).1 noQuote
  · next same => exact absurd (List.cons.inj same).1 noEscape
  · next same => exact absurd (List.cons.inj same).1 noEscape
  · next same =>
      obtain ⟨rfl, rfl⟩ := List.cons.inj same
      exact if_pos ⟨noEscape, visible⟩

/-- An escape is read as the code units of its character. -/
theorem units?_escapedChar (c : Char) (rest : Text) :
    units? (escapedChar c ++ rest) = onto (unitsOf c) (units? rest) := by
  unfold escapedChar
  dsimp only
  by_cases quote : c = '"'
  · subst quote; rfl
  by_cases backslash : c = '\\'
  · subst backslash; rfl
  by_cases feed : c = '\n'
  · subst feed; rfl
  by_cases ret : c = '\r'
  · subst ret; rfl
  by_cases tab : c = '\t'
  · subst tab; rfl
  by_cases back : c = '\x08'
  · subst back; rfl
  by_cases form : c = '\x0c'
  · subst form; rfl
  rw [if_neg quote, if_neg backslash, if_neg feed, if_neg ret, if_neg tab, if_neg back,
    if_neg form]
  by_cases visible : 0x20 ≤ c.toNat ∧ c.toNat < 0x7f
  · have units : unitsOf c = [c.toNat] := if_pos (by omega)
    rw [if_pos visible, units]
    exact units?_cons quote backslash visible.1 rest
  rw [if_neg visible]
  by_cases narrow : c.toNat < 0x10000
  · have units : unitsOf c = [c.toNat] := if_pos narrow
    rw [if_pos narrow, units]
    exact units?_unitEscape narrow rest
  · have units : unitsOf c =
        [0xd800 + (c.toNat - 0x10000) / 0x400, 0xdc00 + (c.toNat - 0x10000) % 0x400] :=
      if_neg narrow
    have range := toNat_cases c
    rw [if_neg narrow, units, List.append_assoc, units?_unitEscape (by omega),
      units?_unitEscape (by omega)]
    cases units? rest <;> rfl

theorem joinPairs?_cons {unit : Nat} (single : isHigh unit = false) (valid : unit.isValidChar)
    (rest : List Nat) : joinPairs? (unit :: rest) = (joinPairs? rest).map (Char.ofNat unit :: ·) := by
  cases rest with
  | nil => exact if_pos valid
  | cons next more => rw [joinPairs?, if_neg (by simp [single]), if_pos valid]

/-- The code units of a character are joined to it. -/
theorem joinPairs?_unitsOf (c : Char) (units : List Nat) :
    joinPairs? (unitsOf c ++ units) = (joinPairs? units).map (c :: ·) := by
  have range := toNat_cases c
  unfold unitsOf
  split
  · next narrow =>
      have single : isHigh c.toNat = false := by
        simp only [isHigh, Bool.and_eq_false_iff, decide_eq_false_iff_not]
        omega
      rw [List.singleton_append, joinPairs?_cons single c.valid, Char.ofNat_toNat]
  · next wide =>
      have high : isHigh (0xd800 + (c.toNat - 0x10000) / 0x400) = true := by
        simp only [isHigh, Bool.and_eq_true, decide_eq_true_eq]
        omega
      have low : isLow (0xdc00 + (c.toNat - 0x10000) % 0x400) = true := by
        simp only [isLow, Bool.and_eq_true, decide_eq_true_eq]
        omega
      have joined : 0x10000 + (0xd800 + (c.toNat - 0x10000) / 0x400 - 0xd800) * 0x400 +
          (0xdc00 + (c.toNat - 0x10000) % 0x400 - 0xdc00) = c.toNat := by
        omega
      rw [List.cons_append, List.singleton_append, joinPairs?, if_pos ⟨high, low⟩, joined,
        Char.ofNat_toNat]

theorem joinPairs?_flatMap_unitsOf (value : Text) :
    joinPairs? (value.flatMap unitsOf) = some value := by
  induction value with
  | nil => rfl
  | cons c rest ih => rw [List.flatMap_cons, joinPairs?_unitsOf, ih]; rfl

theorem units?_flatMap_escapedChar (value rest : Text) :
    units? (value.flatMap escapedChar ++ '"' :: rest) = some (value.flatMap unitsOf, rest) := by
  induction value with
  | nil => rfl
  | cons c more ih =>
      rw [List.flatMap_cons, List.append_assoc, units?_escapedChar, ih]
      rfl

/-- A string that is written is read back. -/
theorem string?_stringText (value rest : Text) :
    string? (value.flatMap escapedChar ++ '"' :: rest) = some (value, rest) := by
  rw [string?, units?_flatMap_escapedChar]
  show (joinPairs? (value.flatMap unitsOf)).bind _ = _
  rw [joinPairs?_flatMap_unitsOf]
  rfl

end DirectiveReview.Json
