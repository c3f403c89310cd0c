/-
# Plain lines of ASCII

A text of printable ASCII characters, without controls, is a line by itself, and the
space is the only blank that it can hold.  Such texts are closed under the ways in which
texts are put together, and numerals in any base up to sixteen are among them.
-/

import DirectiveReview.Proofs.Text.Lines
import DirectiveReview.Proofs.Text.Searches
import DirectiveReview.Text.Blank
import DirectiveReview.Text.Numeral
import Mathlib.Data.Nat.Digits.Defs

namespace DirectiveReview

/-- A text is one line of ASCII, without controls. -/
def Text.AsciiLine (text : Text) : Prop :=
  ∀ c ∈ text, 0x20 ≤ c.toNat ∧ c.toNat < 0x7f

instance (text : Text) : Decidable text.AsciiLine :=
  List.decidableBAll _ text

namespace Text.AsciiLine

variable {text first second : Text}

theorem nil : AsciiLine [] :=
  List.forall_mem_nil _

theorem append (before : AsciiLine first) (behind : AsciiLine second) :
    AsciiLine (first ++ second) :=
  List.forall_mem_append.mpr ⟨before, behind⟩

theorem cons {c : Char} (front : AsciiLine [c]) (behind : AsciiLine text) :
    AsciiLine (c :: text) :=
  front.append behind

theorem ite {condition : Prop} [Decidable condition] (yes : condition → AsciiLine first)
    (no : ¬ condition → AsciiLine second) : AsciiLine (if condition then first else second) := by
  split
  · next holds => exact yes holds
  · next fails => exact no fails

theorem of_subset (part : first ⊆ second) (whole : AsciiLine second) : AsciiLine first :=
  fun c inside => whole c (part inside)

theorem replicate {c : Char} (one : AsciiLine [c]) (count : Nat) :
    AsciiLine (List.replicate count c) := by
  intro other inside
  obtain rfl := List.eq_of_mem_replicate inside
  exact one other List.mem_cons_self

theorem join {separator : Text} {parts : List Text} (between : AsciiLine separator)
    (each : ∀ part ∈ parts, AsciiLine part) : AsciiLine (Text.join separator parts) :=
  forall_mem_join between each

theorem flatMap {α : Type} {f : α → Text} {values : List α}
    (each : ∀ value ∈ values, AsciiLine (f value)) : AsciiLine (values.flatMap f) := by
  intro c inside
  obtain ⟨value, member, among⟩ := List.mem_flatMap.mp inside
  exact each value member c among

/-- A line of ASCII holds no other character. -/
theorem not_mem {c : Char} (ascii : AsciiLine text)
    (other : ¬ (0x20 ≤ c.toNat ∧ c.toNat < 0x7f)) : c ∉ text :=
  fun inside => other (ascii c inside)

/-- A line of ASCII is one line. -/
theorem oneLine (ascii : AsciiLine text) : OneLine text := by
  intro c inside
  refine not_isLineBreak_of (p := fun c => 0x20 ≤ c.toNat && c.toNat < 0x7f) (by decide) ?_
  simpa using ascii c inside

/-- The space is the only blank in it. -/
theorem isBlank_eq {c : Char} (ascii : AsciiLine text) (inside : c ∈ text) :
    isBlank c = (c == ' ') := by
  obtain ⟨low, high⟩ := ascii c inside
  have space : c = ' ' ↔ c.toNat = 0x20 := Char.toNat_inj.symm
  rw [Bool.eq_iff_iff, beq_iff_eq, space]
  simp only [isBlank, isWhite, Bool.or_eq_true, Bool.and_eq_true, decide_eq_true_eq, beq_iff_eq]
  omega

end Text.AsciiLine

open Text

/-! ## Numerals -/

theorem asciiLine_digitChar {d : Nat} (small : d < 16) : AsciiLine [d.digitChar] := by
  revert d
  decide

theorem asciiLine_toDigits {base : Nat} (wide : 1 < base) (small : base ≤ 16) (n : Nat) :
    AsciiLine (Nat.toDigits base n) := by
  induction n using Nat.strongRecOn with
  | ind n ih =>
      rw [Nat.toDigits_eq_if wide]
      split
      · next last => exact asciiLine_digitChar (Nat.lt_of_lt_of_le last small)
      · next more =>
          have shorter : n / base < n := Nat.div_lt_self (by omega) wide
          have last : n % base < base := Nat.mod_lt n (by omega)
          exact (ih _ shorter).append (asciiLine_digitChar (Nat.lt_of_lt_of_le last small))

theorem asciiLine_natural (n : Nat) : AsciiLine (natural n) :=
  asciiLine_toDigits (by decide) (by decide) n

theorem asciiLine_integer (i : Int) : AsciiLine (integer i) := by
  cases i with
  | ofNat n => exact asciiLine_natural n
  | negSucc n => exact .cons (by decide) (asciiLine_natural (n + 1))

theorem asciiLine_padded (width n : Nat) : AsciiLine (padded width n) :=
  (AsciiLine.replicate (by decide) _).append (asciiLine_natural n)

theorem asciiLine_hexPadded (width n : Nat) : AsciiLine (hexPadded width n) :=
  (AsciiLine.replicate (by decide) _).append (asciiLine_toDigits (by decide) (by decide) n)

end DirectiveReview
