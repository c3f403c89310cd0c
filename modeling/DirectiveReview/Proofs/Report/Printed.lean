/-
# The printed text of a report

A report for programs is a JSON value on one line of plain ASCII: whatever stands in the
strings of the value, its text holds no control and no character beyond ASCII.  Escape
sequences start with a control, so printing such a text leaves nothing of it out.
-/

import DirectiveReview.Proofs.Text.Ascii
import DirectiveReview.Proofs.Text.Words
import DirectiveReview.Report.Document
import DirectiveReview.Report.Terminal

namespace DirectiveReview

open Text

/-! ## Numbers -/

namespace Decimal

theorem asciiLine_positional {digits : Text} (ascii : AsciiLine digits) (places : Int) :
    AsciiLine (positional digits places) := by
  have zeros (count : Nat) : AsciiLine (List.replicate count '0') := .replicate (by decide) count
  unfold positional
  dsimp only
  have filled := ((zeros (1 - places).toNat).append ascii).append (zeros
    ((max 1 places).toNat + 1 - (List.replicate (1 - places).toNat '0' ++ digits).length))
  exact (filled.of_subset (List.take_subset _ _)).append
    (.cons (by decide) (filled.of_subset (List.drop_subset _ _)))

theorem asciiLine_exponentText (power : Int) : AsciiLine (exponentText power) := by
  have sign : AsciiLine [if power < 0 then '-' else '+'] := by
    split
    · decide
    · decide
  exact .cons (by decide) (sign.cons (asciiLine_padded 2 power.natAbs))

theorem asciiLine_text (d : Decimal) : AsciiLine d.text := by
  have sign : AsciiLine (if d.negative then ['-'] else []) :=
    .ite (fun _ => by decide) fun _ => .nil
  have digits : AsciiLine (if d.digits = 0 then natural d.digits
      else dropTrailing (· == '0') (natural d.digits)) := by
    have all := asciiLine_natural d.digits
    exact .ite (fun _ => all) fun _ => all.of_subset (dropTrailing_subset _ _)
  unfold text
  dsimp only
  generalize (if d.digits = 0 then natural d.digits
    else dropTrailing (· == '0') (natural d.digits)) = shown at digits ⊢
  split
  · exact sign.append (asciiLine_positional digits _)
  · have first := digits.of_subset (List.take_subset 1 shown)
    have fraction : AsciiLine (if shown.drop 1 = [] then [] else '.' :: shown.drop 1) :=
      .ite (fun _ => .nil) fun _ =>
        .cons (by decide) (digits.of_subset (List.drop_subset 1 shown))
    exact ((sign.append first).append fraction).append (asciiLine_exponentText _)

end Decimal

theorem Binary64.asciiLine_text {names : SpecialNames} (nan : AsciiLine names.nan)
    (infinity : AsciiLine names.infinity) (x : Binary64) : AsciiLine (x.text names) := by
  cases x with
  | nan => exact nan
  | infinite negative =>
      have sign : AsciiLine (if negative then ['-'] else []) :=
        .ite (fun _ => by decide) fun _ => .nil
      exact sign.append infinity
  | finite negative significand exponent => exact Decimal.asciiLine_text _

/-! ## Values -/

namespace Json

theorem asciiLine_escapedChar (c : Char) : AsciiLine (escapedChar c) := by
  have unit (n : Nat) : AsciiLine (unitEscape n) :=
    AsciiLine.append (by decide) (asciiLine_hexPadded 4 n)
  have visible (there : 0x20 ≤ c.toNat ∧ c.toNat < 0x7f) : AsciiLine [c] :=
    List.forall_mem_singleton.mpr there
  unfold escapedChar
  refine .ite (fun _ => by decide) fun _ => .ite (fun _ => by decide) fun _ => ?_
  refine .ite (fun _ => by decide) fun _ => .ite (fun _ => by decide) fun _ => ?_
  refine .ite (fun _ => by decide) fun _ => .ite (fun _ => by decide) fun _ => ?_
  refine .ite (fun _ => by decide) fun _ => .ite visible fun _ => ?_
  exact .ite (fun _ => unit _) fun _ => (unit _).append (unit _)

theorem asciiLine_stringText (value : Text) : AsciiLine (stringText value) :=
  AsciiLine.append (.cons (by decide) (.flatMap fun c _ => asciiLine_escapedChar c)) (by decide)

mutual

theorem asciiLine_text : (json : Json) → AsciiLine json.text
  | .null => by rw [text]; decide
  | .bool true => by rw [text]; decide
  | .bool false => by rw [text]; decide
  | .integer value => by rw [text]; exact asciiLine_integer value
  | .number value => by rw [text]; exact value.asciiLine_text (by decide) (by decide)
  | .string value => by rw [text]; exact asciiLine_stringText value
  | .array items => by
      rw [text]
      exact .append (.cons (by decide) (.join (by decide) (asciiLine_itemTexts items))) (by decide)
  | .object fields => by
      rw [text]
      exact .append (.cons (by decide) (.join (by decide) (asciiLine_fieldTexts fields)))
        (by decide)

theorem asciiLine_itemTexts : (items : List Json) → ∀ part ∈ itemTexts items, AsciiLine part
  | [] => by rw [itemTexts]; exact List.forall_mem_nil _
  | item :: rest => by
      rw [itemTexts]
      exact List.forall_mem_cons.mpr ⟨asciiLine_text item, asciiLine_itemTexts rest⟩

theorem asciiLine_fieldTexts :
    (fields : List (Text × Json)) → ∀ part ∈ fieldTexts fields, AsciiLine part
  | [] => by rw [fieldTexts]; exact List.forall_mem_nil _
  | (name, value) :: rest => by
      rw [fieldTexts]
      exact List.forall_mem_cons.mpr
        ⟨((asciiLine_stringText name).append (by decide)).append (asciiLine_text value),
          asciiLine_fieldTexts rest⟩

end

end Json

/-! ## Printing -/

namespace Terminal

theorem sequenceLength_of_ne {c : Char} (other : c ≠ '\x1b') (rest : Text) :
    sequenceLength (c :: rest) = 0 := by
  unfold sequenceLength
  split
  · next same => exact absurd (List.cons.inj same).1 other
  · rfl

/-- A text without the character that starts escape sequences is printed as it is. -/
theorem plain_eq_self {text : Text} (bare : '\x1b' ∉ text) : plain text = text := by
  rw [plain]
  induction text with
  | nil => rfl
  | cons c rest ih =>
      have front : c ≠ '\x1b' := fun same => bare (same ▸ List.mem_cons_self)
      have behind : '\x1b' ∉ rest := fun inside => bare (List.mem_cons_of_mem c inside)
      rw [plainAfter, sequenceLength_of_ne front]
      exact congrArg (c :: ·) (ih behind)

theorem plain_line {text : Text} (ascii : AsciiLine text) :
    plain (text ++ ['\n']) = text ++ ['\n'] := by
  apply plain_eq_self
  intro inside
  rcases List.mem_append.mp inside with control | feed
  · exact absurd (ascii _ control).1 (by decide)
  · cases List.mem_singleton.mp feed

end Terminal

/-- A report for programs is printed as it is. -/
theorem Report.plain_document (review : Review) (about : Meta) :
    Terminal.plain ((document review about).text ++ ['\n']) =
      (document review about).text ++ ['\n'] :=
  Terminal.plain_line (document review about).asciiLine_text

end DirectiveReview
