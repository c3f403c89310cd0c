/-
# Laws of searching and cutting

What is found in a text is there, and what is not found is not: a marker is found
exactly in the texts that contain it.  Where it is found first depends on more than
the place at which it was put, because an occurrence can begin before that place and
end behind it.  A marker whose first character does not come again in it cannot be
found so.

Cutting at a character and joining with it undo each other.
-/

import DirectiveReview.Text.Basic
import Mathlib.Data.List.Infix

namespace DirectiveReview.Text

theorem behind?_append (lead rest : Text) : behind? lead (lead ++ rest) = some rest := by
  induction lead with
  | nil => rfl
  | cons c lead ih => simpa only [List.cons_append, behind?, if_true] using ih

theorem eq_append_of_behind? {lead text rest : Text} (h : behind? lead text = some rest) :
    text = lead ++ rest := by
  induction lead generalizing text with
  | nil => exact Option.some.inj h
  | cons c lead ih =>
      cases text with
      | nil => cases h
      | cons d text =>
          rw [behind?] at h
          split at h
          · next same => rw [same, ih h, List.cons_append]
          · cases h

theorem behind?_eq_none_iff {lead text : Text} : behind? lead text = none ↔ ¬ lead <+: text := by
  constructor
  · rintro none ⟨rest, rfl⟩
    cases none.symm.trans (behind?_append lead rest)
  · intro absent
    rw [Option.eq_none_iff_forall_ne_some]
    exact fun rest found => absent ⟨rest, (eq_append_of_behind? found).symm⟩

/-! ## Finding a marker -/

/-- Nothing is found exactly where the marker does not occur. -/
theorem after?_eq_none_iff {marker text : Text} :
    after? marker text = none ↔ ¬ marker <:+: text := by
  induction text with
  | nil => rw [after?, behind?_eq_none_iff, List.infix_nil, List.prefix_nil]
  | cons c rest ih =>
      rw [List.infix_cons_iff, not_or, ← ih, ← behind?_eq_none_iff, after?]
      cases behind? marker (c :: rest) <;> simp

theorem contains_iff {part text : Text} : contains part text = true ↔ part <:+: text := by
  rw [contains, Option.isSome_iff_ne_none, ne_eq, after?_eq_none_iff, not_not]

/-- A marker that is put behind a text without it is found where it was put.  Its first
character occurs in it once, so no occurrence reaches from the text into the marker. -/
theorem after?_append {first : Char} {others before : Text} (once : first ∉ others)
    (absent : ¬ first :: others <:+: before) (rest : Text) :
    after? (first :: others) (before ++ (first :: others ++ rest)) = some rest := by
  induction before with
  | nil =>
      rw [List.nil_append, List.cons_append, after?, ← List.cons_append, behind?_append]
  | cons c before ih =>
      have notYet : ¬ first :: others <+: c :: before ++ (first :: others ++ rest) := by
        intro early
        rcases List.prefix_or_prefix_of_prefix early (List.prefix_append _ _) with whole | part
        · exact absent whole.isInfix
        · -- The marker goes on where it was put, so its first character comes again in it.
          obtain ⟨tail, same⟩ := part
          rw [← same, List.append_assoc, List.prefix_append_right_inj] at early
          cases tail with
          | nil => exact absent (same ▸ List.append_nil _ ▸ List.infix_rfl)
          | cons d tail =>
              obtain rfl : d = c := (List.cons_prefix_cons.mp early).1
              obtain ⟨rfl, inside⟩ := List.cons.inj same
              exact once (inside ▸ List.mem_append_right _ List.mem_cons_self)
      rw [List.infix_cons_iff, not_or] at absent
      rw [List.cons_append, after?, ← List.cons_append, behind?_eq_none_iff.mpr notYet]
      exact ih absent.2

/-! ## Cutting at a character -/

theorem pieces_eq_splitOn (separator : Char) (text : Text) :
    pieces separator text = text.splitOn separator := by
  induction text with
  | nil => exact (List.splitOn_nil separator).symm
  | cons c rest ih =>
      obtain ⟨piece, more, cut⟩ := List.exists_cons_of_ne_nil (List.splitOn_ne_nil separator rest)
      rw [pieces, ih, cut]
      rw [List.splitOn] at cut ⊢
      rw [List.splitOnP_cons_eq_if_modifyHead, cut]
      simp only [beq_iff_eq, List.modifyHead_cons]

theorem join_singleton (separator part : Text) : join separator [part] = part := by
  simp [join, List.intercalate]

theorem join_cons_cons (separator part next : Text) (more : List Text) :
    join separator (part :: next :: more) =
      part ++ (separator ++ join separator (next :: more)) := by
  simp [join, List.intercalate]

/-- What holds of the characters of a separator and of all parts holds of the text that they
are joined to. -/
theorem forall_mem_join {holds : Char → Prop} {separator : Text} {parts : List Text}
    (between : ∀ c ∈ separator, holds c) (each : ∀ part ∈ parts, ∀ c ∈ part, holds c) :
    ∀ c ∈ join separator parts, holds c := by
  induction parts with
  | nil => exact List.forall_mem_nil _
  | cons part rest ih =>
      obtain ⟨here, others⟩ := List.forall_mem_cons.mp each
      cases rest with
      | nil => rwa [join_singleton]
      | cons next more =>
          rw [join_cons_cons]
          exact List.forall_mem_append.mpr ⟨here, List.forall_mem_append.mpr ⟨between, ih others⟩⟩

/-- What stands before a boundary and what stands behind it are cut apart. -/
theorem pieces_append (separator : Char) (first second : Text) :
    pieces separator (first ++ separator :: second) =
      pieces separator first ++ pieces separator second := by
  simp only [pieces_eq_splitOn, List.splitOn]
  exact List.splitOnP_append_cons first second (beq_self_eq_true separator)

theorem pieces_join {separator : Char} {parts : List Text}
    (free : ∀ part ∈ parts, separator ∉ part) (nonempty : parts ≠ []) :
    pieces separator (join [separator] parts) = parts := by
  rw [pieces_eq_splitOn]
  exact List.splitOn_intercalate separator free nonempty

/-- A piece is what a boundary leaves behind, or a piece of the rest of the text, the
first of which is longer by the character in front. -/
theorem mem_pieces_cons {separator c : Char} {piece rest : Text}
    (cut : piece ∈ pieces separator (c :: rest)) :
    piece = [] ∨ piece ∈ pieces separator rest ∨
      c ≠ separator ∧ ∃ first ∈ pieces separator rest, piece = c :: first := by
  rw [pieces] at cut
  by_cases boundary : c = separator
  · rw [if_pos boundary] at cut
    exact (List.mem_cons.mp cut).imp_right Or.inl
  · rw [if_neg boundary] at cut
    have nonempty : pieces separator rest ≠ [] :=
      pieces_eq_splitOn separator rest ▸ List.splitOn_ne_nil separator rest
    obtain ⟨first, more, behind⟩ := List.exists_cons_of_ne_nil nonempty
    rw [behind] at cut ⊢
    rcases List.mem_cons.mp cut with rfl | later
    · exact Or.inr (Or.inr ⟨boundary, first, List.mem_cons_self, rfl⟩)
    · exact Or.inr (Or.inl (List.mem_cons_of_mem _ later))

theorem mem_of_mem_pieces {separator c : Char} {piece text : Text}
    (cut : piece ∈ pieces separator text) (inside : c ∈ piece) : c ∈ text := by
  induction text generalizing piece with
  | nil =>
      rw [List.mem_singleton.mp cut] at inside
      cases inside
  | cons front rest ih =>
      rcases mem_pieces_cons cut with rfl | later | ⟨-, first, later, rfl⟩
      · cases inside
      · exact List.mem_cons_of_mem _ (ih later inside)
      · exact List.mem_cons.mpr ((List.mem_cons.mp inside).imp_right (ih later))

/-- No piece contains the character at which the text was cut. -/
theorem not_mem_of_mem_pieces {separator : Char} {piece text : Text}
    (cut : piece ∈ pieces separator text) : separator ∉ piece := by
  induction text generalizing piece with
  | nil =>
      rw [List.mem_singleton.mp cut]
      exact List.not_mem_nil
  | cons front rest ih =>
      rcases mem_pieces_cons cut with rfl | later | ⟨inner, first, later, rfl⟩
      · exact List.not_mem_nil
      · exact ih later
      · exact List.not_mem_cons_of_ne_of_not_mem (Ne.symm inner) (ih later)

end DirectiveReview.Text
