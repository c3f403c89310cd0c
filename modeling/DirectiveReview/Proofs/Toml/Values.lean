/-
# Values and tables

Whether two values are the same can be decided: they are compared inside each other, as far
as they go.  With this it can be computed what a document describes.

A table that has been changed under a key has the new value there, and else what it had.
-/

import DirectiveReview.Proofs.Entries
import DirectiveReview.Toml.Value

namespace DirectiveReview.Toml

namespace Value

mutual

/-- Two values are the same. -/
def same : Value → Value → Bool
  | .string a, .string b => a = b
  | .integer a, .integer b => a = b
  | .float a, .float b => a = b
  | .boolean a, .boolean b => a = b
  | .moment a, .moment b => a = b
  | .array items, .array others => sameItems items others
  | .table entries, .table others => sameEntries entries others
  | _, _ => false

/-- Two rows of values are the same. -/
def sameItems : List Value → List Value → Bool
  | [], [] => true
  | item :: rest, other :: others => same item other && sameItems rest others
  | _, _ => false

/-- Two tables are the same, the order of their entries included. -/
def sameEntries : List (Text × Value) → List (Text × Value) → Bool
  | [], [] => true
  | (key, value) :: rest, (other, otherValue) :: others =>
    decide (key = other) && same value otherValue && sameEntries rest others
  | _, _ => false

end

mutual

theorem same_iff : (v w : Value) → (same v w = true ↔ v = w)
  | .string _, w => by cases w <;> simp [same]
  | .integer _, w => by cases w <;> simp [same]
  | .float _, w => by cases w <;> simp [same]
  | .boolean _, w => by cases w <;> simp [same]
  | .moment _, w => by cases w <;> simp [same]
  | .array items, w => by
      cases w with
      | array others => rw [same, sameItems_iff items others, Value.array.injEq]
      | _ => simp [same]
  | .table entries, w => by
      cases w with
      | table others => rw [same, sameEntries_iff entries others, Value.table.injEq]
      | _ => simp [same]

theorem sameItems_iff : (items others : List Value) →
    (sameItems items others = true ↔ items = others)
  | [], others => by cases others <;> simp [sameItems]
  | item :: rest, [] => by simp [sameItems]
  | item :: rest, other :: others => by
      rw [sameItems, Bool.and_eq_true, same_iff item other, sameItems_iff rest others,
        List.cons.injEq]

theorem sameEntries_iff : (entries others : List (Text × Value)) →
    (sameEntries entries others = true ↔ entries = others)
  | [], others => by cases others <;> simp [sameEntries]
  | (key, value) :: rest, [] => by simp [sameEntries]
  | (key, value) :: rest, (other, otherValue) :: others => by
      rw [sameEntries, Bool.and_eq_true, Bool.and_eq_true, decide_eq_true_iff,
        same_iff value otherValue, sameEntries_iff rest others, List.cons.injEq, Prod.mk.injEq]

end

instance : DecidableEq Value :=
  fun v w => decidable_of_iff _ (same_iff v w)

end Value

namespace Table

theorem get?_set (table : Table) (key other : Text) (value : Value) :
    (table.set key value).get? other = if other = key then some value else table.get? other :=
  lookup_put table key other value

end Table

end DirectiveReview.Toml
