/-
# Lists of entries

File trees and tables are lists of entries that are looked up by their keys, the first one
with a key being the one that counts.  Putting an entry replaces those with its key, or adds
it at the end where there is none; afterwards its value is the one under its key, and every
other key has what it had.
-/

namespace DirectiveReview

variable {α β : Type} [BEq α] [LawfulBEq α] [DecidableEq α]

theorem lookup_map_replace (entries : List (α × β)) (key other : α) (value : β) :
    (entries.map fun e => if e.1 = key then (key, value) else e).lookup other =
      if other = key then (entries.lookup key).map fun _ => value else entries.lookup other := by
  induction entries with
  | nil => split <;> rfl
  | cons e rest ih =>
      obtain ⟨place, old⟩ := e
      rw [List.map_cons]
      by_cases here : place = key
      · subst here
        rw [if_pos rfl, List.lookup_cons, List.lookup_cons, List.lookup_cons, ih]
        by_cases same : other = place
        · subst same
          simp
        · simp [same, beq_false_of_ne same]
      · rw [if_neg here, List.lookup_cons, List.lookup_cons, List.lookup_cons, ih]
        by_cases same : other = key
        · subst same
          simp [beq_false_of_ne (Ne.symm here)]
        · simp [same]

/-- An entry that has been put is found under its key, and nothing else has changed. -/
theorem lookup_put (entries : List (α × β)) (key other : α) (value : β) :
    List.lookup other (if (entries.lookup key).isSome = true then
        entries.map fun e => if e.1 = key then (key, value) else e
      else entries ++ [(key, value)]) =
      if other = key then some value else entries.lookup other := by
  by_cases there : (entries.lookup key).isSome = true
  · obtain ⟨old, found⟩ := Option.isSome_iff_exists.mp there
    rw [if_pos there, lookup_map_replace, found, Option.map_some]
  · rw [if_neg there, List.lookup_append, List.lookup_cons, List.lookup_nil]
    by_cases same : other = key
    · subst same
      simp [Option.not_isSome_iff_eq_none.mp there]
    · simp [same, beq_false_of_ne same]

end DirectiveReview
