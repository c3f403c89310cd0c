/-
# Laws of trimming and of words

Trimming leaves a text alone that has no blank at either end, and cutting at a
character leaves a text alone that does not contain it.  Words are taken off the
front of a text one at a time, so their law is about a single word with blanks
before it and a rest that cannot prolong it.
-/

import DirectiveReview.Text.Blank
import Mathlib.Data.List.TakeWhile

namespace DirectiveReview.Text

/-- A text is solid if it has no blank. -/
theorem solid_of_any {text : Text} (h : text.any isBlank = false) :
    ∀ c ∈ text, isBlank c = false := by
  simpa using h

theorem dropWhile_of_head? {p : Char → Bool} {text : Text} (h : ∀ c ∈ text.head?, p c = false) :
    text.dropWhile p = text := by
  cases text with
  | nil => rfl
  | cons c rest => simp [h c rfl]

theorem takeWhile_of_head? {p : Char → Bool} {text : Text} (h : ∀ c ∈ text.head?, p c = false) :
    text.takeWhile p = [] := by
  cases text with
  | nil => rfl
  | cons c rest => simp [h c rfl]

/-- The first character of a text is that of its first part, if that has one. -/
theorem head?_append_of_all {p : Char → Bool} {first : Text} (nonempty : first ≠ [])
    (all : ∀ c ∈ first, p c = true) (rest : Text) : ∀ c ∈ (first ++ rest).head?, p c = true := by
  obtain ⟨d, more, rfl⟩ := List.exists_cons_of_ne_nil nonempty
  intro c found
  obtain rfl : d = c := Option.some.inj found
  exact all d List.mem_cons_self

/-- Blanks around a text are trimmed off, and no more than these if the text has none at
its ends. -/
theorem trim_append {before text after : Text} (lead : ∀ c ∈ before, isBlank c = true)
    (trail : ∀ c ∈ after, isBlank c = true) (nonempty : text ≠ [])
    (first : ∀ c ∈ text.head?, isBlank c = false)
    (last : ∀ c ∈ text.getLast?, isBlank c = false) : trim (before ++ (text ++ after)) = text := by
  have starts : ∀ c ∈ (text ++ after).head?, isBlank c = false := by
    obtain ⟨c, more, rfl⟩ := List.exists_cons_of_ne_nil nonempty
    exact first
  have ends : ∀ c ∈ text.reverse.head?, isBlank c = false := by
    rwa [List.head?_reverse]
  have trailing : ∀ c ∈ after.reverse, isBlank c = true :=
    fun c inside => trail c (List.mem_reverse.mp inside)
  rw [trim, List.dropWhile_append_of_pos lead, dropWhile_of_head? starts, dropTrailing,
    List.reverse_append, List.dropWhile_append_of_pos trailing, dropWhile_of_head? ends,
    List.reverse_reverse]

theorem trim_eq_self {text : Text} (first : ∀ c ∈ text.head?, isBlank c = false)
    (last : ∀ c ∈ text.getLast?, isBlank c = false) : trim text = text := by
  by_cases empty : text = []
  · subst empty
    rfl
  · have whole : trim ([] ++ (text ++ [])) = text :=
      trim_append (List.forall_mem_nil _) (List.forall_mem_nil _) empty first last
    rwa [List.append_nil] at whole

theorem head?_dropWhile {p : Char → Bool} (text : Text) :
    ∀ c ∈ (text.dropWhile p).head?, p c = false := by
  intro c first
  have behind := List.head?_dropWhile_not p text
  rw [Option.mem_def.mp first] at behind
  exact behind

theorem dropTrailing_subset (p : Char → Bool) (text : Text) : dropTrailing p text ⊆ text := by
  intro c inside
  rw [dropTrailing, List.mem_reverse] at inside
  exact List.mem_reverse.mp (List.dropWhile_subset _ inside)

/-- What is left of a text without its end does not end in what was dropped. -/
theorem getLast?_dropTrailing (p : Char → Bool) (text : Text) :
    ∀ c ∈ (dropTrailing p text).getLast?, p c = false := by
  rw [dropTrailing, List.getLast?_reverse]
  exact head?_dropWhile _

theorem dropTrailing_eq_self {p : Char → Bool} {text : Text}
    (last : ∀ c ∈ text.getLast?, p c = false) : dropTrailing p text = text := by
  have ends : ∀ c ∈ text.reverse.head?, p c = false := by
    rwa [List.head?_reverse]
  rw [dropTrailing, dropWhile_of_head? ends, List.reverse_reverse]

/-- All of an end that is to be dropped is dropped. -/
theorem dropTrailing_append_of_all {p : Char → Bool} {after : Text} (all : ∀ c ∈ after, p c = true)
    (text : Text) : dropTrailing p (text ++ after) = dropTrailing p text := by
  have trailing : ∀ c ∈ after.reverse, p c = true :=
    fun c inside => all c (List.mem_reverse.mp inside)
  rw [dropTrailing, List.reverse_append, List.dropWhile_append_of_pos trailing, dropTrailing]

/-- Nothing is dropped in front of a character that is to stay. -/
theorem dropTrailing_append_of_last {p : Char → Bool} {first : Text}
    (last : ∀ c ∈ first.getLast?, p c = false) (second : Text) :
    dropTrailing p (first ++ second) = first ++ dropTrailing p second := by
  have stay : first.reverse.dropWhile p = first.reverse := by
    refine dropWhile_of_head? ?_
    rwa [List.head?_reverse]
  rw [dropTrailing, List.reverse_append, List.dropWhile_append, dropTrailing]
  split
  · next all =>
      rw [stay, List.isEmpty_iff.mp all, List.reverse_reverse, List.reverse_nil, List.append_nil]
  · rw [List.reverse_append, List.reverse_reverse]

theorem dropTrailing_congr {p q : Char → Bool} {text : Text} (same : ∀ c ∈ text, p c = q c) :
    dropTrailing p text = dropTrailing q text := by
  have reversed : ∀ c ∈ text.reverse, p c = q c :=
    fun c inside => same c (List.mem_reverse.mp inside)
  rw [dropTrailing, dropTrailing]
  congr 1
  generalize text.reverse = row at reversed
  induction row with
  | nil => rfl
  | cons c rest ih =>
      rw [List.dropWhile_cons, List.dropWhile_cons, reversed c List.mem_cons_self,
        ih fun d inside => reversed d (List.mem_cons_of_mem c inside)]

/-- What is dropped at the end of a text is a row of the character. -/
theorem exists_dropTrailing_append (c : Char) (text : Text) :
    ∃ count, text = dropTrailing (· == c) text ++ List.replicate count c := by
  have row : text.reverse.takeWhile (· == c) =
      List.replicate (text.reverse.takeWhile (· == c)).length c := by
    rw [List.eq_replicate_iff]
    exact ⟨rfl, fun d inside => eq_of_beq (List.mem_takeWhile_imp (p := (· == c)) inside)⟩
  have cut := congrArg List.reverse
    (List.takeWhile_append_dropWhile (p := (· == c)) (l := text.reverse))
  rw [List.reverse_append, List.reverse_reverse, row, List.reverse_replicate] at cut
  exact ⟨_, cut.symm⟩

/-- What is left after trimming does not end in a blank. -/
theorem getLast?_trim (text : Text) : ∀ c ∈ (trim text).getLast?, isBlank c = false :=
  getLast?_dropTrailing isBlank _

/-- What is left after trimming does not start with a blank either. -/
theorem head?_trim (text : Text) : ∀ c ∈ (trim text).head?, isBlank c = false := by
  have part : trim text <+: text.dropWhile isBlank := by
    have trailing := List.dropWhile_suffix isBlank (l := (text.dropWhile isBlank).reverse)
    rw [trim, dropTrailing]
    simpa using List.reverse_prefix.mpr trailing
  obtain ⟨rest, same⟩ := part
  intro c first
  refine head?_dropWhile (p := isBlank) text c ?_
  rw [← same, List.head?_append, Option.mem_def.mp first]
  rfl

theorem trim_of_blank {text : Text} (blank : ∀ c ∈ text, isBlank c = true) : trim text = [] := by
  rw [trim, List.dropWhile_eq_nil_iff.mpr blank]
  rfl

theorem trim_sublist (text : Text) : (trim text).Sublist text := by
  have trailing := (List.dropWhile_sublist (l := (text.dropWhile isBlank).reverse) isBlank).reverse
  rw [List.reverse_reverse] at trailing
  exact trailing.trans (List.dropWhile_sublist isBlank)

/-- A text that trimming leaves alone does not start with a blank. -/
theorem head?_of_trim_eq_self {text : Text} (same : trim text = text) :
    ∀ c ∈ text.head?, isBlank c = false := by
  have short : (trim text).length ≤ (text.dropWhile isBlank).length := by
    have trailing := List.dropWhile_sublist (l := (text.dropWhile isBlank).reverse) isBlank
    rw [trim, dropTrailing, List.length_reverse]
    exact trailing.length_le.trans_eq List.length_reverse
  rw [same] at short
  have front := (List.dropWhile_sublist (l := text) isBlank).eq_of_length_le short
  rw [← front]
  exact head?_dropWhile text

theorem upTo_eq_self {stop : Char} {text : Text} (h : stop ∉ text) : upTo stop text = text := by
  rw [upTo, List.takeWhile_eq_self_iff]
  intro c inside
  rw [bne_iff_ne]
  rintro rfl
  exact h inside

/-! ## Words off the front -/

section Words

variable {blanks word rest : Text}

/-- A word behind blanks is taken off if a blank or nothing follows it. -/
theorem wordsThenRest_succ (limit : Nat) (before : ∀ c ∈ blanks, isBlank c = true)
    (nonempty : word ≠ []) (solid : ∀ c ∈ word, isBlank c = false)
    (stop : ∀ c ∈ rest.head?, isBlank c = true) :
    wordsThenRest (limit + 1) (blanks ++ (word ++ rest)) = word :: wordsThenRest limit rest := by
  have start : (blanks ++ (word ++ rest)).dropWhile isBlank = word ++ rest := by
    rw [List.dropWhile_append_of_pos before]
    refine dropWhile_of_head? fun c first => ?_
    obtain ⟨d, more, rfl⟩ := List.exists_cons_of_ne_nil nonempty
    obtain rfl : d = c := Option.some.inj first
    exact solid d List.mem_cons_self
  have solid' : ∀ c ∈ word, (!isBlank c) = true := fun c inside => by rw [solid c inside]; rfl
  have stop' : ∀ c ∈ rest.head?, (!isBlank c) = false := fun c first => by rw [stop c first]; rfl
  have taken : (word ++ rest).takeWhile (!isBlank ·) = word := by
    rw [List.takeWhile_append_of_pos solid', takeWhile_of_head? stop', List.append_nil]
  have left : (word ++ rest).dropWhile (!isBlank ·) = rest := by
    rw [List.dropWhile_append_of_pos solid', dropWhile_of_head? stop']
  rw [wordsThenRest, start]
  obtain ⟨d, more, rfl⟩ := List.exists_cons_of_ne_nil nonempty
  rw [List.cons_append] at taken left ⊢
  dsimp only
  rw [taken, left]

/-- Behind the last word that is counted the rest of the text is kept as it is. -/
theorem wordsThenRest_zero (before : ∀ c ∈ blanks, isBlank c = true) {first : Char}
    (solid : isBlank first = false) :
    wordsThenRest 0 (blanks ++ first :: rest) = [first :: rest] := by
  have start : (blanks ++ first :: rest).dropWhile isBlank = first :: rest := by
    rw [List.dropWhile_append_of_pos before]
    exact dropWhile_of_head? fun c found => by
      obtain rfl : first = c := Option.some.inj found
      exact solid
  rw [wordsThenRest, start]

end Words

end DirectiveReview.Text
