/-
# Laws of lines

Lines that hold no boundary of their own come back when they are written one
after the other and cut again.  Two ways of writing them matter here: each line
ended by a line feed, as a file holds them, and joined by line feeds, as the
patch of one file is kept.  The second loses a final empty line, and only that.

Cutting is also compatible with concatenation: behind a line feed a new line
starts, whatever the text before it looks like.
-/

import DirectiveReview.Text.Lines
import Mathlib.Data.List.Basic

namespace DirectiveReview.Text

/-- A text without line boundaries. -/
def OneLine (text : Text) : Prop :=
  ∀ c ∈ text, isLineBreak c = false

instance (text : Text) : Decidable (OneLine text) :=
  List.decidableBAll (fun c => isLineBreak c = false) text

/-- The boundaries of lines. -/
def lineBreaks : List Char :=
  ['\n', '\x0b', '\x0c', '\r', '\x1c', '\x1d', '\x1e', '\u0085', '\u2028', '\u2029']

/-- A character with a property that no boundary has is no boundary. -/
theorem not_isLineBreak_of {p : Char → Bool} {c : Char} (free : lineBreaks.any p = false)
    (holds : p c = true) : isLineBreak c = false := by
  rw [Bool.eq_false_iff]
  intro isBreak
  have listed : c ∈ lineBreaks := by
    simpa [isLineBreak, lineBreaks, or_assoc] using isBreak
  exact List.any_eq_false.mp free c listed holds

/-- Lines written one after the other, each ended by a line feed. -/
def terminated (ls : List Text) : Text :=
  ls.flatMap fun line => line ++ ['\n']

@[simp]
theorem oneLine_nil : OneLine [] := by
  intro c inside
  cases inside

@[simp]
theorem oneLine_cons {c : Char} {text : Text} :
    OneLine (c :: text) ↔ isLineBreak c = false ∧ OneLine text := by
  simp [OneLine]

@[simp]
theorem oneLine_append {first second : Text} :
    OneLine (first ++ second) ↔ OneLine first ∧ OneLine second := by
  simp only [OneLine, List.mem_append]
  constructor
  · intro all
    exact ⟨fun c inside => all c (Or.inl inside), fun c inside => all c (Or.inr inside)⟩
  · rintro ⟨left, right⟩ c (inside | inside)
    · exact left c inside
    · exact right c inside

@[simp]
theorem terminated_cons (line : Text) (rest : List Text) :
    terminated (line :: rest) = line ++ '\n' :: terminated rest := by
  simp [terminated]

theorem unlines_singleton (line : Text) : unlines [line] = line := by
  simp [unlines, join, List.intercalate]

theorem unlines_cons_cons (line next : Text) (more : List Text) :
    unlines (line :: next :: more) = line ++ '\n' :: unlines (next :: more) := by
  simp [unlines, join, List.intercalate, List.intersperse]

theorem unlines_append {first second : List Text} (nonempty : first ≠ []) (more : second ≠ []) :
    unlines (first ++ second) = unlines first ++ '\n' :: unlines second := by
  obtain ⟨next, others, rfl⟩ := List.exists_cons_of_ne_nil more
  induction first with
  | nil => exact absurd rfl nonempty
  | cons line rest ih =>
      cases rest with
      | nil => rw [List.singleton_append, unlines_cons_cons, unlines_singleton]
      | cons following rest =>
          rw [List.cons_append, List.cons_append, unlines_cons_cons, ← List.cons_append,
            ih (List.cons_ne_nil _ _), unlines_cons_cons, List.append_assoc, List.cons_append]

/-! ## Cutting what was written -/

/-- A boundary that is not the first half of a pair ends an empty line. -/
theorem lines_cons_of_break {c : Char} {rest : Text} (h : isLineBreak c = true)
    (notPair : ∀ more, c = '\r' → rest = '\n' :: more → False) :
    lines (c :: rest) = [] :: lines rest := by
  conv_lhs => unfold lines
  split
  · next same => cases same
  · next same =>
      obtain ⟨rfl, rfl⟩ := List.cons.inj same
      exact (notPair _ rfl rfl).elim
  · next same =>
      obtain ⟨rfl, rfl⟩ := List.cons.inj same
      rw [if_pos h]

/-- A character that is no boundary goes to the front of the first line. -/
theorem lines_cons_of_not_break {c : Char} (h : isLineBreak c = false) (rest : Text) :
    lines (c :: rest) =
      match lines rest with
      | [] => [[c]]
      | line :: more => (c :: line) :: more := by
  conv_lhs => unfold lines
  split
  · next same => cases same
  · next same =>
      obtain ⟨rfl, rfl⟩ := List.cons.inj same
      exact absurd h (by decide)
  · next same =>
      obtain ⟨rfl, rfl⟩ := List.cons.inj same
      exact if_neg (by simp [h])

/-- A text without boundaries in front of a line feed is one line. -/
theorem lines_append_newline {line : Text} (h : OneLine line) (rest : Text) :
    lines (line ++ '\n' :: rest) = line :: lines rest := by
  induction line with
  | nil => rfl
  | cons c line ih =>
      rw [oneLine_cons] at h
      rw [List.cons_append, lines_cons_of_not_break h.1, ih h.2]

/-- A text without boundaries is the one line of itself, unless it is empty. -/
theorem lines_of_oneLine {line : Text} (h : OneLine line) (nonempty : line ≠ []) :
    lines line = [line] := by
  induction line with
  | nil => exact absurd rfl nonempty
  | cons c line ih =>
      rw [oneLine_cons] at h
      rw [lines_cons_of_not_break h.1]
      by_cases ends : line = []
      · rw [ends]
        rfl
      · rw [ih h.2 ends]

/-- Ended lines are cut into the same lines again. -/
theorem lines_terminated {ls : List Text} (h : ∀ line ∈ ls, OneLine line) :
    lines (terminated ls) = ls := by
  induction ls with
  | nil => rfl
  | cons line rest ih =>
      rw [terminated_cons, lines_append_newline (h line List.mem_cons_self),
        ih fun other inside => h other (List.mem_cons_of_mem line inside)]

/-- Joined lines are cut into the same lines again, up to a final empty line. -/
theorem lines_unlines {ls : List Text} (h : ∀ line ∈ ls, OneLine line) :
    lines (unlines ls) = ls ∨ ls = lines (unlines ls) ++ [[]] := by
  induction ls with
  | nil => exact Or.inl rfl
  | cons line rest ih =>
      have one : OneLine line := h line List.mem_cons_self
      cases rest with
      | nil =>
          rw [unlines_singleton]
          by_cases empty : line = []
          · subst line
            exact Or.inr rfl
          · exact Or.inl (lines_of_oneLine one empty)
      | cons next more =>
          rw [unlines_cons_cons, lines_append_newline one]
          rcases ih fun other inside => h other (List.mem_cons_of_mem line inside) with same | less
          · exact Or.inl (by rw [same])
          · exact Or.inr (by rw [List.cons_append, ← less])

/-- No line is longer than what was joined: a joined text has only lines that
were put into it. -/
theorem mem_of_mem_lines_unlines {ls : List Text} (h : ∀ line ∈ ls, OneLine line) {line : Text}
    (inside : line ∈ lines (unlines ls)) : line ∈ ls := by
  rcases lines_unlines h with same | less
  · rwa [same] at inside
  · rw [less]
    exact List.mem_append_left _ inside

/-- The beginning of a text, as far as it has no boundary, is the beginning of the
first line. -/
theorem lines_append_of_oneLine {lead : Text} (h : OneLine lead) (nonempty : lead ≠ [])
    (rest : Text) : ∃ line more, lines (lead ++ rest) = (lead ++ line) :: more := by
  induction lead with
  | nil => exact absurd rfl nonempty
  | cons c lead ih =>
      rw [oneLine_cons] at h
      rw [List.cons_append, lines_cons_of_not_break h.1]
      by_cases ends : lead = []
      · rw [ends, List.nil_append]
        cases lines rest with
        | nil => exact ⟨[], [], rfl⟩
        | cons line more => exact ⟨line, more, rfl⟩
      · obtain ⟨line, more, cut⟩ := ih h.2 ends
        exact ⟨line, more, by rw [cut]; rfl⟩

/-! ## Cutting a concatenation -/

/-- Every character belongs to some line or ends one. -/
theorem lines_ne_nil {text : Text} (nonempty : text ≠ []) : lines text ≠ [] := by
  fun_cases lines text with
  | case1 => exact absurd rfl nonempty
  | case2 rest => exact List.cons_ne_nil _ _
  | case3 c rest notPair isBreak => exact List.cons_ne_nil _ _
  | case4 c rest notPair noBreak last => exact List.cons_ne_nil _ _
  | case5 c rest notPair noBreak line more cut => exact List.cons_ne_nil _ _

/-- What is added to a text does not complete a pair with its first character, unless that
is its last one too. -/
theorem not_pair_append {c : Char} {rest : Text}
    (notPair : ∀ more, c = '\r' → rest = '\n' :: more → False)
    (inside : ¬ (c = '\r' ∧ rest = [])) (tail more : Text) (same : c = '\r')
    (equal : rest ++ tail = '\n' :: more) : False := by
  cases rest with
  | nil => exact inside ⟨same, rfl⟩
  | cons next others =>
      rw [List.cons_append, List.cons.injEq] at equal
      exact notPair others same (by rw [equal.1])

/-- Behind a line feed a line starts afresh, so the lines before it and the lines
after it do not depend on one another. -/
theorem lines_append_of_ended (first second : Text) :
    lines (first ++ '\n' :: second) = lines (first ++ ['\n']) ++ lines second := by
  -- A line that is still open when the line feed comes is closed by it, so the
  -- two texts agree up to there; `extend` puts one more character in front.
  have extend {c : Char} {rest : Text} (noBreak : isLineBreak c = false)
      (ih : lines (rest ++ '\n' :: second) = lines (rest ++ ['\n']) ++ lines second) :
      lines (c :: (rest ++ '\n' :: second)) = lines (c :: (rest ++ ['\n'])) ++ lines second := by
    rw [lines_cons_of_not_break noBreak, lines_cons_of_not_break noBreak, ih]
    have nonempty : rest ++ ['\n'] ≠ [] := List.append_ne_nil_of_right_ne_nil rest (by simp)
    obtain ⟨line, more, cut⟩ := List.exists_cons_of_ne_nil (lines_ne_nil nonempty)
    rw [cut]
    rfl
  induction first using lines.induct with
  | case1 => rfl
  | case2 rest ih => exact congrArg ([] :: ·) ih
  | case3 c rest notPair isBreak ih =>
      by_cases pair : c = '\r' ∧ rest = []
      · -- The line feed completes a pair with this boundary, in both texts.
        obtain ⟨rfl, rfl⟩ := pair
        rfl
      · rw [List.cons_append, List.cons_append,
          lines_cons_of_break isBreak (not_pair_append notPair pair ('\n' :: second)),
          lines_cons_of_break isBreak (not_pair_append notPair pair ['\n']), ih,
          List.cons_append]
  | case4 c rest notPair noBreak last ih =>
      exact extend (Bool.eq_false_iff.mpr noBreak) ih
  | case5 c rest notPair noBreak line more cut ih =>
      exact extend (Bool.eq_false_iff.mpr noBreak) ih

/-- A text that ends with a line feed is cut without regard to what follows. -/
theorem lines_append {first : Text} (ended : first = [] ∨ ∃ text, first = text ++ ['\n'])
    (second : Text) : lines (first ++ second) = lines first ++ lines second := by
  rcases ended with rfl | ⟨text, rfl⟩
  · rfl
  · rw [List.append_assoc]
    exact lines_append_of_ended text second

end DirectiveReview.Text
