/-
# Reading a directive

A line has a directive exactly if it contains the marker, and the first marker counts.
Behind it every text is a list of rules: cut at the commas, each piece is a rule with
blanks around it or nothing but blanks.  So a directive may be written in many ways, and
`Spells` says which of them stand for the same rules.  All of them are read alike, and
what has been read can be written down and read again.

A rule may contain the marker itself: behind the first marker it is text like any other.
-/

import DirectiveReview.Directive
import DirectiveReview.Proofs.Text.Searches
import DirectiveReview.Proofs.Text.Words

namespace DirectiveReview.Directive

open Text

/-- A name that a directive can give: some text without commas and without blanks at its
ends. -/
structure IsRule (rule : Text) : Prop where
  nonempty : rule ≠ []
  noComma : ',' ∉ rule
  first : ∀ c ∈ rule.head?, isBlank c = false
  last : ∀ c ∈ rule.getLast?, isBlank c = false

instance (rule : Text) : Decidable (IsRule rule) :=
  decidable_of_iff
    (rule ≠ [] ∧ ',' ∉ rule ∧ rule.head?.all (!isBlank ·) = true ∧
      rule.getLast?.all (!isBlank ·) = true) <| by
    simp only [Option.all_eq_true, Bool.not_eq_true']
    exact ⟨fun h => ⟨h.1, h.2.1, h.2.2.1, h.2.2.2⟩,
      fun h => ⟨h.nonempty, h.noComma, h.first, h.last⟩⟩

/-- Pieces stand for rules: each piece is the next rule with blanks around it, or blank. -/
inductive Spells : List Text → List Text → Prop
  | done : Spells [] []
  | skip {parts rules : List Text} (blanks : Text) (blank : ∀ c ∈ blanks, isBlank c = true)
      (rest : Spells parts rules) : Spells (blanks :: parts) rules
  | name {parts rules : List Text} (before rule after : Text)
      (lead : ∀ c ∈ before, isBlank c = true) (trail : ∀ c ∈ after, isBlank c = true)
      (rest : Spells parts rules) : Spells ((before ++ (rule ++ after)) :: parts) (rule :: rules)

/-- A directive in its plain form: the rules behind the marker, a comma and a blank between
neighbours. -/
def written (rules : List Text) : Text :=
  marker ++ ' ' :: join [',', ' '] rules

/-- No blank is a comma. -/
theorem comma_not_mem_of_blank {blanks : Text} (blank : ∀ c ∈ blanks, isBlank c = true) :
    ',' ∉ blanks := by
  intro inside
  exact absurd (blank ',' inside) (by decide)

namespace Spells

variable {parts rules : List Text}

theorem noComma (spells : Spells parts rules) (named : ∀ rule ∈ rules, IsRule rule) :
    ∀ part ∈ parts, ',' ∉ part := by
  induction spells with
  | done => exact fun part inside => by cases inside
  | skip blanks blank rest ih =>
      exact List.forall_mem_cons.mpr ⟨comma_not_mem_of_blank blank, ih named⟩
  | name before rule after lead trail rest ih =>
      obtain ⟨isRule, others⟩ := List.forall_mem_cons.mp named
      refine List.forall_mem_cons.mpr ⟨?_, ih others⟩
      simp only [List.mem_append, not_or]
      exact ⟨comma_not_mem_of_blank lead, isRule.noComma, comma_not_mem_of_blank trail⟩

theorem filter_map_trim (spells : Spells parts rules) (named : ∀ rule ∈ rules, IsRule rule) :
    (parts.map trim).filter (!·.isEmpty) = rules := by
  induction spells with
  | done => rfl
  | skip blanks blank rest ih =>
      rw [List.map_cons, trim_of_blank blank, List.filter_cons_of_neg (by decide), ih named]
  | name before rule after lead trail rest ih =>
      obtain ⟨isRule, others⟩ := List.forall_mem_cons.mp named
      have filled : (!rule.isEmpty) = true := by simpa using isRule.nonempty
      rw [List.map_cons, trim_append lead trail isRule.nonempty isRule.first isRule.last,
        List.filter_cons, if_pos filled, ih others]

/-- Rules may be written with a blank in front of each. -/
theorem spaced (rules : List Text) : Spells (rules.map (' ' :: ·)) rules := by
  induction rules with
  | nil => exact .done
  | cons rule rest ih =>
      have lead : ∀ c ∈ [' '], isBlank c = true := List.all_eq_true.mp rfl
      have trail : ∀ c ∈ ([] : Text), isBlank c = true := List.all_eq_true.mp rfl
      have first := Spells.name [' '] rule [] lead trail ih
      rwa [List.append_nil] at first

end Spells

variable {rules : List Text} {content : Text}

theorem rulesIn_join {parts : List Text} (spells : Spells parts rules)
    (named : ∀ rule ∈ rules, IsRule rule) : rulesIn (join [','] parts) = rules := by
  by_cases none : parts = []
  · -- No piece at all and one empty piece are the same text.
    subst none
    cases spells
    rfl
  · rw [rulesIn, pieces_join (spells.noComma named) none, spells.filter_map_trim named]

/-- Whatever stands behind a marker, what is read there are rules. -/
theorem isRule_of_mem_rulesIn {names rule : Text} (inside : rule ∈ rulesIn names) :
    IsRule rule := by
  obtain ⟨read, filled⟩ := List.mem_filter.mp inside
  obtain ⟨piece, cut, rfl⟩ := List.mem_map.mp read
  exact {
    nonempty := by simpa using filled
    noComma := fun comma => not_mem_of_mem_pieces cut ((trim_sublist piece).subset comma)
    first := head?_trim piece
    last := getLast?_trim piece }

/-- What is joined with a comma and a blank is joined with commas, a blank in front of
each part. -/
theorem join_spaced {parts : List Text} (nonempty : parts ≠ []) :
    join [','] (parts.map (' ' :: ·)) = ' ' :: join [',', ' '] parts := by
  induction parts with
  | nil => exact absurd rfl nonempty
  | cons part rest ih =>
      cases rest with
      | nil => simp [join]
      | cons next more =>
          have behind := ih (List.cons_ne_nil _ _)
          simp only [join, List.map_cons, List.intercalate_cons_cons] at behind ⊢
          rw [behind]
          simp

theorem rules?_eq_none_iff : rules? content = none ↔ ¬ marker <:+: content := by
  rw [rules?, Option.map_eq_none_iff, after?_eq_none_iff]

/-- The rules are those behind the first marker. -/
theorem rules?_append {before : Text} (absent : ¬ marker <:+: before) (names : Text) :
    rules? (before ++ (marker ++ names)) = some (rulesIn names) := by
  have once : '#' ∉ " rubocop:disable".toList := by decide
  rw [rules?, show marker = '#' :: " rubocop:disable".toList from rfl] at *
  rw [after?_append once absent, Option.map_some]

theorem rules?_written (named : ∀ rule ∈ rules, IsRule rule) :
    rules? (written rules) = some rules := by
  have absent : ¬ marker <:+: [] := by decide
  have found := rules?_append absent (' ' :: join [',', ' '] rules)
  rw [List.nil_append] at found
  rw [written, found]
  cases rules with
  | nil => rfl
  | cons rule rest =>
      rw [← join_spaced (List.cons_ne_nil _ _), rulesIn_join (Spells.spaced _) named]

/-- **A directive is found exactly and read back exactly.**  A line has none exactly if the
marker does not occur in it.  Behind the first marker every spelling of a list of rules is
read as this list.  And what is read, whatever the line looks like, is a list of rules that
can be written in the plain form and read again. -/
theorem rules_undo_spelling (content before : Text) (parts rules : List Text) :
    (rules? content = none ↔ ¬ marker <:+: content) ∧
    (¬ marker <:+: before → (∀ rule ∈ rules, IsRule rule) → Spells parts rules →
      rules? (before ++ (marker ++ join [','] parts)) = some rules) ∧
    ∀ found, rules? content = some found →
      (∀ rule ∈ found, IsRule rule) ∧ rules? (written found) = some found := by
  refine ⟨rules?_eq_none_iff, ?spelled, ?read⟩
  case spelled =>
    intro absent named spells
    rw [rules?_append absent, rulesIn_join spells named]
  case read =>
    intro found read
    obtain ⟨names, -, rfl⟩ := Option.map_eq_some_iff.mp read
    have named : ∀ rule ∈ rulesIn names, IsRule rule := fun rule => isRule_of_mem_rulesIn
    exact ⟨named, rules?_written named⟩

/-- Blank pieces, blanks of several kinds, and a rule that contains the marker. -/
def untidyParts : List Text :=
  [" ".toList, "\tA/B ".toList, [], " # rubocop:disable C".toList, "D E\r".toList, []]

/-- The rules in them. -/
def untidyRules : List Text :=
  ["A/B".toList, "# rubocop:disable C".toList, "D E".toList]

theorem rules_undo_spelling_untidy :
    ¬ marker <:+: "f() # # rubocop:disabl".toList ∧ (∀ rule ∈ untidyRules, IsRule rule) ∧
      Spells untidyParts untidyRules ∧
      rules? ("f() # # rubocop:disabl".toList ++ (marker ++ join [','] untidyParts)) =
        some untidyRules ∧
      rules? (written untidyRules) = some untidyRules := by
  have absent : ¬ marker <:+: "f() # # rubocop:disabl".toList := by decide
  have named : ∀ rule ∈ untidyRules, IsRule rule := by decide
  have spells : Spells untidyParts untidyRules :=
    .skip [' '] (List.all_eq_true.mp rfl) <|
      .name ['\t'] "A/B".toList [' '] (List.all_eq_true.mp rfl) (List.all_eq_true.mp rfl) <|
      .skip [] (List.all_eq_true.mp rfl) <|
      .name [' '] "# rubocop:disable C".toList [] (List.all_eq_true.mp rfl)
        (List.all_eq_true.mp rfl) <|
      .name [] "D E".toList ['\r'] (List.all_eq_true.mp rfl) (List.all_eq_true.mp rfl) <|
      .skip [] (List.all_eq_true.mp rfl) .done
  have laws := rules_undo_spelling
    ("f() # # rubocop:disabl".toList ++ (marker ++ join [','] untidyParts))
    "f() # # rubocop:disabl".toList untidyParts untidyRules
  have read := laws.2.1 absent named spells
  exact ⟨absent, named, spells, read, (laws.2.2 untidyRules read).2⟩

end DirectiveReview.Directive
