/-
# What a patch adds, line by line

The lines that a patch adds are found in two steps: the patch is cut into hunks, and each
hunk is walked through.  Yet whether a line is added, and which number it has, can be told
from where it stands among all lines of the patch.  It is added if it has a plus sign and
some header stands above it.  Its number is the start that the last header above it gives
and one more for every line of the new file in between.

The two steps are first put together into one pass over the lines, which knows nothing but
the number of the next line.  What this number says about the lines passed is the invariant
that carries the positions.
-/

import DirectiveReview.Proofs.Diff.Failures

namespace DirectiveReview

open Text

theorem BodyLine.of_eq_added_iff {line : Text} :
    BodyLine.of line = .added ↔ line.head? = some '+' := by
  cases line with
  | nil => simp [BodyLine.of]
  | cons c rest =>
      unfold BodyLine.of
      split <;> simp_all

theorem BodyLine.inNew_of_iff {line : Text} :
    (BodyLine.of line).inNew = true ↔ line.head? ≠ some '-' ∧ line.head? ≠ some '\\' := by
  cases line with
  | nil => simp [BodyLine.of, BodyLine.inNew]
  | cons c rest =>
      unfold BodyLine.of
      split <;> simp_all [BodyLine.inNew]

namespace Patch

/-! ## One pass over the lines -/

/-- What a body adds from a number on; nothing where there is none. -/
def addedHere (next : Option Nat) (body : List Text) : List AddedLine :=
  next.elim [] (Hunk.addedFrom · body)

/-- Read lines one by one.  The number is that of the next line of the new file; there is
none before the first header. -/
def addedBelow : Option Nat → List Text → Except DiffError (List AddedLine)
  | _, [] => .ok []
  | next, line :: rest =>
    if HunkHeader.opens line then do
      let start ← HunkHeader.newStartOf line
      addedBelow (some start) rest
    else
      (addedBelow (next.map (· + Hunk.newLines [line])) rest).map (addedHere next [line] ++ ·)

theorem addedHere_nil (next : Option Nat) : addedHere next [] = [] := by
  cases next <;> rfl

theorem addedHere_cons (next : Option Nat) (line : Text) (rest : List Text) :
    addedHere next (line :: rest) =
      addedHere next [line] ++ addedHere (next.map (· + Hunk.newLines [line])) rest := by
  cases next with
  | none => rfl
  | some n => exact Hunk.addedFrom_append n [line] rest

/-- Cutting at the headers and walking through the hunks is one pass over the lines. -/
theorem addedBelow_eq (next : Option Nat) (ls : List Text) :
    addedBelow next ls = (addedOfHunks (Hunk.cutAtHeaders ls).2).map
      (addedHere next (Hunk.cutAtHeaders ls).1 ++ ·) := by
  induction ls generalizing next with
  | nil =>
      rw [Hunk.cutAtHeaders, addedHere_nil]
      rfl
  | cons line rest ih =>
      rw [addedBelow, Hunk.cutAtHeaders]
      cases header : HunkHeader.opens line with
      | true =>
          simp only [if_true, addedOfHunks, Hunk.added, ih, addedHere_nil, List.nil_append]
          cases HunkHeader.newStartOf line with
          | error e => rfl
          | ok start => cases addedOfHunks (Hunk.cutAtHeaders rest).2 <;> rfl
      | false =>
          simp only [Bool.false_eq_true, if_false, ih]
          rw [addedHere_cons next line (Hunk.cutAtHeaders rest).1]
          cases addedOfHunks (Hunk.cutAtHeaders rest).2 with
          | error e => rfl
          | ok more => exact congrArg Except.ok (List.append_assoc _ _ _).symm

theorem added_eq_addedBelow (patch : Text) : added patch = addedBelow none patch.lines := by
  rw [addedBelow_eq, added]
  cases addedOfHunks (Hunk.cutAtHeaders patch.lines).2 <;> rfl

/-- Nothing above the first header plays a part. -/
theorem addedBelow_dropWhile (ls : List Text) :
    addedBelow none (ls.dropWhile (!HunkHeader.opens ·)) = addedBelow none ls := by
  induction ls with
  | nil => rfl
  | cons line rest ih =>
      rw [List.dropWhile_cons]
      cases header : HunkHeader.opens line with
      | true => rfl
      | false =>
          rw [addedBelow, header]
          change addedBelow none (rest.dropWhile _) = (addedBelow none rest).map ([] ++ ·)
          rw [ih]
          cases addedBelow none rest <;> rfl

/-! ## Positions -/

/-- The lines between two positions. -/
def between (ls : List Text) (i j : Nat) : List Text :=
  (ls.take j).drop (i + 1)

/-- The line at a position is added: it has a plus sign, and a header stands above it. -/
def AddsAt (ls : List Text) (j : Nat) : Prop :=
  (∃ line, ls[j]? = some line ∧ line.head? = some '+') ∧
    ∃ header ∈ ls.take j, HunkHeader.opens header = true

/-- The last header above a position stands at another one. -/
structure LastHeader (ls : List Text) (j i : Nat) (header : Text) : Prop where
  above : i < j
  stands : ls[i]? = some header
  opens : HunkHeader.opens header = true
  last : ∀ line ∈ between ls i j, HunkHeader.opens line = false

/-- An added line is the line at a position, with the number that belongs there: the start
given by the last header above it and one more for every line in between that has neither
a minus sign nor a backslash in front. -/
def NumberedAt (ls : List Text) (j : Nat) (added : AddedLine) : Prop :=
  ls[j]? = some added.content ∧
    ∃ i header start, LastHeader ls j i header ∧ HunkHeader.newStartOf header = .ok start ∧
      added.lineNumber = start + (between ls i j).countP fun line =>
        line.head? ≠ some '-' ∧ line.head? ≠ some '\\'

/-- The positions from `k` on at which a line is added, in ascending order. -/
structure AdditionsFrom (ls : List Text) (k : Nat) (positions : List Nat) : Prop where
  ascending : positions.Pairwise (· < ·)
  mem_iff : ∀ j, j ∈ positions ↔ k ≤ j ∧ AddsAt ls j

/-- What the number of the next line says about the lines above it: they end in a hunk that
has come to this number, or no header has come yet. -/
inductive Reached : List Text → Option Nat → Prop
  | preamble {above : List Text} (noHeader : ∀ line ∈ above, HunkHeader.opens line = false) :
      Reached above none
  | inHunk {lead body : List Text} {header : Text} {start : Nat}
      (opens : HunkHeader.opens header = true)
      (noHeader : ∀ line ∈ body, HunkHeader.opens line = false)
      (gives : HunkHeader.newStartOf header = .ok start) :
      Reached (lead ++ header :: body) (some (start + Hunk.newLines body))

section Steps

variable {above rest : List Text} {line : Text} {n start : Nat}

theorem Reached.skip (reached : Reached above none) (noHeader : HunkHeader.opens line = false) :
    Reached (above ++ [line]) none := by
  cases reached with
  | preamble before =>
      exact .preamble (List.forall_mem_append.mpr ⟨before, List.forall_mem_singleton.mpr noHeader⟩)

theorem Reached.opened (above : List Text) (opens : HunkHeader.opens line = true)
    (gives : HunkHeader.newStartOf line = .ok start) : Reached (above ++ [line]) (some start) :=
  .inHunk opens (List.forall_mem_nil _) gives

theorem Reached.count (reached : Reached above (some n))
    (noHeader : HunkHeader.opens line = false) :
    Reached (above ++ [line]) (some (n + Hunk.newLines [line])) := by
  cases reached with
  | @inHunk lead body header start opens before gives =>
      rw [List.append_assoc, List.cons_append, Nat.add_assoc, ← Hunk.newLines_append]
      exact .inHunk opens
        (List.forall_mem_append.mpr ⟨before, List.forall_mem_singleton.mpr noHeader⟩) gives

theorem Reached.exists_header (reached : Reached above (some n)) :
    ∃ header ∈ above, HunkHeader.opens header = true := by
  cases reached with
  | @inHunk lead body header start opens before gives =>
      exact ⟨header, List.mem_append_right _ List.mem_cons_self, opens⟩

theorem addsAt_length : AddsAt (above ++ line :: rest) above.length ↔
    line.head? = some '+' ∧ ∃ header ∈ above, HunkHeader.opens header = true := by
  rw [AddsAt, List.getElem?_append_right (Nat.le_refl _), Nat.sub_self, List.take_left]
  simp only [List.getElem?_cons_zero, Option.some.injEq, exists_eq_left']

/-- The count that has been reached is the number that belongs to the position. -/
theorem Reached.numberedAt (reached : Reached above (some n)) :
    NumberedAt (above ++ line :: rest) above.length ⟨line, n⟩ := by
  refine ⟨by simp, ?_⟩
  cases reached with
  | @inHunk lead body header start opens before gives =>
      have between : between (lead ++ header :: body ++ line :: rest)
          lead.length (lead ++ header :: body).length = body := by
        rw [between, List.take_left, List.append_cons, List.drop_left' (by simp)]
      refine ⟨lead.length, header, start, ⟨by simp, by simp, opens, ?_⟩, gives, ?_⟩
      · rwa [between]
      · rw [between]
        refine congrArg (start + ·) (List.countP_congr fun line _ => ?_)
        rw [BodyLine.inNew_of_iff, decide_eq_true_eq]

variable {ls : List Text} {k : Nat} {positions : List Nat}

theorem AdditionsFrom.skip (later : AdditionsFrom ls (k + 1) positions) (none : ¬ AddsAt ls k) :
    AdditionsFrom ls k positions where
  ascending := later.ascending
  mem_iff j := by
    rw [later.mem_iff]
    constructor
    · rintro ⟨behind, adds⟩
      exact ⟨by omega, adds⟩
    · rintro ⟨from_, adds⟩
      have other : k ≠ j := fun same => none (same ▸ adds)
      exact ⟨by omega, adds⟩

theorem AdditionsFrom.cons (later : AdditionsFrom ls (k + 1) positions) (adds : AddsAt ls k) :
    AdditionsFrom ls k (k :: positions) where
  ascending := List.pairwise_cons.mpr
    ⟨fun j inside => ((later.mem_iff j).mp inside).1, later.ascending⟩
  mem_iff j := by
    rw [List.mem_cons, later.mem_iff]
    constructor
    · rintro (rfl | ⟨behind, other⟩)
      · exact ⟨Nat.le_refl _, adds⟩
      · exact ⟨by omega, other⟩
    · rintro ⟨from_, other⟩
      by_cases same : j = k
      · exact Or.inl same
      · exact Or.inr ⟨by omega, other⟩

end Steps

/-- What is added below the lines passed: one line for every position at which one is added,
in order, with the number that belongs there. -/
theorem exists_additionsFrom_of_addedBelow {above below : List Text} {next : Option Nat}
    {added : List AddedLine} (reached : Reached above next)
    (read : addedBelow next below = .ok added) :
    ∃ positions, AdditionsFrom (above ++ below) above.length positions ∧
      List.Forall₂ (NumberedAt (above ++ below)) positions added := by
  induction below generalizing above next added with
  | nil =>
      cases read
      refine ⟨[], ⟨List.Pairwise.nil, fun j => ?_⟩, .nil⟩
      refine iff_of_false List.not_mem_nil ?_
      rintro ⟨from_, ⟨line, found, -⟩, -⟩
      rw [List.append_nil, List.getElem?_eq_none from_] at found
      cases found
  | cons line rest ih =>
      rw [addedBelow] at read
      -- In each case the lines passed grow by this one.
      have onwards {next : Option Nat} {more : List AddedLine}
          (reached : Reached (above ++ [line]) next) (read : addedBelow next rest = .ok more) :
          ∃ positions, AdditionsFrom (above ++ line :: rest) (above.length + 1) positions ∧
            List.Forall₂ (NumberedAt (above ++ line :: rest)) positions more := by
        have later := ih reached read
        rwa [List.append_assoc, List.length_append, List.singleton_append] at later
      cases header : HunkHeader.opens line with
      | true =>
          rw [if_pos header] at read
          obtain ⟨start, gives, read⟩ := bind_eq_ok_iff.mp read
          obtain ⟨positions, later, numbered⟩ := onwards (.opened above header gives) read
          refine ⟨positions, later.skip fun adds => ?_, numbered⟩
          obtain ⟨more, rfl⟩ := List.isPrefixOf_iff_prefix.mp header
          cases (addsAt_length.mp adds).1
      | false =>
          rw [if_neg (Bool.eq_false_iff.mp header)] at read
          obtain ⟨more, behind, rfl⟩ := map_eq_ok_iff.mp read
          cases next with
          | none =>
              obtain ⟨positions, later, numbered⟩ := onwards (reached.skip header) behind
              refine ⟨positions, later.skip fun adds => ?_, numbered⟩
              obtain ⟨other, inside, opens⟩ := (addsAt_length.mp adds).2
              cases reached with
              | preamble noHeader => cases (noHeader other inside).symm.trans opens
          | some n =>
              obtain ⟨positions, later, numbered⟩ := onwards (reached.count header) behind
              rw [addedHere, Option.elim_some, Hunk.addedFrom_cons]
              by_cases kind : BodyLine.of line = .added
              · have adds : AddsAt (above ++ line :: rest) above.length :=
                  addsAt_length.mpr ⟨BodyLine.of_eq_added_iff.mp kind, reached.exists_header⟩
                rw [if_pos kind]
                exact ⟨_, later.cons adds, .cons reached.numberedAt numbered⟩
              · rw [if_neg kind]
                refine ⟨positions, later.skip fun adds => ?_, numbered⟩
                exact kind (BodyLine.of_eq_added_iff.mpr (addsAt_length.mp adds).1)

/-- **The lines that a patch adds, by position.**  Where a patch can be read, the added
lines are those at the positions where a line is added, in order and with the numbers that
belong there.  Patches whose lines agree from the first header on are read alike. -/
theorem added_by_position (patch : Text) :
    (∀ added, Patch.added patch = .ok added → ∃ positions : List Nat,
      positions.Pairwise (· < ·) ∧ (∀ j, j ∈ positions ↔ AddsAt patch.lines j) ∧
      List.Forall₂ (NumberedAt patch.lines) positions added) ∧
    ∀ other : Text, other.lines.dropWhile (!HunkHeader.opens ·) =
      patch.lines.dropWhile (!HunkHeader.opens ·) → Patch.added other = Patch.added patch := by
  refine ⟨?positions, ?preamble⟩
  case positions =>
    intro added read
    rw [added_eq_addedBelow] at read
    obtain ⟨positions, additions, numbered⟩ :=
      exists_additionsFrom_of_addedBelow (.preamble (List.forall_mem_nil _)) read
    refine ⟨positions, additions.ascending, fun j => ?_, numbered⟩
    rw [additions.mem_iff]
    exact and_iff_right (Nat.zero_le j)
  case preamble =>
    intro other same
    rw [added_eq_addedBelow, added_eq_addedBelow, ← addedBelow_dropWhile, same,
      addedBelow_dropWhile]

/-- A line with a plus sign above the first header, lines of every kind, an empty line, and
a header right below another one. -/
def crowdedPatch : Text :=
  unlines ["+a".toList, "@@ -1,2 +5,2 @@".toList, [], "-x".toList, "\\ No newline".toList,
    "+b".toList, "@@ -1 +9,0 @@".toList, "@@ -2 +20,2 @@ f".toList, "y".toList, "+c".toList]

theorem added_by_position_crowdedPatch :
    Patch.added crowdedPatch = .ok [⟨"+b".toList, 6⟩, ⟨"+c".toList, 21⟩] ∧
      (∃ positions : List Nat, positions.Pairwise (· < ·) ∧
        (∀ j, j ∈ positions ↔ AddsAt crowdedPatch.lines j) ∧
        List.Forall₂ (NumberedAt crowdedPatch.lines) positions
          [⟨"+b".toList, 6⟩, ⟨"+c".toList, 21⟩]) ∧
      Patch.added (crowdedPatch.drop 3) = .ok [⟨"+b".toList, 6⟩, ⟨"+c".toList, 21⟩] := by
  have read : Patch.added crowdedPatch = .ok [⟨"+b".toList, 6⟩, ⟨"+c".toList, 21⟩] := by
    rfl
  have laws := added_by_position crowdedPatch
  have same : (lines (crowdedPatch.drop 3)).dropWhile (!HunkHeader.opens ·) =
      crowdedPatch.lines.dropWhile (!HunkHeader.opens ·) := by
    decide
  exact ⟨read, laws.1 _ read, (laws.2 _ same).trans read⟩

end Patch

end DirectiveReview
