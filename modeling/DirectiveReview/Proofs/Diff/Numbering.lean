/-
# Numbering added lines

The number of an added line is the start of its hunk and one more for every line
of the new file above it in the hunk.  The walk over a body counts as it goes; the
laws here say what it has counted, so that later proofs speak of positions and
not of the walk.

A patch is cut at its headers alone.  What stands above the first header plays no
part, and neither does an empty line at the very end, which is lost when joined
lines are cut again.
-/

import DirectiveReview.Proofs.Diff.Written

namespace DirectiveReview

open Text

namespace Hunk

/-- How many of the lines of a body are lines of the new file. -/
def newLines (body : List Text) : Nat :=
  body.countP fun line => (BodyLine.of line).inNew

@[simp]
theorem newLines_nil : newLines [] = 0 := rfl

@[simp]
theorem newLines_cons (line : Text) (rest : List Text) :
    newLines (line :: rest) = newLines rest + if (BodyLine.of line).inNew then 1 else 0 :=
  List.countP_cons

@[simp]
theorem newLines_append (first second : List Text) :
    newLines (first ++ second) = newLines first + newLines second :=
  List.countP_append

@[simp]
theorem newLines_map_line (entries : List BodyEntry) :
    newLines (entries.map BodyEntry.line) = BodyEntry.newLines entries := by
  simp [newLines, BodyEntry.newLines, List.countP_map, Function.comp_def]

/-- What one line of a body adds, and where the count goes on. -/
theorem addedFrom_cons (next : Nat) (line : Text) (rest : List Text) :
    addedFrom next (line :: rest) =
      (if BodyLine.of line = .added then [⟨line, next⟩] else []) ++
        addedFrom (next + newLines [line]) rest := by
  rw [addedFrom]
  cases kind : BodyLine.of line <;> simp [kind, BodyLine.inNew]

/-- The count goes on behind a part of a body with the lines of the new file in
it. -/
theorem addedFrom_append (next : Nat) (first second : List Text) :
    addedFrom next (first ++ second) =
      addedFrom next first ++ addedFrom (next + newLines first) second := by
  induction first generalizing next with
  | nil => rfl
  | cons line rest ih =>
      rw [List.cons_append, addedFrom_cons, addedFrom_cons, ih, List.append_assoc]
      congr 3
      simp
      omega

/-- The added lines in their order are the lines with a plus sign. -/
theorem content_addedFrom (next : Nat) (body : List Text) :
    (addedFrom next body).map AddedLine.content =
      body.filter fun line => BodyLine.of line = .added := by
  induction body generalizing next with
  | nil => rfl
  | cons line rest ih =>
      rw [addedFrom_cons, List.map_append, ih, List.filter_cons]
      by_cases kind : BodyLine.of line = .added <;> simp [kind]

/-- A body without lines of the new file adds nothing, wherever it starts. -/
theorem addedFrom_of_newLines_eq_zero {body : List Text} (none : newLines body = 0)
    (next : Nat) : addedFrom next body = [] := by
  induction body generalizing next with
  | nil => rfl
  | cons line rest ih =>
      rw [newLines_cons] at none
      have kind : BodyLine.of line ≠ .added := by
        intro added
        simp [added, BodyLine.inNew] at none
      rw [addedFrom_cons, if_neg kind, List.nil_append]
      exact ih (by omega) _

/-- No number of a body lies before its start. -/
theorem le_lineNumber_of_mem_addedFrom {next : Nat} {body : List Text} {added : AddedLine}
    (inside : added ∈ addedFrom next body) : next ≤ added.lineNumber := by
  induction body generalizing next with
  | nil => cases inside
  | cons line rest ih =>
      rw [addedFrom_cons, List.mem_append] at inside
      rcases inside with here | later
      · split at here
        · obtain rfl := List.mem_singleton.mp here
          exact Nat.le_refl next
        · cases here
      · exact Nat.le_trans (Nat.le_add_right next _) (ih later)

theorem pairwise_lineNumber_addedFrom (next : Nat) (body : List Text) :
    ((addedFrom next body).map AddedLine.lineNumber).Pairwise (· < ·) := by
  induction body generalizing next with
  | nil => exact List.Pairwise.nil
  | cons line rest ih =>
      rw [addedFrom_cons]
      by_cases kind : BodyLine.of line = .added
      · have counted : newLines [line] = 1 := by simp [kind, BodyLine.inNew]
        rw [if_pos kind, counted, List.singleton_append, List.map_cons, List.pairwise_cons]
        refine ⟨fun number later => ?_, ih (next + 1)⟩
        obtain ⟨added, inside, rfl⟩ := List.mem_map.mp later
        exact le_lineNumber_of_mem_addedFrom inside
      · rw [if_neg kind, List.nil_append]
        exact ih _

/-- The numbers of a body by position.  The statement is about the end of a body,
so that the lines above it are there to be counted. -/
theorem addedFrom_eq_filterMap_of_append (start : Nat) (above below : List Text) :
    addedFrom (start + newLines above) below =
      (below.zipIdx above.length).filterMap fun (line, i) =>
        if BodyLine.of line = .added then
          some ⟨line, start + newLines ((above ++ below).take i)⟩
        else none := by
  induction below generalizing above with
  | nil => rfl
  | cons line rest ih =>
      have later := ih (above ++ [line])
      rw [newLines_append, ← Nat.add_assoc, List.length_append, List.append_assoc,
        List.singleton_append] at later
      rw [addedFrom_cons, later, List.zipIdx_cons, List.filterMap_cons]
      by_cases kind : BodyLine.of line = .added <;> simp [kind]

theorem addedFrom_eq_filterMap (start : Nat) (body : List Text) :
    addedFrom start body = body.zipIdx.filterMap fun (line, i) =>
      if BodyLine.of line = .added then some ⟨line, start + newLines (body.take i)⟩ else none :=
  addedFrom_eq_filterMap_of_append start [] body

/-! ## Cutting at headers -/

/-- Lines that are no header go to the lines above the first one. -/
theorem cutAtHeaders_append {lead : List Text}
    (noHeader : ∀ line ∈ lead, HunkHeader.opens line = false) (rest : List Text) :
    cutAtHeaders (lead ++ rest) = (lead ++ (cutAtHeaders rest).1, (cutAtHeaders rest).2) := by
  induction lead with
  | nil => rfl
  | cons line lead ih =>
      have here : HunkHeader.opens line = false := noHeader line List.mem_cons_self
      rw [List.cons_append, cutAtHeaders,
        ih fun other inside => noHeader other (List.mem_cons_of_mem line inside)]
      simp [here]

/-- Whole hunks are found again behind lines that are no header. -/
theorem cutAtHeaders_append_hunks {lead : List Text} {hunks : List Hunk}
    (noHeader : ∀ line ∈ lead, HunkHeader.opens line = false)
    (whole : ∀ hunk ∈ hunks, HunkHeader.opens hunk.header = true ∧
      ∀ line ∈ hunk.body, HunkHeader.opens line = false) :
    cutAtHeaders (lead ++ hunks.flatMap Hunk.lines) = (lead, hunks) := by
  induction hunks generalizing lead with
  | nil =>
      have alone := cutAtHeaders_append noHeader []
      simpa [cutAtHeaders] using alone
  | cons hunk rest ih =>
      obtain ⟨isHeader, body⟩ := whole hunk List.mem_cons_self
      have others := ih body fun other inside => whole other (List.mem_cons_of_mem hunk inside)
      have first : cutAtHeaders (hunk.header :: (hunk.body ++ rest.flatMap Hunk.lines)) =
          ([], hunk :: rest) := by
        rw [cutAtHeaders, others]
        simp [isHeader]
      rw [cutAtHeaders_append noHeader, List.flatMap_cons]
      show (lead ++ (cutAtHeaders (hunk.header :: (hunk.body ++ rest.flatMap Hunk.lines))).1,
        (cutAtHeaders (hunk.header :: (hunk.body ++ rest.flatMap Hunk.lines))).2) = _
      rw [first, List.append_nil]

/-- An empty line at the very end belongs to the last hunk or to no hunk. -/
theorem cutAtHeaders_concat_nil (ls : List Text) :
    (cutAtHeaders (ls ++ [[]])).1 = (cutAtHeaders ls).1 ∨
      (cutAtHeaders (ls ++ [[]])).1 = (cutAtHeaders ls).1 ++ [[]] := by
  induction ls with
  | nil => exact Or.inr rfl
  | cons line rest ih =>
      simp only [List.cons_append, cutAtHeaders]
      cases HunkHeader.opens line with
      | true => exact Or.inl rfl
      | false => simpa using ih

end Hunk

namespace Patch

/-- The added lines of two rows of hunks are those of the first and those of the
second. -/
theorem addedOfHunks_append (first second : List Hunk) :
    addedOfHunks (first ++ second) = (do
      let before ← addedOfHunks first
      let behind ← addedOfHunks second
      return before ++ behind) := by
  induction first with
  | nil =>
      show addedOfHunks second = (do
        let behind ← addedOfHunks second
        return [] ++ behind)
      cases addedOfHunks second <;> rfl
  | cons hunk rest ih =>
      simp only [List.cons_append, addedOfHunks, ih, bind_assoc, pure_bind, List.append_assoc]

theorem addedOfHunks_concat_nil (ls : List Text) :
    addedOfHunks (Hunk.cutAtHeaders (ls ++ [[]])).2 = addedOfHunks (Hunk.cutAtHeaders ls).2 := by
  induction ls with
  | nil => rfl
  | cons line rest ih =>
      simp only [List.cons_append, Hunk.cutAtHeaders]
      cases HunkHeader.opens line with
      | false => simpa using ih
      | true =>
          have body (next : Nat) : Hunk.addedFrom next (Hunk.cutAtHeaders (rest ++ [[]])).1 =
              Hunk.addedFrom next (Hunk.cutAtHeaders rest).1 := by
            rcases Hunk.cutAtHeaders_concat_nil rest with same | more
            · rw [same]
            · rw [more, Hunk.addedFrom_append]
              exact List.append_nil _
          simp only [if_true, addedOfHunks, Hunk.added, body, ih]

/-- Joining lines and cutting them again changes nothing about what they add. -/
theorem added_unlines {ls : List Text} (h : ∀ line ∈ ls, OneLine line) :
    added (unlines ls) = addedOfHunks (Hunk.cutAtHeaders ls).2 := by
  rw [added]
  rcases lines_unlines h with same | less
  · rw [same]
  · conv_rhs => rw [less]
    rw [addedOfHunks_concat_nil]

end Patch

namespace HunkChange

/-- A writable hunk adds its lines with a plus sign, numbered from its start. -/
theorem added_hunk {change : HunkChange} (writable : change.Writable) :
    change.hunk.added = .ok (Hunk.addedFrom change.start (change.entries.map BodyEntry.line)) := by
  rw [Hunk.added, hunk, HunkHeader.newStartOf_text writable.header writable.start]
  rfl

/-- The count of a walk over a body gives each added line its position. -/
theorem addedFrom_entries (change : HunkChange) :
    Hunk.addedFrom change.start (change.entries.map BodyEntry.line) = change.added := by
  rw [Hunk.addedFrom_eq_filterMap, List.zipIdx_map, List.filterMap_map, added]
  refine List.filterMap_congr fun entry _ => ?_
  obtain ⟨entry, i⟩ := entry
  simp [← List.map_take]

/-- The added lines of writable hunks are those of each in turn. -/
theorem addedOfHunks_map_hunk {hunks : List HunkChange} (writable : ∀ hunk ∈ hunks, hunk.Writable) :
    Patch.addedOfHunks (hunks.map hunk) = .ok (hunks.flatMap added) := by
  induction hunks with
  | nil => rfl
  | cons change rest ih =>
      have others := ih fun other inside => writable other (List.mem_cons_of_mem change inside)
      rw [List.map_cons, Patch.addedOfHunks, added_hunk (writable change List.mem_cons_self),
        addedFrom_entries, others]
      rfl

/-- Header and body lines are told apart in every hunk. -/
theorem whole_hunk (change : HunkChange) :
    HunkHeader.opens change.hunk.header = true ∧
      ∀ line ∈ change.hunk.body, HunkHeader.opens line = false := by
  refine ⟨change.header.opens_text, fun line inside => ?_⟩
  obtain ⟨entry, -, rfl⟩ := List.mem_map.mp inside
  exact entry.opens_line

end HunkChange

end DirectiveReview
