/-
# Files share the lines of a diff

The patch of a file is made of lines of the diff, in their order: nothing is added to
them, and none is there twice.  So a header that a file is refused for is a line of the
diff, and the lines of a hunk cannot outnumber those of the diff, which bounds how far
its lines are counted on from the start.
-/

import DirectiveReview.Proofs.Diff.Chunks

namespace DirectiveReview

open Text

theorem Text.oneLine_of_mem_lines {text line : Text} (inside : line ∈ lines text) :
    OneLine line := by
  induction text using lines.induct generalizing line with
  | case1 => cases inside
  | case2 rest ih =>
      rcases List.mem_cons.mp inside with rfl | later
      · exact oneLine_nil
      · exact ih later
  | case3 c rest notPair isBreak ih =>
      rw [lines_cons_of_break isBreak fun more same equal => notPair more same equal] at inside
      rcases List.mem_cons.mp inside with rfl | later
      · exact oneLine_nil
      · exact ih later
  | case4 c rest notPair noBreak last ih =>
      rw [lines_cons_of_not_break (Bool.eq_false_iff.mpr noBreak), last] at inside
      obtain rfl := List.mem_singleton.mp inside
      exact oneLine_cons.mpr ⟨Bool.eq_false_iff.mpr noBreak, oneLine_nil⟩
  | case5 c rest notPair noBreak first more cut ih =>
      rw [lines_cons_of_not_break (Bool.eq_false_iff.mpr noBreak), cut] at inside
      rcases List.mem_cons.mp inside with rfl | later
      · exact oneLine_cons.mpr ⟨Bool.eq_false_iff.mpr noBreak, ih (cut ▸ List.mem_cons_self)⟩
      · exact ih (cut ▸ List.mem_cons_of_mem first later)

/-- Joining lines and cutting them again can only lose a line. -/
theorem Text.lines_unlines_sublist {ls : List Text} (h : ∀ line ∈ ls, OneLine line) :
    (lines (unlines ls)).Sublist ls := by
  rcases lines_unlines h with same | less
  · rw [same]
  · conv_rhs => rw [less]
    exact List.sublist_append_left _ _

namespace FileDiff

theorem lines_sublist_of_mem_ofDiff {diff : Text} {files : List FileDiff}
    (cut : ofDiff diff = .ok files) {file : FileDiff} (inside : file ∈ files) :
    file.patch.lines.Sublist diff.lines := by
  obtain ⟨k, chunks, patches, shared⟩ := exists_sharedOut_of_ofDiff cut
  obtain ⟨own, member, patch⟩ : ∃ own ∈ chunks, unlines own = file.patch :=
    List.mem_map.mp (patches ▸ List.mem_map_of_mem inside)
  have among : own.Sublist diff.lines :=
    (shared.flatten ▸ List.sublist_flatten_of_mem member).trans (List.drop_sublist k _)
  have oneLine : ∀ line ∈ own, OneLine line := fun line member =>
    oneLine_of_mem_lines (among.subset member)
  rw [← patch]
  exact (lines_unlines_sublist oneLine).trans among

end FileDiff

/-! ## How far lines are counted on -/

namespace Hunk

theorem lead_sublist (ls : List Text) : (cutAtHeaders ls).1.Sublist ls := by
  induction ls with
  | nil => exact List.Sublist.refl _
  | cons line rest ih =>
      rw [cutAtHeaders]
      cases HunkHeader.opens line with
      | true => exact List.nil_sublist _
      | false => exact ih.cons_cons line

theorem lines_sublist_of_mem_cutAtHeaders {ls : List Text} {hunk : Hunk}
    (inside : hunk ∈ (cutAtHeaders ls).2) : hunk.lines.Sublist ls := by
  induction ls with
  | nil => cases inside
  | cons line rest ih =>
      rw [cutAtHeaders] at inside
      cases header : HunkHeader.opens line with
      | true =>
          rw [header] at inside
          rcases List.mem_cons.mp inside with rfl | later
          · exact (lead_sublist rest).cons_cons line
          · exact (ih later).cons line
      | false =>
          rw [header] at inside
          exact (ih inside).cons line

/-- The number of an added line is at most as far from the start as the body is long. -/
theorem lineNumber_lt_of_mem_addedFrom {next : Nat} {body : List Text} {added : AddedLine}
    (inside : added ∈ addedFrom next body) : added.lineNumber < next + body.length := by
  induction body generalizing next with
  | nil => cases inside
  | cons line rest ih =>
      rw [addedFrom_cons, List.mem_append] at inside
      have step : newLines [line] ≤ 1 := List.countP_le_length
      rw [List.length_cons]
      rcases inside with here | later
      · split at here
        · obtain rfl := List.mem_singleton.mp here
          exact Nat.lt_add_of_pos_right (Nat.succ_pos _)
        · cases here
      · have := ih later
        omega

end Hunk

namespace Patch

theorem exists_hunk_of_mem_addedOfHunks {hunks : List Hunk} {lines : List AddedLine}
    (read : addedOfHunks hunks = .ok lines) {line : AddedLine} (inside : line ∈ lines) :
    ∃ hunk ∈ hunks, ∃ start, HunkHeader.newStartOf hunk.header = .ok start ∧
      line ∈ Hunk.addedFrom start hunk.body := by
  induction hunks generalizing lines with
  | nil =>
      cases read
      cases inside
  | cons hunk rest ih =>
      obtain ⟨here, first, behind⟩ := bind_eq_ok_iff.mp read
      obtain ⟨more, later, done⟩ := bind_eq_ok_iff.mp behind
      obtain ⟨start, gives, walked⟩ := bind_eq_ok_iff.mp first
      cases done
      cases walked
      rcases List.mem_append.mp inside with front | back
      · exact ⟨hunk, List.mem_cons_self, start, gives, front⟩
      · obtain ⟨other, member, found⟩ := ih later back
        exact ⟨other, List.mem_cons_of_mem hunk member, found⟩

/-- An added line is numbered from the start that some header of the patch gives, and
no further on than the patch has lines. -/
theorem exists_header_of_mem_added {patch : Text} {lines : List AddedLine}
    (read : added patch = .ok lines) {line : AddedLine} (inside : line ∈ lines) :
    ∃ header ∈ headers patch, ∃ start, HunkHeader.newStartOf header = .ok start ∧
      line.lineNumber < start + patch.lines.length := by
  obtain ⟨hunk, member, start, gives, among⟩ := exists_hunk_of_mem_addedOfHunks read inside
  refine ⟨hunk.header, ?_, start, gives, ?_⟩
  · rw [headers, ← Hunk.map_header_cutAtHeaders]
    exact List.mem_map_of_mem member
  · have near := Hunk.lineNumber_lt_of_mem_addedFrom among
    have fits := (Hunk.lines_sublist_of_mem_cutAtHeaders member).length_le
    rw [Hunk.lines, List.length_cons] at fits
    omega

end Patch

end DirectiveReview
