/-
# Reports that can be written

Only the line numbers of a report can be too long to be written.  A report is therefore
written, for people and for programs, if the lines of its violations are writable and
its comments mirror them.
-/

import DirectiveReview.Proofs.Review.Comments
import DirectiveReview.Report.Document
import DirectiveReview.Report.Human

namespace DirectiveReview

open Text

/-- No violation stands at a line whose number is too long to be written. -/
def Violation.Writable (violations : List Violation) : Prop :=
  ∀ violation ∈ violations, isWritable violation.line = true

namespace Json

theorem itemsWritable_iff {items : List Json} :
    itemsWritable items = true ↔ ∀ item ∈ items, item.isWritable = true := by
  induction items with
  | nil => simp [itemsWritable]
  | cons item rest ih => simp [itemsWritable, ih]

theorem isWritable_strings (values : List Text) : (strings values).isWritable = true := by
  apply itemsWritable_iff.mpr
  intro item inside
  obtain ⟨value, -, rfl⟩ := List.mem_map.mp inside
  rfl

theorem isWritable_orNull_iff {α : Type} (encode : α → Json) (value : Option α) :
    (orNull encode value).isWritable = true ↔
      ∀ given ∈ value, (encode given).isWritable = true := by
  cases value with
  | none => simp [orNull, isWritable]
  | some given => simp [orNull]

end Json

namespace Report

variable {review : Review}

/-- No comment stands at a line whose number is too long to be written. -/
def LinesWritable (comments : List Comment) : Prop :=
  ∀ comment ∈ comments, ∀ line ∈ comment.line, isWritable line = true

theorem isSome_human?_iff : (human? review).isSome = true ↔
    review.violations = [] ∨ LinesWritable review.inline := by
  have all : (review.inline.all fun comment => (comment.line.map isWritable).getD true) = true ↔
      LinesWritable review.inline := by
    rw [List.all_eq_true]
    refine forall_congr' fun comment => forall_congr' fun _ => ?_
    cases comment.line <;> simp
  rw [human?]
  split
  · next none => simp [none]
  · next found =>
      simp only [found, false_or, ← all]
      split <;> simp_all

theorem isWritable_commentJson_iff {comment : Comment} : (commentJson comment).isWritable = true ↔
    ∀ line ∈ comment.line, isWritable line = true := by
  have file : (Json.orNull .string comment.file).isWritable = true :=
    (Json.isWritable_orNull_iff _ _).mpr fun _ _ => rfl
  have line := Json.isWritable_orNull_iff .integer comment.line
  simp [commentJson, Json.isWritable, Json.fieldsWritable, file, line]

theorem isWritable_violationJson_iff {violation : Violation} :
    (violationJson violation).isWritable = true ↔ isWritable violation.line = true := by
  have rules := Json.isWritable_strings violation.rules
  simp [violationJson, Json.isWritable, Json.fieldsWritable, rules]

theorem isSome_json?_iff {about : Meta} : (json? review about).isSome = true ↔
    LinesWritable review.comments ∧ Violation.Writable review.violations := by
  have comments : Json.itemsWritable (review.comments.map commentJson) = true ↔
      LinesWritable review.comments := by
    simp only [Json.itemsWritable_iff, List.forall_mem_map, isWritable_commentJson_iff,
      LinesWritable]
  have violations : Json.itemsWritable (review.violations.map violationJson) = true ↔
      Violation.Writable review.violations := by
    simp only [Json.itemsWritable_iff, List.forall_mem_map, isWritable_violationJson_iff,
      Violation.Writable]
  have source : (Json.orNull .string about.settingsSource).isWritable = true :=
    (Json.isWritable_orNull_iff _ _).mpr fun _ _ => rfl
  have whole : (document review about).isWritable = true ↔
      LinesWritable review.comments ∧ Violation.Writable review.violations := by
    simp [document, metaJson, Json.isWritable, Json.fieldsWritable, source, comments, violations]
  rw [json?, Json.text?, ← whole]
  split <;> simp_all

end Report

namespace Review

variable {settings : ReviewSettings} {violations : List Violation} {display : Text → Text}

theorem linesWritable_comment_iff {message : Text} {shown : Violation → List Text} :
    Report.LinesWritable (violations.map fun violation =>
      violation.comment message (shown violation)) ↔ Violation.Writable violations := by
  simp [Report.LinesWritable, Violation.Writable, Violation.comment]

/-- Inline comments stand at the lines of violations. -/
theorem linesWritable_inline_shown_iff :
    Report.LinesWritable (shown settings violations display).inline ↔
      Violation.Writable violations := by
  rw [inline_shown, linesWritable_comment_iff]

/-- The summary stands at no line. -/
theorem linesWritable_comments_shown_iff :
    Report.LinesWritable (shown settings violations display).comments ↔
      Violation.Writable violations := by
  have summary : Report.LinesWritable [settings.summary] :=
    List.forall_mem_singleton.mpr nofun
  by_cases found : violations = []
  · subst found
    exact ⟨fun _ => List.forall_mem_nil _, fun _ => List.forall_mem_nil _⟩
  · rw [comments_shown found, ← linesWritable_comment_iff]
    exact List.forall_mem_append.trans (and_iff_left summary)

end Review

end DirectiveReview
