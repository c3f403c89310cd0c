/-
# A report for programs carries the whole review

Whoever decodes a report finds in it, by the names of the fields, the violations, the
comments and what the report says about itself, with null for the file and the line of a
summary.  The text is read by the grammar of JSON, and the fields are looked up by their
names, so nothing here depends on how or in which order the report was written.

This holds of every review, also of one that no diff gives: the texts in it are any texts,
and its comments need not mirror its violations.
-/

import DirectiveReview.Proofs.Json.Reader
import DirectiveReview.Proofs.Report.Printed
import DirectiveReview.Proofs.Report.Writable

namespace DirectiveReview

open Text

namespace Json

/-- The value of a field. -/
def field? (name : Text) : Json → Option Json
  | .object fields => fields.lookup name
  | _ => none

/-- A string, where a value is one. -/
def asString? : Json → Option Text
  | .string value => some value
  | _ => none

/-- A whole number, where a value is one. -/
def asInteger? : Json → Option Int
  | .integer value => some value
  | _ => none

/-- The items of an array, all decoded. -/
def eachOf? {α : Type} (decode? : Json → Option α) : Json → Option (List α)
  | .array items => items.mapM decode?
  | _ => none

/-- Nothing for null, and a decoded value for any other. -/
def orNone? {α : Type} (decode? : Json → Option α) : Json → Option (Option α)
  | .null => some none
  | json => (decode? json).map some

theorem eachOf?_map {α β : Type} {decode? : Json → Option β} {encode : α → Json} {view : α → β}
    (decoded : ∀ value, decode? (encode value) = some (view value)) (values : List α) :
    eachOf? decode? (.array (values.map encode)) = some (values.map view) := by
  rw [eachOf?]
  induction values with
  | nil => rfl
  | cons value rest ih => simp [decoded, ih]

theorem eachOf?_strings (values : List Text) : eachOf? asString? (strings values) = some values := by
  have decoded (value : Text) : asString? (.string value) = some (id value) := rfl
  exact (eachOf?_map decoded values).trans (congrArg some (List.map_id values))

theorem orNone?_string (value : Option Text) :
    orNone? asString? (orNull .string value) = some value := by
  cases value <;> rfl

theorem orNone?_integer (value : Option Int) :
    orNone? asInteger? (orNull .integer value) = some value := by
  cases value <;> rfl

end Json

namespace Report

open Json

/-- A violation, decoded from an object. -/
def violation? (json : Json) : Option Violation := do
  let file ← (json.field? "file".toList).bind asString?
  let line ← (json.field? "line".toList).bind asInteger?
  let rules ← (json.field? "disabled_rules".toList).bind (eachOf? asString?)
  return ⟨file, line, rules⟩

/-- A comment with its severity, decoded from an object. -/
def comment? (json : Json) : Option (Text × Comment) := do
  let severity ← (json.field? "severity".toList).bind asString?
  let body ← (json.field? "body".toList).bind asString?
  let file ← (json.field? "file".toList).bind (orNone? asString?)
  let line ← (json.field? "line".toList).bind (orNone? asInteger?)
  return (severity, ⟨body, file, line⟩)

/-- What a report says about itself: the source of the diff, that of the settings, when it
was made and by which version. -/
def about? (json : Json) : Option (Text × Option Text × Text × Text) := do
  let input ← (json.field? "input_source".toList).bind asString?
  let source ← (json.field? "config_source".toList).bind (orNone? asString?)
  let made ← (json.field? "generated_at".toList).bind asString?
  let version ← (json.field? "version".toList).bind asString?
  return (input, source, made, version)

variable {review : Review} {about : Meta}

theorem violation?_violationJson (violation : Violation) :
    violation? (violationJson violation) = some violation := by
  have rules := eachOf?_strings violation.rules
  show (eachOf? asString? (Json.strings violation.rules)).bind _ = _
  rw [rules]
  rfl

theorem comment?_commentJson (comment : Comment) :
    comment? (commentJson comment) = some (Comment.severity, comment) := by
  have file := orNone?_string comment.file
  have line := orNone?_integer comment.line
  show (orNone? asString? (orNull .string comment.file)).bind (fun file =>
    (orNone? asInteger? (orNull .integer comment.line)).bind fun line =>
      some (Comment.severity, Comment.mk comment.body file line)) = _
  rw [file, line]
  rfl

theorem about?_metaJson (about : Meta) : about? (metaJson about) =
    some (about.inputSource, about.settingsSource, about.generatedAt.text, version) := by
  have source := orNone?_string about.settingsSource
  show (orNone? asString? (orNull .string about.settingsSource)).bind (fun source =>
    some (about.inputSource, source, about.generatedAt.text, version)) = _
  rw [source]
  rfl

/-- There are no binary64 numbers in a report. -/
theorem numbers_document (review : Review) (about : Meta) : (document review about).numbers = [] := by
  have comment (comment : Comment) : (commentJson comment).numbers = [] := by
    have file : (orNull .string comment.file).numbers = [] := numbers_orNull (fun _ => rfl) _
    have line : (orNull .integer comment.line).numbers = [] := numbers_orNull (fun _ => rfl) _
    simp [commentJson, numbers, fieldNumbers, file, line]
  have violation (violation : Violation) : (violationJson violation).numbers = [] := by
    have rules : (Json.strings violation.rules).numbers = [] := itemNumbers_map (fun _ => rfl) _
    simp [violationJson, numbers, fieldNumbers, rules]
  have source : (orNull .string about.settingsSource).numbers = [] :=
    numbers_orNull (fun _ => rfl) _
  simp [document, metaJson, numbers, fieldNumbers, itemNumbers_map comment,
    itemNumbers_map violation, source]

/-- What a program finds in a report. -/
structure Contents where
  violations : List Violation
  /-- The comments, each with its severity. -/
  comments : List (Text × Comment)
  inputSource : Text
  settingsSource : Option Text
  generatedAt : Text
  version : Text
  deriving DecidableEq, Repr

/-- The contents of a report, decoded from an object. -/
def contents? (json : Json) : Option Contents := do
  let violations ← (json.field? "violations".toList).bind (eachOf? violation?)
  let comments ← (json.field? "annotations".toList).bind (eachOf? comment?)
  let (input, source, made, version) ← (json.field? "meta".toList).bind about?
  return ⟨violations, comments, input, source, made, version⟩

/-- What a report on a review tells. -/
def contents (review : Review) (about : Meta) : Contents :=
  ⟨review.violations, review.comments.map (Comment.severity, ·), about.inputSource,
    about.settingsSource, about.generatedAt.text, version⟩

theorem contents?_document (review : Review) (about : Meta) :
    contents? (document review about) = some (contents review about) := by
  have violations := eachOf?_map violation?_violationJson review.violations
  have comments := eachOf?_map comment?_commentJson review.comments
  have itself := about?_metaJson about
  show (eachOf? violation? (.array (review.violations.map violationJson))).bind (fun violations =>
    (eachOf? comment? (.array (review.comments.map commentJson))).bind fun comments =>
      (about? (metaJson about)).bind fun (input, source, made, version) =>
        some (Contents.mk violations comments input source made version)) = _
  rw [violations, comments, itself, List.map_id']
  rfl

theorem eq_text_of_json? {text : Text} (written : json? review about = some text) :
    text = (document review about).text := by
  rw [json?, text?] at written
  split at written
  · exact (Option.some.inj written).symm
  · cases written

theorem eq_of_contents {other : Review} {otherAbout : Meta}
    (same : contents other otherAbout = contents review about) : other = review := by
  have violations := congrArg Contents.violations same
  have comments := congrArg (fun told => told.comments.map Prod.snd) same
  simp only [contents, List.map_map, Function.comp_def, List.map_id'] at violations comments
  cases other
  cases review
  simp_all

/-- **A report for programs carries the whole review.**  If the line numbers can be written,
the report is one line of ASCII without controls.  Reading it as JSON gives the object it was
written for, and decoding that object field by field gives the violations and the comments in
their order, with nothing for a file or a line that is missing, and what the report says about
itself.  So no other review has a report with the same text. -/
theorem json_carries_review (review : Review) (about : Meta)
    (comments : LinesWritable review.comments)
    (violations : Violation.Writable review.violations) :
    ∃ text, json? review about = some text ∧ AsciiLine text ∧
      Json.read? text = some (document review about) ∧
      contents? (document review about) =
        some ⟨review.violations, review.comments.map (Comment.severity, ·), about.inputSource,
          about.settingsSource, about.generatedAt.text, version⟩ ∧
      ∀ other otherAbout, json? other otherAbout = some text → other = review := by
  have reads (other : Review) (otherAbout : Meta) :
      Json.read? (document other otherAbout).text = some (document other otherAbout) :=
    read?_text (by simp [numbers_document])
  obtain ⟨text, written⟩ := Option.isSome_iff_exists.mp (isSome_json?_iff.mpr ⟨comments, violations⟩)
  obtain rfl := eq_text_of_json? written
  refine ⟨_, written, Json.asciiLine_text _, reads review about, contents?_document review about,
    fun other otherAbout same => ?_⟩
  have objects : document other otherAbout = document review about := by
    have read := reads other otherAbout
    rw [← eq_text_of_json? same, reads review about] at read
    exact (Option.some.inj read).symm
  have told := contents?_document other otherAbout
  rw [objects, contents?_document] at told
  exact eq_of_contents (Option.some.inj told).symm

/-- A review of texts with quotes, controls and characters beyond sixteen bits, with a
violation at a negative line and comments of which none mirrors it. -/
def oddReview : Review :=
  ⟨[⟨"a\"\\b\x00/\x7f".toList, -12, [[], [Char.ofNat 0x1f600, '\u2028'], "\\u0041".toList]⟩],
    [⟨"\ud7ff\n".toList, none, some 0⟩, ⟨[], some [Char.ofNat 0x10ffff], none⟩]⟩

theorem json_carries_review_odd :
    let about : Meta := ⟨"<stdin>".toList, none, ⟨987, 1, 2, 3, 4, 5, 678⟩⟩
    LinesWritable oddReview.comments ∧ Violation.Writable oddReview.violations ∧
    ∃ text, json? oddReview about = some text ∧
      contains "\\ud83d\\ude00\\u2028\", \"\\\\u0041".toList text = true ∧
      (Json.read? text).bind contents? = some ⟨oddReview.violations,
        oddReview.comments.map (Comment.severity, ·), "<stdin>".toList, none,
        "0987-01-02T03:04:05Z".toList, "0.1.0".toList⟩ := by
  intro about
  have first : isWritable 0 = true := by decide +kernel
  have comments : LinesWritable oddReview.comments := by
    refine List.forall_mem_cons.mpr ⟨fun line same => ?_, List.forall_mem_singleton.mpr nofun⟩
    exact Option.some.inj same ▸ first
  have violations : Violation.Writable oddReview.violations := by
    unfold Violation.Writable
    decide +kernel
  obtain ⟨text, written, ascii, read, told, alone⟩ :=
    json_carries_review oddReview about comments violations
  refine ⟨comments, violations, text, written, ?_, ?_⟩
  · obtain rfl := eq_text_of_json? written
    decide +kernel
  · rw [read, Option.bind_some, told]
    have made : about.generatedAt.text = "0987-01-02T03:04:05Z".toList := by decide +kernel
    exact congrArg (fun time => some (Contents.mk oddReview.violations
      (oddReview.comments.map (Comment.severity, ·)) "<stdin>".toList none time version)) made

end Report

end DirectiveReview
