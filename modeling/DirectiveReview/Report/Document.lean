/-
# The report for programs

The whole result of a review as one JSON object: comments, violations, and
where and when the report was made.  Fields stand in alphabetical order.
-/

import DirectiveReview.Json.Value
import DirectiveReview.Review.Check
import DirectiveReview.Timestamp

namespace DirectiveReview.Report

/-- The version of this program. -/
def version : Text :=
  "0.1.0".toList

/-- What a report says about itself. -/
structure Meta where
  /-- Where the diff came from. -/
  inputSource : Text
  /-- The file the settings came from, if any. -/
  settingsSource : Option Text
  /-- When the report was made. -/
  generatedAt : Timestamp
  deriving DecidableEq, Repr

/-- A comment as an object. -/
def commentJson (comment : Comment) : Json :=
  .object
    [("body".toList, .string comment.body),
      ("file".toList, Json.orNull .string comment.file),
      ("line".toList, Json.orNull .integer comment.line),
      ("severity".toList, .string Comment.severity)]

/-- A violation as an object. -/
def violationJson (violation : Violation) : Json :=
  .object
    [("disabled_rules".toList, Json.strings violation.rules),
      ("file".toList, .string violation.file),
      ("line".toList, .integer violation.line)]

/-- What a report says about itself, as an object. -/
def metaJson (about : Meta) : Json :=
  .object
    [("config_source".toList, Json.orNull .string about.settingsSource),
      ("generated_at".toList, .string about.generatedAt.text),
      ("input_source".toList, .string about.inputSource),
      ("version".toList, .string version)]

/-- The report as an object. -/
def document (review : Review) (about : Meta) : Json :=
  .object
    [("annotations".toList, .array (review.comments.map commentJson)),
      ("meta".toList, metaJson about),
      ("violations".toList, .array (review.violations.map violationJson))]

/-- The report on one line, or nothing when a line number is too long to be
written. -/
def json? (review : Review) (about : Meta) : Option Text :=
  (document review about).text?

end DirectiveReview.Report
