/-
# Showing settings

Settings as a JSON object with its fields in alphabetical order, and as a list
for people.
-/

import DirectiveReview.Json.Value
import DirectiveReview.Settings.Basic
import DirectiveReview.Text.Lines

namespace DirectiveReview.Settings

/-- The settings of the lookup as an object. -/
def docsJson (docs : DocsSettings) : Json :=
  .object
    [("command".toList, Json.strings docs.command),
      ("enabled".toList, .bool docs.enabled),
      ("max_workers".toList, .integer docs.maxWorkers),
      ("timeout_seconds".toList, .number docs.timeout)]

/-- Settings as an object. -/
def json (s : Settings) : Json :=
  .object
    [("docs".toList, docsJson s.docs),
      ("fail_on_violation".toList, .bool s.failOnViolation),
      ("format".toList, .string s.format.word),
      ("ignore_paths".toList, Json.strings s.review.ignorePaths),
      ("message".toList, .string s.review.message),
      ("source".toList, Json.orNull .string s.source),
      ("tag_reviewers".toList, Json.strings s.review.tagReviewers)]

/-- The word for a truth value in the list for people. -/
def truthText (value : Bool) : Text :=
  if value then "True".toList else "False".toList

/-- The source of settings in the list for people. -/
def sourceText (source : Option Text) : Text :=
  match source with
  | none => "defaults".toList
  | some path => if path = [] then "defaults".toList else path

/-- Settings as a list for people. -/
def listing (s : Settings) : Text :=
  Text.unlines
    ["Resolved configuration:".toList,
      "- source: ".toList ++ sourceText s.source,
      "- ignore_paths: ".toList ++ Text.quotedList s.review.ignorePaths,
      "- tag_reviewers: ".toList ++ Text.quotedList s.review.tagReviewers,
      "- format: ".toList ++ s.format.word,
      "- fail_on_violation: ".toList ++ truthText s.failOnViolation,
      "- docs.enabled: ".toList ++ truthText s.docs.enabled,
      "- docs.command: ".toList ++ Text.quotedList s.docs.command]

end DirectiveReview.Settings
