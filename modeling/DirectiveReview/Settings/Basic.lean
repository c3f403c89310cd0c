/-
# Settings

What can be configured: what a review looks at and says, how its report is
written, and how documentation is looked up.  The defaults are those of a
repository without any configuration.
-/

import DirectiveReview.Docs.Resolver
import DirectiveReview.Docs.Tool

namespace DirectiveReview

/-- The settings of a review. -/
structure ReviewSettings where
  /-- Files whose path contains one of these are left out. -/
  ignorePaths : List Text
  /-- The note under every inline comment. -/
  message : Text
  /-- Who is mentioned in the summary. -/
  tagReviewers : List Text
  deriving DecidableEq, Repr

namespace ReviewSettings

/-- The files that are left out by default. -/
def defaultIgnorePaths : List Text :=
  ["Dangerfile".toList]

/-- The note that is given by default. -/
def defaultMessage : Text :=
  ("Disabling a rule is usually an indication of a code smell and can be easily avoided. " ++
    "If you feel this is an exceptional case, please add a comment above with " ++
    "justification.").toList

/-- The settings of a review when nothing is configured. -/
def default : ReviewSettings :=
  ⟨defaultIgnorePaths, defaultMessage, []⟩

/-- Replace the settings that are given and keep the others. -/
def override (s : ReviewSettings) (ignorePaths : Option (List Text)) (message : Option Text)
    (tagReviewers : Option (List Text)) : ReviewSettings :=
  ⟨ignorePaths.getD s.ignorePaths, message.getD s.message, tagReviewers.getD s.tagReviewers⟩

end ReviewSettings

/-- How a report is written. -/
inductive ReportFormat where
  | human
  | json
  deriving DecidableEq, Repr

namespace ReportFormat

/-- The word for a format. -/
def word : ReportFormat → Text
  | .human => "human".toList
  | .json => "json".toList

/-- The format that a word stands for, in letters of either case. -/
def ofWord? (word : Text) : Option ReportFormat :=
  [human, json].find? fun format => format.word = word.lowerAscii

end ReportFormat

/-- The settings of the documentation lookup. -/
structure DocsSettings where
  /-- Rules are linked to their documentation. -/
  enabled : Bool
  /-- The command that prints the address of a rule's documentation. -/
  command : List Text
  /-- The time one call may take, in seconds. -/
  timeout : Binary64
  /-- How many calls may be made side by side. -/
  maxWorkers : Int
  deriving DecidableEq, Repr

/-- The settings of the lookup when nothing is configured. -/
def DocsSettings.default : DocsSettings :=
  ⟨true, DocsTool.defaultCommand, DocsTool.defaultTimeout, Resolver.defaultMaxWorkers⟩

/-- All settings, and the file they come from, if any. -/
structure Settings where
  review : ReviewSettings
  format : ReportFormat
  failOnViolation : Bool
  docs : DocsSettings
  source : Option Text
  deriving DecidableEq, Repr

/-- The settings of a repository without configuration. -/
def Settings.default : Settings :=
  ⟨ReviewSettings.default, .human, false, DocsSettings.default, none⟩

end DirectiveReview
