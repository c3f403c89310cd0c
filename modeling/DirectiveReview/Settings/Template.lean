/-
# The starter document

The settings document that a repository starts with.
-/

import DirectiveReview.Text.Lines

namespace DirectiveReview.Settings

/-- The lines of the starter document; the empty one at the end makes the last
line end. -/
def templateLines : List String :=
  ["ignore_paths = [\"Dangerfile\", \"vendor/\"]",
    "tag_reviewers = []",
    "# message = \"Please justify any disabled cop in a comment above the directive.\"",
    "format = \"human\"",
    "fail_on_violation = false",
    "",
    "[docs]",
    "enabled = true",
    "command = [\"bundle\", \"exec\", \"rubocop\", \"--show-docs-url\"]",
    "timeout_seconds = 30",
    "max_workers = 4",
    ""]

/-- The text of the starter document. -/
def template : Text :=
  Text.unlines (templateLines.map String.toList)

end DirectiveReview.Settings
