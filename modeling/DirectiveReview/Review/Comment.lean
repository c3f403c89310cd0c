/-
# Comments

What a review says.  An inline comment stands at a line of a file and names
the rules that were switched off there, with a note.  The summary stands at no
file; it mentions the reviewers to be told.
-/

import DirectiveReview.Text.Basic

namespace DirectiveReview

/-- A warning of a review. -/
structure Comment where
  body : Text
  /-- The file it stands at. -/
  file : Option Text
  /-- The line it stands at. -/
  line : Option Int
  deriving DecidableEq, Repr

namespace Comment

/-- A comment is inline when it stands at a file. -/
def isInline (comment : Comment) : Bool :=
  comment.file.isSome

/-- The word for the severity of every comment. -/
def severity : Text :=
  "warning".toList

/-- What kind of directive was found. -/
def directiveLabel : Text :=
  "`rubocop:disable`".toList

/-- The head of an inline body: one rule is named in the sentence, several are
listed below it. -/
def headline : List Text → Text
  | [] => "Detected ".toList ++ directiveLabel
  | [rule] => "Detected ".toList ++ directiveLabel ++ " for ".toList ++ rule
  | rules =>
    "Detected ".toList ++ directiveLabel ++ " for the following cops:\n".toList ++
      Text.join ['\n'] (rules.map fun rule => "- ".toList ++ rule)

/-- The body of an inline comment: the head, two empty lines, and the note. -/
def inlineBody (rules : List Text) (message : Text) : Text :=
  headline rules ++ "\n\n\n> **Note**\n> ".toList ++ message ++ "\n".toList

/-- The body of the summary.  Without reviewers nobody is mentioned. -/
def summaryBody (reviewers : List Text) : Text :=
  let sentence := "Detected use of ".toList ++ directiveLabel ++ " directive.".toList
  if reviewers = [] then sentence
  else sentence ++ " cc ".toList ++
    Text.join ", ".toList (reviewers.map fun reviewer => '@' :: reviewer)

end Comment

end DirectiveReview
