/-
# Disable directives

A comment `# rubocop:disable` switches rules off for a line of code or from there
on.  The rules are named behind it, separated by commas, and everything up to the
end of the line counts as names.
-/

import DirectiveReview.Text.Blank

namespace DirectiveReview.Directive

/-- The text that marks a directive. -/
def marker : Text :=
  "# rubocop:disable".toList

/-- The rules named behind the marker: the pieces between commas without the
blanks around them, empty ones left out. -/
def rulesIn (names : Text) : List Text :=
  ((Text.pieces ',' names).map Text.trim).filter (!·.isEmpty)

/-- The rules that the first directive of a line switches off.  A line without a
directive has none to speak of, which differs from a directive without rules. -/
def rules? (line : Text) : Option (List Text) :=
  (Text.after? marker line).map rulesIn

end DirectiveReview.Directive
