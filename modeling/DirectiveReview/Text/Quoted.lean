/-
# Quoted display

How texts and rows of texts are shown in log lines and in the listing of the
settings: every text in quotes, with all that could be mistaken or not be seen
written as an escape.  A row of texts is shown as a list in brackets or as a
tuple in parentheses; a tuple of one text keeps a comma behind it, so that it
differs from a parenthesised text.
-/

import DirectiveReview.Text.Numeral
import DirectiveReview.Text.Printable

namespace DirectiveReview.Text

/-- Single quotes are used unless they occur in the text and double quotes do
not. -/
def quoteFor (text : Text) : Char :=
  if '\'' ∈ text ∧ '"' ∉ text then '"' else '\''

/-- One character of a text between the given quotes. -/
def quotedChar (quote c : Char) : Text :=
  if c = quote || c = '\\' then ['\\', c]
  else if c = '\n' then "\\n".toList
  else if c = '\r' then "\\r".toList
  else if c = '\t' then "\\t".toList
  else if isPrintable c then [c]
  else if c.toNat < 0x100 then "\\x".toList ++ hexPadded 2 c.toNat
  else if c.toNat < 0x10000 then "\\u".toList ++ hexPadded 4 c.toNat
  else "\\U".toList ++ hexPadded 8 c.toNat

/-- A text in quotes. -/
def quoted (text : Text) : Text :=
  let quote := quoteFor text
  quote :: text.flatMap (quotedChar quote) ++ [quote]

/-- A row of texts in brackets. -/
def quotedList (texts : List Text) : Text :=
  '[' :: join ", ".toList (texts.map quoted) ++ [']']

/-- A row of texts in parentheses. -/
def quotedTuple : List Text → Text
  | [text] => '(' :: quoted text ++ ",)".toList
  | texts => '(' :: join ", ".toList (texts.map quoted) ++ [')']

end DirectiveReview.Text
