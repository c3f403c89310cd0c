/-
# Text

A text is the list of its Unicode scalar values, so every function on text is a
function on lists and is reasoned about with the list lemmas.  This module holds
the searches and cuts that the rest of the library is made of: cutting at a
separator, joining, and finding a marker.

Nothing here knows about lines or blanks; those depend on tables of characters
and have modules of their own.
-/

namespace DirectiveReview

/-- A text, as the list of its characters. -/
abbrev Text := List Char

namespace Text

/-- What follows `lead` in a text that starts with it. -/
def behind? : (lead text : Text) → Option Text
  | [], text => some text
  | _ :: _, [] => none
  | l :: lead, c :: text => if l = c then behind? lead text else none

/-- What follows the first occurrence of `marker`, or nothing when the marker
does not occur.  The search tries each position from the left, so the first
occurrence wins also when occurrences overlap. -/
def after? (marker : Text) : Text → Option Text
  | [] => behind? marker []
  | c :: rest =>
    match behind? marker (c :: rest) with
    | some follows => some follows
    | none => after? marker rest

/-- A text contains a part when the part occurs at some position.  The empty
part occurs in every text. -/
def contains (part text : Text) : Bool :=
  (after? part text).isSome

/-- Cut a text at every occurrence of a separator character.  There is always
one more piece than there are separators, so the empty text has one empty
piece. -/
def pieces (separator : Char) : Text → List Text
  | [] => [[]]
  | c :: rest =>
    if c = separator then [] :: pieces separator rest
    else
      match pieces separator rest with
      | [] => [[c]]
      | piece :: more => (c :: piece) :: more

/-- Put pieces one after the other with a separator between neighbours. -/
def join (separator : Text) (parts : List Text) : Text :=
  separator.intercalate parts

/-- The text up to the first occurrence of a character, or the whole text. -/
def upTo (stop : Char) (text : Text) : Text :=
  text.takeWhile (· != stop)

/-- Drop every trailing character that satisfies a predicate. -/
def dropTrailing (p : Char → Bool) (text : Text) : Text :=
  (text.reverse.dropWhile p).reverse

/-- The number of bytes of a text in UTF-8. -/
def utf8Length (text : Text) : Nat :=
  text.foldr (fun c bytes => c.utf8Size + bytes) 0

/-- The small letter for each capital letter of the ASCII alphabet; every other
character stands for itself. -/
def lowerAscii (text : Text) : Text :=
  text.map Char.toLower

end Text

end DirectiveReview
