/-
# JSON

The JSON values that reports are made of, and their text on a single line of
ASCII.  Fields are written in the order they stand in; the makers of reports put
them in alphabetical order.

A number can be too long to be written.  That is a property of the value,
`Json.isWritable`, so that writing itself is a plain function.
-/

import DirectiveReview.Number.Decimal

namespace DirectiveReview

/-- A JSON value.  Whole numbers and binary64 numbers are kept apart, because
they are written differently. -/
inductive Json where
  | null
  | bool (value : Bool)
  | integer (value : Int)
  | number (value : Binary64)
  | string (value : Text)
  | array (items : List Json)
  | object (fields : List (Text × Json))

namespace Json

/-- The words for the numbers that have no decimal. -/
def specialNames : Binary64.SpecialNames :=
  ⟨"NaN".toList, "Infinity".toList⟩

/-- A code unit of sixteen bits as an escape. -/
def unitEscape (unit : Nat) : Text :=
  "\\u".toList ++ Text.hexPadded 4 unit

/-- One character inside a string.  Quotes and backslashes are escaped, controls
and everything beyond ASCII are written by number, as a pair of code units beyond
the sixteen-bit range. -/
def escapedChar (c : Char) : Text :=
  let n := c.toNat
  if c = '"' then "\\\"".toList
  else if c = '\\' then "\\\\".toList
  else if c = '\n' then "\\n".toList
  else if c = '\r' then "\\r".toList
  else if c = '\t' then "\\t".toList
  else if c = '\x08' then "\\b".toList
  else if c = '\x0c' then "\\f".toList
  else if 0x20 ≤ n ∧ n < 0x7f then [c]
  else if n < 0x10000 then unitEscape n
  else unitEscape (0xd800 + (n - 0x10000) / 0x400) ++ unitEscape (0xdc00 + (n - 0x10000) % 0x400)

/-- A string in quotes. -/
def stringText (value : Text) : Text :=
  '"' :: value.flatMap escapedChar ++ ['"']

mutual

/-- A value on one line. -/
def text : Json → Text
  | .null => "null".toList
  | .bool true => "true".toList
  | .bool false => "false".toList
  | .integer value => Text.integer value
  | .number value => value.text specialNames
  | .string value => stringText value
  | .array items => '[' :: Text.join ", ".toList (itemTexts items) ++ [']']
  | .object fields => '\x7b' :: Text.join ", ".toList (fieldTexts fields) ++ ['\x7d']

/-- The items of an array, each on its own. -/
def itemTexts : List Json → List Text
  | [] => []
  | item :: rest => text item :: itemTexts rest

/-- The fields of an object, each on its own. -/
def fieldTexts : List (Text × Json) → List Text
  | [] => []
  | (name, value) :: rest => (stringText name ++ ": ".toList ++ text value) :: fieldTexts rest

end

mutual

/-- No whole number in the value is too long to be written. -/
def isWritable : Json → Bool
  | .integer value => Text.isWritable value
  | .array items => itemsWritable items
  | .object fields => fieldsWritable fields
  | _ => true

/-- No whole number in a row of values is too long to be written. -/
def itemsWritable : List Json → Bool
  | [] => true
  | item :: rest => isWritable item && itemsWritable rest

/-- No whole number in a row of fields is too long to be written. -/
def fieldsWritable : List (Text × Json) → Bool
  | [] => true
  | (_, value) :: rest => isWritable value && fieldsWritable rest

end

/-- The text of a value that can be written. -/
def text? (json : Json) : Option Text :=
  if json.isWritable then some json.text else none

/-- An array of strings. -/
def strings (values : List Text) : Json :=
  .array (values.map .string)

/-- A value, or null where there is none. -/
def orNull {α : Type} (encode : α → Json) : Option α → Json
  | none => .null
  | some value => encode value

end Json

end DirectiveReview
