/-
# TOML documents

Values, statements and whole documents.  A document is a row of statements, each
on a line of its own: a key with a value, the header of a table, or the header of
a new table in a row of tables.  What a statement may do depends on the ones
before it; `Draft` holds the document as far as it has been read together with
the keys that are settled.

A value is read in a given room.  What it asks for is demanded before it is read, so
that values which are nested too deeply are noticed where the room runs out, before
whatever else is wrong further on.

A key is *declared* once a header has opened it, or once dotted keys of an earlier
section have led through it: neither a header nor a dotted key may open it again.
A key is *sealed* when its value was written inline: nothing below it can be
changed.
-/

import DirectiveReview.Toml.Room

namespace DirectiveReview.Toml

/-- Why a text is not a document that can be used. -/
inductive Fault where
  /-- It breaks the rules of the format. -/
  | malformed
  /-- A decimal integer has too many digits to be converted. -/
  | numberTooLong
  /-- Values are nested too deeply: there is no room for a step. -/
  | tooDeep (step : Step)
  deriving DecidableEq, Repr

/-- The result of a lexeme's reader; where it finds nothing the text is
malformed. -/
def require {α : Type} : Option α → Except Fault α
  | some a => .ok a
  | none => .error .malformed

/-- Make sure that a room meets demands. -/
def meet (room : Nat) (demands : List Demand) : Except Fault Unit :=
  match Demand.firstUnmet? room demands with
  | some step => .error (.tooDeep step)
  | none => .ok ()

/-- The room that is left below readers entered one inside the other. -/
def enter (readers room : Nat) : Except Fault Nat := do
  meet room [.entering readers]
  return room - readers

/-- Give up on a text that is malformed in front of the given rest, as soon as that
has been said. -/
def giveUp {α : Type} (room : Nat) (rest : Text) : Except Fault α := do
  meet room (Demand.ofPlace rest)
  .error .malformed

/-- The rest of a text behind a gap in an array. -/
def gap (room : Nat) (text : Text) : Except Fault Text := do
  meet room (Demand.ofGap text)
  require (skipGap? false text)

/-! ## Keys -/

/-- One part of a key. -/
def keyPart (room : Nat) (text : Text) : Except Fault (Text × Text) := do
  meet room (Demand.ofKeyPart text)
  require (keyPart? text)

/-- At most `limit` further parts of a key, each behind a dot, with the blanks
around them. -/
def keyTail (room : Nat) : (limit : Nat) → Text → Except Fault (Key × Text)
  | 0, text => .ok ([], text)
  | limit + 1, text =>
    match skipSpaces text with
    | '.' :: rest => do
      let (part, rest) ← keyPart room (skipSpaces rest)
      let (more, rest) ← keyTail room limit rest
      return (part :: more, rest)
    | rest => .ok ([], rest)

/-- A key, with the blanks behind it.  It has no more parts than characters. -/
def key (room : Nat) (text : Text) : Except Fault (Key × Text) := do
  let (part, rest) ← keyPart room text
  let (more, rest) ← keyTail room (rest.length + 1) rest
  return (part :: more, rest)

/-! ## Values -/

/-- The value of a number as written. -/
def Numeral.value : Numeral → Except Fault Value
  | .decimal negative digits =>
    match Text.readNumeral? digits with
    | some n => .ok (.integer (if negative then -n else n))
    | none => .error .numberTooLong
  | .based n => .ok (.integer n)
  | .fractional numeral => (require (Binary64.read? numeral)).map .float

/-- A value that is written without quotes and brackets.  Dates are tried before
numbers, as both start with digits. -/
def plain (room : Nat) (text : Text) : Except Fault (Value × Text) := do
  meet room (Demand.ofScalar text)
  match Text.behind? "true".toList text, Text.behind? "false".toList text with
  | some rest, _ => return (.boolean true, rest)
  | _, some rest => return (.boolean false, rest)
  | none, none =>
    match moment? text with
    | some (m, rest) =>
      meet room (Demand.ofMoment m)
      if m.exists then return (.moment m, rest) else giveUp (room - 1) text
    | none =>
      match numeral? text with
      | some (n, rest) =>
        meet room Demand.ofNumeral
        return (← n.value, rest)
      | none =>
        match specialNumber? text with
        | some (x, rest) => return (.float x, rest)
        | none => giveUp (room - 1) text

/-- A value that is a string. -/
def string (room : Nat) (text : Text) : Except Fault (Value × Text) := do
  meet room (Demand.ofString text)
  let (s, rest) ← require (string? text)
  return (.string s, rest)

/-- A value that is no array and no table. -/
def scalar (room : Nat) : Text → Except Fault (Value × Text)
  | '"' :: rest => string room ('"' :: rest)
  | '\'' :: rest => string room ('\'' :: rest)
  | text => plain room text

/-- A key or one of those on the way to it is in a list of keys. -/
def isWithin (keys : List Key) (key : Key) : Bool :=
  keys.any fun k => k.isPrefixOf key

/-- An inline table as far as it has been read. -/
structure InlineDraft where
  entries : Table
  sealed : List Key

/-- Take in an entry of an inline table. -/
def InlineDraft.add (draft : InlineDraft) (key : Key) (value : Value) :
    Except Fault InlineDraft := do
  if isWithin draft.sealed key then .error .malformed
  let entries ← require
    (draft.entries.change? false (Table.add? (key.getLastD []) value) key.dropLast)
  return ⟨entries, if value.isContainer then key :: draft.sealed else draft.sealed⟩

mutual

/-- A value.  The limit bounds the steps into arrays and tables and along them. -/
def value : (limit room : Nat) → Text → Except Fault (Value × Text)
  | 0, _, _ => .error .malformed
  | limit + 1, room, '[' :: rest => do
    let room ← enter 2 room
    let rest ← gap room rest
    let (items, rest) ← items limit room rest
    return (.array items, rest)
  | limit + 1, room, '\x7b' :: rest => do
    let room ← enter 2 room
    meet room Demand.ofTable
    match skipSpaces rest with
    | '\x7d' :: rest => return (.table [], rest)
    | rest => do
      let (draft, rest) ← fields limit room ⟨[], []⟩ rest
      return (.table draft.entries, rest)
  | _ + 1, room, text => scalar room text

/-- The items of an array that are left, with the closing bracket.  A comma may
stand behind the last item. -/
def items : (limit room : Nat) → Text → Except Fault (List Value × Text)
  | 0, _, _ => .error .malformed
  | _ + 1, _, ']' :: rest => .ok ([], rest)
  | limit + 1, room, text => do
    let (item, rest) ← value limit room text
    let rest ← gap room rest
    match rest with
    | ']' :: rest => return ([item], rest)
    | ',' :: rest =>
      let rest ← gap room rest
      let (more, rest) ← items limit room rest
      return (item :: more, rest)
    | rest => giveUp room rest

/-- The entries of an inline table that are left, with the closing brace.  No
comma may stand behind the last entry. -/
def fields : (limit room : Nat) → InlineDraft → Text → Except Fault (InlineDraft × Text)
  | 0, _, _, _ => .error .malformed
  | limit + 1, room, draft, text => do
    let entryRoom ← enter 1 room
    let (key, rest) ← key entryRoom text
    let rest ← require (mark? '=' rest)
    let (v, rest) ← value limit entryRoom (skipSpaces rest)
    let draft ← draft.add key v
    match skipSpaces rest with
    | '\x7d' :: rest => return (draft, rest)
    | ',' :: rest => fields limit room draft (skipSpaces rest)
    | _ => .error .malformed

end

/-- A key with its value. -/
def keyValue (room : Nat) (text : Text) : Except Fault ((Key × Value) × Text) := do
  let (key, rest) ← key room text
  let rest ← require (mark? '=' rest)
  let (v, rest) ← value (2 * rest.length + 2) room (skipSpaces rest)
  return ((key, v), rest)

/-! ## Statements -/

/-- A document as far as it has been read. -/
structure Draft where
  /-- The tables and values so far. -/
  root : Table
  /-- The key of the section under way. -/
  header : Key
  /-- Keys that no header and no dotted key may open. -/
  declared : List Key
  /-- Keys that dotted keys of the section under way have led through; they are
  declared when the section ends. -/
  opened : List Key
  /-- Keys whose value was written inline. -/
  sealed : List Key

namespace Draft

/-- Nothing has been read. -/
def empty : Draft :=
  ⟨[], [], [], [], []⟩

/-- End the section under way. -/
def closeSection (d : Draft) : Draft :=
  { d with declared := d.opened ++ d.declared, opened := [] }

/-- Open the table of a header. -/
def openTable (d : Draft) (key : Key) : Except Fault Draft := do
  let d := d.closeSection
  if d.declared.contains key || isWithin d.sealed key then .error .malformed
  let root ← require (d.root.change? true some key)
  return { d with root, header := key, declared := key :: d.declared }

/-- Open a new table at the end of a row of tables.  What was settled below the
row concerned its earlier tables. -/
def openRow (d : Draft) (key : Key) : Except Fault Draft := do
  let d := d.closeSection
  if isWithin d.sealed key then .error .malformed
  let root ← require (d.root.change? true (Table.addRow? (key.getLastD [])) key.dropLast)
  return { d with
    root
    header := key
    declared := key :: d.declared.filter fun k => !key.isPrefixOf k
    sealed := d.sealed.filter fun k => !key.isPrefixOf k }

/-- The keys on the way to a dotted key of the section under way. -/
def between (d : Draft) (key : Key) : List Key :=
  (List.range (key.length - 1)).map fun n => d.header ++ key.take (n + 1)

/-- Put a value under a key of the section under way. -/
def assign (d : Draft) (key : Key) (v : Value) : Except Fault Draft := do
  let between := d.between key
  let parent := d.header ++ key.dropLast
  if between.any fun k => d.declared.contains k then .error .malformed
  if isWithin d.sealed parent then .error .malformed
  let root ← require (d.root.change? true (Table.add? (key.getLastD []) v) parent)
  return { d with
    root
    opened := between ++ d.opened
    sealed := if v.isContainer then (d.header ++ key) :: d.sealed else d.sealed }

/-- Take in the statement at the front of a text. -/
def statement (room : Nat) (d : Draft) : Text → Except Fault (Draft × Text)
  | '[' :: '[' :: rest => do
    let (key, rest) ← key room (skipSpaces rest)
    let d ← d.openRow key
    let rest ← require (Text.behind? "]]".toList rest)
    return (d, rest)
  | '[' :: rest => do
    let (key, rest) ← key room (skipSpaces rest)
    let d ← d.openTable key
    let rest ← require (mark? ']' rest)
    return (d, rest)
  | '#' :: rest => .ok (d, '#' :: rest)
  | '\n' :: rest => .ok (d, '\n' :: rest)
  | text => do
    let ((key, v), rest) ← keyValue room text
    let d ← d.assign key v
    return (d, rest)

/-- What is left behind a statement: blanks, perhaps a comment, and the line end. -/
def lineEnd (text : Text) : Except Fault Text := do
  let rest :=
    match skipSpaces text with
    | '#' :: rest => skipComment? rest
    | rest => some rest
  match ← require rest with
  | [] => .ok []
  | c :: rest => if c = '\n' then .ok rest else .error .malformed

/-- Take in at most a given number of statements. -/
def statements (room : Nat) : (limit : Nat) → Draft → Text → Except Fault Draft
  | 0, d, _ => .ok d
  | limit + 1, d, text =>
    match skipSpaces text with
    | [] => .ok d
    | text => do
      let (d, rest) ← d.statement room text
      let rest ← lineEnd rest
      statements room limit d rest

end Draft

/-- The table that a document describes, read with so much room for every entry.
Every statement takes at least one character, so the length of the text bounds
their number. -/
def read (room : Nat) (text : Text) : Except Fault Table := do
  let text := joinLineEnds text
  let draft ← Draft.statements room (text.length + 1) Draft.empty text
  return draft.root

end DirectiveReview.Toml
