/-
# Paths

A path as written is a row of names, perhaps starting at the root.  Reading drops
empty names and single dots; double dots stay, because what they mean depends on
the files that exist.  A path that starts with exactly two slashes keeps both.

A location is a path from the root that has been resolved: names only.

A system limits what it can be asked for: no path may hold the NUL character, and
names and whole paths have a most number of bytes.
-/

import DirectiveReview.Text.Basic

namespace DirectiveReview

/-- A place among the files: the names on the way from the root. -/
abbrev Location := List Text

/-- Where a path starts. -/
inductive Anchor where
  /-- At the working directory. -/
  | working
  /-- At the root. -/
  | root
  /-- At the root, written with two slashes. -/
  | doubleRoot
  deriving DecidableEq, Repr

/-- A path as written. -/
structure Path where
  anchor : Anchor
  names : List Text
  deriving DecidableEq, Repr

namespace Path

/-- The name for the directory above. -/
def above : Text :=
  "..".toList

/-- The name for the directory itself. -/
def here : Text :=
  ".".toList

/-- The anchor of a path by the number of slashes it starts with. -/
def anchorOf (text : Text) : Anchor :=
  match (text.takeWhile (· == '/')).length with
  | 0 => .working
  | 2 => .doubleRoot
  | _ => .root

/-- Read a path. -/
def read (text : Text) : Path :=
  ⟨anchorOf text, (Text.pieces '/' text).filter fun name => name ≠ [] ∧ name ≠ here⟩

/-- Write a path.  The path to the working directory is a single dot. -/
def text (p : Path) : Text :=
  match p.anchor with
  | .working => if p.names = [] then here else Text.join ['/'] p.names
  | .root => '/' :: Text.join ['/'] p.names
  | .doubleRoot => '/' :: '/' :: Text.join ['/'] p.names

/-- The path to a location. -/
def ofLocation (location : Location) : Path :=
  ⟨.root, location⟩

/-- A path seen from another one, unless it starts at the root itself. -/
def under (base p : Path) : Path :=
  match p.anchor with
  | .working => ⟨base.anchor, base.names ++ p.names⟩
  | _ => p

/-- A path holds the NUL character. -/
def hasNul (p : Path) : Bool :=
  p.names.any fun name => '\x00' ∈ name

/-- A name has more bytes than any name in a directory can have. -/
def isLongName (name : Text) : Bool :=
  255 < name.utf8Length

/-- A path has more bytes than a system takes.  The limit is 4096 together with the
byte that ends a path. -/
def isLong (p : Path) : Bool :=
  4095 < p.text.utf8Length

/-- The last name of a path; empty if it has none. -/
def lastName (p : Path) : Text :=
  p.names.getLastD []

/-- Follow names from a location without looking at the files: double dots drop a
name, and stay at the root there. -/
def follow (location : Location) : List Text → Location
  | [] => location
  | name :: rest =>
    if name = above then follow location.dropLast rest else follow (location ++ [name]) rest

/-- The location of a path, where no file is a link to another. -/
def resolve (working : Location) (p : Path) : Location :=
  match p.anchor with
  | .working => follow working p.names
  | _ => follow [] p.names

end Path

end DirectiveReview
