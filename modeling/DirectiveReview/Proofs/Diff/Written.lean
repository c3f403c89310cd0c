/-
# Changes as they are written

A structured description of a diff, and the lines it is written as: the changes
of files, each with its names and hunks, and hunks whose body entries say of each
line which file it belongs to.  Nothing here reads a diff; the readers are
compared with these definitions elsewhere.

Two kinds of conditions are kept apart.  Being well formed says that a change can
be written at all: no part runs over the end of its line, numerals are numerals,
and the counts of a hunk header agree with its body.  Being legible says that a
name survives the conventions of the line it is written into, where blanks and
tabs have a meaning of their own.
-/

import DirectiveReview.Diff.FileDiff
import DirectiveReview.Proofs.Diff.HunkHeader

namespace DirectiveReview

open Text

/-- A hunk header is not the first line of a git section. -/
@[simp]
theorem HunkHeader.opensGitSection_text (h : HunkHeader) :
    FileDiff.opensGitSection h.text = false := by
  rw [text_eq]
  rfl

namespace BodyLine

/-- The character in front of a line of each kind. -/
def mark : BodyLine → Char
  | .added => '+'
  | .removed => '-'
  | .remark => '\\'
  | .context => ' '

/-- Lines of this kind are lines of the old file. -/
def inOld : BodyLine → Bool
  | .removed | .context => true
  | .added | .remark => false

/-- Lines of this kind are lines of the new file. -/
def inNew : BodyLine → Bool
  | .added | .context => true
  | .removed | .remark => false

/-- A line of neither file is a remark. -/
theorem eq_remark {kind : BodyLine} (old : kind.inOld = false) (new : kind.inNew = false) :
    kind = .remark := by
  cases kind with
  | added => cases new
  | removed => cases old
  | remark => rfl
  | context => cases old

end BodyLine

/-- An entry of a hunk body: what it says, and the text behind its mark.  The
remark about a missing final line end is an entry like any other. -/
structure BodyEntry where
  kind : BodyLine
  text : Text
  deriving DecidableEq, Repr

namespace BodyEntry

/-- The line an entry is written as. -/
def line (entry : BodyEntry) : Text :=
  entry.kind.mark :: entry.text

/-- How many of the entries are lines of the old file. -/
def oldLines (entries : List BodyEntry) : Nat :=
  entries.countP (·.kind.inOld)

/-- How many of the entries are lines of the new file. -/
def newLines (entries : List BodyEntry) : Nat :=
  entries.countP (·.kind.inNew)

@[simp]
theorem oldLines_nil : oldLines [] = 0 := rfl

@[simp]
theorem newLines_nil : newLines [] = 0 := rfl

@[simp]
theorem oldLines_cons (entry : BodyEntry) (rest : List BodyEntry) :
    oldLines (entry :: rest) = oldLines rest + if entry.kind.inOld then 1 else 0 :=
  List.countP_cons

@[simp]
theorem newLines_cons (entry : BodyEntry) (rest : List BodyEntry) :
    newLines (entry :: rest) = newLines rest + if entry.kind.inNew then 1 else 0 :=
  List.countP_cons

@[simp]
theorem oldLines_append (first second : List BodyEntry) :
    oldLines (first ++ second) = oldLines first + oldLines second :=
  List.countP_append

@[simp]
theorem newLines_append (first second : List BodyEntry) :
    newLines (first ++ second) = newLines first + newLines second :=
  List.countP_append

@[simp]
theorem of_line (entry : BodyEntry) : BodyLine.of entry.line = entry.kind := by
  obtain ⟨kind, text⟩ := entry
  cases kind <;> rfl

/-- No text behind the mark makes a body line look like a hunk header. -/
@[simp]
theorem opens_line (entry : BodyEntry) : HunkHeader.opens entry.line = false := by
  obtain ⟨kind, text⟩ := entry
  cases kind <;> rfl

/-- No text behind the mark makes a body line look like the start of a git
section. -/
@[simp]
theorem opensGitSection_line (entry : BodyEntry) :
    FileDiff.opensGitSection entry.line = false := by
  obtain ⟨kind, text⟩ := entry
  cases kind <;> rfl

theorem line_ne_nil (entry : BodyEntry) : entry.line ≠ [] :=
  List.cons_ne_nil _ _

theorem oneLine_line {entry : BodyEntry} (h : OneLine entry.text) : OneLine entry.line := by
  refine oneLine_cons.mpr ⟨?_, h⟩
  cases entry.kind <;> decide

end BodyEntry

def Hunk.lines (hunk : Hunk) : List Text :=
  hunk.header :: hunk.body

/-- A hunk by its parts. -/
structure HunkChange where
  header : HunkHeader
  entries : List BodyEntry
  deriving DecidableEq, Repr

namespace HunkChange

def hunk (change : HunkChange) : Hunk :=
  ⟨change.header.text, change.entries.map BodyEntry.line⟩

def lines (change : HunkChange) : List Text :=
  change.hunk.lines

/-- The line of the new file that the header gives as the first of the hunk. -/
def start (change : HunkChange) : Nat :=
  decimalValue change.header.newStart

/-- A hunk that can be written and whose start can be converted. -/
structure Writable (change : HunkChange) : Prop where
  header : change.header.WellFormed
  heading : OneLine change.header.heading
  texts : ∀ entry ∈ change.entries, OneLine entry.text
  start : change.header.newStart.length ≤ maxDigits

/-- A writable hunk whose header counts the lines of its body. -/
structure WellFormed (change : HunkChange) : Prop extends change.Writable where
  oldCount : HunkHeader.Tells change.header.oldCount (BodyEntry.oldLines change.entries)
  newCount : HunkHeader.Tells change.header.newCount (BodyEntry.newLines change.entries)

instance (change : HunkChange) : Decidable change.Writable :=
  decidable_of_iff
    (change.header.WellFormed ∧ OneLine change.header.heading ∧
      (∀ entry ∈ change.entries, OneLine entry.text) ∧ change.header.newStart.length ≤ maxDigits)
    ⟨fun h => ⟨h.1, h.2.1, h.2.2.1, h.2.2.2⟩, fun h => ⟨h.header, h.heading, h.texts, h.start⟩⟩

instance (change : HunkChange) : Decidable change.WellFormed :=
  decidable_of_iff
    (change.Writable ∧ HunkHeader.Tells change.header.oldCount (BodyEntry.oldLines change.entries) ∧
      HunkHeader.Tells change.header.newCount (BodyEntry.newLines change.entries))
    ⟨fun h => ⟨h.1, h.2.1, h.2.2⟩, fun h => ⟨h.toWritable, h.oldCount, h.newCount⟩⟩

/-- The lines that a hunk adds.  The number of each is the start of the hunk and
one more for every line of the new file above it. -/
def added (change : HunkChange) : List AddedLine :=
  change.entries.zipIdx.filterMap fun (entry, i) =>
    if entry.kind = .added then
      some ⟨entry.line, change.start + BodyEntry.newLines (change.entries.take i)⟩
    else none

end HunkChange

/-- A line that is no part of the structure of a diff. -/
structure Unstructured (line : Text) : Prop where
  notGit : FileDiff.opensGitSection line = false
  notHunk : HunkHeader.opens line = false
  notOld : FileDiff.namesOld line = false
  notNew : FileDiff.namesNew line = false

instance (line : Text) : Decidable (Unstructured line) :=
  decidable_of_iff
    (FileDiff.opensGitSection line = false ∧ HunkHeader.opens line = false ∧
      FileDiff.namesOld line = false ∧ FileDiff.namesNew line = false)
    ⟨fun h => ⟨h.1, h.2.1, h.2.2.1, h.2.2.2⟩, fun h => ⟨h.notGit, h.notHunk, h.notOld, h.notNew⟩⟩

theorem Unstructured.of_remark {line : Text} (remark : BodyLine.of line = .remark) :
    Unstructured line := by
  unfold BodyLine.of at remark
  split at remark
  · cases remark
  · cases remark
  · exact ⟨rfl, rfl, rfl, rfl⟩
  · cases remark

/-- Which sides of a change are files.  The other side, if any, is no file; no
change lacks both. -/
inductive Sides where
  | both
  /-- The file is created. -/
  | onlyNew
  /-- The file is deleted. -/
  | onlyOld
  deriving DecidableEq, Repr

/-- The change of one file by its parts. -/
structure FileChange where
  old : Text
  new : Text
  sides : Sides
  /-- Lines that a git section has between its first line and the names. -/
  extended : List Text
  hunks : List HunkChange
  deriving DecidableEq, Repr

/-- How the files of a diff are set off from one another. -/
inductive DiffStyle where
  /-- Each file has a section headed by a `diff --git` line. -/
  | git
  /-- Each file is headed by the pair of its names alone, with or without the
  directories `a/` and `b/` in front. -/
  | plain (sided : Bool)
  deriving DecidableEq, Repr

namespace DiffStyle

/-- What stands in front of an old name. -/
def oldLead : DiffStyle → Text
  | .git | .plain true => "a/".toList
  | .plain false => []

/-- What stands in front of a new name. -/
def newLead : DiffStyle → Text
  | .git | .plain true => "b/".toList
  | .plain false => []

end DiffStyle

namespace FileChange

variable (style : DiffStyle) (change : FileChange)

/-- The old name as it is written: behind its lead, or the name of no file. -/
def oldName : Text :=
  if change.sides = .onlyNew then FileDiff.noFile else style.oldLead ++ change.old

/-- The new name as it is written. -/
def newName : Text :=
  if change.sides = .onlyOld then FileDiff.noFile else style.newLead ++ change.new

/-- The pair of lines that name the old and the new file. -/
def nameLines : List Text :=
  ["--- ".toList ++ change.oldName style, "+++ ".toList ++ change.newName style]

/-- The line that opens the section of a file.  It has both names, also where one
side is no file. -/
def gitLine : Text :=
  "diff --git a/".toList ++ change.old ++ " b/".toList ++ change.new

/-- The lines above the hunks.  A git section without hunks does not repeat its
names. -/
def head : List Text :=
  match style with
  | .git =>
    change.gitLine :: change.extended ++
      if change.hunks = [] then [] else change.nameLines .git
  | .plain sided => change.nameLines (.plain sided)

def hunkLines : List Text :=
  change.hunks.flatMap HunkChange.lines

def lines : List Text :=
  change.head style ++ change.hunkLines

def patch : Text :=
  unlines (change.lines style)

def added : List AddedLine :=
  change.hunks.flatMap HunkChange.added

/-- The path a change goes by: the new name, or the old name of a deleted file.  A
git section without hunks does not tell of a deletion in its names. -/
def path : Text :=
  if change.sides = .onlyOld ∧ ¬ (style = .git ∧ change.hunks = []) then change.old
  else change.new

/-- The change can be written: every part keeps to its line, and the further lines
of a git section do not look like another part of it. -/
structure WellFormed : Prop where
  old : OneLine change.old
  new : OneLine change.new
  extended : ∀ line ∈ change.extended, OneLine line ∧ Unstructured line
  hunks : ∀ hunk ∈ change.hunks, hunk.WellFormed

instance : Decidable change.WellFormed :=
  decidable_of_iff
    (OneLine change.old ∧ OneLine change.new ∧
      (∀ line ∈ change.extended, OneLine line ∧ Unstructured line) ∧
      ∀ hunk ∈ change.hunks, hunk.WellFormed)
    ⟨fun h => ⟨h.1, h.2.1, h.2.2.1, h.2.2.2⟩, fun h => ⟨h.old, h.new, h.extended, h.hunks⟩⟩

/-- A name that can be read off a line that names a file.  A tab would set off a
time stamp and blanks at the end would be trimmed.  Where names stand without a
directory in front, so would blanks at the front, and a name in a directory `a/`
or `b/` would lose it. -/
structure LegibleName (name : Text) : Prop where
  nonempty : name ≠ []
  isFile : name ≠ FileDiff.noFile
  noTab : '\t' ∉ name
  last : ∀ c ∈ name.getLast?, isBlank c = false
  first : style = .plain false → ∀ c ∈ name.head?, isBlank c = false
  noSide : style = .plain false → FileDiff.dropSide name = name

/-- The path of a change can be read off its lines.  Where the `diff --git` line
is all there is, the old name has to be one word, for a blank ends it; blanks
behind that word do no harm. -/
def Legible : Prop :=
  if style = .git ∧ change.hunks = [] then
    (∀ c ∈ change.old.dropWhile (!isBlank ·), isBlank c = true) ∧
      change.new ≠ [] ∧ change.new ≠ FileDiff.noFile
  else LegibleName style (change.path style)

end FileChange

/-- The lines of a diff. -/
def renderedLines (style : DiffStyle) (changes : List FileChange) : List Text :=
  changes.flatMap (FileChange.lines style)

/-- A diff as a text. -/
def rendered (style : DiffStyle) (changes : List FileChange) : Text :=
  terminated (renderedLines style changes)

end DirectiveReview
