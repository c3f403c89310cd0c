/-
# Files by the names that git prints

The section of a git diff names its file three times: behind `a/` and `b/` in the
`diff --git` line, and again in the lines that name the old and the new file.  A name
of plain characters stands there as it is, and where it holds a blank a tab sets it
off at the end of the last two lines.  Any other name, with a quote, a backslash, a
control character or a character that is not ASCII, stands in quotes, and what is not
plain in it is escaped, byte by byte where the character has no letter of its own.

The reader of these lines does not undo all of this.  Quotes and escapes are left as
they are, the directory in front of the name with them, because it stands behind the
quote.  And the tab goes in one step with the blanks in front of it, so a plain name
loses the blanks at its end.  The result says so exactly: which names come back, and
what is read for the others.
-/

import DirectiveReview.Proofs.Diff.RoundTrip
import DirectiveReview.Proofs.Text.Ascii

namespace DirectiveReview

open Text

/-! ## Names as they are printed -/

namespace GitName

/-- A character that needs no quotes. -/
def isPlain (c : Char) : Bool :=
  0x20 ≤ c.toNat && c.toNat < 0x7f && c != '"' && c != '\\'

/-- The characters with an escape of their own, and its letter. -/
def letters : List (Char × Char) :=
  [('\x07', 'a'), ('\x08', 'b'), ('\t', 't'), ('\n', 'n'), ('\x0b', 'v'), ('\x0c', 'f'),
    ('\r', 'r'), ('"', '"'), ('\\', '\\')]

/-- A byte as an escape of three octal digits. -/
def octal (byte : UInt8) : Text :=
  ['\\', (byte.toNat / 64).digitChar, (byte.toNat / 8 % 8).digitChar, (byte.toNat % 8).digitChar]

/-- A character as it stands between quotes. -/
def escaped (c : Char) : Text :=
  if isPlain c then [c]
  else
    match letters.find? (·.1 == c) with
    | some (_, letter) => ['\\', letter]
    | none => (String.utf8EncodeChar c).flatMap octal

/-- A name in quotes, the directory in front of it included. -/
def quoted (lead path : Text) : Text :=
  '"' :: (lead ++ path.flatMap escaped ++ ['"'])

/-- A name as it is printed behind its directory. -/
def shown (lead path : Text) : Text :=
  if path.all isPlain then lead ++ path else quoted lead path

/-- A name as it is printed to the end of a line. -/
def setOff (lead path : Text) : Text :=
  shown lead path ++ if ' ' ∈ path then ['\t'] else []

example : setOff "b/".toList "é\t\\ x".toList = "\"b/\\303\\251\\t\\\\ x\"\t".toList := by
  decide +kernel

variable {lead path : Text}

theorem asciiLine_of_all_isPlain {text : Text} (plain : text.all isPlain = true) :
    AsciiLine text := by
  intro c inside
  have one := List.all_eq_true.mp plain c inside
  simp only [isPlain, Bool.and_eq_true, decide_eq_true_eq] at one
  exact one.1.1

theorem asciiLine_octal (byte : UInt8) : AsciiLine (octal byte) := by
  have bound : byte.toNat < 256 := byte.toNat_lt
  have digit {value : Nat} (small : value < 8) : AsciiLine [value.digitChar] :=
    asciiLine_digitChar (by omega)
  exact .cons (by decide) (.cons (digit (by omega)) (.cons (digit (by omega)) (digit (by omega))))

theorem asciiLine_escaped (c : Char) : AsciiLine (escaped c) := by
  unfold escaped
  refine .ite (fun plain => asciiLine_of_all_isPlain (by simpa using plain)) fun _ => ?_
  split
  · next found =>
      have letter : letters.all (fun pair => decide (AsciiLine [pair.2])) = true := by decide
      have one := List.all_eq_true.mp letter _ (List.mem_of_find?_eq_some found)
      exact .cons (by decide) (of_decide_eq_true one)
  · exact .flatMap fun byte _ => asciiLine_octal byte

/-- No character is escaped by nothing. -/
theorem escaped_ne_nil (c : Char) : escaped c ≠ [] := by
  have bytes : String.utf8EncodeChar c ≠ [] := by
    rw [← List.length_pos_iff, String.length_utf8EncodeChar]
    exact c.utf8Size_pos
  unfold escaped
  split
  · exact List.cons_ne_nil _ _
  · split
    · exact List.cons_ne_nil _ _
    · obtain ⟨byte, rest, cut⟩ := List.exists_cons_of_ne_nil bytes
      simp [cut, octal]

theorem asciiLine_quoted (sided : AsciiLine lead) : AsciiLine (quoted lead path) :=
  .cons (by decide)
    ((sided.append (.flatMap fun c _ => asciiLine_escaped c)).append (by decide))

/-- Whatever a name holds, it is printed as a plain line. -/
theorem asciiLine_shown (sided : AsciiLine lead) : AsciiLine (shown lead path) :=
  .ite (fun plain => sided.append (asciiLine_of_all_isPlain plain)) fun _ => asciiLine_quoted sided

/-- A name in quotes is longer than the name. -/
theorem quoted_ne_path (lead path : Text) : quoted lead path ≠ path := by
  have longer : path.length ≤ (path.flatMap escaped).length := by
    induction path with
    | nil => exact Nat.le_refl 0
    | cons c rest ih =>
        have first := List.length_pos_iff.mpr (escaped_ne_nil c)
        rw [List.flatMap_cons, List.length_append, List.length_cons]
        omega
  intro same
  have lengths := congrArg List.length same
  simp only [quoted, List.length_cons, List.length_append] at lengths
  omega

/-! ## Names as they are read -/

open FileDiff

/-- The directory in front of a name in a git diff. -/
def IsSide (lead : Text) : Prop :=
  lead = "a/".toList ∨ lead = "b/".toList

namespace IsSide

theorem asciiLine (side : IsSide lead) : AsciiLine lead := by
  rcases side with rfl | rfl <;> decide

theorem solid (side : IsSide lead) : ∀ c ∈ lead, isBlank c = false := by
  rcases side with rfl | rfl <;> exact solid_of_any rfl

theorem ne_nil (side : IsSide lead) : lead ≠ [] := by
  rcases side with rfl | rfl <;> exact List.cons_ne_nil _ _

/-- It is dropped when a name is read. -/
theorem dropSide_append (side : IsSide lead) (name : Text) : dropSide (lead ++ name) = name := by
  rcases side with rfl | rfl <;> rfl

end IsSide

/-- Every tab behind a name is trimmed off. -/
theorem isBlank_of_mem_tab : ∀ c ∈ if ' ' ∈ path then ['\t'] else [], isBlank c = true := by
  intro c inside
  split at inside
  · obtain rfl := List.mem_singleton.mp inside
    decide
  · cases inside

/-- A quote at either end keeps all that is in quotes. -/
theorem trim_setOff_of_quoted (odd : path.all isPlain = false) :
    trim (setOff lead path) = quoted lead path := by
  have first : ∀ c ∈ (quoted lead path).head?, isBlank c = false := by
    intro c found
    obtain rfl : '"' = c := Option.some.inj found
    decide
  have last : ∀ c ∈ (quoted lead path).getLast?, isBlank c = false := by
    intro c found
    rw [quoted, ← List.cons_append, List.getLast?_concat] at found
    obtain rfl : '"' = c := Option.some.inj found
    decide
  rw [setOff, shown, if_neg (ne_true_of_eq_false odd)]
  exact trim_append (List.forall_mem_nil _) isBlank_of_mem_tab (List.cons_ne_nil _ _) first last

/-- The tab behind a plain name is trimmed off, and with it every space in front of it. -/
theorem trim_setOff_of_plain (side : IsSide lead) (plain : path.all isPlain = true) :
    trim (setOff lead path) = lead ++ dropTrailing (· == ' ') path := by
  have first : ∀ c ∈ (setOff lead path).head?, isBlank c = false := by
    rw [setOff, shown, if_pos plain, List.append_assoc, List.head?_append_of_ne_nil _ side.ne_nil]
    exact fun c found => side.solid c (List.mem_of_head? found)
  have last : ∀ c ∈ lead.getLast?, isBlank c = false :=
    fun c found => side.solid c (List.mem_of_getLast? found)
  calc trim (setOff lead path)
    _ = dropTrailing isBlank (setOff lead path) := by rw [trim, dropWhile_of_head? first]
    _ = dropTrailing isBlank (lead ++ path) := by
        rw [setOff, shown, if_pos plain, dropTrailing_append_of_all isBlank_of_mem_tab]
    _ = lead ++ dropTrailing isBlank path := dropTrailing_append_of_last last path
    _ = lead ++ dropTrailing (· == ' ') path := by
        rw [dropTrailing_congr fun c => (asciiLine_of_all_isPlain plain).isBlank_eq]

/-- A name in quotes is read with its quotes, its escapes and its directory. -/
theorem readName_setOff_of_quoted (side : IsSide lead) (odd : path.all isPlain = false) :
    readName (setOff lead path) = quoted lead path := by
  have noTab : '\t' ∉ quoted lead path := (asciiLine_quoted side.asciiLine).not_mem (by decide)
  rw [readName, trim_setOff_of_quoted odd, upTo_eq_self noTab]
  rfl

/-- A plain name is read without the spaces at its end. -/
theorem readName_setOff_of_plain (side : IsSide lead) (plain : path.all isPlain = true) :
    readName (setOff lead path) = dropTrailing (· == ' ') path := by
  have kept : AsciiLine (dropTrailing (· == ' ') path) :=
    (asciiLine_of_all_isPlain plain).of_subset (dropTrailing_subset _ _)
  have noTab : '\t' ∉ lead ++ dropTrailing (· == ' ') path :=
    (side.asciiLine.append kept).not_mem (by decide)
  rw [readName, trim_setOff_of_plain side plain, upTo_eq_self noTab, side.dropSide_append]

example : readName (setOff "b/".toList "old notes ".toList) = "old notes".toList := by
  decide

end GitName

/-! ## The section of a file -/

/-- The change of a file in a repository, by its parts. -/
structure GitChange where
  /-- The path of the file from the root of the repository. -/
  path : Text
  sides : Sides
  /-- The lines between the first line and the names. -/
  extended : List Text
  hunks : List HunkChange
  deriving DecidableEq, Repr

namespace GitChange

open FileDiff GitName

variable (change : GitChange)

/-- The old name as it is printed, or the name of no file. -/
def oldName : Text :=
  if change.sides = .onlyNew then noFile else setOff "a/".toList change.path

/-- The new name as it is printed. -/
def newName : Text :=
  if change.sides = .onlyOld then noFile else setOff "b/".toList change.path

/-- The directory in front of the name that a file goes by: the new name, if there is a
new file. -/
def side : Text :=
  if change.sides = .onlyOld then "a/".toList else "b/".toList

def gitLine : Text :=
  "diff --git ".toList ++ (shown "a/".toList change.path ++ ' ' :: shown "b/".toList change.path)

def head : List Text :=
  change.gitLine :: (change.extended ++
    ["--- ".toList ++ change.oldName, "+++ ".toList ++ change.newName])

def lines : List Text :=
  change.head ++ change.hunks.flatMap HunkChange.lines

/-- The diff that shows this change alone. -/
def diff : Text :=
  terminated change.lines

/-- A change that git shows with its names: the path is relative, and there are hunks,
which can be written.  The path may be any text otherwise, with boundaries of lines in
it. -/
structure WellFormed : Prop where
  nonempty : change.path ≠ []
  relative : change.path.head? ≠ some '/'
  extended : ∀ line ∈ change.extended, OneLine line ∧ Unstructured line
  hasHunks : change.hunks ≠ []
  hunks : ∀ hunk ∈ change.hunks, hunk.WellFormed

instance : Decidable change.WellFormed :=
  decidable_of_iff
    (change.path ≠ [] ∧ change.path.head? ≠ some '/' ∧
      (∀ line ∈ change.extended, OneLine line ∧ Unstructured line) ∧ change.hunks ≠ [] ∧
      ∀ hunk ∈ change.hunks, hunk.WellFormed)
    ⟨fun h => ⟨h.1, h.2.1, h.2.2.1, h.2.2.2.1, h.2.2.2.2⟩,
      fun h => ⟨h.nonempty, h.relative, h.extended, h.hasHunks, h.hunks⟩⟩

/-- The file that is read off the lines of a change. -/
def readFile : FileDiff :=
  ⟨canonicalPath (some (readName change.oldName)) (some (readName change.newName)),
    unlines change.lines⟩

variable {change}

theorem isSide_side : IsSide change.side := by
  unfold side
  split
  · exact Or.inl rfl
  · exact Or.inr rfl

theorem oneLine_shown {lead path : Text} (side : IsSide lead) : OneLine (shown lead path) :=
  (asciiLine_shown side.asciiLine).oneLine

theorem oneLine_setOff {lead path : Text} (side : IsSide lead) : OneLine (setOff lead path) := by
  refine oneLine_append.mpr ⟨oneLine_shown side, ?_⟩
  split <;> decide

theorem oneLine_of_mem_lines (wellFormed : change.WellFormed) {line : Text}
    (inside : line ∈ change.lines) : OneLine line := by
  have old : OneLine change.oldName := by
    unfold oldName
    split
    · decide
    · exact oneLine_setOff (Or.inl rfl)
  have new : OneLine change.newName := by
    unfold newName
    split
    · decide
    · exact oneLine_setOff (Or.inr rfl)
  rcases List.mem_append.mp inside with front | behind
  · rcases List.mem_cons.mp front with rfl | front
    · unfold gitLine
      simp only [oneLine_append, oneLine_cons]
      exact ⟨by decide, oneLine_shown (Or.inl rfl), by decide, oneLine_shown (Or.inr rfl)⟩
    · rcases List.mem_append.mp front with further | names
      · exact (wellFormed.extended line further).1
      · rcases List.mem_pair.mp names with rfl | rfl
        · exact oneLine_append.mpr ⟨by decide, old⟩
        · exact oneLine_append.mpr ⟨by decide, new⟩
  · obtain ⟨hunk, member, inside⟩ := List.mem_flatMap.mp behind
    exact (wellFormed.hunks hunk member).oneLine_of_mem_lines inside

/-- The state behind the lines of a change. -/
def cursor (change : GitChange) : Cursor :=
  ⟨change.lines.toArray, some (readName change.oldName), some (readName change.newName),
    !change.hunks.isEmpty, 0, 0⟩

theorem walk_lines (wellFormed : change.WellFormed) :
    Cursor.start.walk none change.lines = .ok ([], change.cursor) := by
  have plain : ∀ line ∈ change.extended, Unstructured line :=
    fun line inside => (wellFormed.extended line inside).2
  let headed : Cursor := ⟨change.head.toArray, some (readName change.oldName),
    some (readName change.newName), false, 0, 0⟩
  have head (below : Option Text) : Cursor.start.walk below change.head = .ok ([], headed) :=
    Cursor.walk_namedHead .start below rfl plain change.oldName change.newName
  have hunks : headed.walk none (change.hunks.flatMap HunkChange.lines) = .ok ([], _) :=
    Cursor.walk_hunks rfl rfl none wellFormed.hunks
  rw [lines, Cursor.walk_append_of_walk (head _) hunks]
  simp [headed, cursor, Cursor.pushAll, lines]

/-- The diff of one change is cut into one file. -/
theorem ofDiff_diff (wellFormed : change.WellFormed) :
    ofDiff change.diff = .ok [change.readFile] := by
  rw [ofDiff, diff, lines_terminated fun line => oneLine_of_mem_lines wellFormed,
    Cursor.run_eq_walk, walk_lines wellFormed]
  simp [cursor, Cursor.close, readFile, lines, head]

/-! ## The path of the file -/

/-- A file goes by the name that is read on its side, if that is the name of a file. -/
theorem path_readFile {name : Text} (read : readName (setOff change.side change.path) = name)
    (nonempty : name ≠ []) (isFile : name ≠ noFile) : change.readFile.path = name := by
  show canonicalPath (some (readName change.oldName)) (some (readName change.newName)) = name
  by_cases deleted : change.sides = .onlyOld
  · have old : readName change.oldName = name := by
      simpa [oldName, side, deleted] using read
    have new : readName change.newName = noFile := by
      simpa [newName, deleted] using FileChange.readName_noFile
    rw [old, new]
    exact FileChange.canonicalPath_of_old nonempty isFile
  · have new : readName change.newName = name := by
      simpa [newName, side, deleted] using read
    rw [new]
    exact FileChange.canonicalPath_of_new nonempty isFile

/-- A name in quotes is taken for the path. -/
theorem path_readFile_of_quoted (odd : change.path.all isPlain = false) :
    change.readFile.path = quoted change.side change.path :=
  path_readFile (readName_setOff_of_quoted isSide_side odd) (List.cons_ne_nil _ _) fun same => by
    cases same

/-- Of a plain name the spaces at its end are lost, and if there is nothing else to it, the
file goes by no name. -/
theorem path_readFile_of_plain (wellFormed : change.WellFormed)
    (plain : change.path.all isPlain = true) :
    change.readFile.path =
      if dropTrailing (· == ' ') change.path = [] then "<unknown>".toList
      else dropTrailing (· == ' ') change.path := by
  have read {lead : Text} (side : IsSide lead) := readName_setOff_of_plain side plain
  split
  · next empty =>
      have nameless {name : Text} (same : name = [] ∨ name = noFile) :
          nameOf? (some name) = none := by
        rcases same with rfl | rfl <;> simp [nameOf?]
      have old : readName change.oldName = [] ∨ readName change.oldName = noFile := by
        unfold oldName
        split
        · exact Or.inr FileChange.readName_noFile
        · exact Or.inl ((read (Or.inl rfl)).trans empty)
      have new : readName change.newName = [] ∨ readName change.newName = noFile := by
        unfold newName
        split
        · exact Or.inr FileChange.readName_noFile
        · exact Or.inl ((read (Or.inr rfl)).trans empty)
      rw [readFile, canonicalPath, nameless old, nameless new]
      rfl
  · next kept =>
      refine path_readFile (read isSide_side) kept fun same => wellFormed.relative ?_
      obtain ⟨count, cut⟩ := exists_dropTrailing_append ' ' change.path
      rw [cut, same]
      rfl

end GitChange

/-- **Which files go by the name that git prints.**  The diff of one change is cut into one
file, whatever the name.  The file has the path that was changed exactly if this is plain,
so that it is printed without quotes, and does not end in a space.  A plain path that
ends in spaces is read without these, and a path that needs quotes is read as it is
printed, with the quotes, the escapes and the directory of its side. -/
theorem FileDiff.ofDiff_names_gitChange (change : GitChange) (wellFormed : change.WellFormed) :
    ∃ file, ofDiff change.diff = .ok [file] ∧ file.patch = unlines change.lines ∧
      (file.path = change.path ↔
        change.path.all GitName.isPlain = true ∧ change.path.getLast? ≠ some ' ') ∧
      (change.path.all GitName.isPlain = true → file.path =
        if dropTrailing (· == ' ') change.path = [] then "<unknown>".toList
        else dropTrailing (· == ' ') change.path) ∧
      (change.path.all GitName.isPlain = false →
        file.path = GitName.quoted change.side change.path) := by
  refine ⟨change.readFile, GitChange.ofDiff_diff wellFormed, rfl, ⟨?told, ?kept⟩,
    GitChange.path_readFile_of_plain wellFormed, GitChange.path_readFile_of_quoted⟩
  case told =>
    intro same
    by_cases plain : change.path.all GitName.isPlain = true
    · refine ⟨plain, fun ends => ?_⟩
      rw [GitChange.path_readFile_of_plain wellFormed plain] at same
      have last := getLast?_dropTrailing (· == ' ') change.path
      split at same
      · rw [← same] at ends
        cases ends
      · rw [same] at last
        exact absurd (last ' ' ends) (by decide)
    · have odd := Bool.eq_false_iff.mpr plain
      exact absurd ((GitChange.path_readFile_of_quoted odd).symm.trans same)
        (GitName.quoted_ne_path _ _)
  case kept =>
    rintro ⟨plain, ends⟩
    have whole : dropTrailing (· == ' ') change.path = change.path := by
      refine dropTrailing_eq_self fun c found => beq_eq_false_iff_ne.mpr ?_
      rintro rfl
      exact ends found
    rw [GitChange.path_readFile_of_plain wellFormed plain, whole, if_neg wellFormed.nonempty]

/-- The deletion of a file of one line. -/
def deletionOf (path : Text) : GitChange where
  path := path
  sides := .onlyOld
  extended := ["deleted file mode 100644".toList, "index 405c64a..0000000".toList]
  hunks := [⟨⟨['1'], none, ['0'], some ['0'], []⟩, [⟨.removed, "x = 1".toList⟩]⟩]

/-- A name in a directory `a/` with a space in it, a name with a space at its end, and a
name in quotes. -/
theorem FileDiff.ofDiff_names_deletionOf :
    (deletionOf "a/two words".toList).WellFormed ∧ (deletionOf "notes ".toList).WellFormed ∧
      (deletionOf "é".toList).WellFormed ∧
      (∃ file, ofDiff (deletionOf "a/two words".toList).diff = .ok [file] ∧
        file.path = "a/two words".toList) ∧
      (∃ file, ofDiff (deletionOf "notes ".toList).diff = .ok [file] ∧
        file.path = "notes".toList) ∧
      ∃ file, ofDiff (deletionOf "é".toList).diff = .ok [file] ∧
        file.path = "\"a/\\303\\251\"".toList := by
  have spaced : (deletionOf "a/two words".toList).WellFormed := by decide
  have trailed : (deletionOf "notes ".toList).WellFormed := by decide
  have foreign : (deletionOf "é".toList).WellFormed := by decide
  obtain ⟨first, cutFirst, -, told, -, -⟩ := ofDiff_names_gitChange _ spaced
  obtain ⟨second, cutSecond, -, -, kept, -⟩ := ofDiff_names_gitChange _ trailed
  obtain ⟨third, cutThird, -, -, -, quoted⟩ := ofDiff_names_gitChange _ foreign
  exact ⟨spaced, trailed, foreign,
    ⟨first, cutFirst, told.mpr ⟨by decide, by decide⟩⟩,
    ⟨second, cutSecond, (kept (by decide)).trans (by decide)⟩,
    ⟨third, cutThird, (quoted (by decide)).trans (by decide +kernel)⟩⟩

end DirectiveReview
