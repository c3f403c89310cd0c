/-
# Boundaries inside a line

A diff ends its lines with line feeds, but it is cut at every boundary of lines there
is.  So a line with a form feed or a line separator in it falls into fragments.  The first
keeps the mark of the line and is read for it; the others are read as lines of the hunk in
their own right.

Whether that moves other lines depends on the others alone.  A fragment without a mark
counts as a line of the new file, and one that looks like a header sets the count anew;
only what looks removed or like a remark leaves the numbers as they are.
-/

import DirectiveReview.Proofs.Diff.Shares
import Mathlib.Data.List.TakeWhile

namespace DirectiveReview

namespace Text

variable {line text : Text} {c : Char}

/-- What a line falls into when it is cut out of a diff. -/
def fragments (line : Text) : List Text :=
  lines (line ++ ['\n'])

/-- The beginning of a line, as far as it has no boundary. -/
def firstFragment (line : Text) : Text :=
  line.takeWhile fun c => !isLineBreak c

theorem firstFragment_of_oneLine (h : OneLine line) : firstFragment line = line :=
  List.takeWhile_eq_self_iff.mpr fun c inside => by rw [h c inside, Bool.not_false]

theorem firstFragment_cons_of_not_break (h : isLineBreak c = false) (rest : Text) :
    firstFragment (c :: rest) = c :: firstFragment rest :=
  List.takeWhile_cons_of_pos (by rw [h, Bool.not_false])

theorem exists_lines_cons_of_break (h : isLineBreak c = true) (rest : Text) :
    ∃ more, lines (c :: rest) = [] :: more := by
  by_cases pair : ∃ more, c = '\r' ∧ rest = '\n' :: more
  · obtain ⟨more, rfl, rfl⟩ := pair
    exact ⟨lines more, rfl⟩
  · exact ⟨lines rest, lines_cons_of_break h fun more first second => pair ⟨more, first, second⟩⟩

theorem fragments_eq (line : Text) :
    fragments line = firstFragment line :: (fragments line).tail := by
  induction line with
  | nil => rfl
  | cons c rest ih =>
      cases isBreak : isLineBreak c with
      | true =>
          obtain ⟨more, cut⟩ := exists_lines_cons_of_break isBreak (rest ++ ['\n'])
          have first : firstFragment (c :: rest) = [] :=
            List.takeWhile_cons_of_neg (by rw [isBreak, Bool.not_true]; exact Bool.false_ne_true)
          rw [fragments, List.cons_append, cut, first, List.tail_cons]
      | false =>
          rw [fragments] at ih
          rw [fragments, List.cons_append, lines_cons_of_not_break isBreak, ih,
            firstFragment_cons_of_not_break isBreak]
          rfl

theorem fragments_of_oneLine (h : OneLine line) : fragments line = [line] :=
  lines_append_newline h []

theorem lines_terminated_eq_fragments (ls : List Text) :
    lines (terminated ls) = ls.flatMap fragments := by
  induction ls with
  | nil => rfl
  | cons line rest ih =>
      rw [terminated_cons, lines_append_of_ended, ih, List.flatMap_cons, fragments]

theorem unlines_append_newline {ls : List Text} (nonempty : ls ≠ []) :
    unlines ls ++ ['\n'] = terminated ls := by
  induction ls with
  | nil => exact absurd rfl nonempty
  | cons line rest ih =>
      cases rest with
      | nil => rw [unlines_singleton, terminated_cons]; rfl
      | cons next more =>
          rw [unlines_cons_cons, terminated_cons, ← ih (List.cons_ne_nil _ _), List.append_assoc,
            List.cons_append]

/-- One more line feed at the end ends a line that was open, or adds an empty one. -/
theorem lines_append_final_newline (text : Text) :
    lines (text ++ ['\n']) = lines text ∨ lines (text ++ ['\n']) = lines text ++ [[]] := by
  induction text using lines.induct with
  | case1 => exact Or.inr rfl
  | case2 rest ih => exact ih.imp (congrArg ([] :: ·)) (congrArg ([] :: ·))
  | case3 c rest notPair isBreak ih =>
      by_cases pair : c = '\r' ∧ rest = []
      · obtain ⟨rfl, rfl⟩ := pair
        exact Or.inl rfl
      · rw [List.cons_append, lines_cons_of_break isBreak (not_pair_append notPair pair _),
          lines_cons_of_break isBreak notPair]
        exact ih.imp (congrArg ([] :: ·)) (congrArg ([] :: ·))
  | case4 c rest notPair noBreak last ih =>
      obtain rfl : rest = [] := by
        by_contra nonempty
        exact lines_ne_nil nonempty last
      have one : OneLine [c] := oneLine_cons.mpr ⟨Bool.eq_false_iff.mpr noBreak, oneLine_nil⟩
      rw [lines_append_newline one, lines_of_oneLine one (List.cons_ne_nil _ _)]
      exact Or.inl rfl
  | case5 c rest notPair noBreak line more cut ih =>
      rw [List.cons_append, lines_cons_of_not_break (Bool.eq_false_iff.mpr noBreak),
        lines_cons_of_not_break (Bool.eq_false_iff.mpr noBreak), cut]
      rcases ih with same | longer
      · rw [same, cut]
        exact Or.inl rfl
      · rw [longer, cut]
        exact Or.inr rfl

end Text

open Text

theorem BodyLine.of_eq_context_of_opens {line : Text} (header : HunkHeader.opens line = true) :
    BodyLine.of line = .context := by
  obtain ⟨rest, rfl⟩ := List.isPrefixOf_iff_prefix.mp header
  rfl

theorem Patch.added_unlines_eq_fragments {ls : List Text} (nonempty : ls ≠ []) :
    added (unlines ls) = addedOfHunks (Hunk.cutAtHeaders (ls.flatMap fragments)).2 := by
  rw [added, ← lines_terminated_eq_fragments, ← unlines_append_newline nonempty]
  -- A patch has no final line feed.  The empty line that one may add plays no part.
  rcases lines_append_final_newline (unlines ls) with same | longer
  · rw [same]
  · rw [longer, addedOfHunks_concat_nil]

/-! ## Lines that fall apart harmlessly -/

namespace BodyEntry

variable {entry : BodyEntry} {entries : List BodyEntry}

/-- No fragment of an entry but the first counts as a line of the new file. -/
def Harmless (entry : BodyEntry) : Prop :=
  ∀ fragment ∈ entry.line.fragments.tail, (BodyLine.of fragment).inNew = false

instance (entry : BodyEntry) : Decidable entry.Harmless :=
  List.decidableBAll (fun fragment => (BodyLine.of fragment).inNew = false) _

/-- An entry as far as its text has no boundary. -/
def cutOff (entry : BodyEntry) : BodyEntry :=
  ⟨entry.kind, firstFragment entry.text⟩

theorem firstFragment_line (entry : BodyEntry) :
    firstFragment entry.line = entry.cutOff.line := by
  have mark : isLineBreak entry.kind.mark = false := by
    cases entry.kind <;> decide
  exact firstFragment_cons_of_not_break mark entry.text

theorem fragments_line (entry : BodyEntry) :
    entry.line.fragments = entry.cutOff.line :: entry.line.fragments.tail := by
  rw [← firstFragment_line]
  exact fragments_eq entry.line

theorem harmless_of_oneLine (h : OneLine entry.text) : entry.Harmless := by
  rw [Harmless, fragments_of_oneLine (oneLine_line h)]
  intro fragment inside
  cases inside

theorem harmless_iff_newLines :
    entry.Harmless ↔ Hunk.newLines entry.line.fragments.tail = 0 := by
  simp only [Harmless, Hunk.newLines, List.countP_eq_zero, Bool.not_eq_true]

theorem opens_fragment (harmless : entry.Harmless) :
    ∀ fragment ∈ entry.line.fragments, HunkHeader.opens fragment = false := by
  intro fragment inside
  rw [fragments_line] at inside
  rcases List.mem_cons.mp inside with rfl | behind
  · exact opens_line _
  · rw [Bool.eq_false_iff]
    intro header
    have counts := harmless fragment behind
    rw [BodyLine.of_eq_context_of_opens header] at counts
    cases counts

theorem addedFrom_fragments (harmless : ∀ entry ∈ entries, entry.Harmless) (next : Nat) :
    Hunk.addedFrom next ((entries.map line).flatMap fragments) =
      Hunk.addedFrom next ((entries.map cutOff).map line) := by
  induction entries generalizing next with
  | nil => rfl
  | cons entry rest ih =>
      have alone := harmless_iff_newLines.mp (harmless entry List.mem_cons_self)
      have later := ih fun other inside => harmless other (List.mem_cons_of_mem entry inside)
      rw [List.map_cons, List.flatMap_cons, fragments_line, List.cons_append,
        Hunk.addedFrom_cons, Hunk.addedFrom_append, alone,
        Hunk.addedFrom_of_newLines_eq_zero alone, List.nil_append, Nat.add_zero, later,
        List.map_cons, List.map_cons, Hunk.addedFrom_cons]

end BodyEntry

/-- The numbers of a walk depend on what its lines are, not on what is in them. -/
theorem Hunk.lineNumber_addedFrom_congr {first second : List Text}
    (same : first.map BodyLine.of = second.map BodyLine.of) (next : Nat) :
    (addedFrom next first).map AddedLine.lineNumber =
      (addedFrom next second).map AddedLine.lineNumber := by
  induction first generalizing second next with
  | nil =>
      obtain rfl := List.map_eq_nil_iff.mp same.symm
      rfl
  | cons line rest ih =>
      cases second with
      | nil => cases same
      | cons other more =>
          rw [List.map_cons, List.map_cons, List.cons.injEq] at same
          rw [addedFrom_cons, addedFrom_cons, List.map_append, List.map_append, newLines_cons,
            newLines_cons, same.1, ih same.2]
          split <;> rfl

theorem Hunk.cutAtHeaders_append_last (above : List Text) {header : Text} {body : List Text}
    (isHeader : HunkHeader.opens header = true)
    (noHeader : ∀ line ∈ body, HunkHeader.opens line = false) :
    cutAtHeaders (above ++ header :: body) =
      ((cutAtHeaders above).1, (cutAtHeaders above).2 ++ [⟨header, body⟩]) := by
  induction above with
  | nil =>
      have alone := cutAtHeaders_append noHeader []
      rw [List.append_nil] at alone
      simp only [List.nil_append, cutAtHeaders, alone, isHeader, if_true, List.append_nil]
  | cons line rest ih =>
      rw [List.cons_append, cutAtHeaders, ih, cutAtHeaders]
      cases HunkHeader.opens line <;> rfl

/-- A header on one line whose start can be converted. -/
structure HunkHeader.Readable (h : HunkHeader) : Prop where
  parts : h.WellFormed
  heading : OneLine h.heading
  start : h.newStart.length ≤ maxDigits

namespace HunkChange

variable {header : HunkHeader} {entries : List BodyEntry}

theorem added_eq_fragments (readable : header.Readable) (entries : List BodyEntry) :
    Patch.added (unlines (lines ⟨header, entries⟩)) = Patch.addedOfHunks
      (Hunk.cutAtHeaders (header.text :: (entries.map BodyEntry.line).flatMap fragments)).2 := by
  have written : lines ⟨header, entries⟩ = header.text :: entries.map BodyEntry.line := rfl
  have whole := fragments_of_oneLine (HunkHeader.oneLine_text readable.parts readable.heading)
  rw [written, Patch.added_unlines_eq_fragments (List.cons_ne_nil _ _), List.flatMap_cons, whole,
    List.singleton_append]

/-- A hunk of harmless lines is read like the hunk of their beginnings. -/
theorem added_of_harmless (readable : header.Readable)
    (harmless : ∀ entry ∈ entries, entry.Harmless) :
    Patch.added (unlines (lines ⟨header, entries⟩)) =
      .ok (added ⟨header, entries.map BodyEntry.cutOff⟩) := by
  have noHeader : ∀ line ∈ (entries.map BodyEntry.line).flatMap fragments,
      HunkHeader.opens line = false := by
    intro fragment inside
    obtain ⟨line, member, fragment_mem⟩ := List.mem_flatMap.mp inside
    obtain ⟨entry, kept, rfl⟩ := List.mem_map.mp member
    exact BodyEntry.opens_fragment (harmless entry kept) fragment fragment_mem
  have cut := Hunk.cutAtHeaders_append_last [] header.opens_text noHeader
  rw [List.nil_append] at cut
  rw [added_eq_fragments readable, cut, ← addedFrom_entries]
  show Patch.addedOfHunks [⟨header.text, _⟩] = _
  rw [Patch.addedOfHunks, Hunk.added,
    HunkHeader.newStartOf_text readable.parts readable.start]
  show Except.ok (Hunk.addedFrom _ _ ++ []) = _
  rw [List.append_nil, BodyEntry.addedFrom_fragments harmless]
  rfl

theorem lineNumber_added_congr {first second : List BodyEntry}
    (same : first.map BodyEntry.kind = second.map BodyEntry.kind) :
    (added ⟨header, first⟩).map AddedLine.lineNumber =
      (added ⟨header, second⟩).map AddedLine.lineNumber := by
  rw [← addedFrom_entries, ← addedFrom_entries]
  apply Hunk.lineNumber_addedFrom_congr
  simpa only [List.map_map, Function.comp_def, BodyEntry.of_line] using same

theorem content_added : (added ⟨header, entries⟩).map AddedLine.content =
    (entries.filter fun entry => entry.kind = .added).map BodyEntry.line := by
  rw [← addedFrom_entries, Hunk.content_addedFrom, List.filter_map]
  simp only [Function.comp_def, BodyEntry.of_line]

/-- A hunk of harmless lines is numbered as if nothing were in them. -/
theorem exists_added_of_harmless (readable : header.Readable)
    (harmless : ∀ entry ∈ entries, entry.Harmless) :
    ∃ lines, Patch.added (unlines (HunkChange.lines ⟨header, entries⟩)) = .ok lines ∧
      lines.map AddedLine.lineNumber = (added ⟨header, entries⟩).map AddedLine.lineNumber ∧
      lines.map AddedLine.content = (entries.filter fun entry => entry.kind = .added).map
        fun entry => firstFragment entry.line := by
  refine ⟨_, added_of_harmless readable harmless, lineNumber_added_congr ?_, ?_⟩
  · rw [List.map_map]
    rfl
  · rw [content_added, List.filter_map, List.map_map]
    exact List.map_congr_left fun entry _ => entry.firstFragment_line.symm

theorem exists_added_of_kinds_eq {first second : List BodyEntry} (readable : header.Readable)
    (same : first.map BodyEntry.kind = second.map BodyEntry.kind)
    (harmless : ∀ entry ∈ first ++ second, entry.Harmless) :
    ∃ here there, Patch.added (unlines (HunkChange.lines ⟨header, first⟩)) = .ok here ∧
      Patch.added (unlines (HunkChange.lines ⟨header, second⟩)) = .ok there ∧
      here.map AddedLine.lineNumber = there.map AddedLine.lineNumber ∧
      here.map AddedLine.content = (first.filter fun entry => entry.kind = .added).map
        (fun entry => firstFragment entry.line) ∧
      there.map AddedLine.content = (second.filter fun entry => entry.kind = .added).map
        (fun entry => firstFragment entry.line) := by
  rw [List.forall_mem_append] at harmless
  obtain ⟨here, read, numbers, contents⟩ := exists_added_of_harmless readable harmless.1
  obtain ⟨there, read', numbers', contents'⟩ := exists_added_of_harmless readable harmless.2
  rw [← lineNumber_added_congr same, ← numbers] at numbers'
  exact ⟨here, there, read, read', numbers'.symm, contents, contents'⟩

end HunkChange

/-! ## Lines that move others -/

/-- An added line with nothing in it, to see where the count is. -/
def BodyEntry.probe : BodyEntry :=
  ⟨.added, []⟩

/-- A header of a hunk whose start has one digit. -/
def HunkHeader.startingAt (digit : Char) : HunkHeader :=
  ⟨['1'], none, [digit], none, []⟩

theorem HunkHeader.readable_startingAt {digit : Char} (inside : digit ∈ ['1', '2']) :
    (startingAt digit).Readable := by
  rcases List.mem_pair.mp inside with rfl | rfl <;> exact ⟨by decide, oneLine_nil, by decide⟩

theorem Hunk.exists_last_header {ls : List Text}
    (inside : ∃ line ∈ ls, HunkHeader.opens line = true) :
    ∃ above header body, ls = above ++ header :: body ∧ HunkHeader.opens header = true ∧
      ∀ line ∈ body, HunkHeader.opens line = false := by
  induction ls with
  | nil =>
      obtain ⟨_, none, -⟩ := inside
      cases none
  | cons line rest ih =>
      by_cases later : ∃ other ∈ rest, HunkHeader.opens other = true
      · obtain ⟨above, header, body, rfl, isHeader, noHeader⟩ := ih later
        exact ⟨line :: above, header, body, rfl, isHeader, noHeader⟩
      · have noHeader : ∀ other ∈ rest, HunkHeader.opens other = false := fun other member =>
          Bool.eq_false_iff.mpr fun opens => later ⟨other, member, opens⟩
        obtain ⟨header, member, isHeader⟩ := inside
        rcases List.mem_cons.mp member with rfl | behind
        · exact ⟨[], header, rest, rfl, isHeader, noHeader⟩
        · exact absurd ⟨header, behind, isHeader⟩ later

/-- An added line at the very end is numbered from the last header above it. -/
theorem Patch.getLast?_lineNumber {above body : List Text} {header line : Text}
    {lines : List AddedLine} (isHeader : HunkHeader.opens header = true)
    (noHeader : ∀ line ∈ body, HunkHeader.opens line = false)
    (plus : BodyLine.of line = .added)
    (read : addedOfHunks (Hunk.cutAtHeaders (above ++ header :: (body ++ [line]))).2 =
      .ok lines) :
    ∃ start, HunkHeader.newStartOf header = .ok start ∧
      (lines.map AddedLine.lineNumber).getLast? = some (start + Hunk.newLines body) := by
  have noHeaders : ∀ other ∈ body ++ [line], HunkHeader.opens other = false := by
    refine List.forall_mem_append.mpr ⟨noHeader, List.forall_mem_singleton.mpr ?_⟩
    rw [Bool.eq_false_iff]
    intro opens
    cases plus.symm.trans (BodyLine.of_eq_context_of_opens opens)
  rw [Hunk.cutAtHeaders_append_last above isHeader noHeaders, addedOfHunks_append] at read
  obtain ⟨before, -, behind⟩ := bind_eq_ok_iff.mp read
  obtain ⟨own, last, done⟩ := bind_eq_ok_iff.mp behind
  obtain ⟨numbered, first, rest⟩ := bind_eq_ok_iff.mp last
  obtain ⟨start, gives, walked⟩ := bind_eq_ok_iff.mp first
  cases done
  cases rest
  cases walked
  refine ⟨start, gives, ?_⟩
  rw [Hunk.addedFrom_append, Hunk.addedFrom_cons, if_pos plus]
  simp [Hunk.addedFrom]

namespace BodyEntry

variable {entry : BodyEntry} {entries : List BodyEntry}

/-- Each fragment behind the first counts on its own. -/
theorem newLines_fragments (entries : List BodyEntry) :
    Hunk.newLines ((entries.map line).flatMap fragments) =
      Hunk.newLines (entries.map line) +
        Hunk.newLines (entries.flatMap fun entry => entry.line.fragments.tail) := by
  induction entries with
  | nil => rfl
  | cons entry rest ih =>
      rw [List.map_cons, List.flatMap_cons, List.flatMap_cons, Hunk.newLines_append, ih,
        Hunk.newLines_append, fragments_line, Hunk.newLines_cons, Hunk.newLines_cons, of_line,
        of_line, List.tail_cons]
      show _ + (if entry.kind.inNew = true then 1 else 0) + _ = _
      omega

/-- Lines behind which numbers are right wherever their hunk starts are harmless.  If one
of them opens a hunk, the numbers behind it do not depend on the start at all; if none
does, the numbers count the fragments. -/
theorem harmless_of_numbered
    (numbered : ∀ digit ∈ ['1', '2'], ∃ added,
      Patch.added (unlines (HunkChange.lines ⟨.startingAt digit, entries ++ [probe]⟩)) =
        .ok added ∧
      added.map AddedLine.lineNumber =
        (HunkChange.added ⟨.startingAt digit, entries ++ [probe]⟩).map
          AddedLine.lineNumber) :
    ∀ entry ∈ entries, entry.Harmless := by
  -- Where the last line is expected, and where it is found below a given header.
  have last (digit : Char) (inside : digit ∈ ['1', '2']) :
      ∃ added, Patch.addedOfHunks (Hunk.cutAtHeaders ((HunkHeader.startingAt digit).text ::
          ((entries.map line).flatMap fragments ++ [['+']]))).2 = .ok added ∧
        (added.map AddedLine.lineNumber).getLast? =
          some (decimalValue [digit] + Hunk.newLines (entries.map line)) := by
    obtain ⟨added, read, numbers⟩ := numbered digit inside
    rw [HunkChange.added_eq_fragments (HunkHeader.readable_startingAt inside), List.map_append,
      List.flatMap_append] at read
    refine ⟨added, read, ?_⟩
    rw [numbers, ← HunkChange.addedFrom_entries, List.map_append, Hunk.addedFrom_append,
      List.map_append]
    exact List.getLast?_concat
  by_cases opens : ∃ fragment ∈ (entries.map line).flatMap fragments,
      HunkHeader.opens fragment = true
  · exfalso
    obtain ⟨above, header, body, cut, isHeader, noHeader⟩ := Hunk.exists_last_header opens
    have same (digit : Char) (inside : digit ∈ ['1', '2']) : ∃ start,
        HunkHeader.newStartOf header = .ok start ∧
        start + Hunk.newLines body =
          decimalValue [digit] + Hunk.newLines (entries.map line) := by
      obtain ⟨added, read, number⟩ := last digit inside
      rw [cut, List.append_assoc, List.cons_append, ← List.cons_append] at read
      obtain ⟨start, gives, found⟩ := Patch.getLast?_lineNumber isHeader noHeader rfl read
      exact ⟨start, gives, Option.some.inj (found.symm.trans number)⟩
    -- The start is read off the same header, and it cannot be right for both hunks.
    obtain ⟨first, gives, here⟩ := same '1' (by decide)
    obtain ⟨second, gives', there⟩ := same '2' (by decide)
    obtain rfl := Except.ok.inj (gives.symm.trans gives')
    cases Nat.add_right_cancel (here.symm.trans there)
  · have noHeader : ∀ fragment ∈ (entries.map line).flatMap fragments,
        HunkHeader.opens fragment = false :=
      fun fragment member => Bool.eq_false_iff.mpr fun header => opens ⟨fragment, member, header⟩
    obtain ⟨added, read, number⟩ := last '1' (by decide)
    rw [← List.nil_append ((HunkHeader.startingAt '1').text :: _)] at read
    obtain ⟨start, gives, found⟩ :=
      Patch.getLast?_lineNumber (HunkHeader.startingAt '1').opens_text noHeader rfl read
    have readable := HunkHeader.readable_startingAt (by decide : '1' ∈ ['1', '2'])
    rw [HunkHeader.newStartOf_text readable.parts readable.start] at gives
    obtain rfl := Except.ok.inj gives
    have counts := Nat.add_left_cancel (Option.some.inj (found.symm.trans number))
    rw [newLines_fragments] at counts
    have uncounted := List.countP_eq_zero.mp (Nat.add_eq_left.mp counts)
    intro entry inside fragment behind
    rw [Bool.eq_false_iff]
    exact uncounted fragment (List.mem_flatMap_of_mem inside behind)

theorem firstFragment_line_eq_iff : firstFragment entry.line = entry.line ↔ OneLine entry.text := by
  rw [firstFragment_line, line, line, List.cons.injEq]
  constructor
  · rintro ⟨-, whole⟩ c inside
    rw [← Bool.not_eq_true', List.takeWhile_eq_self_iff.mp whole c inside]
  · intro one
    exact ⟨rfl, firstFragment_of_oneLine one⟩

end BodyEntry

/-- **Harmless lines move no others.**  Two bodies of the same kinds of lines, all of them
harmless, are read to the end below every header, and their added lines have the same
numbers, one for each line with a plus sign; of such a line the part before its first
boundary is kept, which is all of it if it has none.  The condition cannot be weakened:
a body is numbered like one without boundaries, wherever their hunk starts and whatever
follows them in it, only if its lines are harmless. -/
theorem Patch.added_unmoved_by_harmless {first second : List BodyEntry}
    (same : first.map BodyEntry.kind = second.map BodyEntry.kind) :
    ((∀ entry ∈ first ++ second, entry.Harmless) →
      ∀ header : HunkHeader, header.Readable → ∃ here there,
        added (unlines (HunkChange.lines ⟨header, first⟩)) = .ok here ∧
        added (unlines (HunkChange.lines ⟨header, second⟩)) = .ok there ∧
        here.map AddedLine.lineNumber = there.map AddedLine.lineNumber ∧
        here.map AddedLine.content = (first.filter fun entry => entry.kind = .added).map
          (fun entry => firstFragment entry.line) ∧
        there.map AddedLine.content = (second.filter fun entry => entry.kind = .added).map
          (fun entry => firstFragment entry.line)) ∧
    (∀ entry ∈ first ++ second, firstFragment entry.line = entry.line ↔ OneLine entry.text) ∧
    ((∀ entry ∈ second, OneLine entry.text) → ((∀ entry ∈ first, entry.Harmless) ↔
      ∀ header : HunkHeader, header.Readable → ∀ below : List BodyEntry,
        (∀ entry ∈ below, OneLine entry.text) → ∃ here there,
          added (unlines (HunkChange.lines ⟨header, first ++ below⟩)) = .ok here ∧
          added (unlines (HunkChange.lines ⟨header, second ++ below⟩)) = .ok there ∧
          here.map AddedLine.lineNumber = there.map AddedLine.lineNumber)) := by
  have kinds (below : List BodyEntry) :
      (first ++ below).map BodyEntry.kind = (second ++ below).map BodyEntry.kind := by
    rw [List.map_append, List.map_append, same]
  refine ⟨fun harmless header readable =>
      HunkChange.exists_added_of_kinds_eq readable same harmless,
    fun _ _ => BodyEntry.firstFragment_line_eq_iff, fun whole => ⟨?right, ?harmless⟩⟩
  case right =>
    intro harmless header readable below others
    have all : ∀ entry ∈ (first ++ below) ++ (second ++ below), entry.Harmless := by
      have plain : ∀ entry ∈ second ++ below, entry.Harmless := fun entry inside =>
        BodyEntry.harmless_of_oneLine (List.forall_mem_append.mpr ⟨whole, others⟩ entry inside)
      have tail := (List.forall_mem_append.mp plain).2
      exact List.forall_mem_append.mpr ⟨List.forall_mem_append.mpr ⟨harmless, tail⟩, plain⟩
    obtain ⟨here, there, read, read', numbers, -⟩ :=
      HunkChange.exists_added_of_kinds_eq readable (kinds below) all
    exact ⟨here, there, read, read', numbers⟩
  case harmless =>
    intro agrees
    apply BodyEntry.harmless_of_numbered
    intro digit inside
    have readable := HunkHeader.readable_startingAt inside
    have empty : ∀ entry ∈ [BodyEntry.probe], OneLine entry.text :=
      List.forall_mem_singleton.mpr oneLine_nil
    have plain : ∀ entry ∈ second ++ [BodyEntry.probe], entry.Harmless := fun entry inside =>
      BodyEntry.harmless_of_oneLine (List.forall_mem_append.mpr ⟨whole, empty⟩ entry inside)
    obtain ⟨here, there, read, read', numbers⟩ := agrees _ readable _ empty
    -- The second body is numbered by position, so the first one is as well.
    obtain ⟨found, reads, expected, -⟩ := HunkChange.exists_added_of_harmless readable plain
    obtain rfl := Except.ok.inj (reads.symm.trans read')
    refine ⟨here, read, ?_⟩
    rw [numbers, expected, HunkChange.lineNumber_added_congr (kinds [BodyEntry.probe])]

/-- What stands behind the boundaries looks removed or like a remark. -/
def fallingApart : List BodyEntry :=
  [⟨.context, "a\x0c-b".toList⟩, ⟨.added, "b\u2028\\ c".toList⟩, ⟨.added, "c".toList⟩]

def holdingTogether : List BodyEntry :=
  [⟨.context, "a".toList⟩, ⟨.added, "b".toList⟩, ⟨.added, "c".toList⟩]

theorem Patch.added_unmoved_by_harmless_fallingApart :
    (∃ here there,
      added (unlines (HunkChange.lines ⟨.startingAt '1', fallingApart⟩)) = .ok here ∧
      added (unlines (HunkChange.lines ⟨.startingAt '1', holdingTogether⟩)) = .ok there ∧
      here.map AddedLine.lineNumber = there.map AddedLine.lineNumber) ∧
    ∃ here there,
      added (unlines (HunkChange.lines
        ⟨.startingAt '2', fallingApart ++ [.probe]⟩)) = .ok here ∧
      added (unlines (HunkChange.lines
        ⟨.startingAt '2', holdingTogether ++ [.probe]⟩)) = .ok there ∧
      here.map AddedLine.lineNumber = there.map AddedLine.lineNumber := by
  have same : fallingApart.map BodyEntry.kind = holdingTogether.map BodyEntry.kind := rfl
  obtain ⟨agree, -, exactly⟩ := Patch.added_unmoved_by_harmless same
  constructor
  · obtain ⟨here, there, read, read', numbers, -⟩ := agree (by decide) _
      (HunkHeader.readable_startingAt (by decide : '1' ∈ ['1', '2']))
    exact ⟨here, there, read, read', numbers⟩
  · exact (exactly (by decide)).mp (by decide) _
      (HunkHeader.readable_startingAt (by decide : '2' ∈ ['1', '2'])) [.probe] (by decide)

/-- A form feed in front of a letter makes one line of the new file two. -/
example : Patch.added "@@ -1 +1,2 @@\n a\x0cb\n+c".toList = .ok [⟨"+c".toList, 3⟩] := by
  decide

end DirectiveReview
