/-
# What a violation names stands on one line

The path of a file is taken out of a line of the diff, and rules are taken out of an added
line, which is a line of a patch.  Lines hold no line boundary, and taking a part of one
puts none into it.  So nothing that a violation names can break a line of a report, however
the diff is made.

For paths this is an invariant of the walk over the diff, because a path is remembered
until the file under way is closed.
-/

import DirectiveReview.Proofs.Diff.Names
import DirectiveReview.Proofs.Diff.Shares
import DirectiveReview.Proofs.Review.Violations

namespace DirectiveReview

open Text

namespace Text

/-- A part of a text on one line is on one line. -/
theorem OneLine.of_subset {part whole : Text} (taken : part ⊆ whole) (one : OneLine whole) :
    OneLine part :=
  fun c inside => one c (taken inside)

theorem dropWhile_subset (p : Char → Bool) (text : Text) : text.dropWhile p ⊆ text :=
  (List.dropWhile_sublist p).subset

theorem subset_of_mem_wordsThenRest {limit : Nat} {text word : Text}
    (inside : word ∈ wordsThenRest limit text) : word ⊆ text := by
  induction limit generalizing text with
  | zero =>
      have blanks := dropWhile_subset isBlank text
      rw [wordsThenRest] at inside
      split at inside
      · cases inside
      · rw [List.mem_singleton.mp inside]
        exact blanks
  | succ limit ih =>
      have blanks := dropWhile_subset isBlank text
      rw [wordsThenRest] at inside
      split at inside
      · cases inside
      · rcases List.mem_cons.mp inside with rfl | later
        · exact List.Subset.trans (List.takeWhile_sublist _).subset blanks
        · exact List.Subset.trans (List.Subset.trans (ih later) (dropWhile_subset _ _)) blanks

/-- What follows a marker is the end of the text. -/
theorem suffix_of_after? {marker text rest : Text} (found : after? marker text = some rest) :
    rest <:+ text := by
  induction text with
  | nil => exact ⟨marker, (eq_append_of_behind? found).symm⟩
  | cons c others ih =>
      rw [after?] at found
      split at found
      · next follows here =>
          obtain rfl := Option.some.inj found
          exact ⟨marker, (eq_append_of_behind? here).symm⟩
      · exact (ih found).trans (List.suffix_cons c others)

end Text

/-! ## Paths -/

namespace FileDiff

theorem namedPath_subset (line : Text) : namedPath line ⊆ line :=
  calc
    namedPath line ⊆ upTo '\t' (trim (line.drop 4)) := (FileChange.dropSide_suffix _).subset
    _ ⊆ trim (line.drop 4) := (List.takeWhile_sublist _).subset
    _ ⊆ line.drop 4 := (trim_sublist _).subset
    _ ⊆ line := List.drop_subset 4 line

theorem gitPaths_subset (line : Text) :
    (∀ path ∈ (gitPaths line).1, path ⊆ line) ∧ ∀ path ∈ (gitPaths line).2, path ⊆ line := by
  have word {part : Text} (inside : part ∈ wordsThenRest 3 line) :
      ∀ path ∈ some (dropSide part), path ⊆ line := by
    intro path same
    obtain rfl := Option.some.inj same
    exact List.Subset.trans (FileChange.dropSide_suffix part).subset
      (subset_of_mem_wordsThenRest inside)
  unfold gitPaths
  split
  · next old new _ words => exact ⟨word (by simp [words]), word (by simp [words])⟩
  · next old words => exact ⟨word (by simp [words]), nofun⟩
  · exact ⟨nofun, nofun⟩

theorem oneLine_canonicalPath {old new : Option Text} (oldOne : ∀ path ∈ old, OneLine path)
    (newOne : ∀ path ∈ new, OneLine path) : OneLine (canonicalPath old new) := by
  have unknown : OneLine "<unknown>".toList := by decide
  have named {path : Option Text} (one : ∀ name ∈ path, OneLine name) :
      ∀ name ∈ nameOf? path, OneLine name :=
    fun name found => one name (Option.filter_eq_some_iff.mp found).1
  rw [canonicalPath]
  cases first : nameOf? new with
  | some name => exact named newOne name first
  | none =>
      cases second : nameOf? old with
      | some name => exact named oldOne name second
      | none => exact unknown

namespace Cursor

/-- No path that the walk remembers has a line boundary in it. -/
structure NamesOneLine (c : Cursor) : Prop where
  old : ∀ path ∈ c.oldPath, OneLine path
  new : ∀ path ∈ c.newPath, OneLine path

variable {c next : Cursor} {line : Text} {below : Option Text} {closed files : List FileDiff}

theorem NamesOneLine.close (named : c.NamesOneLine) : ∀ file ∈ c.close, OneLine file.path := by
  intro file inside
  rw [Cursor.close] at inside
  split at inside
  · cases inside
  · rw [List.mem_singleton.mp inside]
    exact oneLine_canonicalPath named.old named.new

/-- A step closes the file under way or none, and remembers a path that it knew or one
that it finds in its line. -/
theorem names_of_step (stepped : c.step line below = .ok (closed, next)) :
    (closed = [] ∨ closed = c.close) ∧
      (∀ path ∈ next.oldPath, path ∈ c.oldPath ∨ path ⊆ line) ∧
      ∀ path ∈ next.newPath, path ∈ c.newPath ∨ path ⊆ line := by
  have keeps (known : Option Text) : ∀ path ∈ known, path ∈ known ∨ path ⊆ line :=
    fun path => Or.inl
  have found (known : Option Text) :
      ∀ path ∈ some (namedPath line), path ∈ known ∨ path ⊆ line := by
    intro path same
    obtain rfl := Option.some.inj same
    exact Or.inr (namedPath_subset line)
  unfold step at stepped
  split_ifs at stepped with git header hunk pair closes names empty
  · cases stepped
    exact ⟨Or.inr rfl, fun path here => Or.inr ((gitPaths_subset line).1 path here),
      fun path here => Or.inr ((gitPaths_subset line).2 path here)⟩
  · obtain ⟨counts, -, done⟩ := bind_eq_ok_iff.mp stepped
    cases done
    exact ⟨Or.inl rfl, keeps _, keeps _⟩
  · cases stepped
    have same : (c.consume line).oldPath = c.oldPath ∧ (c.consume line).newPath = c.newPath := by
      rw [consume]
      split <;> exact ⟨rfl, rfl⟩
    exact ⟨Or.inl rfl, same.1 ▸ keeps _, same.2 ▸ keeps _⟩
  · cases stepped
    exact ⟨Or.inr rfl, found _, keeps _⟩
  · cases stepped
    exact ⟨Or.inl rfl, found _, keeps _⟩
  · cases stepped
    exact ⟨Or.inl rfl, keeps _, found _⟩
  · cases stepped
    exact ⟨Or.inl rfl, keeps _, keeps _⟩
  · cases stepped
    exact ⟨Or.inl rfl, keeps _, keeps _⟩

theorem NamesOneLine.step (named : c.NamesOneLine) (one : OneLine line)
    (stepped : c.step line below = .ok (closed, next)) :
    next.NamesOneLine ∧ ∀ file ∈ closed, OneLine file.path := by
  obtain ⟨closes, old, new⟩ := names_of_step stepped
  refine ⟨⟨fun path found => ?_, fun path found => ?_⟩, ?_⟩
  · exact (old path found).elim (named.old path) fun part => one.of_subset part
  · exact (new path found).elim (named.new path) fun part => one.of_subset part
  · rcases closes with rfl | rfl
    · exact List.forall_mem_nil _
    · exact named.close

theorem NamesOneLine.run {ls : List Text} (named : c.NamesOneLine)
    (one : ∀ line ∈ ls, OneLine line) (completed : c.run ls = .ok files) :
    ∀ file ∈ files, OneLine file.path := by
  induction ls generalizing c files with
  | nil =>
      cases completed
      exact named.close
  | cons line rest ih =>
      rw [Cursor.run, bind_eq_ok_iff] at completed
      obtain ⟨⟨closed, next⟩, stepped, behind⟩ := completed
      obtain ⟨more, ran, done⟩ := bind_eq_ok_iff.mp behind
      cases done
      obtain ⟨named, here⟩ := named.step (one line List.mem_cons_self) stepped
      have later := ih named (fun other inside => one other (List.mem_cons_of_mem line inside)) ran
      exact List.forall_mem_append.mpr ⟨here, later⟩

end Cursor

theorem oneLine_path_of_mem_ofDiff {diff : Text} {files : List FileDiff}
    (cut : ofDiff diff = .ok files) {file : FileDiff} (inside : file ∈ files) :
    OneLine file.path := by
  have start : Cursor.start.NamesOneLine := ⟨nofun, nofun⟩
  exact start.run (fun line => oneLine_of_mem_lines) cut file inside

end FileDiff

/-! ## Rules -/

theorem Directive.subset_of_mem_rules? {content rule : Text} {rules : List Text}
    (found : rules? content = some rules) (inside : rule ∈ rules) : rule ⊆ content := by
  obtain ⟨names, follows, rfl⟩ := Option.map_eq_some_iff.mp found
  obtain ⟨piece, cut, rfl⟩ := List.mem_map.mp (List.mem_of_mem_filter inside)
  have inPiece : trim piece ⊆ names := fun c within =>
    mem_of_mem_pieces cut ((trim_sublist piece).subset within)
  exact List.Subset.trans inPiece (suffix_of_after? follows).subset

theorem Patch.oneLine_content {patch : Text} {lines : List AddedLine}
    (read : added patch = .ok lines) {line : AddedLine} (inside : line ∈ lines) :
    OneLine line.content := by
  obtain ⟨hunk, member, start, -, among⟩ := exists_hunk_of_mem_addedOfHunks read inside
  have body : line.content ∈ hunk.body := by
    have kept := List.mem_map_of_mem (f := AddedLine.content) among
    rw [Hunk.content_addedFrom] at kept
    exact List.mem_of_mem_filter kept
  have whole := (Hunk.lines_sublist_of_mem_cutAtHeaders member).subset
  exact oneLine_of_mem_lines (whole (List.mem_cons_of_mem hunk.header body))

namespace Violation

/-- Neither the file of a violation nor a rule of it has a line boundary in it. -/
structure NamesOneLine (violation : Violation) : Prop where
  file : OneLine violation.file
  rules : ∀ rule ∈ violation.rules, OneLine rule

theorem namesOneLine_of_mem_find {settings : ReviewSettings} {diff : Text}
    {files : List FileDiff} {violations : List Violation} (cut : FileDiff.ofDiff diff = .ok files)
    (search : find settings files = .ok violations) :
    ∀ violation ∈ violations, violation.NamesOneLine := by
  intro violation inside
  obtain ⟨file, kept, added, read, line, member, same⟩ :=
    exists_added_of_mem_inFiles search inside
  obtain ⟨rules, found, rfl⟩ := Option.map_eq_some_iff.mp same
  have content := Patch.oneLine_content read member
  exact ⟨FileDiff.oneLine_path_of_mem_ofDiff cut (List.mem_of_mem_filter kept),
    fun rule among => content.of_subset (Directive.subset_of_mem_rules? found among)⟩

end Violation

end DirectiveReview
