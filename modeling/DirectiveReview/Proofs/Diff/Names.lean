/-
# Reading names back

A legible name comes back from the line it was written into.  In the lines that
name the old and the new file a name is trimmed, cut at a tab and stripped of its
lead; in a `diff --git` line the old name is a word and the new one is all that
follows it.  No name but a legible one comes back from behind its lead.
-/

import DirectiveReview.Proofs.Diff.Rendered
import DirectiveReview.Proofs.Text.Words

namespace DirectiveReview.FileChange

open Text FileDiff

/-- A name that is neither empty nor the name of no file is kept. -/
theorem nameOf?_some {name : Text} (nonempty : name ≠ []) (isFile : name ≠ noFile) :
    nameOf? (some name) = some name := by
  simp [nameOf?, nonempty, isFile]

theorem canonicalPath_of_new {old : Option Text} {name : Text} (nonempty : name ≠ [])
    (isFile : name ≠ noFile) : canonicalPath old (some name) = name := by
  rw [canonicalPath, nameOf?_some nonempty isFile]
  rfl

theorem canonicalPath_of_old {name : Text} (nonempty : name ≠ []) (isFile : name ≠ noFile) :
    canonicalPath (some name) (some noFile) = name := by
  have none : nameOf? (some noFile) = none := by
    simp [nameOf?]
  rw [canonicalPath, none, nameOf?_some nonempty isFile]
  rfl

/-- The name of no file is read as it is written. -/
theorem readName_noFile : readName noFile = noFile := by
  decide

/-- What stands in front of a name is nothing in one style and a directory that is
dropped in the others. -/
def IsLead (style : DiffStyle) (lead : Text) : Prop :=
  (style = .plain false ∧ lead = []) ∨
    (style ≠ .plain false ∧ (lead = "a/".toList ∨ lead = "b/".toList))

theorem isLead_oldLead (style : DiffStyle) : IsLead style style.oldLead := by
  rcases style with _ | (_ | _)
  · exact Or.inr ⟨DiffStyle.noConfusion, Or.inl rfl⟩
  · exact Or.inl ⟨rfl, rfl⟩
  · exact Or.inr ⟨by decide, Or.inl rfl⟩

theorem isLead_newLead (style : DiffStyle) : IsLead style style.newLead := by
  rcases style with _ | (_ | _)
  · exact Or.inr ⟨DiffStyle.noConfusion, Or.inr rfl⟩
  · exact Or.inl ⟨rfl, rfl⟩
  · exact Or.inr ⟨by decide, Or.inr rfl⟩

theorem IsLead.noTab {style : DiffStyle} {lead : Text} (side : IsLead style lead) :
    '\t' ∉ lead := by
  rcases side with ⟨-, rfl⟩ | ⟨-, rfl | rfl⟩ <;> decide

/-- A legible name comes back from behind its lead. -/
theorem readName_append {style : DiffStyle} {lead name : Text} (side : IsLead style lead)
    (legible : LegibleName style name) : readName (lead ++ name) = name := by
  have last : ∀ c ∈ (lead ++ name).getLast?, isBlank c = false := by
    rw [List.getLast?_append_of_ne_nil _ legible.nonempty]
    exact legible.last
  have first : ∀ c ∈ (lead ++ name).head?, isBlank c = false := by
    rcases side with ⟨bare, rfl⟩ | ⟨-, rfl | rfl⟩
    · exact legible.first bare
    · simp; decide
    · simp; decide
  have noTab : '\t' ∉ lead ++ name := by
    rw [List.mem_append, not_or]
    exact ⟨side.noTab, legible.noTab⟩
  rw [readName, trim_eq_self first last, upTo_eq_self noTab]
  rcases side with ⟨bare, rfl⟩ | ⟨-, rfl | rfl⟩
  · exact legible.noSide bare
  · rfl
  · rfl

theorem dropSide_suffix (path : Text) : dropSide path <:+ path := by
  unfold dropSide
  split
  · exact (List.suffix_cons _ _).trans (List.suffix_cons _ _)
  · exact (List.suffix_cons _ _).trans (List.suffix_cons _ _)
  · exact List.suffix_rfl

/-- A name is legible exactly if it is a name of a file and comes back from behind
its lead. -/
theorem legibleName_iff {style : DiffStyle} {lead name : Text} (side : IsLead style lead) :
    LegibleName style name ↔ name ≠ [] ∧ name ≠ noFile ∧ readName (lead ++ name) = name := by
  refine ⟨fun legible => ⟨legible.nonempty, legible.isFile, readName_append side legible⟩, ?_⟩
  rintro ⟨nonempty, isFile, back⟩
  have noTab : '\t' ∉ name := by
    intro inside
    rw [← back] at inside
    have kept := List.mem_takeWhile_imp ((dropSide_suffix _).subset inside)
    simp at kept
  have whole : dropSide (trim (lead ++ name)) = name := by
    have trimmed : '\t' ∉ trim (lead ++ name) := by
      intro inside
      rcases List.mem_append.mp ((trim_sublist _).subset inside) with front | behind
      · exact side.noTab front
      · exact noTab behind
    rwa [readName, upTo_eq_self trimmed] at back
  have last : ∀ c ∈ name.getLast?, isBlank c = false := by
    obtain ⟨front, split⟩ := dropSide_suffix (trim (lead ++ name))
    rw [whole] at split
    have ends := getLast?_trim (lead ++ name)
    rwa [← split, List.getLast?_append_of_ne_nil _ nonempty] at ends
  -- Nothing is lost from a name without a lead, so neither step can take anything off.
  have bare (plain : style = .plain false) : trim name = name ∧ dropSide name = name := by
    obtain rfl : lead = [] := side.resolve_right (fun sided => sided.1 plain) |>.2
    rw [List.nil_append] at whole
    have short : name.length ≤ (trim name).length := by
      conv_lhs => rw [← whole]
      exact (dropSide_suffix _).length_le
    have same := (trim_sublist name).eq_of_length_le short
    rw [same] at whole
    exact ⟨same, whole⟩
  exact {
    nonempty := nonempty
    isFile := isFile
    noTab := noTab
    last := last
    first := fun plain => head?_of_trim_eq_self (bare plain).1
    noSide := fun plain => (bare plain).2 }
/-- A `diff --git` line by its words.  A row of blanks may belong to the end of the
old name. -/
theorem gitLine_eq {change : FileChange} {word blanks : Text} (old : change.old = word ++ blanks) :
    change.gitLine = [] ++ ("diff".toList ++ ([' '] ++ ("--git".toList ++ ([' '] ++
      (("a/".toList ++ word) ++ ((blanks ++ [' ']) ++ 'b' :: '/' :: change.new)))))) := by
  unfold gitLine
  simp [old]

/-- The names of a `diff --git` line, the old one being a word that only blanks
may follow. -/
theorem gitPaths_gitLine {change : FileChange} {word blanks : Text}
    (old : change.old = word ++ blanks) (solid : ∀ c ∈ word, isBlank c = false)
    (behind : ∀ c ∈ blanks, isBlank c = true) :
    gitPaths change.gitLine = (some word, some change.new) := by
  have single : ∀ c ∈ [' '], isBlank c = true := List.all_eq_true.mp rfl
  have sided : ∀ c ∈ "a/".toList ++ word, isBlank c = false := by
    intro c inside
    rcases List.mem_append.mp inside with lead | inside
    · exact solid_of_any rfl c lead
    · exact solid c inside
  have gap : ∀ c ∈ blanks ++ [' '], isBlank c = true := by
    intro c inside
    rcases List.mem_append.mp inside with inside | last
    · exact behind c inside
    · exact single c last
  have words : wordsThenRest 3 change.gitLine =
      ["diff".toList, "--git".toList, "a/".toList ++ word, 'b' :: '/' :: change.new] := by
    rw [gitLine_eq old,
      wordsThenRest_succ 2 (by simp) (by decide) (solid_of_any rfl)
        (head?_append_of_all (by simp) single _),
      wordsThenRest_succ 1 single (by decide) (solid_of_any rfl)
        (head?_append_of_all (by simp) single _),
      wordsThenRest_succ 0 single (by simp) sided (head?_append_of_all (by simp) gap _),
      wordsThenRest_zero gap (by decide)]
  rw [gitPaths, words]
  rfl

/-- The path read off the lines of a legible change is its path. -/
theorem path_readFile {style : DiffStyle} {change : FileChange} (legible : change.Legible style) :
    (change.readFile style).path = change.path style := by
  show canonicalPath (change.readPaths style).1 (change.readPaths style).2 = change.path style
  unfold Legible at legible
  by_cases bare : style = .git ∧ change.hunks = []
  · rw [if_pos bare] at legible
    obtain ⟨behind, nonempty, isFile⟩ := legible
    have solid : ∀ c ∈ change.old.takeWhile (!isBlank ·), isBlank c = false := fun c inside => by
      simpa using List.mem_takeWhile_imp inside
    rw [readPaths, if_pos bare,
      gitPaths_gitLine List.takeWhile_append_dropWhile.symm solid behind]
    dsimp only
    rw [canonicalPath_of_new nonempty isFile]
    simp [path, bare]
  · rw [if_neg bare] at legible
    rw [readPaths, if_neg bare]
    have path : change.path style = if change.sides = .onlyOld then change.old else change.new := by
      simp [FileChange.path, bare]
    rw [path] at legible ⊢
    by_cases deleted : change.sides = .onlyOld
    · rw [if_pos deleted] at legible ⊢
      have old : readName (change.oldName style) = change.old := by
        simpa [oldName, deleted] using readName_append (isLead_oldLead style) legible
      have new : readName (change.newName style) = noFile := by
        simpa [newName, deleted] using readName_noFile
      rw [old, new]
      exact canonicalPath_of_old legible.nonempty legible.isFile
    · rw [if_neg deleted] at legible ⊢
      have new : readName (change.newName style) = change.new := by
        simpa [newName, deleted] using readName_append (isLead_newLead style) legible
      rw [new]
      exact canonicalPath_of_new legible.nonempty legible.isFile

end DirectiveReview.FileChange
