/-
# What ignoring does to a search

Ignored files are set aside before anything is read, and what is found in a file does not
depend on the other files.  So setting more files aside afterwards, by what was found in
them, comes to the same as ignoring them: a longer list of entries takes violations away
and changes nothing else.  The converse does not hold for searches that fail, because a
file that cannot be read may be the one that is no longer looked at.

Nothing that an ignored file holds has any influence, be it malformed or not.
-/

import DirectiveReview.Proofs.Except
import DirectiveReview.Proofs.Text.Searches
import DirectiveReview.Review.Violation

namespace DirectiveReview

namespace IgnoreList

/-- An entry is a part of the path. -/
def Covered (entries : List Text) (path : Text) : Prop :=
  ∃ entry ∈ entries, entry <:+: path

variable {entries more : List Text} {path : Text}

theorem covers_iff : covers entries path = true ↔ Covered entries path := by
  simp only [covers, List.any_eq_true, Text.contains_iff, Covered]

theorem covers_eq_false_iff : covers entries path = false ↔ ¬ Covered entries path := by
  rw [← covers_iff, Bool.not_eq_true]

instance (entries : List Text) (path : Text) : Decidable (Covered entries path) :=
  decidable_of_iff (covers entries path = true) covers_iff

theorem Covered.mono (larger : entries ⊆ more) (covered : Covered entries path) :
    Covered more path := by
  obtain ⟨entry, inside, part⟩ := covered
  exact ⟨entry, larger inside, part⟩

end IgnoreList

namespace Violation

open IgnoreList

variable {settings : ReviewSettings} {file : FileDiff} {rest : List FileDiff}
  {found : List Violation}

/-- A violation names the file it was found in. -/
theorem file_of_mem_inFile (search : inFile file = .ok found) {violation : Violation}
    (inside : violation ∈ found) : violation.file = file.path := by
  obtain ⟨added, -, done⟩ := bind_eq_ok_iff.mp search
  cases done
  obtain ⟨line, -, same⟩ := List.mem_filterMap.mp inside
  obtain ⟨rules, -, rfl⟩ := Option.map_eq_some_iff.mp same
  rfl

theorem find_cons_of_covered (ignored : Covered settings.ignorePaths file.path) :
    find settings (file :: rest) = find settings rest := by
  rw [find, keep, List.filter_cons, covers_iff.mpr ignored]
  rfl

theorem find_cons_of_not_covered (looked : ¬ Covered settings.ignorePaths file.path) :
    find settings (file :: rest) = (do
      let here ← inFile file
      let behind ← find settings rest
      return here ++ behind) := by
  rw [find, keep, List.filter_cons, covers_eq_false_iff.mpr looked]
  rfl

/-- All that was found in one file goes or stays together. -/
theorem filter_inFile (search : inFile file = .ok found) (entries : List Text) :
    (found.filter fun violation => ¬ Covered entries violation.file) =
      if Covered entries file.path then [] else found := by
  have named : ∀ violation ∈ found, violation.file = file.path :=
    fun violation => file_of_mem_inFile search
  split
  · next ignored =>
      refine List.filter_eq_nil_iff.mpr fun violation inside => ?_
      simpa [named violation inside] using ignored
  · next looked =>
      refine List.filter_eq_self.mpr fun violation inside => ?_
      simpa [named violation inside] using looked

/-- Ignoring more takes away what was found in the files that are ignored now. -/
theorem find_of_subset {files : List FileDiff} {entries : List Text}
    (larger : settings.ignorePaths ⊆ entries) (search : find settings files = .ok found) :
    find { settings with ignorePaths := entries } files =
      .ok (found.filter fun violation => ¬ Covered entries violation.file) := by
  induction files generalizing found with
  | nil =>
      cases search
      rfl
  | cons file rest ih =>
      by_cases ignored : Covered settings.ignorePaths file.path
      · rw [find_cons_of_covered ignored] at search
        rw [find_cons_of_covered (ignored.mono larger), ih search]
      · rw [find_cons_of_not_covered ignored] at search
        obtain ⟨here, first, onwards⟩ := bind_eq_ok_iff.mp search
        obtain ⟨behind, others, done⟩ := bind_eq_ok_iff.mp onwards
        cases done
        rw [List.filter_append, filter_inFile first]
        by_cases covered : Covered entries file.path
        · rw [find_cons_of_covered covered, ih others, if_pos covered, List.nil_append]
        · rw [find_cons_of_not_covered covered, first, ih others, if_neg covered]
          rfl

/-- Two rows of files have the same paths, and the same patches wherever these matter. -/
def SameWhereLooked (settings : ReviewSettings) : List FileDiff → List FileDiff → Prop :=
  List.Forall₂ fun file other => file.path = other.path ∧
    (Covered settings.ignorePaths file.path ∨ file.patch = other.patch)

theorem find_congr {files others : List FileDiff} (same : SameWhereLooked settings files others) :
    find settings files = find settings others := by
  induction same with
  | nil => rfl
  | @cons file other files others alike _ ih =>
      obtain ⟨path, patch⟩ := alike
      by_cases ignored : Covered settings.ignorePaths file.path
      · rw [find_cons_of_covered ignored, find_cons_of_covered (path ▸ ignored), ih]
      · obtain rfl : file = other := by
          cases file
          cases other
          cases path
          cases patch.resolve_left ignored
          rfl
        rw [find_cons_of_not_covered ignored, find_cons_of_not_covered ignored, ih]

/-- **Ignoring takes away, and ignored files have no influence.**  A search that succeeds
succeeds with more entries too, and finds what it found before in the files whose paths
contain none of them, in the same order.  Searches in files that differ only in the patches
of ignored ones end alike, with the same violations or the same error. -/
theorem find_of_more_ignored (settings : ReviewSettings) (entries : List Text)
    (files others : List FileDiff) :
    (settings.ignorePaths ⊆ entries → ∀ found, find settings files = .ok found →
      find { settings with ignorePaths := entries } files =
        .ok (found.filter fun violation => ¬ Covered entries violation.file)) ∧
    (SameWhereLooked settings files others → find settings files = find settings others) :=
  ⟨fun larger _ search => find_of_subset larger search, find_congr⟩

/-- An ignored file with a malformed header, and two files with directives. -/
def mixedFiles (ignoredPatch : Text) : List FileDiff :=
  [⟨"vendor/a.rb".toList, ignoredPatch⟩,
    ⟨"Gemfile".toList, "@@ -0,0 +1 @@\n+# rubocop:disable A".toList⟩,
    ⟨"b.rb".toList, "@@ -2 +3 @@\n+# rubocop:disable B".toList⟩]

theorem find_of_more_ignored_mixedFiles :
    find ⟨["vendor/".toList], [], []⟩ (mixedFiles "@@ -1 +x @@".toList) =
        .ok [⟨"Gemfile".toList, 1, [['A']]⟩, ⟨"b.rb".toList, 3, [['B']]⟩] ∧
      find ⟨["Gem".toList, "vendor/".toList], [], []⟩ (mixedFiles "@@ -1 +x @@".toList) =
        .ok [⟨"b.rb".toList, 3, [['B']]⟩] ∧
      find ⟨["vendor/".toList], [], []⟩ (mixedFiles []) =
        .ok [⟨"Gemfile".toList, 1, [['A']]⟩, ⟨"b.rb".toList, 3, [['B']]⟩] := by
  have search : find ⟨["vendor/".toList], [], []⟩ (mixedFiles "@@ -1 +x @@".toList) =
      .ok [⟨"Gemfile".toList, 1, [['A']]⟩, ⟨"b.rb".toList, 3, [['B']]⟩] := by
    rfl
  have covered : Covered ["vendor/".toList] "vendor/a.rb".toList := by decide
  have same : SameWhereLooked ⟨["vendor/".toList], [], []⟩ (mixedFiles "@@ -1 +x @@".toList)
      (mixedFiles []) :=
    .cons ⟨rfl, Or.inl covered⟩ (.cons ⟨rfl, Or.inr rfl⟩ (.cons ⟨rfl, Or.inr rfl⟩ .nil))
  have laws := find_of_more_ignored ⟨["vendor/".toList], [], []⟩
    ["Gem".toList, "vendor/".toList] (mixedFiles "@@ -1 +x @@".toList) (mixedFiles [])
  have larger : ["vendor/".toList] ⊆ ["Gem".toList, "vendor/".toList] :=
    List.subset_cons_self _ _
  exact ⟨search, laws.1 larger _ search, (laws.2 same).symm.trans search⟩

end Violation

end DirectiveReview
