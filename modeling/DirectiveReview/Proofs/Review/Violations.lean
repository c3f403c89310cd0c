/-
# The violations of a review

Violations are searched for file by file, so those of two rows of files are those
of the first followed by those of the second, and the search fails at the first
file that cannot be read.  A review carries exactly the violations of the search,
whatever its resolver knows or learns.
-/

import DirectiveReview.Proofs.Except
import DirectiveReview.Review.Check

namespace DirectiveReview

namespace Violation

/-- The violations in a diff. -/
def ofDiff (settings : ReviewSettings) (diff : Text) : Except DiffError (List Violation) := do
  let files ← FileDiff.ofDiff diff
  find settings files

/-- The search over two rows of files is the search over one after the other. -/
theorem inFiles_append (first second : List FileDiff) :
    inFiles (first ++ second) = (do
      let before ← inFiles first
      let behind ← inFiles second
      return before ++ behind) := by
  induction first with
  | nil =>
      show inFiles second = (do
        let behind ← inFiles second
        return [] ++ behind)
      cases inFiles second <;> rfl
  | cons file rest ih =>
      simp only [List.cons_append, inFiles, ih, bind_assoc, pure_bind, List.append_assoc]

theorem find_append (settings : ReviewSettings) (first second : List FileDiff) :
    find settings (first ++ second) = (do
      let before ← find settings first
      let behind ← find settings second
      return before ++ behind) := by
  simp only [find, IgnoreList.keep, List.filter_append, inFiles_append]

/-- The search in one file that can be read. -/
theorem find_singleton {file : FileDiff} {added : List AddedLine}
    (read : Patch.added file.patch = .ok added) (settings : ReviewSettings) :
    find settings [file] = .ok (if IgnoreList.covers settings.ignorePaths file.path then []
      else added.filterMap (ofLine? file.path)) := by
  cases ignored : IgnoreList.covers settings.ignorePaths file.path with
  | true =>
      have keep : IgnoreList.keep settings.ignorePaths [file] = [] := by
        simp [IgnoreList.keep, ignored]
      rw [find, keep]
      rfl
  | false =>
      have keep : IgnoreList.keep settings.ignorePaths [file] = [file] := by
        simp [IgnoreList.keep, ignored]
      have here : inFile file = .ok (added.filterMap (ofLine? file.path)) := by
        rw [inFile, read]
        rfl
      rw [find, keep, inFiles, here]
      exact congrArg Except.ok (List.append_nil _)

/-- A search fails only at a file that cannot be read. -/
theorem exists_find {files : List FileDiff}
    (read : ∀ file ∈ files, ∃ added, Patch.added file.patch = .ok added)
    (settings : ReviewSettings) : ∃ violations, find settings files = .ok violations := by
  induction files with
  | nil => exact ⟨[], rfl⟩
  | cons file rest ih =>
      obtain ⟨added, here⟩ := read file List.mem_cons_self
      obtain ⟨more, behind⟩ := ih fun other inside => read other (List.mem_cons_of_mem file inside)
      rw [← List.singleton_append, find_append, find_singleton here, behind]
      exact ⟨_, rfl⟩

/-- A violation is an added line of a file that was searched. -/
theorem exists_added_of_mem_inFiles {files : List FileDiff} {violations : List Violation}
    (search : inFiles files = .ok violations) {violation : Violation} (inside : violation ∈ violations) :
    ∃ file ∈ files, ∃ added, Patch.added file.patch = .ok added ∧
      ∃ line ∈ added, ofLine? file.path line = some violation := by
  induction files generalizing violations with
  | nil =>
      cases search
      cases inside
  | cons file rest ih =>
      obtain ⟨here, first, behind⟩ := bind_eq_ok_iff.mp search
      obtain ⟨more, later, done⟩ := bind_eq_ok_iff.mp behind
      obtain ⟨added, read, found⟩ := bind_eq_ok_iff.mp first
      cases done
      cases found
      rcases List.mem_append.mp inside with front | back
      · obtain ⟨line, member, same⟩ := List.mem_filterMap.mp front
        exact ⟨file, List.mem_cons_self, added, read, line, member, same⟩
      · obtain ⟨other, member, found⟩ := ih later back
        exact ⟨other, List.mem_cons_of_mem file member, found⟩

end Violation

namespace Review

/-- Looking rules up and writing comments leaves the violations as they are. -/
theorem violations_ofViolations (r : Resolver) (settings : ReviewSettings) (memory : Memory)
    (violations : List Violation) :
    (ofViolations r settings memory violations).1.violations = violations := by
  unfold ofViolations
  split
  · next none => rw [none]
  · rfl

/-- A review of files is the search, with the rules of what was found resolved. -/
theorem ofFiles_eq_map (r : Resolver) (settings : ReviewSettings) (memory : Memory)
    (files : List FileDiff) :
    ofFiles r settings memory files =
      (Violation.find settings files).map (ofViolations r settings memory) := by
  rw [ofFiles, attemptFiles]
  cases Violation.find settings files <;> rfl

/-- So is a review of a diff. -/
theorem ofDiff_eq_map (r : Resolver) (settings : ReviewSettings) (memory : Memory)
    (diff : Text) :
    ofDiff r settings memory diff =
      (Violation.ofDiff settings diff).map (ofViolations r settings memory) := by
  rw [ofDiff, attempt, Violation.ofDiff]
  cases FileDiff.ofDiff diff with
  | error e => rfl
  | ok files => exact ofFiles_eq_map r settings memory files

section Attempt

variable {r : Resolver} {settings : ReviewSettings} {memory after : Memory} {diff : Text}

theorem attempt_of_ofDiff_eq_ok {review : Review}
    (reviewed : ofDiff r settings memory diff = .ok (review, after)) :
    attempt r settings memory diff = (.ok review, after) := by
  obtain ⟨same, made, pair⟩ := map_eq_ok_iff.mp reviewed
  obtain ⟨rfl, rfl⟩ := Prod.mk.inj pair
  exact Prod.ext made rfl

/-- A review that fails has looked nothing up. -/
theorem attempt_of_ofDiff_eq_error {e : DiffError}
    (failed : ofDiff r settings memory diff = .error e) :
    attempt r settings memory diff = (.error e, memory) := by
  rw [ofDiff_eq_map, map_eq_error_iff] at failed
  rcases bind_eq_error_iff.mp failed with cut | ⟨files, cut, search⟩
  · rw [attempt, cut]
  · rw [attempt, cut]
    dsimp only
    rw [attemptFiles, search]

end Attempt

theorem exists_ofDiff_of_found {settings : ReviewSettings} {diff : Text}
    {violations : List Violation} (found : Violation.ofDiff settings diff = .ok violations)
    (r : Resolver) (memory : Memory) :
    ∃ review after, ofDiff r settings memory diff = .ok (review, after) ∧
      review.violations = violations := by
  rw [ofDiff_eq_map, found]
  exact ⟨(ofViolations r settings memory violations).1,
    (ofViolations r settings memory violations).2, rfl,
    violations_ofViolations r settings memory violations⟩

/-- A diff that can be cut and searched is reviewed, and the review has the
violations of the search. -/
theorem exists_ofDiff_of_find {settings : ReviewSettings} {diff : Text} {files : List FileDiff}
    {violations : List Violation} (cut : FileDiff.ofDiff diff = .ok files)
    (search : Violation.find settings files = .ok violations) (r : Resolver) (memory : Memory) :
    ∃ review after, ofDiff r settings memory diff = .ok (review, after) ∧
      review.violations = violations := by
  have found : Violation.ofDiff settings diff = .ok violations := by
    rw [Violation.ofDiff, cut]
    exact search
  exact exists_ofDiff_of_found found r memory

end Review

end DirectiveReview
