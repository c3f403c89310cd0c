/-
# Where paths lead

A resolved path is a row of names: the double dots are gone, and there is no NUL character
in it unless there was one in the path or in the working directory.  Following such a path
from the root leads to its own location, if there is anything.  So a path that leads to
nothing names a place where nothing stands, whatever the reason is.
-/

import DirectiveReview.Proofs.Except
import DirectiveReview.Proofs.Files.Writing
import DirectiveReview.Proofs.Text.Searches

namespace DirectiveReview

namespace Path

/-- A name that a directory can have for one of its entries. -/
def IsName (name : Text) : Prop :=
  name ≠ above ∧ '\x00' ∉ name

theorem isName_of_mem_follow {location : Location} {names : List Text}
    (clean : ∀ name ∈ location, IsName name) (bare : ∀ name ∈ names, '\x00' ∉ name) :
    ∀ name ∈ follow location names, IsName name := by
  induction names generalizing location with
  | nil => exact clean
  | cons name rest ih =>
      obtain ⟨first, others⟩ := List.forall_mem_cons.mp bare
      rw [follow]
      by_cases up : name = above
      · rw [if_pos up]
        exact ih (fun other inside => clean other (List.mem_of_mem_dropLast inside)) others
      · rw [if_neg up]
        refine ih (List.forall_mem_append.mpr ⟨clean, ?_⟩) others
        exact List.forall_mem_singleton.mpr ⟨up, first⟩

theorem isName_of_mem_resolve {working : Location} {p : Path}
    (clean : ∀ name ∈ working, IsName name) (bare : p.hasNul = false) :
    ∀ name ∈ p.resolve working, IsName name := by
  have names : ∀ name ∈ p.names, '\x00' ∉ name := by
    simpa [hasNul] using bare
  rw [resolve]
  split
  · exact isName_of_mem_follow clean names
  · exact isName_of_mem_follow (fun _ inside => by cases inside) names

theorem hasNul_read {text : Text} (bare : '\x00' ∉ text) : (read text).hasNul = false := by
  rw [hasNul, List.any_eq_false]
  intro name found inside
  have cut := (List.mem_filter.mp found).1
  exact bare (Text.mem_of_mem_pieces cut (of_decide_eq_true inside))

end Path

namespace FileTree

variable {tree : FileTree} {location : Location}

/-- What has a content exists. -/
theorem hasPath_of_content {path : Path} {bytes : List UInt8}
    (content : tree.content location path = .ok bytes) : tree.hasPath location path = .ok true := by
  obtain ⟨place, located, found⟩ := bind_eq_ok_iff.mp content
  rw [hasPath, located]
  cases entry : tree.entry? place with
  | some _ => exact congrArg (fun found => Except.ok (Option.isSome found)) entry
  | none =>
      rw [entry] at found
      cases found

/-- A path is the first one that leads anywhere if no other one does. -/
theorem firstPath?_of_alone {path : Path} (paths : List Path)
    (there : tree.hasPath location path = .ok true)
    (alone : ∀ other ∈ paths, other ≠ path → tree.hasPath location other = .ok false) :
    tree.firstPath? location paths = .ok (if path ∈ paths then some path else none) := by
  induction paths with
  | nil => rfl
  | cons other rest ih =>
      obtain ⟨first, others⟩ := List.forall_mem_cons.mp alone
      rw [firstPath?]
      by_cases same : other = path
      · subst same
        rw [there, if_pos List.mem_cons_self]
        rfl
      · have skipped : (path ∈ other :: rest) = (path ∈ rest) := by
          simp [Ne.symm same]
        rw [first same]
        simp only [skipped]
        exact ih others

theorem walk_of_found (rooted : tree.Rooted) {names : List Text}
    (clean : ∀ name ∈ names, Path.IsName name)
    (found : (tree.entry? (location ++ names)).isSome = true) :
    tree.walk location names = .ok (location ++ names) ∨
      tree.walk location names = .error .nameTooLong := by
  induction names generalizing location with
  | nil =>
      rw [List.append_nil]
      exact Or.inl rfl
  | cons name rest ih =>
      obtain ⟨first, others⟩ := List.forall_mem_cons.mp clean
      rw [walk, rooted.directory_of_append found (List.cons_ne_nil _ _)]
      dsimp only
      rw [if_neg first.1]
      by_cases long : Path.isLongName name = true
      · rw [if_pos long]
        exact Or.inr rfl
      · rw [List.append_cons] at found
        have onwards := ih others found
        rw [List.append_assoc] at onwards
        rw [if_neg long]
        exact onwards

/-- Where a path leads to nothing, nothing stands. -/
theorem entry?_eq_none_of_hasPath (rooted : tree.Rooted)
    (clean : ∀ name ∈ location, Path.IsName name)
    (absent : tree.hasPath [] (Path.ofLocation location) = .ok false) :
    tree.entry? location = none := by
  by_contra occupied
  have found := Option.isSome_iff_ne_none.mpr occupied
  have bare : (Path.ofLocation location).hasNul = false := by
    rw [Path.hasNul, List.any_eq_false]
    intro name inside nul
    exact (clean name inside).2 (of_decide_eq_true nul)
  have leads : tree.locate [] (Path.ofLocation location) = .ok location ∨
      tree.locate [] (Path.ofLocation location) = .error .nameTooLong := by
    rw [locate, if_neg (Bool.eq_false_iff.mp bare)]
    split
    · exact Or.inr rfl
    · exact walk_of_found rooted clean found
  rw [hasPath] at absent
  rcases leads with there | tooLong
  · rw [there] at absent
    exact absurd found (Bool.eq_false_iff.mp (Except.ok.inj absent))
  · rw [tooLong] at absent
    cases absent

end FileTree

end DirectiveReview
