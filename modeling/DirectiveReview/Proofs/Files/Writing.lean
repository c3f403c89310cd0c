/-
# Writing into a file tree

Whatever exists in a file tree stands in a directory, and it still does after directories
have been made or a file has been written.  Neither operation takes anything away or
changes what it does not name: a tree grows by the directories that are missing on the way
to a location, and by the file there.

An operation that fails has changed nothing, with one exception.  A name that is too long
is noticed only when it is looked up, so the directories above it may be there by then.
Running out of room is noticed before the first directory is made: everything below a
missing directory is missing too, so how many there are to make is known.
-/

import DirectiveReview.Files.Tree
import DirectiveReview.Proofs.Entries
import Mathlib.Data.List.Infix

namespace DirectiveReview.FileTree

variable {room : Nat} {tree before after : FileTree} {location other : Location}

/-- Whatever exists stands in a directory. -/
def Rooted (tree : FileTree) : Prop :=
  ∀ location name, (tree.entry? (location ++ [name])).isSome = true →
    tree.entry? location = some .directory

theorem entry?_root (tree : FileTree) : tree.entry? [] = some .directory :=
  if_pos rfl

/-- For this it is enough to look at the entries. -/
theorem rooted_of_entries
    (above : ∀ e ∈ tree.entries, tree.entry? e.1.dropLast = some .directory) : tree.Rooted := by
  intro location name found
  unfold entry? at found
  rw [if_neg (by simp), List.lookup_isSome_iff] at found
  obtain ⟨e, inside, here⟩ := found
  have stands := above e inside
  rwa [← eq_of_beq here, List.dropLast_concat] at stands

theorem Rooted.directory_of_append (rooted : tree.Rooted) {names : List Text}
    (found : (tree.entry? (location ++ names)).isSome = true) (more : names ≠ []) :
    tree.entry? location = some .directory := by
  induction names using List.reverseRecOn with
  | nil => exact absurd rfl more
  | append_singleton names name ih =>
      rw [← List.append_assoc] at found
      have above := rooted _ _ found
      by_cases last : names = []
      · rwa [last, List.append_nil] at above
      · exact ih (Option.isSome_iff_exists.mpr ⟨_, above⟩) last

theorem Rooted.directory_of_prefix (rooted : tree.Rooted)
    (here : tree.entry? location = some .directory) (onTheWay : other <+: location) :
    tree.entry? other = some .directory := by
  obtain ⟨names, rfl⟩ := onTheWay
  by_cases last : names = []
  · rwa [last, List.append_nil] at here
  · exact rooted.directory_of_append (Option.isSome_iff_exists.mpr ⟨_, here⟩) last

/-- Below what is no directory there is nothing. -/
theorem Rooted.entry?_eq_none_below (rooted : tree.Rooted)
    (bare : tree.entry? location ≠ some .directory) {names : List Text} (below : names ≠ []) :
    tree.entry? (location ++ names) = none := by
  by_contra found
  exact bare (rooted.directory_of_append (Option.isSome_iff_ne_none.mpr found) below)

/-! ## Putting an entry -/

theorem lookup_entries_put (tree : FileTree) (location other : Location) (entry : Entry) :
    (tree.put location entry).entries.lookup other =
      if other = location then some entry else tree.entries.lookup other := by
  rw [← lookup_put, put]
  split <;> rfl

theorem entry?_put (tree : FileTree) (inside : location ≠ []) (entry : Entry) (other : Location) :
    entry? (tree.put location entry) other =
      if other = location then some entry else tree.entry? other := by
  by_cases root : other = []
  · subst root
    rw [entry?_root, entry?_root, if_neg (Ne.symm inside)]
  · unfold entry?
    rw [if_neg root, if_neg root, lookup_entries_put]

theorem Rooted.put {name : Text} (rooted : tree.Rooted)
    (above : tree.entry? location = some .directory) {entry : Entry}
    (fits : entry = .directory ∨ tree.entry? (location ++ [name]) ≠ some .directory) :
    (tree.put (location ++ [name]) entry).Rooted := by
  intro place last found
  rw [entry?_put _ (by simp)] at found ⊢
  by_cases new : place ++ [last] = location ++ [name]
  · obtain ⟨rfl, -⟩ := List.append_inj' new rfl
    have up : place ≠ place ++ [name] := fun same => by simpa using congrArg List.length same
    rwa [if_neg up]
  · rw [if_neg new] at found
    have stands := rooted _ _ found
    by_cases onNew : place = location ++ [name]
    · rcases fits with directory | bare
      · rw [if_pos onNew, directory]
      · exact absurd (onNew ▸ stands) bare
    · rwa [if_neg onNew]

/-! ## Making directories -/

/-- A tree has grown by the directories that were missing on the way to a location. -/
structure Made (before after : FileTree) (location : Location) : Prop where
  entries : ∀ other, after.entry? other =
    (before.entry? other).or (if other <+: location then some .directory else none)
  rooted : after.Rooted

namespace Made

theorem nothing (rooted : tree.Rooted) (here : tree.entry? location = some .directory) :
    Made tree tree location where
  entries other := by
    split
    · next onTheWay => rw [rooted.directory_of_prefix here onTheWay]; rfl
    · exact Option.or_none.symm
  rooted := rooted

/-- Growing goes on behind a directory that has been put. -/
theorem behind_put {name : Text} (missing : before.entry? (location ++ [name]) = none)
    (made : Made (before.put (location ++ [name]) .directory) after other)
    (further : location ++ [name] <+: other) : Made before after other where
  entries place := by
    rw [made.entries, entry?_put _ (by simp)]
    by_cases new : place = location ++ [name]
    · rw [if_pos new, new, missing, if_pos further]
      rfl
    · rw [if_neg new]
  rooted := made.rooted

theorem kept (made : Made before after location) {entry : Entry}
    (stood : before.entry? other = some entry) : after.entry? other = some entry := by
  rw [made.entries, stood]
  rfl

theorem directory (made : Made before after location)
    (absent : before.entry? location = none) : after.entry? location = some .directory := by
  rw [made.entries, absent, if_pos List.prefix_rfl]
  rfl

end Made

/-- Below a directory that has just been made nothing stands in the way. -/
theorem makeDirectories_of_bare {names : List Text} (enough : names.length + makingRoom ≤ room)
    (bare : ∀ name more, tree.entry? (location ++ name :: more) = none) :
    (makeDirectories room tree location names).2 = none ∨
      (makeDirectories room tree location names).2 = some .nameTooLong := by
  induction names generalizing tree location with
  | nil => exact Or.inl rfl
  | cons name rest ih =>
      rw [makeDirectories, bare name []]
      by_cases long : Path.isLongName name = true
      · rw [if_pos long]
        exact Or.inr rfl
      · rw [List.length_cons] at enough
        rw [if_neg long, if_neg (Nat.not_lt.mpr enough)]
        apply ih
        · omega
        · intro next more
          have below : location ++ [name] ++ next :: more ≠ location ++ [name] := by simp
          rw [entry?_put _ (by simp), if_neg below, List.append_assoc]
          exact bare name (next :: more)

/-- How making the directories on the way along names ends. -/
inductive Making (before : FileTree) (location : Location) (names : List Text) :
    FileTree × Option FileError → Prop
  | made {after : FileTree} (made : Made before after (location ++ names))
      (directory : after.entry? (location ++ names) = some .directory) :
      Making before location names (after, none)
  /-- A name is too long, and what stands above it has been made. -/
  | stopped {after : FileTree} {first : List Text} (made : Made before after (location ++ first))
      (onTheWay : first <+: names) : Making before location names (after, some .nameTooLong)
  /-- Nothing has been made. -/
  | refused {e : FileError} : Making before location names (before, some e)

namespace Making

variable {name : Text} {names : List Text} {result : FileTree × Option FileError}

theorem behind (making : Making before (location ++ [name]) names result) :
    Making before location (name :: names) result := by
  cases making with
  | made made directory =>
      rw [List.append_assoc] at made directory
      exact .made made directory
  | stopped made onTheWay =>
      rw [List.append_assoc] at made
      exact .stopped made ((List.prefix_cons_inj name).mpr onTheWay)
  | refused => exact .refused

theorem behind_put (rooted : before.Rooted) (here : before.entry? location = some .directory)
    (missing : before.entry? (location ++ [name]) = none)
    (goesOn : result.2 = none ∨ result.2 = some .nameTooLong)
    (making : Making (before.put (location ++ [name]) .directory) (location ++ [name]) names
      result) : Making before location (name :: names) result := by
  cases making with
  | made made directory =>
      exact behind (.made (made.behind_put missing (List.prefix_append _ _)) directory)
  | stopped made onTheWay =>
      exact behind (.stopped (made.behind_put missing (List.prefix_append _ _)) onTheWay)
  | refused =>
      rcases goesOn with done | tooLong
      · cases done
      · obtain rfl := Option.some.inj tooLong
        have made : Made (before.put (location ++ [name]) .directory)
            (before.put (location ++ [name]) .directory) (location ++ [name]) :=
          .nothing (rooted.put here (Or.inl rfl)) (by rw [entry?_put _ (by simp), if_pos rfl])
        exact .stopped (made.behind_put missing List.prefix_rfl)
          ((List.prefix_cons_inj name).mpr (List.nil_prefix))

end Making

theorem making_makeDirectories (room : Nat) (names : List Text) (rooted : tree.Rooted)
    (here : tree.entry? location = some .directory) :
    Making tree location names (makeDirectories room tree location names) := by
  induction names generalizing tree location with
  | nil =>
      rw [← List.append_nil location] at here
      exact .made (.nothing rooted here) here
  | cons name rest ih =>
      rw [makeDirectories]
      split
      case h_1 directory => exact (ih rooted directory).behind
      case h_2 => exact .refused
      case h_3 missing =>
        by_cases long : Path.isLongName name = true
        · rw [if_pos long]
          exact .refused
        by_cases short : room < rest.length + 1 + makingRoom
        · rw [if_neg long, if_pos short]
          exact .refused
        · rw [if_neg long, if_neg short]
          have new := entry?_put tree (List.append_ne_nil_of_right_ne_nil location
            (List.cons_ne_nil name [])) .directory
          have enough : rest.length + makingRoom ≤ room := by omega
          -- What is missing has nothing below it, so only a long name is in the way.
          have bare (next : Text) (more : List Text) :
              entry? (tree.put (location ++ [name]) .directory)
                (location ++ [name] ++ next :: more) = none := by
            rw [new, if_neg (by simp)]
            exact rooted.entry?_eq_none_below (by rw [missing]; nofun) (List.cons_ne_nil _ _)
          exact .behind_put rooted here missing (makeDirectories_of_bare enough bare)
            (ih (rooted.put here (Or.inl rfl)) ((new _).trans (if_pos rfl)))

/-! ## Writing a file -/

/-- A file has been written, with the directories that were missing above it. -/
structure Wrote (before after : FileTree) (location : Location) (bytes : List UInt8) : Prop where
  file : after.entry? location = some (.file bytes)
  above : ∀ other, other <+: location → other ≠ location → after.entry? other = some .directory
  /-- What stood elsewhere stands there still. -/
  kept : ∀ other entry, other ≠ location → before.entry? other = some entry →
    after.entry? other = some entry
  /-- Nothing else is new. -/
  elsewhere : ∀ other, ¬ other <+: location → after.entry? other = before.entry? other

/-- How writing a file ends. -/
inductive Writing (before : FileTree) (location : Location) (bytes : List UInt8) :
    FileTree × Option FileError → Prop
  | written {after : FileTree} (wrote : Wrote before after location bytes)
      (rooted : after.Rooted) : Writing before location bytes (after, none)
  /-- A name is too long, and what stands above it has been made. -/
  | stopped {after : FileTree} {reached : Location} (made : Made before after reached) :
      Writing before location bytes (after, some .nameTooLong)
  /-- Nothing has been changed. -/
  | refused {e : FileError} : Writing before location bytes (before, some e)

theorem makeDirectories_of_directory {names : List Text} (rooted : tree.Rooted)
    (there : tree.entry? (location ++ names) = some .directory) :
    makeDirectories room tree location names = (tree, none) := by
  induction names generalizing location with
  | nil => rfl
  | cons name rest ih =>
      rw [List.append_cons] at there
      have next := rooted.directory_of_prefix there (List.prefix_append _ _)
      rw [makeDirectories, next]
      exact ih there

theorem prefix_dropLast_iff (inside : location ≠ []) :
    other <+: location.dropLast ↔ other <+: location ∧ other ≠ location := by
  have whole := List.dropLast_append_getLast inside
  constructor
  · intro onTheWay
    refine ⟨onTheWay.trans location.dropLast_prefix, fun same => ?_⟩
    have shorter := onTheWay.length_le
    have positive := List.length_pos_iff.mpr inside
    rw [same, List.length_dropLast] at shorter
    omega
  · rintro ⟨onTheWay, below⟩
    rw [← whole, List.prefix_concat_iff, whole] at onTheWay
    exact onTheWay.resolve_left below

theorem Made.wrote (bytes : List UInt8) (made : Made before after location.dropLast)
    (directory : after.entry? location.dropLast = some .directory) (inside : location ≠ [])
    (free : after.entry? location ≠ some .directory) :
    Wrote before (after.put location (.file bytes)) location bytes ∧
      (after.put location (.file bytes)).Rooted := by
  have new := entry?_put after inside (.file bytes)
  refine ⟨⟨?file, ?above, ?kept, ?elsewhere⟩, ?rooted⟩
  case file => rw [new, if_pos rfl]
  case above =>
    intro other onTheWay below
    rw [new, if_neg below]
    exact made.rooted.directory_of_prefix directory ((prefix_dropLast_iff inside).mpr ⟨onTheWay, below⟩)
  case kept =>
    intro other entry below stood
    rw [new, if_neg below]
    exact made.kept stood
  case elsewhere =>
    intro other aside
    have below : other ≠ location := fun same => aside (same ▸ List.prefix_rfl)
    have notAbove : ¬ other <+: location.dropLast := fun onTheWay =>
      aside ((prefix_dropLast_iff inside).mp onTheWay).1
    rw [new, if_neg below, made.entries, if_neg notAbove, Option.or_none]
  case rooted =>
    have whole := List.dropLast_append_getLast inside
    rw [← whole] at free ⊢
    exact made.rooted.put directory (Or.inr free)

theorem writing_write (room : Nat) (location : Location) (bytes : List UInt8)
    (rooted : tree.Rooted) : Writing tree location bytes (tree.write room location bytes) := by
  by_cases occupied : tree.entry? location = some .directory
  · have above : tree.entry? ([] ++ location.dropLast) = some .directory :=
      rooted.directory_of_prefix occupied location.dropLast_prefix
    rw [write, makeDirectories_of_directory rooted above]
    dsimp only
    rw [occupied]
    exact .refused
  · have inside : location ≠ [] := fun root => occupied (root ▸ tree.entry?_root)
    have making := making_makeDirectories room location.dropLast rooted tree.entry?_root
    rw [write]
    generalize makeDirectories room tree [] location.dropLast = result at making
    cases making with
    | stopped made onTheWay => exact .stopped made
    | refused => exact .refused
    | @made after made directory =>
        rw [List.nil_append] at made directory
        have free : after.entry? location ≠ some .directory := by
          rw [made.entries, if_neg fun above => ((prefix_dropLast_iff inside).mp above).2 rfl,
            Option.or_none]
          exact occupied
        dsimp only
        split
        · next found => exact absurd found free
        · by_cases long : Path.isLongName (location.getLastD []) = true
          · rw [if_pos long]
            exact .stopped made
          · rw [if_neg long]
            obtain ⟨wrote, rootedToo⟩ := made.wrote bytes directory inside free
            exact .written wrote rootedToo

end DirectiveReview.FileTree
