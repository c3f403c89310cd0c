/-
# What runs do to files

One command writes, and it writes one file: the starter document at the place that its
option names, with the directories that are missing above it.  A run of it that fails has
changed nothing, as long as no name is too long for the file system; no other command
changes anything, however it ends.

What exists is looked for on the resolved path, where nothing stands in the way of the
answer but a name or a path that is too long.  So a file that exists is written over only
if the command line says so, and it keeps its content along every sequence of runs that do
not say so.
-/

import DirectiveReview.CommandLine.Program
import DirectiveReview.Proofs.CommandLine.Failures
import DirectiveReview.Proofs.Files.Paths

namespace DirectiveReview.CommandLine

open FileTree (Made Wrote)

variable {s : Surroundings} {arguments : List Text}

/-! ## Being asked to write -/

/-- The options with which arguments ask for the starter document, if they do. -/
def startOptions? (arguments : List Text) : Option StartOptions :=
  match Request.read arguments with
  | .ok (.command .start _ rest) => (StartOptions.read rest).toOption
  | _ => none

/-- Arguments allow the starter document to be written over what exists. -/
def Forces (arguments : List Text) : Prop :=
  ∃ options, startOptions? arguments = some options ∧ options.force = true

theorem Given.hasNulIn_of_only {options : List (Text × Arity)} {given : Given}
    (read : Given.only options arguments = .ok given) :
    ∀ option ∈ options, given.hasNulIn option = false := by
  obtain ⟨⟨found, others⟩, -, done⟩ := bind_eq_ok_iff.mp read
  dsimp only at done
  split at done
  · cases done
  · next none =>
      obtain rfl := Except.ok.inj done
      intro option inside
      exact Bool.eq_false_iff.mpr (List.find?_eq_none.mp none option inside)
  · cases done

/-- The place for the starter document has no NUL character in its path. -/
theorem StartOptions.hasNul_out_of_read {options : StartOptions}
    (read : StartOptions.read arguments = .ok options) : options.out.hasNul = false := by
  obtain ⟨given, only, done⟩ := bind_eq_ok_iff.mp read
  obtain rfl := Except.ok.inj done
  have bare := Given.hasNulIn_of_only only ("--out".toList, .path) List.mem_cons_self
  dsimp only
  cases last : given.last? "--out" with
  | none => decide
  | some value =>
      rw [Given.last?] at last
      rw [Given.hasNulIn, last] at bare
      apply Path.hasNul_read
      simpa using bare

/-! ## The effect of one run -/

/-- What a run does to the file tree. -/
inductive Effect (s : Surroundings) (asked : Option StartOptions) (outcome : Outcome) : Prop where
  | nothing (same : outcome.tree = s.tree) (excuse : outcome.failure = none → asked = none)
  | wrote {options : StartOptions} (asks : asked = some options) (passes : outcome.failure = none)
      (wrote : Wrote s.tree outcome.tree (options.out.resolve s.working)
        (encodeUtf8 Settings.template))
      (rooted : outcome.tree.Rooted)
      (free : options.force = false → s.tree.entry? (options.out.resolve s.working) = none)
  /-- A name is too long, and directories above it have been made. -/
  | stopped {options : StartOptions} {reached : Location} (asks : asked = some options)
      (fails : outcome.failure = some (.breakdown (.file .nameTooLong)))
      (made : Made s.tree outcome.tree reached)

theorem tree_check (s : Surroundings) (options : CheckOptions) :
    (check s options).tree = s.tree := by
  have ending := ending_check s options
  generalize check s options = outcome at ending ⊢
  cases ending with
  | unprepared failed => rfl
  | unread prepared failed => rfl
  | unwritten prepared reviewed unwritten => rfl
  | reported prepared reviewed written => rfl

theorem tree_showSettings (s : Surroundings) (options : SettingsOptions) :
    (showSettings s options).tree = s.tree := by
  rw [showSettings]
  cases ReportFormat.ofWord? options.format with
  | none => rfl
  | some format =>
      dsimp only
      cases loadSettings s options.repository options.settingsFile with
      | error failure => rfl
      | ok settings =>
          cases format with
          | human => rfl
          | json => dsimp only; cases settings.json.text? <;> rfl

theorem effect_start {options : StartOptions} (rooted : s.tree.Rooted)
    (clean : ∀ name ∈ s.working, Path.IsName name) (bare : options.out.hasNul = false) :
    Effect s (some options) (start s options) := by
  have names := Path.isName_of_mem_resolve clean bare
  rw [start]
  cases looked : s.tree.hasPath [] (Path.ofLocation (options.out.resolve s.working)) with
  | error e => exact .nothing rfl nofun
  | ok found =>
      dsimp only
      by_cases refused : (found && !options.force) = true
      · rw [if_pos refused]
        exact .nothing rfl nofun
      · have free (gentle : options.force = false) :
            s.tree.entry? (options.out.resolve s.working) = none := by
          obtain rfl : found = false := by simpa [gentle] using refused
          exact FileTree.entry?_eq_none_of_hasPath rooted names looked
        rw [if_neg refused, startAt]
        have writing := FileTree.writing_write s.room (options.out.resolve s.working)
          (encodeUtf8 Settings.template) rooted
        generalize s.tree.write s.room (options.out.resolve s.working)
          (encodeUtf8 Settings.template) = result at writing
        cases writing with
        | written wrote rootedToo => exact .wrote rfl rfl wrote rootedToo free
        | stopped made => exact .stopped rfl rfl made
        | refused => exact .nothing rfl nofun

theorem effect_runCommand {command : Command} {rest : List Text} {level : Text} {outcome : Outcome}
    (rooted : s.tree.Rooted) (clean : ∀ name ∈ s.working, Path.IsName name)
    (asked : Request.read arguments = .ok (.command command level rest))
    (ran : runCommand s command rest = .ok outcome) :
    Effect s (startOptions? arguments) outcome := by
  rw [startOptions?, asked]
  cases command with
  | check =>
      obtain ⟨options, -, rfl⟩ := map_eq_ok_iff.mp ran
      exact .nothing (tree_check s options) fun _ => rfl
  | settings =>
      obtain ⟨options, -, rfl⟩ := map_eq_ok_iff.mp ran
      exact .nothing (tree_showSettings s options) fun _ => rfl
  | start =>
      obtain ⟨options, read, rfl⟩ := map_eq_ok_iff.mp ran
      dsimp only
      rw [read]
      exact effect_start rooted clean (StartOptions.hasNul_out_of_read read)

theorem effect_run (rooted : s.tree.Rooted) (clean : ∀ name ∈ s.working, Path.IsName name)
    (arguments : List Text) : Effect s (startOptions? arguments) (run s arguments) := by
  rw [run]
  cases asked : Request.read arguments with
  | error e => exact .nothing rfl nofun
  | ok request =>
      cases request with
      | version => exact .nothing rfl fun _ => by rw [startOptions?, asked]
      | command command word rest =>
          dsimp only
          cases LogLevel.ofWord? word with
          | none => exact .nothing rfl nofun
          | some level =>
              dsimp only
              cases ran : runCommand s command rest with
              | error e => exact .nothing rfl nofun
              | ok outcome =>
                  -- What is shown of the log makes no difference to the files.
                  cases effect_runCommand rooted clean asked ran with
                  | nothing same excuse => exact .nothing same excuse
                  | wrote asks passes wrote rooted free =>
                      exact .wrote asks passes wrote rooted free
                  | stopped asks fails made => exact .stopped asks fails made

namespace Effect

variable {asked : Option StartOptions} {outcome : Outcome}

theorem rooted (effect : Effect s asked outcome) (rooted : s.tree.Rooted) :
    outcome.tree.Rooted := by
  cases effect with
  | nothing same excuse => rwa [same]
  | wrote asks passes wrote rooted free => exact rooted
  | stopped asks fails made => exact made.rooted

/-- A file that exists is written over only if that is allowed. -/
theorem kept (effect : Effect s asked outcome)
    (gentle : ∀ options, asked = some options → options.force = false) {location : Location}
    {bytes : List UInt8} (stood : s.tree.entry? location = some (.file bytes)) :
    outcome.tree.entry? location = some (.file bytes) := by
  cases effect with
  | nothing same excuse => rwa [same]
  | wrote asks passes wrote rooted free =>
      apply wrote.kept _ _ _ stood
      rintro rfl
      rw [free (gentle _ asks)] at stood
      cases stood
  | stopped asks fails made => exact made.kept stood

end Effect

/-! ## Runs one after the other -/

/-- One of several runs: what it is given besides the files that it finds. -/
structure Invocation where
  surroundings : Surroundings
  arguments : List Text

/-- A run on the files there are. -/
def Invocation.on (tree : FileTree) (invocation : Invocation) : Outcome :=
  run { invocation.surroundings with tree } invocation.arguments

/-- The files after several runs, one after the other. -/
def treeAfter (tree : FileTree) (invocations : List Invocation) : FileTree :=
  invocations.foldl (fun tree invocation => (invocation.on tree).tree) tree

/-- The working directory of a run is a directory that can be named. -/
def Invocation.Placed (invocation : Invocation) : Prop :=
  ∀ name ∈ invocation.surroundings.working, Path.IsName name

theorem Invocation.Placed.effect {invocation : Invocation} {tree : FileTree}
    (placed : invocation.Placed) (rooted : tree.Rooted) :
    Effect { invocation.surroundings with tree } (startOptions? invocation.arguments)
      (invocation.on tree) :=
  effect_run (s := { invocation.surroundings with tree }) rooted placed invocation.arguments

theorem rooted_treeAfter {tree : FileTree} {invocations : List Invocation} (rooted : tree.Rooted)
    (placed : ∀ invocation ∈ invocations, invocation.Placed) :
    (treeAfter tree invocations).Rooted := by
  induction invocations generalizing tree with
  | nil => exact rooted
  | cons invocation rest ih =>
      obtain ⟨first, others⟩ := List.forall_mem_cons.mp placed
      exact ih ((first.effect rooted).rooted rooted) others

theorem entry?_treeAfter_of_file {tree : FileTree} {invocations : List Invocation}
    (rooted : tree.Rooted) (placed : ∀ invocation ∈ invocations, invocation.Placed)
    (gentle : ∀ invocation ∈ invocations, ¬ Forces invocation.arguments) {location : Location}
    {bytes : List UInt8} (stood : tree.entry? location = some (.file bytes)) :
    FileTree.entry? (treeAfter tree invocations) location = some (.file bytes) := by
  induction invocations generalizing tree with
  | nil => exact stood
  | cons invocation rest ih =>
      obtain ⟨first, others⟩ := List.forall_mem_cons.mp placed
      obtain ⟨gently, gentlyToo⟩ := List.forall_mem_cons.mp gentle
      have effect := first.effect rooted
      apply ih (effect.rooted rooted) others gentlyToo
      refine effect.kept (fun options asks => Bool.eq_false_iff.mpr fun forced => ?_) stood
      exact gently ⟨options, asks, forced⟩

/-- **No run damages files.**  In a file tree where everything stands in a directory, a run
that does not ask for the starter document leaves all files as they are, whatever its
outcome; and so does one that fails, unless a name is too long for the file system.  A run
that asks for the starter document and succeeds changes nothing except that the document
stands in its place, below directories.  Along every sequence of runs of which none is
allowed to write over what exists, a file keeps its content from any point on, whatever the
runs before did.

Two assumptions about the surroundings stand behind this.  The processes that a check
starts leave the files alone: how their calls end is all that is known of them.  And
printing does not fail, so a run that has written the document succeeds. -/
theorem runs_spare_files {tree : FileTree} (rooted : tree.Rooted) :
    (∀ invocation : Invocation, invocation.Placed →
      (startOptions? invocation.arguments = none → (invocation.on tree).tree = tree) ∧
      ((invocation.on tree).failure ≠ none →
        (invocation.on tree).failure ≠ some (.breakdown (.file .nameTooLong)) →
        (invocation.on tree).tree = tree) ∧
      ∀ options, startOptions? invocation.arguments = some options →
        (invocation.on tree).failure = none →
        Wrote tree (invocation.on tree).tree
          (options.out.resolve invocation.surroundings.working) (encodeUtf8 Settings.template)) ∧
    ∀ earlier later : List Invocation,
      (∀ invocation ∈ earlier ++ later, invocation.Placed) →
      (∀ invocation ∈ later, ¬ Forces invocation.arguments) →
      ∀ location bytes, FileTree.entry? (treeAfter tree earlier) location = some (.file bytes) →
        FileTree.entry? (treeAfter tree (earlier ++ later)) location = some (.file bytes) := by
  constructor
  · intro invocation placed
    have effect := placed.effect rooted
    refine ⟨fun unasked => ?_, fun fails short => ?_, fun options asks passes => ?_⟩
    · cases effect with
      | nothing same excuse => exact same
      | wrote asks passes wrote rooted free => cases unasked.symm.trans asks
      | stopped asks fails made => cases unasked.symm.trans asks
    · cases effect with
      | nothing same excuse => exact same
      | wrote asks passes wrote rooted free => exact absurd passes fails
      | stopped asks tooLong made => exact absurd tooLong short
    · cases effect with
      | nothing same excuse => cases asks.symm.trans (excuse passes)
      | wrote asksToo passes wrote rooted free =>
          obtain rfl := Option.some.inj (asks.symm.trans asksToo)
          exact wrote
      | stopped asks tooLong made => cases passes.symm.trans tooLong
  · intro earlier later placed gentle location bytes stood
    obtain ⟨before, after⟩ := List.forall_mem_append.mp placed
    rw [treeAfter, List.foldl_append]
    exact entry?_treeAfter_of_file (rooted_treeAfter rooted before) after gentle stood

/-- A repository with a diff in it, and nothing else. -/
def smallTree : FileTree :=
  ⟨[(["repo".toList], .directory), (["repo".toList, "a.diff".toList], .file [43, 10])]⟩

/-- A run in that repository. -/
def inSmallTree (arguments : List String) : Invocation :=
  ⟨{ onInput [] with working := ["repo".toList] }, arguments.map String.toList⟩

theorem placed_inSmallTree (arguments : List String) : (inSmallTree arguments).Placed := by
  unfold Invocation.Placed Path.IsName
  exact List.forall_mem_singleton.mpr ⟨by decide, by decide⟩

/-- The starter document is written through directories that are missing and a double dot,
and is refused where the diff stands; a check of the diff follows. -/
theorem runs_spare_files_smallTree :
    let starts := inSmallTree ["config-init", "--out", "ci/sub/../x.toml", "--force"]
    let refused := inSmallTree ["config-init", "--out", "a.diff"]
    let checks := inSmallTree ["check", "--diff-file", "a.diff"]
    let diff := ["repo".toList, "a.diff".toList]
    (checks.on smallTree).tree = smallTree ∧ (refused.on smallTree).tree = smallTree ∧
      Wrote smallTree (starts.on smallTree).tree ["repo".toList, "ci".toList, "x.toml".toList]
        (encodeUtf8 Settings.template) ∧
      FileTree.entry? (treeAfter smallTree ([starts] ++ [refused, checks])) diff =
        some (.file [43, 10]) := by
  intro starts refused checks diff
  have rooted : smallTree.Rooted := FileTree.rooted_of_entries (by decide)
  obtain ⟨single, several⟩ := runs_spare_files rooted
  have fails : (refused.on smallTree).failure =
      some (.parameter (.outExists "/repo/a.diff".toList)) := by
    decide +kernel
  have left := (single checks (placed_inSmallTree _)).1 (by decide +kernel)
  have spared := (single refused (placed_inSmallTree _)).2.1 (by rw [fails]; nofun)
    (by rw [fails]; nofun)
  have wrote := (single starts (placed_inSmallTree _)).2.2
    ⟨Path.read "ci/sub/../x.toml".toList, true⟩ (by decide +kernel) (by decide +kernel)
  refine ⟨left, spared, wrote, several [starts] [refused, checks] ?_ ?_ diff _ ?_⟩
  · simp [starts, refused, checks, placed_inSmallTree]
  · refine List.forall_mem_cons.mpr ⟨?_, List.forall_mem_singleton.mpr ?_⟩
    · rintro ⟨options, asks, forced⟩
      have gentle : startOptions? refused.arguments = some ⟨Path.read "a.diff".toList, false⟩ := by
        decide +kernel
      obtain rfl := Option.some.inj (gentle.symm.trans asks)
      cases forced
    · rintro ⟨options, asks, -⟩
      have unasked : startOptions? checks.arguments = none := by decide +kernel
      cases unasked.symm.trans asks
  · exact wrote.kept diff _ (by decide) (by decide)

end DirectiveReview.CommandLine
