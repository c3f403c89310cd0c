/-
# Settings mean the same wherever they stand

A settings table may be a dedicated document as a whole, or stand in the tool table of any
document under either of its names, and the document may be looked for or named.  `Holds`
and `Configured` say what these places are, without the search.  Loading then comes to the
same settings and to the same errors, whatever the place is; only the source differs, which
is the path of the document.

An empty table is no exception.  The search passes over a project document without
settings, and what is left then are the defaults, which an empty table stands for anyway.
-/

import DirectiveReview.Proofs.Except
import DirectiveReview.Proofs.Files.Paths
import DirectiveReview.Proofs.Settings.Reading
import DirectiveReview.Proofs.Settings.Sources
import DirectiveReview.Proofs.Toml.Values

namespace DirectiveReview

namespace Settings

open Toml (Value Table)

/-- Settings without the path that they come from. -/
def unsourced (settings : Settings) : Settings :=
  { settings with source := none }

/-! ## Documents that hold a settings table -/

/-- The first name of a settings table within a tool table. -/
def firstToolName : Text :=
  "rubocop_disable_checker".toList

/-- The second one. -/
def secondToolName : Text :=
  "rubocop-disable-checker".toList

/-- A settings table stands in the tool table of a document: under the first name, or under
the second one with no table under the first. -/
def StandsInTool (table whole : Table) : Prop :=
  ∃ tool : Table, whole.get? "tool".toList = some (.table tool) ∧
    (tool.get? firstToolName = some (.table table) ∨
      (∀ other, tool.get? firstToolName ≠ some (.table other)) ∧
        tool.get? secondToolName = some (.table table))

/-- A document has no tool table with a table under one of the names. -/
def WithoutTool (whole : Table) : Prop :=
  ∀ tool : Table, whole.get? "tool".toList = some (.table tool) →
    (∀ other, tool.get? firstToolName ≠ some (.table other)) ∧
      ∀ other, tool.get? secondToolName ≠ some (.table other)

/-- A document of a given name holds a settings table: in its tool table, beside anything
else, or, unless it is a project document, as the whole of it. -/
inductive Holds (name : Text) (table : Table) : Table → Prop
  | tool {whole : Table} (stands : StandsInTool table whole) : Holds name table whole
  | whole (dedicated : name ≠ projectName) (without : WithoutTool table) : Holds name table table

variable {name : Text} {table whole : Table}

theorem bind_table?_eq_some_iff {v : Option Value} :
    v.bind Value.table? = some table ↔ v = some (.table table) := by
  cases v with
  | none => simp
  | some v => cases v <;> simp [Value.table?]

theorem bind_table?_eq_none_iff {v : Option Value} :
    v.bind Value.table? = none ↔ ∀ other, v ≠ some (.table other) := by
  rw [Option.eq_none_iff_forall_ne_some]
  exact forall_congr' fun other => not_congr bind_table?_eq_some_iff

theorem toolTable?_eq_bind (whole : Table) :
    toolTable? whole = ((whole.get? "tool".toList).bind Value.table?).bind fun tool =>
      ((tool.get? firstToolName).bind Value.table?).or
        ((tool.get? secondToolName).bind Value.table?) := by
  have found (tool : Table) :
      (toolNames.findSome? fun name => (tool.get? name).bind Value.table?) =
        ((tool.get? firstToolName).bind Value.table?).or
          ((tool.get? secondToolName).bind Value.table?) := by
    change List.findSome? _ [firstToolName, secondToolName] = _
    rw [List.findSome?_cons, List.findSome?_singleton]
    cases (tool.get? firstToolName).bind Value.table? <;> rfl
  rw [toolTable?, Option.bind_assoc]
  simp only [found]
  rfl

theorem toolTable?_eq_some_iff : toolTable? whole = some table ↔ StandsInTool table whole := by
  simp only [toolTable?_eq_bind, Option.bind_eq_some_iff (x := Option.bind _ _),
    Option.or_eq_some_iff, bind_table?_eq_some_iff, bind_table?_eq_none_iff, StandsInTool]

theorem toolTable?_eq_none_iff : toolTable? whole = none ↔ WithoutTool whole := by
  simp only [toolTable?_eq_bind, Option.bind_eq_none_iff (o := Option.bind _ _),
    Option.or_eq_none_iff, bind_table?_eq_some_iff, bind_table?_eq_none_iff, WithoutTool]

theorem tableIn_of_holds (holds : Holds name table whole) : tableIn name whole = table := by
  cases holds with
  | tool stands =>
      rw [tableIn, toolTable?_eq_some_iff.mpr stands]
      rfl
  | whole dedicated without =>
      rw [tableIn, toolTable?_eq_none_iff.mpr without, Option.getD_none, if_neg dedicated]

/-! ## Places that loading comes to -/

/-- The names of the documents that are looked for. -/
def documentNames : List Text :=
  dedicatedNames ++ [projectName]

/-- A settings table stands in the only document of a repository that is looked for, or in
a document that is named. -/
inductive Configured (room : Nat) (tree : FileTree) (repository : Path) (table : Table) :
    Option Path → Prop
  | alone {name : Text} {whole : Table} (known : name ∈ documentNames)
      (alone : ∀ other ∈ documentNames, other ≠ name →
        tree.hasPath [] (repository.under ⟨.working, [other]⟩) = .ok false)
      (read : document room tree (repository.under ⟨.working, [name]⟩) = .ok whole)
      (holds : Holds name table whole) : Configured room tree repository table none
  | named {path : Path} {whole : Table}
      (read : document room tree (repository.under path) = .ok whole)
      (holds : Holds (repository.under path).lastName table whole) :
      Configured room tree repository table (some path)

variable {room : Nat} {tree : FileTree} {working : Location} {path repository : Path}
  {explicit : Option Path} {source : Option Text}

theorem hasPath_of_document (read : document room tree path = .ok whole) :
    tree.hasPath [] path = .ok true := by
  obtain ⟨bytes, content, -⟩ := bind_eq_ok_iff.mp read
  exact FileTree.hasPath_of_content (mapError_eq_ok_iff.mp content)

theorem tableAt_of_holds (read : document room tree path = .ok whole)
    (holds : Holds path.lastName table whole) : tableAt room tree path = .ok table := by
  rw [tableAt, read]
  exact congrArg Except.ok (tableIn_of_holds holds)

/-- The path of its source is all that the source does to settings. -/
theorem map_unsourced_ofTable :
    (ofTable room source table).map unsourced = ofTable room none table := by
  change unsourced <$> ofTable room source table = _
  simp only [ofTable, map_bind, map_pure]
  rfl

theorem lastName_under (repository : Path) (name : Text) :
    (repository.under ⟨.working, [name]⟩).lastName = name := by
  simp [Path.under, Path.lastName]

theorem under_mem_dedicatedPaths_iff :
    repository.under ⟨.working, [name]⟩ ∈ dedicatedPaths repository ↔ name ∈ dedicatedNames :=
  List.mem_map_of_injective (Function.LeftInverse.injective (lastName_under repository))

/-- What a settings table means, whatever its source is. -/
def meaning (room : Nat) (table : Table) : Except LoadError Settings :=
  (ofTable (room - tableRoom) none table).mapError .table

theorem map_unsourced_of_readFrom (read : ReadFrom room tree repository explicit path table) :
    (loadAt room tree repository explicit).map unsourced = meaning room table := by
  rw [loadAt_of_readFrom read, map_mapError, map_unsourced_ofTable, meaning]

/-- A project document without settings leaves the defaults. -/
theorem loadAt_of_emptyProject
    (undedicated : tree.firstPath? [] (dedicatedPaths repository) = .ok none)
    (there : tree.hasPath [] (projectPath repository) = .ok true)
    (read : tableAt room tree (projectPath repository) = .ok []) :
    loadAt room tree repository none = .ok default := by
  unfold dedicatedPaths at undedicated
  unfold projectPath at there read
  rw [loadAt, loadFound, undedicated]
  change loadProject room tree repository = _
  rw [loadProject, there]
  change tableAt room tree _ >>= _ = _
  rw [read]
  rfl

theorem meaning_nil : meaning room [] = .ok default := by
  rw [meaning, ofTable_nil]
  rfl

theorem loadAt_of_configured (configured : Configured room tree repository table explicit) :
    (loadAt room tree repository explicit).map unsourced = meaning room table := by
  cases configured with
  | named read holds =>
      exact map_unsourced_of_readFrom
        (.document (.named (hasPath_of_document read)) (tableAt_of_holds read holds))
  | @alone name whole known alone read holds =>
      have there := hasPath_of_document read
      have settled := tableAt_of_holds read ((lastName_under repository name).symm ▸ holds)
      have first := FileTree.firstPath?_of_alone (dedicatedPaths repository) there <| by
        intro other inside differs
        obtain ⟨otherName, member, rfl⟩ := List.mem_map.mp inside
        exact alone otherName (List.mem_append_left _ member) fun same => differs (by rw [same])
      simp only [under_mem_dedicatedPaths_iff] at first
      by_cases dedicated : name ∈ dedicatedNames
      · rw [if_pos dedicated] at first
        exact map_unsourced_of_readFrom (.document (.dedicated first) settled)
      · rw [if_neg dedicated] at first
        obtain rfl : name = projectName :=
          List.mem_singleton.mp ((List.mem_append.mp known).resolve_left dedicated)
        by_cases empty : table = []
        · subst empty
          rw [loadAt_of_emptyProject first there settled, meaning_nil]
          rfl
        · exact map_unsourced_of_readFrom (.project first there settled empty)

/-- **Settings mean the same in every place.**  A repository is configured by a table, in
whatever place and whether the document is named or not.  Then loading ends as it does for
any other repository and place with the same table: with the same settings except for their
source, or with the same error.  How it ends is what the table means. -/
theorem load_alike {room : Nat} {table : Table} {tree other : FileTree}
    {working elsewhere : Location} {repository second : Path} {explicit named : Option Path}
    (bare : repository.hasNul = false) (bareToo : second.hasNul = false)
    (configured : Configured room tree (Path.ofLocation (repository.resolve working)) table
      explicit)
    (configuredToo : Configured room other (Path.ofLocation (second.resolve elsewhere)) table
      named) :
    (load room tree working repository explicit).map unsourced =
        (load room other elsewhere second named).map unsourced ∧
      (load room tree working repository explicit).map unsourced = meaning room table := by
  have here := loadAt_of_configured configured
  have there := loadAt_of_configured configuredToo
  rw [← load_eq_loadAt bare] at here
  rw [← load_eq_loadAt bareToo] at there
  exact ⟨here.trans there.symm, here⟩

/-- A dedicated document with a single setting. -/
def singleText : Text :=
  "message = 'why'".toList

/-- A project document with the same setting in its tool table, under the second name. -/
def toolText : Text :=
  "project = 1\n[tool.rubocop-disable-checker]\nmessage = 'why'\n[tool.other]".toList

/-- The table in both. -/
def singleTable : Table :=
  [("message".toList, .string "why".toList)]

/-- The project document as a whole. -/
def toolTable : Table :=
  [("project".toList, .integer 1),
    ("tool".toList, .table [(secondToolName, .table singleTable), ("other".toList, .table [])])]

/-- A repository that has nothing but a project document. -/
def withProject (text : Text) : FileTree :=
  ⟨[([projectName], .file (encodeUtf8 text))]⟩

theorem configured_singleText :
    Configured 983 (withDocument singleText) (Path.ofLocation []) singleTable none := by
  have read : Toml.read (983 - readingRoom) singleText = .ok singleTable :=
    toOption_eq_some_iff.mp (by decide +kernel)
  have whole : document 983 (withDocument singleText) documentPath = .ok singleTable := by
    rw [document_of_text (content_withDocument singleText) (decodeUtf8?_encodeUtf8 _), read]
    rfl
  refine .alone (List.mem_append_left _ (List.mem_cons_of_mem _ List.mem_cons_self)) ?_ whole
    (.whole (by decide) fun tool opens => by cases opens)
  decide +kernel

theorem configured_toolText :
    Configured 983 (withProject toolText) (Path.ofLocation []) singleTable none := by
  have read : Toml.read (983 - readingRoom) toolText = .ok toolTable :=
    toOption_eq_some_iff.mp (by decide +kernel)
  have content : (withProject toolText).content [] ⟨.root, [projectName]⟩ =
      .ok (encodeUtf8 toolText) := by
    rfl
  have whole : document 983 (withProject toolText) ⟨.root, [projectName]⟩ = .ok toolTable := by
    rw [document_of_text content (decodeUtf8?_encodeUtf8 _), read]
    rfl
  have stands : StandsInTool singleTable toolTable :=
    ⟨_, rfl, Or.inr ⟨fun other first => (by cases first), rfl⟩⟩
  refine .alone (List.mem_append_right _ List.mem_cons_self) ?_ whole (.tool stands)
  decide +kernel

theorem load_alike_singleTable :
    (load 983 (withDocument singleText) [] ⟨.working, []⟩ none).map unsourced =
        (load 983 (withProject toolText) [] ⟨.working, []⟩ none).map unsourced ∧
      (load 983 (withDocument singleText) [] ⟨.working, []⟩ none).map unsourced =
        .ok { default with review := default.review.override none (some "why".toList) none } := by
  have laws : (load 983 (withDocument singleText) [] ⟨.working, []⟩ none).map unsourced =
        (load 983 (withProject toolText) [] ⟨.working, []⟩ none).map unsourced ∧
      (load 983 (withDocument singleText) [] ⟨.working, []⟩ none).map unsourced =
        meaning 983 singleTable :=
    load_alike rfl rfl configured_singleText configured_toolText
  refine ⟨laws.1, laws.2.trans ?_⟩
  refine mapError_eq_ok_iff.mpr (ofTable_eq_ok_iff.mpr ⟨[], .human, none, some "why".toList, none,
    none, DocsSettings.default, rfl, rfl, rfl, rfl, rfl, rfl, docsOfTable_nil, ?_⟩)
  rfl

end Settings

end DirectiveReview
