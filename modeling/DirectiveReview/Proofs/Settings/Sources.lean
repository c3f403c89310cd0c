/-
# Where settings come from

Loaded settings are those of a repository without configuration, or one table describes
them, and it stands in one document.  The search leaves nothing else behind than the path
of the document and the table.

A document that is named explicitly, or the first dedicated one that exists, is read
whatever is in it.  The project document comes into it only where there is no dedicated
document, and then only if its settings table has anything in it.
-/

import DirectiveReview.Proofs.Except
import DirectiveReview.Proofs.Files.Encoding
import DirectiveReview.Settings.Load

namespace DirectiveReview.Settings

open Toml (Table)

/-- The dedicated documents of a repository. -/
def dedicatedPaths (repository : Path) : List Path :=
  dedicatedNames.map fun name => repository.under ⟨.working, [name]⟩

/-- The project document of a repository. -/
def projectPath (repository : Path) : Path :=
  repository.under ⟨.working, [projectName]⟩

/-- The document at a path is the one to be read, whatever is in it. -/
inductive LooksAt (tree : FileTree) (repository : Path) : Option Path → Path → Prop where
  | named {path : Path} (there : tree.hasPath [] (repository.under path) = .ok true) :
      LooksAt tree repository (some path) (repository.under path)
  | dedicated {path : Path}
      (first : tree.firstPath? [] (dedicatedPaths repository) = .ok (some path)) :
      LooksAt tree repository none path

/-- The table that describes the settings, with the path of the document it stands in. -/
inductive ReadFrom (room : Nat) (tree : FileTree) (repository : Path) :
    Option Path → Path → Table → Prop where
  | document {explicit : Option Path} {path : Path} {table : Table}
      (looks : LooksAt tree repository explicit path)
      (read : tableAt room tree path = .ok table) : ReadFrom room tree repository explicit path table
  | project {table : Table}
      (undedicated : tree.firstPath? [] (dedicatedPaths repository) = .ok none)
      (there : tree.hasPath [] (projectPath repository) = .ok true)
      (read : tableAt room tree (projectPath repository) = .ok table) (filled : table ≠ []) :
      ReadFrom room tree repository none (projectPath repository) table

variable {room : Nat} {tree : FileTree} {working : Location} {path repository : Path}
  {explicit : Option Path} {table : Table} {settings : Settings}

theorem load_eq_loadAt (bare : repository.hasNul = false) :
    load room tree working repository explicit =
      loadAt room tree (Path.ofLocation (repository.resolve working)) explicit := by
  rw [load, if_neg (Bool.eq_false_iff.mp bare)]

theorem hasNul_of_load (loaded : load room tree working repository explicit = .ok settings) :
    repository.hasNul = false := by
  cases bare : repository.hasNul with
  | false => rfl
  | true =>
      rw [load, if_pos bare] at loaded
      cases loaded

theorem loadAt_of_load (loaded : load room tree working repository explicit = .ok settings) :
    loadAt room tree (Path.ofLocation (repository.resolve working)) explicit = .ok settings := by
  rw [load_eq_loadAt (hasNul_of_load loaded)] at loaded
  exact loaded

/-- What a fault in the document at a path makes of loading. -/
def faultIn (path : Path) : Toml.Fault → LoadError
  | .malformed => .malformed path.text
  | .numberTooLong => .numberTooLong
  | .tooDeep step => .tooDeep step

theorem document_of_text {bytes : List UInt8} {text : Text}
    (content : tree.content [] path = .ok bytes) (decoded : decodeUtf8? bytes = some text) :
    document room tree path = (Toml.read (room - readingRoom) text).mapError (faultIn path) := by
  rw [document, content]
  dsimp only [Except.mapError, bind, Except.bind]
  rw [decoded]
  dsimp only
  rcases Toml.read (room - readingRoom) text with (_ | _ | _) | _ <;> rfl

theorem tableAt_of_text {bytes : List UInt8} {text : Text} {whole : Table}
    (content : tree.content [] path = .ok bytes) (decoded : decodeUtf8? bytes = some text)
    (read : Toml.read (room - readingRoom) text = .ok whole) :
    tableAt room tree path = .ok (tableIn path.lastName whole) := by
  rw [tableAt, document_of_text content decoded, read]
  rfl

theorem loadAt_of_looksAt (looks : LooksAt tree repository explicit path) :
    loadAt room tree repository explicit = loadFrom room tree path := by
  cases looks with
  | named there =>
      rw [loadAt, there]
      rfl
  | dedicated first =>
      unfold dedicatedPaths at first
      rw [loadAt, loadFound, first]
      rfl

theorem loadFrom_of_tableAt (read : tableAt room tree path = .ok table) :
    loadFrom room tree path =
      (ofTable (room - tableRoom) (some path.text) table).mapError .table := by
  rw [loadFrom, read]
  rfl

theorem loadProject_of_filled (there : tree.hasPath [] (projectPath repository) = .ok true)
    (read : tableAt room tree (projectPath repository) = .ok table) (filled : table ≠ []) :
    loadProject room tree repository =
      (ofTable (room - tableRoom) (some (projectPath repository).text) table).mapError .table := by
  unfold projectPath at there read ⊢
  rw [loadProject, there]
  change tableAt room tree _ >>= _ = _
  rw [read]
  exact if_neg (Bool.eq_false_iff.mp (List.isEmpty_eq_false_iff.mpr filled))

theorem loadAt_of_readFrom (read : ReadFrom room tree repository explicit path table) :
    loadAt room tree repository explicit =
      (ofTable (room - tableRoom) (some path.text) table).mapError .table := by
  cases read with
  | document looks read => exact (loadAt_of_looksAt looks).trans (loadFrom_of_tableAt read)
  | project undedicated there read filled =>
      unfold dedicatedPaths at undedicated
      rw [loadAt, loadFound, undedicated]
      exact loadProject_of_filled there read filled

/-- What is loaded was configured nowhere, or it was read from a table. -/
theorem default_or_readFrom (loaded : loadAt room tree repository explicit = .ok settings) :
    settings = default ∨ ∃ path table, ReadFrom room tree repository explicit path table ∧
      ofTable (room - tableRoom) (some path.text) table = .ok settings := by
  have fromDocument {path : Path} (looks : LooksAt tree repository explicit path) :
      ∃ path table, ReadFrom room tree repository explicit path table ∧
        ofTable (room - tableRoom) (some path.text) table = .ok settings := by
    rw [loadAt_of_looksAt looks] at loaded
    obtain ⟨table, read, described⟩ := bind_eq_ok_iff.mp loaded
    exact ⟨path, table, .document looks read, mapError_eq_ok_iff.mp described⟩
  -- The places are looked at in turn; each of them leads to a table, or to the next.
  cases explicit with
  | some path =>
      obtain ⟨found, there, onwards⟩ := bind_eq_ok_iff.mp loaded
      cases found with
      | true => exact Or.inr (fromDocument (.named (mapError_eq_ok_iff.mp there)))
      | false => cases onwards
  | none =>
      obtain ⟨first, searched, onwards⟩ := bind_eq_ok_iff.mp loaded
      have searched := mapError_eq_ok_iff.mp searched
      cases first with
      | some path => exact Or.inr (fromDocument (.dedicated searched))
      | none =>
          obtain ⟨found, there, onwards⟩ := bind_eq_ok_iff.mp onwards
          have there := mapError_eq_ok_iff.mp there
          cases found with
          | false => exact Or.inl (Except.ok.inj onwards).symm
          | true =>
              obtain ⟨table, read, onwards⟩ := bind_eq_ok_iff.mp onwards
              by_cases empty : table.isEmpty = true
              · rw [if_pos empty] at onwards
                exact Or.inl (Except.ok.inj onwards).symm
              · rw [if_neg empty] at onwards
                have filled : table ≠ [] := fun same => empty (List.isEmpty_iff.mpr same)
                exact Or.inr ⟨_, table, .project searched there read filled,
                  mapError_eq_ok_iff.mp onwards⟩

/-! ## A repository with one document -/

/-- A repository that has nothing but a dedicated document. -/
def withDocument (text : Text) : FileTree :=
  ⟨[(["rubocop-disable-checker.toml".toList], .file (encodeUtf8 text))]⟩

/-- The path of this document. -/
def documentPath : Path :=
  ⟨.root, ["rubocop-disable-checker.toml".toList]⟩

theorem looksAt_withDocument (text : Text) :
    LooksAt (withDocument text) (Path.ofLocation []) none documentPath := by
  have first : (withDocument text).firstPath? [] (dedicatedPaths (Path.ofLocation [])) =
      .ok (some documentPath) := by
    rfl
  exact .dedicated first

theorem content_withDocument (text : Text) :
    (withDocument text).content [] documentPath = .ok (encodeUtf8 text) := by
  rfl

theorem tableAt_withDocument {text : Text} {whole : Table}
    (read : Toml.read (room - readingRoom) text = .ok whole) :
    tableAt room (withDocument text) documentPath = .ok (tableIn documentPath.lastName whole) :=
  tableAt_of_text (content_withDocument text) (decodeUtf8?_encodeUtf8 text) read

theorem readFrom_withDocument {text : Text} {whole : Table}
    (read : Toml.read (room - readingRoom) text = .ok whole) :
    ReadFrom room (withDocument text) (Path.ofLocation []) none documentPath
      (tableIn documentPath.lastName whole) :=
  .document (looksAt_withDocument text) (tableAt_withDocument read)

end DirectiveReview.Settings
