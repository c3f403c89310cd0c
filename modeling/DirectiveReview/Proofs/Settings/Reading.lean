/-
# Reading a settings table

Each key is read by itself.  The law of a reader tells which value under the key, or that
there is none, gives which result; the law of a table puts the readers together.
-/

import DirectiveReview.Proofs.Except
import DirectiveReview.Settings.Table

namespace DirectiveReview

/-- The default texts are long; rewriting with this keeps them from being evaluated. -/
theorem ReviewSettings.override_none (s : ReviewSettings) : s.override none none none = s := rfl

namespace Settings

open Toml (Value Table)

section Keys

variable {key : SettingsKey} {v : Option Value}

theorem strings?_eq_some_iff {items : List Value} {texts : List Text} :
    strings? items = some texts ↔ items = texts.map .string := by
  induction items generalizing texts with
  | nil =>
      rw [strings?, eq_comm (a := []), List.map_eq_nil_iff, Option.some_inj, eq_comm]
  | cons item rest ih =>
      cases item with
      | string text =>
          rw [strings?, Option.map_eq_some_iff]
          constructor
          · rintro ⟨others, read, rfl⟩
            rw [ih.mp read]
            rfl
          · intro same
            obtain ⟨first, others, rfl, front, behind⟩ := List.map_eq_cons_iff.mp same.symm
            cases front
            exact ⟨others, ih.mpr behind.symm, rfl⟩
      | _ => cases texts <;> simp [strings?]

theorem strings?_map_string (texts : List Text) :
    strings? (texts.map .string) = some texts :=
  strings?_eq_some_iff.mpr rfl

theorem stringList_eq_ok_iff {texts : Option (List Text)} :
    stringList key v = .ok texts ↔ v = texts.map stringArray := by
  constructor
  · intro read
    unfold stringList at read
    split at read
    · cases read
      rfl
    · split at read
      · next items _ found =>
          cases read
          rw [strings?_eq_some_iff.mp found]
          rfl
      · cases read
    · cases read
  · rintro rfl
    cases texts with
    | none => rfl
    | some texts =>
        change stringList key (some (.array _)) = _
        rw [stringList, strings?_map_string]

theorem string_eq_ok_iff {text : Option Text} :
    string key v = .ok text ↔ v = text.map .string := by
  constructor
  · intro read
    unfold string at read
    split at read <;> cases read <;> rfl
  · rintro rfl
    cases text <;> rfl

theorem boolean_eq_ok_iff {b : Option Bool} :
    boolean key v = .ok b ↔ v = b.map .boolean := by
  constructor
  · intro read
    unfold boolean at read
    split at read <;> cases read <;> rfl
  · rintro rfl
    cases b <;> rfl

theorem docsTable_eq_ok_iff {inner : Table} :
    docsTable v = .ok inner ↔ v = none ∧ inner = [] ∨ v = some (.table inner) := by
  constructor
  · intro read
    unfold docsTable at read
    split at read <;> cases read
    · exact Or.inl ⟨rfl, rfl⟩
    · exact Or.inr rfl
  · rintro (⟨rfl, rfl⟩ | rfl) <;> rfl

theorem maxWorkersOf_eq_ok_iff {workers : Int} :
    maxWorkersOf v = .ok workers ↔
      (v = none ∧ workers = Resolver.defaultMaxWorkers ∨ v = some (.integer workers)) ∧
        0 < workers := by
  constructor
  · intro read
    unfold maxWorkersOf at read
    split at read
    · cases read
      exact ⟨Or.inl ⟨rfl, rfl⟩, by decide⟩
    · split at read <;> cases read
      next positive => exact ⟨Or.inr rfl, Int.not_le.mp positive⟩
    · cases read
  · rintro ⟨⟨rfl, rfl⟩ | rfl, positive⟩
    · rfl
    · exact if_neg (Int.not_le.mpr positive)

/-- The timeout before it is compared with zero. -/
def timeoutIn : Option Value → Except TableError Binary64
  | none => .ok DocsTool.defaultTimeout
  | some (.float x) => .ok x
  | some (.integer i) => (Binary64.ofInt? i).elim (.error .timeoutTooLarge) .ok
  | some _ => .error (.unusable .docsTimeout .number)

theorem timeoutIn_eq_ok_iff {x : Binary64} :
    timeoutIn v = .ok x ↔ v = none ∧ x = DocsTool.defaultTimeout ∨ v = some (.float x) ∨
      ∃ i, v = some (.integer i) ∧ Binary64.ofInt? i = some x := by
  constructor
  · intro given
    unfold timeoutIn at given
    split at given
    · cases given
      exact Or.inl ⟨rfl, rfl⟩
    · cases given
      exact Or.inr (Or.inl rfl)
    · next i =>
        cases rounds : Binary64.ofInt? i <;> rw [rounds] at given <;> cases given
        exact Or.inr (Or.inr ⟨i, rfl, rounds⟩)
    · cases given
  · rintro (⟨rfl, rfl⟩ | rfl | ⟨i, rfl, rounds⟩)
    · rfl
    · rfl
    · rw [timeoutIn, rounds]
      rfl

theorem timeoutOf_eq_timeoutIn (v : Option Value) :
    timeoutOf v = timeoutIn v >>= fun timeout =>
      if timeout.le (.zero false) then .error (.unusable .docsTimeout .positive)
      else .ok timeout := by
  match v with
  | some (.integer i) =>
      rw [timeoutOf, timeoutIn]
      cases Binary64.ofInt? i <;> rfl
  | none => rfl
  | some (.float _) => rfl
  | some (.string _) => rfl
  | some (.boolean _) => rfl
  | some (.moment _) => rfl
  | some (.array _) => rfl
  | some (.table _) => rfl

theorem timeoutOf_eq_ok_iff {x : Binary64} :
    timeoutOf v = .ok x ↔ timeoutIn v = .ok x ∧ x.le (.zero false) = false := by
  rw [timeoutOf_eq_timeoutIn, bind_eq_ok_iff]
  constructor
  · rintro ⟨timeout, given, checked⟩
    split at checked <;> cases checked
    next positive => exact ⟨given, Bool.eq_false_iff.mpr positive⟩
  · rintro ⟨given, positive⟩
    exact ⟨x, given, if_neg (Bool.eq_false_iff.mp positive)⟩

theorem commandOf_ne_nil (command : Option (List Text)) : commandOf command ≠ [] := by
  unfold commandOf
  split
  · exact List.cons_ne_nil _ _
  · decide

end Keys

variable {room : Nat} {source : Option Text} {table : Table}

theorem docsOfTable_eq_ok_iff {docs : DocsSettings} :
    docsOfTable table = .ok docs ↔ ∃ command timeout workers enabled,
      stringList .docsCommand (table.get? "command".toList) = .ok command ∧
      timeoutOf (table.get? "timeout_seconds".toList) = .ok timeout ∧
      maxWorkersOf (table.get? "max_workers".toList) = .ok workers ∧
      boolean .docsEnabled (table.get? "enabled".toList) = .ok enabled ∧
      docs = ⟨enabled.getD true, commandOf command, timeout, workers⟩ := by
  simp only [docsOfTable, bind_eq_ok_iff]
  constructor
  · rintro ⟨command, commands, timeout, times, workers, works, enabled, enables, done⟩
    exact ⟨command, timeout, workers, enabled, commands, times, works, enables,
      (Except.ok.inj done).symm⟩
  · rintro ⟨command, timeout, workers, enabled, commands, times, works, enables, rfl⟩
    exact ⟨command, commands, timeout, times, workers, works, enabled, enables, rfl⟩

/-- What the settings in a table are made of. -/
theorem ofTable_eq_ok_iff {settings : Settings} :
    ofTable room source table = .ok settings ↔
      ∃ inner format ignorePaths message tagReviewers failOnViolation docs,
        docsTable (table.get? "docs".toList) = .ok inner ∧
        formatOf room (table.get? "format".toList) = .ok format ∧
        stringList .ignorePaths (table.get? "ignore_paths".toList) = .ok ignorePaths ∧
        string .message (table.get? "message".toList) = .ok message ∧
        stringList .tagReviewers (table.get? "tag_reviewers".toList) = .ok tagReviewers ∧
        boolean .failOnViolation (table.get? "fail_on_violation".toList) = .ok failOnViolation ∧
        docsOfTable inner = .ok docs ∧
        settings = ⟨ReviewSettings.default.override ignorePaths message tagReviewers, format,
          failOnViolation.getD false, docs, source⟩ := by
  simp only [ofTable, bind_eq_ok_iff]
  constructor
  · rintro ⟨inner, opens, format, forms, ignorePaths, ignores, message, notes, tagReviewers, tags,
      failOnViolation, fails, docs, describes, done⟩
    exact ⟨inner, format, ignorePaths, message, tagReviewers, failOnViolation, docs, opens, forms,
      ignores, notes, tags, fails, describes, (Except.ok.inj done).symm⟩
  · rintro ⟨inner, format, ignorePaths, message, tagReviewers, failOnViolation, docs, opens, forms,
      ignores, notes, tags, fails, describes, rfl⟩
    exact ⟨inner, opens, format, forms, ignorePaths, ignores, message, notes, tagReviewers, tags,
      failOnViolation, fails, docs, describes, rfl⟩

/-- The defaults pass their own checks. -/
theorem docsOfTable_nil : docsOfTable [] = .ok DocsSettings.default := by
  have times : timeoutOf none = .ok DocsTool.defaultTimeout :=
    timeoutOf_eq_ok_iff.mpr ⟨rfl, by decide +kernel⟩
  exact docsOfTable_eq_ok_iff.mpr ⟨none, DocsTool.defaultTimeout, Resolver.defaultMaxWorkers, none,
    rfl, times, rfl, rfl, rfl⟩

theorem ofTable_nil : ofTable room source [] = .ok { default with source } := by
  refine ofTable_eq_ok_iff.mpr ⟨[], .human, none, none, none, none, DocsSettings.default,
    rfl, rfl, rfl, rfl, rfl, rfl, docsOfTable_nil, ?_⟩
  rw [ReviewSettings.override_none]
  rfl

/-! ## The values of a table -/

/-- The entries of the table under `docs`; none where there is no such table. -/
def docsEntries (table : Table) : Table :=
  ((table.get? "docs".toList).bind Value.table?).getD []

theorem docsEntries_of_docsTable {inner : Table}
    (opens : docsTable (table.get? "docs".toList) = .ok inner) : docsEntries table = inner := by
  rcases docsTable_eq_ok_iff.mp opens with ⟨missing, rfl⟩ | found
  · rw [docsEntries, missing]
    rfl
  · rw [docsEntries, found]
    rfl

end Settings

/-- The value that a settings table has for a key. -/
def SettingsKey.value? (table : Toml.Table) : SettingsKey → Option Toml.Value
  | .docs => table.get? "docs".toList
  | .ignorePaths => table.get? "ignore_paths".toList
  | .message => table.get? "message".toList
  | .tagReviewers => table.get? "tag_reviewers".toList
  | .failOnViolation => table.get? "fail_on_violation".toList
  | .docsCommand => (Settings.docsEntries table).get? "command".toList
  | .docsTimeout => (Settings.docsEntries table).get? "timeout_seconds".toList
  | .docsMaxWorkers => (Settings.docsEntries table).get? "max_workers".toList
  | .docsEnabled => (Settings.docsEntries table).get? "enabled".toList

end DirectiveReview
