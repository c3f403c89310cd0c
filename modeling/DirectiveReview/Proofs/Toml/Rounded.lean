/-
# Numbers in documents

Every binary64 number in a document that has been read is in its one form: it has been
rounded, or it has no digits.  Values are put together out of values that have been read, and
a table is changed only by putting such values into it, so nothing that is done with a
document after its numbers have been read can lead out of this.
-/

import DirectiveReview.Number.Decimal
import DirectiveReview.Proofs.Except
import DirectiveReview.Proofs.Number.Nearest
import DirectiveReview.Toml.Document

namespace DirectiveReview

theorem Decimal.canonical_toBinary64 (d : Decimal) : d.toBinary64.Canonical := by
  have zero : (Binary64.zero d.negative).Canonical :=
    ⟨by decide, by decide, by decide, Or.inr rfl⟩
  rw [toBinary64]
  by_cases none : d.digits = 0
  · rw [if_pos none]
    exact zero
  rw [if_neg none]
  split
  · trivial
  · split
    · exact zero
    · exact Binary64.canonical_ofQuotient d.negative _ (Nat.pow_pos (by decide))

theorem Binary64.canonical_of_read? {numeral : Text} {x : Binary64}
    (reads : read? numeral = some x) : x.Canonical := by
  obtain ⟨plain, -, reads⟩ := Option.bind_eq_some_iff.mp reads
  split at reads
  split_ifs at reads
  · obtain rfl := Option.some.inj reads
    trivial
  · obtain rfl := Option.some.inj reads
    trivial
  · obtain ⟨d, -, rfl⟩ := Option.map_eq_some_iff.mp reads
    exact d.canonical_toBinary64

theorem Binary64.canonical_of_ofInt? {i : ℤ} {x : Binary64} (rounds : ofInt? i = some x) :
    x.Canonical := by
  have canonical := canonical_ofQuotient (decide (i < 0)) i.natAbs Nat.one_pos
  rw [ofInt?] at rounds
  split at rounds
  · next whole =>
      rw [whole] at canonical
      exact Option.some.inj rounds ▸ canonical
  · cases rounds

namespace Toml

/-- Every binary64 number in a value is in its one form. -/
inductive Value.Rounded : Value → Prop
  | string (text : Text) : Rounded (.string text)
  | integer (value : ℤ) : Rounded (.integer value)
  | float {x : Binary64} (canonical : x.Canonical) : Rounded (.float x)
  | boolean (value : Bool) : Rounded (.boolean value)
  | moment (value : Moment) : Rounded (.moment value)
  | array {items : List Value} (each : ∀ item ∈ items, Rounded item) : Rounded (.array items)
  | table {entries : Table} (each : ∀ entry ∈ entries, Rounded entry.2) : Rounded (.table entries)

/-- Every binary64 number in a table is in its one form. -/
def Table.Rounded (table : Table) : Prop :=
  ∀ entry ∈ table, entry.2.Rounded

theorem Value.rounded_float_iff {x : Binary64} : (Value.float x).Rounded ↔ x.Canonical :=
  ⟨fun rounded => by cases rounded; assumption, .float⟩

theorem Value.rounded_array_iff {items : List Value} :
    (Value.array items).Rounded ↔ ∀ item ∈ items, item.Rounded :=
  ⟨fun rounded => by cases rounded; assumption, .array⟩

theorem Value.rounded_table_iff {table : Table} : (Value.table table).Rounded ↔ table.Rounded :=
  ⟨fun rounded => by cases rounded; assumption, .table⟩

/-! ## Tables -/

namespace Table

variable {table result : Table} {key : Text} {value : Value}

theorem Rounded.get? (rounded : table.Rounded) (found : table.get? key = some value) :
    value.Rounded := by
  obtain ⟨before, behind, rfl, -⟩ := List.lookup_eq_some_iff.mp found
  exact rounded (key, value) (List.mem_append_right _ List.mem_cons_self)

theorem Rounded.set (rounded : table.Rounded) (fresh : value.Rounded) :
    (table.set key value).Rounded := by
  rw [Table.set]
  split
  · intro entry inside
    obtain ⟨old, member, rfl⟩ := List.mem_map.mp inside
    split
    · exact fresh
    · exact rounded old member
  · exact List.forall_mem_append.mpr ⟨rounded, List.forall_mem_singleton.mpr fresh⟩

theorem Rounded.nil : Rounded [] :=
  List.forall_mem_nil _

theorem Rounded.inner {other : Table} (rounded : table.Rounded)
    (found : (table.get? key).bind Value.table? = some other) : other.Rounded := by
  obtain ⟨value, there, same⟩ := Option.bind_eq_some_iff.mp found
  have inside := rounded.get? there
  cases inside with
  | table each => exact Option.some.inj same ▸ each
  | _ => cases same

/-- A change of tables that leads from such tables to such tables. -/
def KeepsRounded (f : Table → Option Table) : Prop :=
  ∀ ⦃table result : Table⦄, table.Rounded → f table = some result → result.Rounded

theorem keepsRounded_some : KeepsRounded some := by
  rintro table result rounded ⟨⟩
  exact rounded

theorem keepsRounded_add? (key : Text) (fresh : value.Rounded) :
    KeepsRounded (add? key value) := by
  intro table result rounded done
  rw [add?] at done
  split at done
  · cases done
  · exact Option.some.inj done ▸ rounded.set fresh

theorem keepsRounded_addRow? (key : Text) : KeepsRounded (addRow? key) := by
  intro table result rounded done
  have row : (Value.table []).Rounded := .table Rounded.nil
  rw [addRow?] at done
  split at done
  · exact Option.some.inj done ▸ rounded.set (.array (List.forall_mem_singleton.mpr row))
  · next items found =>
      have each := Value.rounded_array_iff.mp (rounded.get? found)
      exact Option.some.inj done ▸ rounded.set
        (.array (List.forall_mem_append.mpr ⟨each, List.forall_mem_singleton.mpr row⟩))
  · cases done

/-- A change at a path changes nothing else, and makes nothing but tables on its way. -/
theorem KeepsRounded.change? {f : Table → Option Table} (keeps : KeepsRounded f)
    (intoRows : Bool) (path : Key) : KeepsRounded (Table.change? intoRows f path) := by
  induction path with
  | nil => exact keeps
  | cons key path ih =>
      intro table result rounded done
      rw [Table.change?] at done
      split at done
      · obtain ⟨inner, changed, same⟩ := Option.bind_eq_some_iff.mp done
        obtain rfl := Option.some.inj same
        exact rounded.set (.table (ih Rounded.nil changed))
      · next entries found =>
          obtain ⟨inner, changed, same⟩ := Option.bind_eq_some_iff.mp done
          obtain rfl := Option.some.inj same
          have before := Value.rounded_table_iff.mp (rounded.get? found)
          exact rounded.set (.table (ih before changed))
      · next items found =>
          have each := Value.rounded_array_iff.mp (rounded.get? found)
          split at done
          · split at done
            · next entries last =>
                obtain ⟨inner, changed, same⟩ := Option.bind_eq_some_iff.mp done
                obtain rfl := Option.some.inj same
                have before := Value.rounded_table_iff.mp
                  (each _ (List.mem_of_mem_getLast? last))
                have others : ∀ item ∈ items.dropLast, item.Rounded :=
                  fun item inside => each item (List.mem_of_mem_dropLast inside)
                exact rounded.set (.array (List.forall_mem_append.mpr
                  ⟨others, List.forall_mem_singleton.mpr (.table (ih before changed))⟩))
            · cases done
          · cases done
      · cases done

end Table

/-! ## Values -/

variable {room : ℕ} {text rest : Text} {v : Value}

theorem require_eq_ok_iff {α : Type} {found : Option α} {a : α} :
    require found = .ok a ↔ found = some a := by
  cases found with
  | none => exact ⟨nofun, nofun⟩
  | some b => exact ⟨fun done => congrArg some (Except.ok.inj done),
      fun done => congrArg Except.ok (Option.some.inj done)⟩

theorem giveUp_ne_ok {α : Type} {a : α} : giveUp room text ≠ .ok a := by
  intro done
  obtain ⟨-, -, failed⟩ := bind_eq_ok_iff.mp done
  cases failed

theorem Numeral.rounded_value {numeral : Numeral} (read : numeral.value = .ok v) : v.Rounded := by
  rw [Numeral.value.eq_def] at read
  split at read
  · split at read
    · exact Except.ok.inj read ▸ .integer _
    · cases read
  · exact Except.ok.inj read ▸ .integer _
  · obtain ⟨x, reads, rfl⟩ := map_eq_ok_iff.mp read
    exact .float (Binary64.canonical_of_read? (require_eq_ok_iff.mp reads))

theorem canonical_of_specialNumber? {x : Binary64} (read : specialNumber? text = some (x, rest)) :
    x.Canonical := by
  rw [specialNumber?] at read
  split at read
  split at read
  · obtain ⟨rfl, -⟩ := Prod.mk.inj (Option.some.inj read)
    trivial
  · obtain ⟨rfl, -⟩ := Prod.mk.inj (Option.some.inj read)
    trivial
  · cases read

theorem rounded_of_plain (read : plain room text = .ok (v, rest)) : v.Rounded := by
  rw [plain] at read
  obtain ⟨-, -, read⟩ := bind_eq_ok_iff.mp read
  split at read
  · obtain ⟨rfl, -⟩ := Prod.mk.inj (Except.ok.inj read)
    exact .boolean true
  · obtain ⟨rfl, -⟩ := Prod.mk.inj (Except.ok.inj read)
    exact .boolean false
  · split at read
    · obtain ⟨-, -, read⟩ := bind_eq_ok_iff.mp read
      split at read
      · obtain ⟨rfl, -⟩ := Prod.mk.inj (Except.ok.inj read)
        exact .moment _
      · exact absurd read giveUp_ne_ok
    · split at read
      · obtain ⟨-, -, read⟩ := bind_eq_ok_iff.mp read
        obtain ⟨value, numeral, read⟩ := bind_eq_ok_iff.mp read
        obtain ⟨rfl, -⟩ := Prod.mk.inj (Except.ok.inj read)
        exact Numeral.rounded_value numeral
      · split at read
        · next special =>
            obtain ⟨rfl, -⟩ := Prod.mk.inj (Except.ok.inj read)
            exact .float (canonical_of_specialNumber? special)
        · exact absurd read giveUp_ne_ok

theorem rounded_of_string (read : string room text = .ok (v, rest)) : v.Rounded := by
  obtain ⟨-, -, read⟩ := bind_eq_ok_iff.mp read
  obtain ⟨⟨s, behind⟩, -, read⟩ := bind_eq_ok_iff.mp read
  obtain ⟨rfl, -⟩ := Prod.mk.inj (Except.ok.inj read)
  exact .string s

theorem rounded_of_scalar (read : scalar room text = .ok (v, rest)) : v.Rounded := by
  rw [scalar.eq_def] at read
  split at read
  · exact rounded_of_string read
  · exact rounded_of_string read
  · exact rounded_of_plain read

theorem InlineDraft.rounded_of_add {draft result : InlineDraft} {key : Key}
    (rounded : draft.entries.Rounded) (fresh : v.Rounded) (done : draft.add key v = .ok result) :
    result.entries.Rounded := by
  rw [InlineDraft.add] at done
  split at done
  · cases done
  · obtain ⟨entries, changed, done⟩ := bind_eq_ok_iff.mp done
    have keeps := (Table.keepsRounded_add? (key.getLastD []) fresh).change? false key.dropLast
    exact Except.ok.inj done ▸ keeps rounded (require_eq_ok_iff.mp changed)

mutual

theorem rounded_of_value : (limit : ℕ) → ∀ {room : ℕ} {text rest : Text} {v : Value},
    value limit room text = .ok (v, rest) → v.Rounded := by
  intro limit room text rest v read
  rw [value.eq_def] at read
  split at read
  · cases read
  · obtain ⟨inside, -, read⟩ := bind_eq_ok_iff.mp read
    obtain ⟨behind, -, read⟩ := bind_eq_ok_iff.mp read
    obtain ⟨⟨each, left⟩, row, read⟩ := bind_eq_ok_iff.mp read
    obtain ⟨rfl, -⟩ := Prod.mk.inj (Except.ok.inj read)
    exact .array (rounded_of_items _ row)
  · obtain ⟨inside, -, read⟩ := bind_eq_ok_iff.mp read
    obtain ⟨-, -, read⟩ := bind_eq_ok_iff.mp read
    split at read
    · obtain ⟨rfl, -⟩ := Prod.mk.inj (Except.ok.inj read)
      exact .table Table.Rounded.nil
    · obtain ⟨⟨draft, left⟩, entries, read⟩ := bind_eq_ok_iff.mp read
      obtain ⟨rfl, -⟩ := Prod.mk.inj (Except.ok.inj read)
      exact .table (rounded_of_fields _ Table.Rounded.nil entries)
  · exact rounded_of_scalar read

theorem rounded_of_items : (limit : ℕ) → ∀ {room : ℕ} {text rest : Text} {row : List Value},
    items limit room text = .ok (row, rest) → ∀ item ∈ row, item.Rounded := by
  intro limit room text rest row read
  rw [items.eq_def] at read
  split at read
  · cases read
  · obtain ⟨rfl, -⟩ := Prod.mk.inj (Except.ok.inj read)
    exact List.forall_mem_nil _
  · obtain ⟨⟨item, behind⟩, first, read⟩ := bind_eq_ok_iff.mp read
    have front := rounded_of_value _ first
    obtain ⟨left, -, read⟩ := bind_eq_ok_iff.mp read
    split at read
    · obtain ⟨rfl, -⟩ := Prod.mk.inj (Except.ok.inj read)
      exact List.forall_mem_singleton.mpr front
    · obtain ⟨next, -, read⟩ := bind_eq_ok_iff.mp read
      obtain ⟨⟨more, end_⟩, others, read⟩ := bind_eq_ok_iff.mp read
      obtain ⟨rfl, -⟩ := Prod.mk.inj (Except.ok.inj read)
      exact List.forall_mem_cons.mpr ⟨front, rounded_of_items _ others⟩
    · exact absurd read giveUp_ne_ok

theorem rounded_of_fields : (limit : ℕ) → ∀ {room : ℕ} {draft result : InlineDraft}
    {text rest : Text}, draft.entries.Rounded →
      fields limit room draft text = .ok (result, rest) → result.entries.Rounded := by
  intro limit room draft result text rest rounded read
  rw [fields.eq_def] at read
  split at read
  · cases read
  · obtain ⟨inside, -, read⟩ := bind_eq_ok_iff.mp read
    obtain ⟨⟨key, behind⟩, -, read⟩ := bind_eq_ok_iff.mp read
    obtain ⟨left, -, read⟩ := bind_eq_ok_iff.mp read
    obtain ⟨⟨v, after⟩, entry, read⟩ := bind_eq_ok_iff.mp read
    obtain ⟨next, added, read⟩ := bind_eq_ok_iff.mp read
    have fresh := InlineDraft.rounded_of_add rounded (rounded_of_value _ entry) added
    split at read
    · obtain ⟨rfl, -⟩ := Prod.mk.inj (Except.ok.inj read)
      exact fresh
    · exact rounded_of_fields _ fresh read
    · cases read

end

theorem rounded_of_keyValue {key : Key} (read : keyValue room text = .ok ((key, v), rest)) :
    v.Rounded := by
  obtain ⟨⟨path, behind⟩, -, read⟩ := bind_eq_ok_iff.mp read
  obtain ⟨left, -, read⟩ := bind_eq_ok_iff.mp read
  obtain ⟨⟨value, after⟩, entry, read⟩ := bind_eq_ok_iff.mp read
  obtain ⟨same, -⟩ := Prod.mk.inj (Except.ok.inj read)
  obtain ⟨-, rfl⟩ := Prod.mk.inj same
  exact rounded_of_value _ entry

/-! ## Statements -/

namespace Draft

variable {d result : Draft} {key : Key}

theorem rounded_of_openTable (rounded : d.root.Rounded) (done : d.openTable key = .ok result) :
    result.root.Rounded := by
  rw [openTable] at done
  split at done
  · cases done
  · obtain ⟨root, changed, done⟩ := bind_eq_ok_iff.mp done
    have keeps := Table.keepsRounded_some.change? true key
    exact Except.ok.inj done ▸ keeps rounded (require_eq_ok_iff.mp changed)

theorem rounded_of_openRow (rounded : d.root.Rounded) (done : d.openRow key = .ok result) :
    result.root.Rounded := by
  rw [openRow] at done
  split at done
  · cases done
  · obtain ⟨root, changed, done⟩ := bind_eq_ok_iff.mp done
    have keeps := (Table.keepsRounded_addRow? (key.getLastD [])).change? true key.dropLast
    exact Except.ok.inj done ▸ keeps rounded (require_eq_ok_iff.mp changed)

theorem rounded_of_assign (rounded : d.root.Rounded) (fresh : v.Rounded)
    (done : d.assign key v = .ok result) : result.root.Rounded := by
  rw [assign] at done
  split at done
  · cases done
  · dsimp only at done
    split at done
    · cases done
    · obtain ⟨root, changed, done⟩ := bind_eq_ok_iff.mp done
      have keeps := (Table.keepsRounded_add? (key.getLastD []) fresh).change? true
        (d.header ++ key.dropLast)
      exact Except.ok.inj done ▸ keeps rounded (require_eq_ok_iff.mp changed)

theorem rounded_of_statement (rounded : d.root.Rounded)
    (done : d.statement room text = .ok (result, rest)) : result.root.Rounded := by
  rw [statement.eq_def] at done
  split at done
  · obtain ⟨⟨key, behind⟩, -, done⟩ := bind_eq_ok_iff.mp done
    obtain ⟨next, opened, done⟩ := bind_eq_ok_iff.mp done
    obtain ⟨left, -, done⟩ := bind_eq_ok_iff.mp done
    obtain ⟨rfl, -⟩ := Prod.mk.inj (Except.ok.inj done)
    exact rounded_of_openRow rounded opened
  · obtain ⟨⟨key, behind⟩, -, done⟩ := bind_eq_ok_iff.mp done
    obtain ⟨next, opened, done⟩ := bind_eq_ok_iff.mp done
    obtain ⟨left, -, done⟩ := bind_eq_ok_iff.mp done
    obtain ⟨rfl, -⟩ := Prod.mk.inj (Except.ok.inj done)
    exact rounded_of_openTable rounded opened
  · obtain ⟨rfl, -⟩ := Prod.mk.inj (Except.ok.inj done)
    exact rounded
  · obtain ⟨rfl, -⟩ := Prod.mk.inj (Except.ok.inj done)
    exact rounded
  · obtain ⟨⟨⟨key, v⟩, behind⟩, entry, done⟩ := bind_eq_ok_iff.mp done
    obtain ⟨next, assigned, done⟩ := bind_eq_ok_iff.mp done
    obtain ⟨rfl, -⟩ := Prod.mk.inj (Except.ok.inj done)
    exact rounded_of_assign rounded (rounded_of_keyValue entry) assigned

theorem rounded_of_statements (limit : ℕ) (rounded : d.root.Rounded)
    (done : statements room limit d text = .ok result) : result.root.Rounded := by
  induction limit generalizing d text with
  | zero => exact Except.ok.inj done ▸ rounded
  | succ limit ih =>
      rw [statements.eq_def] at done
      dsimp only at done
      split at done
      · exact Except.ok.inj done ▸ rounded
      · obtain ⟨⟨next, behind⟩, taken, done⟩ := bind_eq_ok_iff.mp done
        obtain ⟨left, -, done⟩ := bind_eq_ok_iff.mp done
        exact ih (rounded_of_statement rounded taken) done

end Draft

/-- **Every number in a document that has been read is in its one form.** -/
theorem rounded_of_read {table : Table} (done : read room text = .ok table) : table.Rounded := by
  obtain ⟨draft, taken, done⟩ := bind_eq_ok_iff.mp done
  exact Except.ok.inj done ▸ Draft.rounded_of_statements _ Table.Rounded.nil taken

end Toml

end DirectiveReview
