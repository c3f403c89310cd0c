/-
# Runs that can fail

How a run that is made of steps ends: it fails at a step and with the error of that
step, or every step is taken.  With these laws a run is taken apart step by step,
without opening the steps.
-/

namespace DirectiveReview

theorem bind_eq_error_iff {ε α β : Type} {first : Except ε α} {next : α → Except ε β} {e : ε} :
    first >>= next = .error e ↔
      first = .error e ∨ ∃ value, first = .ok value ∧ next value = .error e := by
  cases first with
  | error cause =>
      constructor
      · intro failed
        exact Or.inl (congrArg Except.error (Except.error.inj failed))
      · rintro (failed | ⟨_, ok, -⟩)
        · exact congrArg Except.error (Except.error.inj failed)
        · cases ok
  | ok value =>
      constructor
      · intro failed
        exact Or.inr ⟨value, rfl, failed⟩
      · rintro (failed | ⟨_, ok, failed⟩)
        · cases failed
        · obtain rfl := Except.ok.inj ok
          exact failed

theorem bind_eq_ok_iff {ε α β : Type} {first : Except ε α} {next : α → Except ε β} {result : β} :
    first >>= next = .ok result ↔ ∃ value, first = .ok value ∧ next value = .ok result := by
  cases first with
  | error cause =>
      constructor
      · intro done
        cases done
      · rintro ⟨_, ok, -⟩
        cases ok
  | ok value =>
      constructor
      · intro done
        exact ⟨value, rfl, done⟩
      · rintro ⟨_, ok, done⟩
        obtain rfl := Except.ok.inj ok
        exact done

theorem map_eq_ok_iff {ε α β : Type} {run : Except ε α} {f : α → β} {result : β} :
    run.map f = .ok result ↔ ∃ value, run = .ok value ∧ f value = result := by
  cases run with
  | error cause =>
      constructor
      · intro done
        cases done
      · rintro ⟨_, ok, -⟩
        cases ok
  | ok value =>
      constructor
      · intro done
        exact ⟨value, rfl, Except.ok.inj done⟩
      · rintro ⟨_, ok, rfl⟩
        obtain rfl := Except.ok.inj ok
        rfl

theorem map_eq_error_iff {ε α β : Type} {run : Except ε α} {f : α → β} {e : ε} :
    run.map f = .error e ↔ run = .error e := by
  cases run with
  | error cause => exact ⟨fun failed => congrArg Except.error (Except.error.inj failed),
      fun failed => congrArg Except.error (Except.error.inj failed)⟩
  | ok value =>
      constructor
      · intro failed
        cases failed
      · intro failed
        cases failed

theorem mapError_eq_ok_iff {ε δ α : Type} {run : Except ε α} {rename : ε → δ} {result : α} :
    run.mapError rename = .ok result ↔ run = .ok result := by
  cases run with
  | error cause =>
      constructor
      · intro done
        cases done
      · intro done
        cases done
  | ok value => exact ⟨fun done => congrArg Except.ok (Except.ok.inj done),
      fun done => congrArg Except.ok (Except.ok.inj done)⟩

theorem map_mapError {ε δ α β : Type} (run : Except ε α) (rename : ε → δ) (f : α → β) :
    (run.mapError rename).map f = (run.map f).mapError rename := by
  cases run <;> rfl

theorem toOption_eq_some_iff {ε α : Type} {run : Except ε α} {result : α} :
    run.toOption = some result ↔ run = .ok result := by
  cases run with
  | error cause => exact ⟨nofun, nofun⟩
  | ok value => exact ⟨fun done => congrArg Except.ok (Option.some.inj done),
      fun done => congrArg some (Except.ok.inj done)⟩

end DirectiveReview
