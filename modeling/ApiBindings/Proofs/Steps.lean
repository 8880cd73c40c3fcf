import Mathlib.Tactic.Common
/-!
# Steps that can fail

What a step has done to the state stays also when it fails.  So a sequence of
two steps ends where the first one fails, or else as the second one does.
-/

namespace ApiBindings

theorem exists_of_bind_ok {ε α β : Type} {first : Except ε α} {next : α → Except ε β}
    {b : β} (hrun : (first >>= next) = .ok b) : ∃ a, first = .ok a ∧ next a = .ok b := by
  cases first with
  | error failure => simp [bind, Except.bind] at hrun
  | ok a => exact ⟨a, rfl, hrun⟩

theorem bind_error_cases {ε α β : Type} {first : Except ε α} {next : α → Except ε β}
    {failure : ε} (hrun : (first >>= next) = .error failure) :
    first = .error failure ∨ ∃ a, first = .ok a ∧ next a = .error failure := by
  cases first with
  | error other =>
      have hsame : other = failure := Except.error.inj hrun
      exact .inl (congrArg Except.error hsame)
  | ok a => exact .inr ⟨a, rfl, hrun⟩

theorem exists_of_isOk {ε α : Type} {result : Except ε α} (hok : result.isOk = true) :
    ∃ a, result = .ok a := by
  cases result with
  | error failure => exact nomatch hok
  | ok a => exact ⟨a, rfl⟩

section

variable {ε σ α β : Type} {first : ExceptT ε (StateM σ) α} {next : α → ExceptT ε (StateM σ) β}
  {before after : σ}

theorem run_bind (first : ExceptT ε (StateM σ) α) (next : α → ExceptT ε (StateM σ) β)
    (before : σ) :
    (first >>= next).run.run before =
      match first.run.run before with
      | (.ok a, middle) => (next a).run.run middle
      | (.error failure, middle) => (.error failure, middle) := by
  unfold ExceptT.run StateT.run
  simp only [bind, ExceptT.bind, ExceptT.mk, ExceptT.bindCont, StateT.bind]
  obtain ⟨result, middle⟩ := first before
  cases result <;> rfl

theorem run_tryCatch (step : ExceptT ε (StateM σ) α) (handle : ε → ExceptT ε (StateM σ) α)
    (before : σ) :
    (tryCatch step handle).run.run before =
      match step.run.run before with
      | (.ok a, middle) => (.ok a, middle)
      | (.error failure, middle) => (handle failure).run.run middle := by
  unfold ExceptT.run StateT.run
  simp only [tryCatch, tryCatchThe, MonadExceptOf.tryCatch, ExceptT.tryCatch, ExceptT.mk,
    bind, StateT.bind]
  obtain ⟨result, middle⟩ := step before
  cases result <;> rfl

theorem run_bind_cases {result : Except ε β}
    (hrun : (first >>= next).run.run before = (result, after)) :
    (∃ failure, first.run.run before = (.error failure, after) ∧ result = .error failure) ∨
      ∃ a middle, first.run.run before = (.ok a, middle) ∧
        (next a).run.run middle = (result, after) := by
  rw [run_bind] at hrun
  generalize first.run.run before = ended at hrun
  obtain ⟨failure | a, middle⟩ := ended
  · obtain ⟨rfl, rfl⟩ := Prod.ext_iff.mp hrun
    exact .inl ⟨failure, rfl, rfl⟩
  · exact .inr ⟨a, middle, rfl, hrun⟩

theorem run_bind_ok {b : β} (hrun : (first >>= next).run.run before = (.ok b, after)) :
    ∃ a middle, first.run.run before = (.ok a, middle) ∧
      (next a).run.run middle = (.ok b, after) := by
  obtain ⟨_, -, hfailed⟩ | hrest := run_bind_cases hrun
  · simp at hfailed
  · exact hrest

theorem run_bind_error {failure : ε}
    (hrun : (first >>= next).run.run before = (.error failure, after)) :
    first.run.run before = (.error failure, after) ∨
      ∃ a middle, first.run.run before = (.ok a, middle) ∧
        (next a).run.run middle = (.error failure, after) := by
  obtain ⟨_, hfirst, hsame⟩ | hrest := run_bind_cases hrun
  · obtain rfl := Except.error.inj hsame
    exact .inl hfirst
  · exact .inr hrest

end

end ApiBindings
