import Undecorate.Fault.Diagnostic

/-! # Runs over a state

A computation over a state ends with a result or a fault, and leaves a state behind in both cases:
what it did before it failed stays done.

* `run_bind`: a sequence is its first part, and then the rest from where that ended;
* `run_tryCatch`: a handler starts from where the guarded part failed.
-/

namespace Undecorate

variable {S α β : Type}

/-- How a computation ends when it is run from a state. -/
abbrev endOf (x : ExceptT Fault (StateM S) α) (s : S) : Except Fault α × S := x.run.run s

theorem run_bind (x : ExceptT Fault (StateM S) α) (f : α → ExceptT Fault (StateM S) β) (s : S) :
    endOf (x >>= f) s = match endOf x s with
      | (.ok a, t) => endOf (f a) t
      | (.error e, t) => (.error e, t) := by
  change (ExceptT.bind x f) s = match x s with
    | (.ok a, t) => (f a) t
    | (.error e, t) => (.error e, t)
  unfold ExceptT.bind ExceptT.mk
  simp only [bind, StateT.bind]
  rcases x s with ⟨r | r, t⟩ <;> rfl

theorem run_tryCatch (x : ExceptT Fault (StateM S) α)
    (handler : Fault → ExceptT Fault (StateM S) α) (s : S) :
    endOf (tryCatch x handler) s = match endOf x s with
      | (.ok a, t) => (.ok a, t)
      | (.error e, t) => endOf (handler e) t := by
  change (ExceptT.tryCatch x handler) s = match x s with
    | (.ok a, t) => (.ok a, t)
    | (.error e, t) => (handler e) t
  unfold ExceptT.tryCatch ExceptT.mk
  simp only [bind, StateT.bind]
  rcases x s with ⟨r | r, t⟩ <;> rfl

@[simp] theorem run_pure (a : α) (s : S) :
    endOf (pure a : ExceptT Fault (StateM S) α) s = (.ok a, s) := rfl

@[simp] theorem run_throw (e : Fault) (s : S) :
    endOf (throw e : ExceptT Fault (StateM S) α) s = (.error e, s) := rfl

@[simp] theorem run_get (s : S) : endOf (get : ExceptT Fault (StateM S) S) s = (.ok s, s) := rfl

@[simp] theorem run_set (s t : S) :
    endOf (set t : ExceptT Fault (StateM S) PUnit) s = (.ok ⟨⟩, t) := rfl

@[simp] theorem run_modifyGet (g : S → α × S) (s : S) :
    endOf (modifyGet g : ExceptT Fault (StateM S) α) s = (.ok (g s).1, (g s).2) := rfl

/-- A computation without a state leaves the state as it is. -/
@[simp] theorem run_liftExcept (x : Except Fault α) (s : S) :
    endOf (liftM x : ExceptT Fault (StateM S) α) s = (x, s) := by
  cases x <;> rfl

theorem run_map (g : α → β) (x : ExceptT Fault (StateM S) α) (s : S) :
    endOf (g <$> x) s = ((endOf x s).1.map g, (endOf x s).2) := by
  rw [map_eq_pure_bind, run_bind]
  rcases endOf x s with ⟨r | r, t⟩ <;> rfl

end Undecorate
