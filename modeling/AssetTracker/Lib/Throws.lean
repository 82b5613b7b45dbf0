/-!
# Code that throws

`ExceptT ε (StateM σ)` is code that works on a state and may throw; what it did
to the state before it threw stays done. The rules say how such code runs.
-/

namespace Throws

variable {ε σ α β : Type}

/-- What code answers or throws, and the state that it leaves. -/
def run (x : ExceptT ε (StateM σ) α) (s : σ) : Except ε α × σ :=
  Id.run (StateT.run (ExceptT.run x) s)

theorem run_pure (a : α) (s : σ) : run (pure a : ExceptT ε (StateM σ) α) s = (.ok a, s) := rfl

theorem run_lift (r : Except ε α) (s : σ) :
    run (ExceptT.mk (pure r) : ExceptT ε (StateM σ) α) s = (r, s) := rfl

theorem run_get (s : σ) : run (get : ExceptT ε (StateM σ) σ) s = (.ok s, s) := rfl

/-- The rule of sequencing: the second part runs where the first part ends. -/
theorem run_bind (x : ExceptT ε (StateM σ) α) (f : α → ExceptT ε (StateM σ) β) (s : σ) :
    run (x >>= f) s =
      match run x s with
      | (.ok a, s') => run (f a) s'
      | (.error err, s') => (.error err, s') := by
  show ExceptT.bindCont f (StateT.run (ExceptT.run x) s).1 (StateT.run (ExceptT.run x) s).2 = _
  unfold run
  cases hx : StateT.run (ExceptT.run x) s with
  | mk r s' => cases r <;> rfl

theorem run_bind_ok {x : ExceptT ε (StateM σ) α} {f : α → ExceptT ε (StateM σ) β} {s s' : σ} {a : α}
    (h : run x s = (.ok a, s')) : run (x >>= f) s = run (f a) s' := by
  rw [run_bind, h]

theorem run_bind_error {x : ExceptT ε (StateM σ) α} {f : α → ExceptT ε (StateM σ) β} {s s' : σ}
    {err : ε} (h : run x s = (.error err, s')) : run (x >>= f) s = (.error err, s') := by
  rw [run_bind, h]

/-- The rule of `catch`: the handler runs where the body threw. -/
theorem run_tryCatch (x : ExceptT ε (StateM σ) α) (h : ε → ExceptT ε (StateM σ) α) (s : σ) :
    run (tryCatch x h) s =
      match run x s with
      | (.ok a, s') => (.ok a, s')
      | (.error err, s') => run (h err) s' := by
  show run (ExceptT.tryCatch x h) s = _
  unfold run
  cases hx : StateT.run (ExceptT.run x) s with
  | mk r s' =>
    have hx' : x s = (r, s') := hx
    cases r with
    | ok a =>
      simp [ExceptT.tryCatch, ExceptT.run, ExceptT.mk, StateT.run, bind, StateT.bind, hx', Id.run]
      rfl
    | error err =>
      simp [ExceptT.tryCatch, ExceptT.run, ExceptT.mk, StateT.run, bind, StateT.bind, hx', Id.run]

end Throws
