/-!
# Programs over effects

A program is a tree of effects. `Prog.op e k` performs the effect `e` and goes
on as `k r`, where `r : R e` is the answer. Nothing is said here about what an
effect does: the same program can be run from beginning to end (`Prog.run`) or
one effect at a time, by a scheduler that interleaves it with other programs.
-/

namespace Effects

/-- Programs that perform effects `e : E` with answers in `R e` and return an `α`. -/
inductive Prog {E : Type} (R : E → Type) (α : Type) : Type where
  | pure (a : α) : Prog R α
  | op (e : E) (k : R e → Prog R α) : Prog R α

namespace Prog

variable {E : Type} {R : E → Type} {α β σ : Type}

/-- Sequencing: graft `f a` on every leaf `a`. -/
protected def bind : Prog R α → (α → Prog R β) → Prog R β
  | .pure a, f => f a
  | .op e k, f => .op e fun r => (k r).bind f

instance : Monad (Prog R) where
  pure := .pure
  bind := .bind

/-- The program that performs one effect and returns its answer. -/
def perform (e : E) : Prog R (R e) := .op e .pure

/-- Run a program alone, from beginning to end. -/
def run (handle : (e : E) → σ → R e × σ) : Prog R α → σ → α × σ
  | .pure a, s => (a, s)
  | .op e k, s => (k (handle e s).1).run handle (handle e s).2

@[simp] theorem pure_eq (a : α) : (Pure.pure a : Prog R α) = .pure a := rfl

@[simp] theorem pure_bind (a : α) (f : α → Prog R β) : (Prog.pure a >>= f) = f a := rfl

@[simp] theorem op_bind (e : E) (k : R e → Prog R α) (f : α → Prog R β) :
    (Prog.op e k >>= f) = .op e fun r => k r >>= f := rfl

@[simp] theorem perform_bind (e : E) (f : R e → Prog R β) :
    ((perform e : Prog R (R e)) >>= f) = .op e f := rfl

@[simp] theorem run_pure (handle : (e : E) → σ → R e × σ) (a : α) (s : σ) :
    (Prog.pure a : Prog R α).run handle s = (a, s) := rfl

@[simp] theorem run_op (handle : (e : E) → σ → R e × σ) (e : E) (k : R e → Prog R α) (s : σ) :
    (Prog.op e k).run handle s = (k (handle e s).1).run handle (handle e s).2 := rfl

theorem run_bind (handle : (e : E) → σ → R e × σ) (x : Prog R α) (f : α → Prog R β) (s : σ) :
    (x >>= f).run handle s = (f (x.run handle s).1).run handle (x.run handle s).2 := by
  induction x generalizing s with
  | pure a => rfl
  | op e k ih => exact ih _ _

protected theorem bind_pure (x : Prog R α) : x.bind .pure = x := by
  induction x with
  | pure a => rfl
  | op e k ih => exact congrArg (Prog.op e) (funext ih)

protected theorem bind_assoc {γ : Type} (x : Prog R α) (f : α → Prog R β) (g : β → Prog R γ) :
    (x.bind f).bind g = x.bind fun a => (f a).bind g := by
  induction x with
  | pure a => rfl
  | op e k ih => exact congrArg (Prog.op e) (funext ih)

instance : LawfulMonad (Prog R) :=
  LawfulMonad.mk' (Prog R) Prog.bind_pure (fun _ _ => rfl) Prog.bind_assoc

end Prog

end Effects
