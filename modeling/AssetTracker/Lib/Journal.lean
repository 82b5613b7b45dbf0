import Mathlib.Data.List.Basic

/-!
# Journals

A journal takes entries one by one and hands out lists of them. The lists lie in a
memory that later calls go on changing.

`run_holds`: what each call does to the entries, and to the lists handed out before,
carries over to any sequence of calls. `get_after`: a list is what it was when it was
handed out.
-/

namespace Memory

variable {τ σ ρ : Type}

/-- `push` and `get` are the calls, over a state; `read` looks at a list in a state. -/
structure Journal (τ σ ρ : Type) where
  start : σ
  push : τ → σ → Option σ
  get : Int → σ → Option (ρ × σ)
  read : ρ → σ → Option (List τ)

inductive Call (τ : Type) where
  | push (t : τ)
  | get (limit : Int)

def Call.pushed? : Call τ → Option τ
  | push t => some t
  | get _ => none

/-- The entries that the calls push. -/
def pushed (calls : List (Call τ)) : List τ := calls.filterMap Call.pushed?

theorem pushed_append (earlier later : List (Call τ)) :
    pushed (earlier ++ later) = pushed earlier ++ pushed later := List.filterMap_append

namespace Journal

def call (J : Journal τ σ ρ) (s : σ) : Call τ → Option σ
  | .push t => J.push t s
  | .get limit => (J.get limit s).map Prod.snd

def run (J : Journal τ σ ρ) (calls : List (Call τ)) (s : σ) : Option σ := calls.foldlM J.call s

/-- Under `Holds` the state has the entries, `view limit` of them is what `get` hands out,
and no call changes a list that is `Kept`. -/
structure Implements (J : Journal τ σ ρ) (view : Int → List τ → List τ)
    (Holds : σ → List τ → Prop) (Kept : ρ → List τ → σ → Prop) : Prop where
  start : Holds J.start []
  push : ∀ {s ts} (t : τ), Holds s ts → ∃ s', J.push t s = some s' ∧ Holds s' (ts ++ [t]) ∧
    ∀ r xs, Kept r xs s → Kept r xs s'
  get : ∀ {s ts} (limit : Int), Holds s ts → ∃ r s', J.get limit s = some (r, s') ∧ Holds s' ts ∧
    Kept r (view limit ts) s' ∧ ∀ r xs, Kept r xs s → Kept r xs s'
  read : ∀ {r xs s}, Kept r xs s → J.read r s = some xs

variable {J : Journal τ σ ρ} {view : Int → List τ → List τ} {Holds : σ → List τ → Prop}
  {Kept : ρ → List τ → σ → Prop} {s : σ} {ts : List τ}

theorem Implements.call (hJ : J.Implements view Holds Kept) (c : Call τ) (h : Holds s ts) :
    ∃ s', J.call s c = some s' ∧ Holds s' (ts ++ pushed [c]) ∧
      ∀ r xs, Kept r xs s → Kept r xs s' := by
  cases c with
  | push t => exact hJ.push t h
  | get limit =>
    obtain ⟨r, s', hget, h', -, hkept⟩ := hJ.get limit h
    refine ⟨s', by rw [Journal.call, hget]; rfl, ?_, hkept⟩
    rw [show pushed ([.get limit] : List (Call τ)) = [] from rfl, List.append_nil]
    exact h'

theorem Implements.run_holds (hJ : J.Implements view Holds Kept) (calls : List (Call τ))
    (h : Holds s ts) : ∃ s', J.run calls s = some s' ∧ Holds s' (ts ++ pushed calls) ∧
      ∀ r xs, Kept r xs s → Kept r xs s' := by
  induction calls generalizing s ts with
  | nil => exact ⟨s, rfl, by simpa [pushed] using h, fun r xs hr => hr⟩
  | cons c calls ih =>
    obtain ⟨s₁, hcall, h₁, hkept₁⟩ := hJ.call c h
    obtain ⟨s₂, hrun, h₂, hkept₂⟩ := ih h₁
    refine ⟨s₂, ?_, ?_, fun r xs hr => hkept₂ r xs (hkept₁ r xs hr)⟩
    · rw [run, List.foldlM_cons, hcall]
      exact hrun
    · rw [List.append_assoc, ← pushed_append] at h₂
      exact h₂

/-- From the start every call succeeds, and a list that is handed out after the calls
`earlier` reads the same after any calls `later`. -/
theorem Implements.get_after (hJ : J.Implements view Holds Kept) (earlier : List (Call τ))
    (limit : Int) : ∃ s r s', J.run earlier J.start = some s ∧ J.get limit s = some (r, s') ∧
      ∀ later, ∃ s'', J.run later s' = some s'' ∧
        J.read r s'' = some (view limit (pushed earlier)) := by
  obtain ⟨s, hrun, h, -⟩ := hJ.run_holds earlier hJ.start
  obtain ⟨r, s', hget, h', hkept, -⟩ := hJ.get limit h
  refine ⟨s, r, s', hrun, hget, fun later => ?_⟩
  obtain ⟨s'', hlater, -, hkept'⟩ := hJ.run_holds later h'
  exact ⟨s'', hlater, hJ.read (hkept' r _ hkept)⟩

end Journal

end Memory
