import AssetTracker.Lib.Pool

/-!
# Atomic programs

A program among others is atomic when at most one of its effects has to do with the data that
they share. Whatever the others do between its effects, it does and returns what it would
alone, at the moment of that effect (`atomic_step`) or, without one, at any moment
(`atomic_returned`).

Alone, a program runs in a world `ω : Ω`, which answers what comes from outside. How far a
program is in its run is a stage; that a program is atomic is that it follows `AtomicNext`.
-/

namespace Effects

variable {E : Type} {R : E → Type} {I α σ τ Ω : Type}

/-- The effects of a program, alone in a world and among others. -/
structure Setting (R : E → Type) (I σ τ Ω : Type) where
  solo : Ω → (e : E) → τ → R e × τ
  handle : (e : E) → I → σ → Option (R e × σ)
  /-- The data in the shared state. -/
  data : σ → τ
  /-- The effects whose answers are settled before a program starts. -/
  settled : E → Prop

inductive Stage (Ω α : Type) where
  /-- The data were not used; the answers so far are those of the worlds `K`. -/
  | before (K : Ω → Prop)
  /-- The value to be returned is decided. -/
  | after (a : α)
  /-- An answer was not the one that had been settled. -/
  | lost

namespace Setting

variable (S : Setting R I σ τ Ω)

/-- The program returns `a` and leaves `d'` when it runs alone over `d`, in one of the worlds. -/
def Alone (K : Ω → Prop) (x : Prog R α) (d : τ) (a : α) (d' : τ) : Prop :=
  ∃ ω, K ω ∧ x.run (S.solo ω) d = (a, d')

/-- The effect does nothing to the data. -/
structure Quiet (e : E) : Prop where
  among : ∀ {x s r s'}, S.handle e x s = some (r, s') → S.data s' = S.data s
  alone : ∀ ω d, (S.solo ω e d).2 = d

inductive AtomicNext : Protocol R (Stage Ω α)
  | learn {K K' : Ω → Prop} {e : E} {r : R e} : S.Quiet e → (∃ ω, K' ω) →
      (∀ ω, K' ω → K ω ∧ ∀ d, (S.solo ω e d).1 = r) → AtomicNext (.before K) e r (.before K')
  | miss {K : Ω → Prop} {e : E} {r : R e} : S.settled e →
      (∀ ω, K ω → ∀ d, (S.solo ω e d).1 ≠ r) → AtomicNext (.before K) e r .lost
  | commit {K : Ω → Prop} {e : E} {r : R e} {a : α} :
      (∀ x s s', S.handle e x s = some (r, s') →
        ∃ ω, K ω ∧ S.solo ω e (S.data s) = (r, S.data s')) →
      AtomicNext (.before K) e r (.after a)
  | rest {a : α} {e : E} {r : R e} : S.Quiet e → AtomicNext (.after a) e r (.after a)
  | astray {e : E} {r : R e} : AtomicNext .lost e r .lost

end Setting

def Stage.Ends : Stage Ω α → α → Prop
  | before _, _ => True
  | after a, b => b = a
  | lost, _ => True

namespace Setting

variable {S : Setting R I σ τ Ω}

/-- A program that started as `x`, in one of the worlds `K₀`, and is now `p`. -/
structure Under (S : Setting R I σ τ Ω) (K₀ : Ω → Prop) (x p : Prog R α) (φ : Stage Ω α) : Prop where
  follows : p.Follows S.AtomicNext Stage.Ends φ
  found : φ ≠ .lost
  before : ∀ K, φ = .before K → (∃ ω, K ω) ∧ ∀ ω, K ω →
    K₀ ω ∧ ∀ d, x.run (S.solo ω) d = p.run (S.solo ω) d

/-- What is decided is what is returned. -/
theorem run_after {p : Prog R α} {a : α} (h : p.Follows S.AtomicNext Stage.Ends (.after a)) (ω : Ω)
    (d : τ) : p.run (S.solo ω) d = (a, d) := by
  induction p generalizing d with
  | pure b => exact congrArg (·, d) h
  | op e k ih =>
    obtain ⟨φ, hnext, hk⟩ := h (S.solo ω e d).1
    cases hnext with
    | rest hquiet =>
      rw [Prog.run_op, ih _ hk]
      exact congrArg (Prod.mk a) (hquiet.alone ω d)

variable {K₀ : Ω → Prop} {x p : Prog R α} {φ : Stage Ω α}

/-- The start of a program that is atomic. -/
theorem under_start (h : x.Follows S.AtomicNext Stage.Ends (.before K₀)) (hne : ∃ ω, K₀ ω) :
    S.Under K₀ x x (.before K₀) := by
  refine ⟨h, (by rintro ⟨⟩), ?_⟩
  rintro _ ⟨⟩
  exact ⟨hne, fun ω hω => ⟨hω, fun d => rfl⟩⟩

/-- An effect of an atomic program leaves the data as they are, or it is the moment at which
the program does what it does alone. -/
theorem atomic_step {e : E} {k : R e → Prog R α} {i : I} {s s' : σ} {r : R e}
    (h : S.Under K₀ x (.op e k) φ) (hs : S.handle e i s = some (r, s'))
    (hsettled : S.settled e → ∀ ω, K₀ ω → ∃ d, (S.solo ω e d).1 = r) :
    ∃ φ', S.Under K₀ x (k r) φ' ∧
      (S.data s' = S.data s ∧ (∀ a, φ' = .after a ↔ φ = .after a) ∨
        ∃ a, (∀ b, φ ≠ .after b) ∧ φ' = .after a ∧ S.Alone K₀ x (S.data s) a (S.data s')) := by
  obtain ⟨φ', hnext, hk⟩ := h.follows r
  cases hnext with
  | learn hquiet hne hsub =>
    obtain ⟨-, hreplay⟩ := h.before _ rfl
    refine ⟨_, ⟨hk, (by rintro ⟨⟩), ?_⟩, .inl ⟨hquiet.among hs, fun a => ?_⟩⟩
    · rintro _ ⟨⟩
      refine ⟨hne, fun ω hω => ?_⟩
      obtain ⟨hK, hanswer⟩ := hsub ω hω
      refine ⟨(hreplay ω hK).1, fun d => ?_⟩
      rw [(hreplay ω hK).2 d, Prog.run_op, hanswer d, hquiet.alone ω d]
    · exact iff_of_false (by rintro ⟨⟩) (by rintro ⟨⟩)
  | miss he hmiss =>
    obtain ⟨⟨ω, hω⟩, hreplay⟩ := h.before _ rfl
    obtain ⟨d, hd⟩ := hsettled he ω (hreplay ω hω).1
    exact absurd hd (hmiss ω hω d)
  | @commit _ _ _ a hcommit =>
    obtain ⟨ω, hω, hsolo⟩ := hcommit i s s' hs
    obtain ⟨-, hreplay⟩ := h.before _ rfl
    refine ⟨_, ⟨hk, (by rintro ⟨⟩), by rintro _ ⟨⟩⟩, .inr ⟨a, by rintro _ ⟨⟩, rfl, ω,
      (hreplay ω hω).1, ?_⟩⟩
    rw [(hreplay ω hω).2, Prog.run_op, hsolo, run_after hk]
  | rest hquiet =>
    exact ⟨_, ⟨hk, (by rintro ⟨⟩), by rintro _ ⟨⟩⟩, .inl ⟨hquiet.among hs, fun a => Iff.rfl⟩⟩
  | astray => exact absurd rfl h.found

/-- A program that returned without a use of the data could have run alone at any moment. -/
theorem atomic_returned {a : α} (h : S.Under K₀ x (.pure a) φ) :
    φ = .after a ∨ (∀ b, φ ≠ .after b) ∧ ∀ d, S.Alone K₀ x d a d := by
  cases φ with
  | before K =>
    obtain ⟨⟨ω, hω⟩, hreplay⟩ := h.before K rfl
    refine .inr ⟨by rintro _ ⟨⟩, fun d => ⟨ω, (hreplay ω hω).1, ?_⟩⟩
    rw [(hreplay ω hω).2, Prog.run_pure]
  | after b =>
    have heq : a = b := h.follows
    exact .inl (heq ▸ rfl)
  | lost => exact absurd rfl h.found

end Setting

end Effects
