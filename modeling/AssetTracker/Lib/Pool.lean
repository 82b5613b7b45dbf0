import AssetTracker.Lib.Prog
import AssetTracker.Lib.Machine

/-!
# Pools of programs

A pool is a shared state and any number of threads, each running a program of
its own. A step either spawns a thread or performs the next effect of one
thread on the shared state, so a run is one interleaving of the effects.

Programs are reasoned about alone. A protocol says which effects a thread may
perform in which phase, and a program follows it when it does, whatever the
answers are (`Prog.Follows`). What the other threads do comes in only once, in
`protocol_run`: an invariant of the shared state and of the phases of all
threads, kept by every effect that the protocol allows, holds after every run.
-/

namespace Effects

variable {E : Type} {R : E → Type} {Q I α β σ Φ : Type}

/-! ## Protocols -/

/-- `next φ e r φ'`: a thread in phase `φ` may perform `e`, and the answer `r` takes it to `φ'`. -/
abbrev Protocol (R : E → Type) (Φ : Type) := Φ → (e : E) → R e → Φ → Prop

namespace Prog

/-- From phase `φ` on, every effect is one that the protocol allows, and the program
returns in a phase and with a value that `post` admits. -/
def Follows (next : Protocol R Φ) (post : Φ → α → Prop) : Φ → Prog R α → Prop
  | φ, .pure a => post φ a
  | φ, .op e k => ∀ r, ∃ φ', next φ e r φ' ∧ Follows next post φ' (k r)

variable {next : Protocol R Φ} {post : Φ → α → Prop} {φ : Φ}

@[simp] theorem follows_pure {a : α} :
    (Prog.pure a : Prog R α).Follows next post φ ↔ post φ a := Iff.rfl

@[simp] theorem follows_op {e : E} {k : R e → Prog R α} :
    (Prog.op e k).Follows next post φ ↔ ∀ r, ∃ φ', next φ e r φ' ∧ (k r).Follows next post φ' :=
  Iff.rfl

/-- The rule of consequence. -/
theorem Follows.mono {post' : Φ → α → Prop} {x : Prog R α} (h : x.Follows next post φ)
    (hpost : ∀ φ a, post φ a → post' φ a) : x.Follows next post' φ := by
  induction x generalizing φ with
  | pure a => exact hpost φ a h
  | op e k ih =>
    intro r
    obtain ⟨φ', hnext, hk⟩ := h r
    exact ⟨φ', hnext, ih r hk⟩

/-- The rule of sequencing. -/
theorem Follows.bind {mid : Φ → β → Prop} {x : Prog R β} {f : β → Prog R α}
    (hx : x.Follows next mid φ) (hf : ∀ φ b, mid φ b → (f b).Follows next post φ) :
    (x >>= f).Follows next post φ := by
  induction x generalizing φ with
  | pure b => exact hf φ b hx
  | op e k ih =>
    intro r
    obtain ⟨φ', hnext, hk⟩ := hx r
    exact ⟨φ', hnext, ih r hk⟩

end Prog

/-! ## Pools -/

/-- A list around its element `i`. -/
theorem split_at {γ : Type} {l : List γ} {i : Nat} {c : γ} (h : l[i]? = some c) :
    ∃ before after, l = before ++ c :: after ∧ before.length = i := by
  obtain ⟨hlt, rfl⟩ := List.getElem?_eq_some_iff.mp h
  refine ⟨l.take i, l.drop (i + 1), ?_, List.length_take_of_le (Nat.le_of_lt hlt)⟩
  rw [← List.drop_eq_getElem_cons hlt, List.take_append_drop]

/-- What holds of a list and of one more element. -/
theorem forall_snoc {γ : Type} {P : γ → Prop} {l : List γ} {c : γ} (h : ∀ x ∈ l, P x) (hc : P c) :
    ∀ x ∈ l ++ [c], P x :=
  List.forall_mem_append.mpr ⟨h, List.forall_mem_singleton.mpr hc⟩

/-- What holds of a list, with one element replaced. -/
theorem forall_replace {γ : Type} {P : γ → Prop} {before after : List γ} {c c' : γ}
    (h : ∀ x ∈ before ++ c :: after, P x) (hc : P c') : ∀ x ∈ before ++ c' :: after, P x := by
  rw [List.forall_mem_append, List.forall_mem_cons] at h ⊢
  exact ⟨h.1, hc, h.2.2⟩

/-- The elements of a list with one more. -/
theorem getElem?_snoc {γ : Type} {l : List γ} {c x : γ} {i : Nat} (h : (l ++ [c])[i]? = some x) :
    (i = l.length ∧ x = c) ∨ l[i]? = some x := by
  rcases Nat.lt_or_ge i l.length with hlt | hge
  · exact .inr (by rwa [List.getElem?_append_left hlt] at h)
  · rw [List.getElem?_append_right hge] at h
    have hlast := (List.getElem?_eq_some_iff.mp h).1
    rw [List.length_singleton] at hlast
    exact .inl ⟨by omega, List.mem_singleton.mp (List.mem_of_getElem? h)⟩

/-- The elements of a list, with one element replaced. -/
theorem getElem?_replace {γ : Type} {before after : List γ} {c c' x : γ} {i : Nat}
    (h : (before ++ c' :: after)[i]? = some x) : (i = before.length ∧ x = c') ∨
      (i ≠ before.length ∧ (before ++ c :: after)[i]? = some x) := by
  have hset : before ++ c' :: after = (before ++ c :: after).set before.length c' := by simp
  rw [hset] at h
  by_cases hi : i = before.length
  · subst hi
    rw [List.getElem?_set_self (by simp)] at h
    exact .inl ⟨rfl, (Option.some.inj h).symm⟩
  · exact .inr ⟨hi, by rwa [List.getElem?_set_ne (Ne.symm hi)] at h⟩

/-- A thread remembers what it was spawned for. -/
structure Thread (Q : Type) (R : E → Type) (α : Type) where
  label : Q
  prog : Prog R α

/-- The value that a thread has returned. -/
def Thread.returned? (t : Thread Q R α) : Option α :=
  match t.prog with
  | .pure a => some a
  | .op _ _ => none

structure Pool (Q : Type) (R : E → Type) (α σ : Type) where
  shared : σ
  threads : List (Thread Q R α)

inductive PoolAction (Q I : Type) where
  | spawn (label : Q)
  /-- Thread `i` performs its next effect, with the input `x` from outside the pool. -/
  | run (i : Nat) (x : I)
deriving DecidableEq, Repr

/-- What the threads run, and what their effects do. -/
structure System (Q I : Type) (R : E → Type) (α σ : Type) where
  /-- The start of a thread; `none` while it cannot start. -/
  enter : Q → σ → Option σ
  body : Q → Prog R α
  /-- An effect; `none` while it cannot happen. -/
  handle : (e : E) → I → σ → Option (R e × σ)

namespace System

variable (S : System Q I R α σ)

def step (p : Pool Q R α σ) : PoolAction Q I → Option (Pool Q R α σ)
  | .spawn q => (S.enter q p.shared).map fun s => ⟨s, p.threads ++ [⟨q, S.body q⟩]⟩
  | .run i x =>
    match p.threads[i]? with
    | some ⟨q, .op e k⟩ =>
      (S.handle e x p.shared).map fun (r, s) => ⟨s, p.threads.set i ⟨q, k r⟩⟩
    | _ => none

/-- `as` leads from an empty pool to `p`. -/
def Reaches (s₀ : σ) (as : List (PoolAction Q I)) (p : Pool Q R α σ) : Prop :=
  Machine.run S.step ⟨s₀, []⟩ as = some p

/-- The effect that a step performs, with the thread that performs it. -/
def performs (p : Pool Q R α σ) : PoolAction Q I → Option (Nat × E)
  | .spawn _ => none
  | .run i _ =>
    match p.threads[i]? with
    | some ⟨_, .op e _⟩ => some (i, e)
    | _ => none

/-- The effects of a run from an empty pool, in the order in which they are performed. -/
def effects (s₀ : σ) (as : List (PoolAction Q I)) : List (Nat × E) :=
  Machine.outputs S.step performs ⟨s₀, []⟩ as

variable {S} {s s' s₀ : σ} {p : Pool Q R α σ} {as : List (PoolAction Q I)}

theorem effects_spawn (h : S.Reaches s₀ as p) (q : Q) :
    S.effects s₀ (as ++ [.spawn q]) = S.effects s₀ as :=
  (Machine.outputs_snoc h).trans (List.append_nil _)

theorem effects_run {before after : List (Thread Q R α × Φ)} {q : Q} {e : E} {k : R e → Prog R α}
    {φ : Φ} (h : S.Reaches s₀ as ⟨s, (before ++ (⟨q, .op e k⟩, φ) :: after).map Prod.fst⟩) (x : I) :
    S.effects s₀ (as ++ [.run before.length x]) = S.effects s₀ as ++ [(before.length, e)] := by
  refine (Machine.outputs_snoc h).trans ?_
  simp [performs]
  rfl

/-! ## The rule for all interleavings -/

/-- A step of a pool whose threads carry their phases. -/
inductive Trans (S : System Q I R α σ) (init : Q → Φ) (next : Protocol R Φ) :
    σ → List (Thread Q R α × Φ) → PoolAction Q I → σ → List (Thread Q R α × Φ) → Prop
  | spawn {s s' : σ} {ts : List (Thread Q R α × Φ)} (q : Q) (h : S.enter q s = some s') :
      Trans S init next s ts (.spawn q) s' (ts ++ [(⟨q, S.body q⟩, init q)])
  | run {s s' : σ} {e : E} {r : R e} {φ φ' : Φ} (before after : List (Thread Q R α × Φ)) (q : Q)
      (k : R e → Prog R α) (x : I) (hs : S.handle e x s = some (r, s')) (hnext : next φ e r φ') :
      Trans S init next s (before ++ (⟨q, .op e k⟩, φ) :: after) (.run before.length x)
        s' (before ++ (⟨q, k r⟩, φ') :: after)

/-- The threads in `ts` follow the protocol from their phases on. -/
def Following (next : Protocol R Φ) (post : Q → Φ → α → Prop) (ts : List (Thread Q R α × Φ)) :
    Prop :=
  ∀ t ∈ ts, t.1.prog.Follows next (post t.1.label) t.2

variable {init : Q → Φ} {next : Protocol R Φ} {post : Q → Φ → α → Prop}
  {ts : List (Thread Q R α × Φ)}

/-- Every step of a pool is a step of its threads with their phases. -/
theorem step_trans {a : PoolAction Q I} {p' : Pool Q R α σ}
    (hbody : ∀ q, (S.body q).Follows next (post q) (init q)) (hts : p.threads = ts.map Prod.fst)
    (hf : Following next post ts) (h : S.step p a = some p') :
    ∃ ts', p'.threads = ts'.map Prod.fst ∧ Following next post ts' ∧
      Trans S init next p.shared ts a p'.shared ts' := by
  cases a with
  | spawn q =>
    obtain ⟨s, hs, rfl⟩ := Option.map_eq_some_iff.mp h
    exact ⟨_, by simp [hts], forall_snoc hf (hbody q), .spawn q hs⟩
  | run i x =>
    rw [step] at h
    split at h
    · next q e k hi =>
      obtain ⟨⟨r, s⟩, hs, rfl⟩ := Option.map_eq_some_iff.mp h
      rw [hts, List.getElem?_map] at hi
      obtain ⟨⟨t, φ⟩, hi, (rfl : t = _)⟩ := Option.map_eq_some_iff.mp hi
      obtain ⟨φ', hnext, hk⟩ := hf _ (List.mem_of_getElem? hi) r
      obtain ⟨before, after, rfl, rfl⟩ := split_at hi
      refine ⟨_, ?_, forall_replace hf hk, .run before after q k x hs hnext⟩
      simp [hts]
    · cases h

/-- The rule for runs whose steps meet `C`, a condition on the pool before the step. -/
theorem guarded_protocol_run {C : Pool Q R α σ → PoolAction Q I → Prop}
    {P : List (PoolAction Q I) → σ → List (Thread Q R α × Φ) → Prop}
    (hbody : ∀ q, (S.body q).Follows next (post q) (init q)) (h₀ : P [] s₀ [])
    (hstep : ∀ as s ts a s' ts', S.Reaches s₀ as ⟨s, ts.map Prod.fst⟩ → P as s ts →
      Following next post ts → C ⟨s, ts.map Prod.fst⟩ a → Trans S init next s ts a s' ts' →
      P (as ++ [a]) s' ts')
    (hC : Machine.Guarded S.step C ⟨s₀, []⟩ as) (h : S.Reaches s₀ as p) :
    ∃ ts, p.threads = ts.map Prod.fst ∧ Following next post ts ∧ P as p.shared ts := by
  refine Machine.guarded_induction
    (P := fun as p => ∃ ts, p.threads = ts.map Prod.fst ∧ Following next post ts ∧ P as p.shared ts)
    ⟨[], rfl, by simp [Following], h₀⟩ ?_ hC h
  rintro as ⟨s, threads⟩ a p' hreach ⟨ts, rfl, hf, hP⟩ hc ha
  obtain ⟨ts', hts', hf', ht⟩ := step_trans hbody rfl hf ha
  exact ⟨ts', hts', hf', hstep as s ts a _ _ hreach hP hf hc ht⟩

theorem guarded_true {C : Pool Q R α σ → PoolAction Q I → Prop} (hC : ∀ p a, C p a)
    (p : Pool Q R α σ) (as : List (PoolAction Q I)) : Machine.Guarded S.step C p as :=
  Machine.guarded_iff.mpr fun _ a _ p _ _ => hC p a

/-- The rule for all runs. -/
theorem protocol_run {P : List (PoolAction Q I) → σ → List (Thread Q R α × Φ) → Prop}
    (hbody : ∀ q, (S.body q).Follows next (post q) (init q)) (h₀ : P [] s₀ [])
    (hstep : ∀ as s ts a s' ts', S.Reaches s₀ as ⟨s, ts.map Prod.fst⟩ → P as s ts →
      Following next post ts → Trans S init next s ts a s' ts' → P (as ++ [a]) s' ts')
    (h : S.Reaches s₀ as p) :
    ∃ ts, p.threads = ts.map Prod.fst ∧ Following next post ts ∧ P as p.shared ts :=
  guarded_protocol_run (C := fun _ _ => True) hbody h₀
    (fun as s ts a s' ts' hreach hP hf _ ht => hstep as s ts a s' ts' hreach hP hf ht)
    (guarded_true (fun _ _ => trivial) _ _) h

end System

end Effects
