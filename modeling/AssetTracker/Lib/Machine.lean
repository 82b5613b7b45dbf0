import Mathlib.Data.List.Induction

/-!
# State machines with partial steps

`step s a = none` means that the action `a` is not possible in `s`. A run is a
list of actions. The two rules every safety proof uses are here once:
`run_induction` (what holds initially and is kept by every step holds after
every run; the property may speak of the actions taken so far) and its variant
for runs all of whose steps meet a condition (`guarded_induction`). A machine that runs
inside of another has its own runs there (`run_component`). `outputs` is what the
steps of a run put out, one after the other.
-/

namespace Machine

variable {σ α : Type} {step : σ → α → Option σ} {s₀ s s' : σ} {a : α} {as bs : List α}

/-- Take the actions one after another; `none` as soon as one is not possible. -/
def run (step : σ → α → Option σ) : σ → List α → Option σ
  | s, [] => some s
  | s, a :: as => (step s a).bind fun s' => run step s' as

/-- Every step of the run meets `C`, a condition on the state before the step. -/
def Guarded (step : σ → α → Option σ) (C : σ → α → Prop) : σ → List α → Prop
  | _, [] => True
  | s, a :: as => C s a ∧ ∀ s', step s a = some s' → Guarded step C s' as

/-- Whether a run is guarded can be computed. -/
instance decidableGuarded {C : σ → α → Prop} [∀ s a, Decidable (C s a)] :
    ∀ s as, Decidable (Guarded step C s as)
  | _, [] => isTrue trivial
  | s, a :: as =>
    match h : step s a with
    | none => decidable_of_iff (C s a)
        ⟨fun hc => ⟨hc, fun _ hs => by simp [h] at hs⟩, fun hg => hg.1⟩
    | some s' =>
      have := decidableGuarded (C := C) s' as
      decidable_of_iff (C s a ∧ Guarded step C s' as)
        ⟨fun hg => ⟨hg.1, fun _ hs => by rw [h] at hs; exact Option.some.inj hs ▸ hg.2⟩,
          fun hg => ⟨hg.1, hg.2 s' h⟩⟩

@[simp] theorem run_nil : run step s [] = some s := rfl

theorem run_cons (h : step s a = some s') : run step s (a :: as) = run step s' as := by
  rw [run, h, Option.bind_some]

theorem run_append :
    run step s (as ++ bs) = (run step s as).bind fun s' => run step s' bs := by
  induction as generalizing s with
  | nil => rfl
  | cons a as ih =>
    simp only [List.cons_append, run]
    cases step s a with
    | none => rfl
    | some s₁ => exact ih

theorem run_snoc : run step s (as ++ [a]) = (run step s as).bind fun s' => step s' a := by
  rw [run_append]
  congr 1
  funext s₁
  simp only [run]
  cases step s₁ a <;> rfl

theorem run_append_some (h : run step s (as ++ bs) = some s') :
    ∃ s₁, run step s as = some s₁ ∧ run step s₁ bs = some s' := by
  rw [run_append] at h
  exact Option.bind_eq_some_iff.mp h

theorem run_snoc_some (h : run step s (as ++ [a]) = some s') :
    ∃ s₁, run step s as = some s₁ ∧ step s₁ a = some s' := by
  rw [run_snoc] at h
  exact Option.bind_eq_some_iff.mp h

/-- The run rule: a property of the actions taken and the state reached that
holds at the start and is kept by every step holds after every run. -/
theorem run_induction {P : List α → σ → Prop} (h₀ : P [] s₀)
    (hstep : ∀ as s a s', run step s₀ as = some s → P as s → step s a = some s' →
      P (as ++ [a]) s')
    (h : run step s₀ as = some s) : P as s := by
  induction as using List.reverseRecOn generalizing s with
  | nil =>
    cases h
    exact h₀
  | append_singleton as a ih =>
    obtain ⟨s₁, h₁, ha⟩ := run_snoc_some h
    exact hstep as s₁ a s h₁ (ih h₁) ha

/-- A property of states that every step keeps holds after every run. -/
theorem invariant_run {I : σ → Prop} (hstep : ∀ s a s', I s → step s a = some s' → I s')
    (h₀ : I s₀) (h : run step s₀ as = some s) : I s :=
  run_induction (P := fun _ s => I s) h₀ (fun _ _ _ _ _ hi ha => hstep _ _ _ hi ha) h

theorem guarded_cons {C : σ → α → Prop} (hc : C s a) (hs : step s a = some s')
    (h : Guarded step C s' as) : Guarded step C s (a :: as) := by
  refine ⟨hc, fun s₁ h₁ => ?_⟩
  rw [hs] at h₁
  cases h₁
  exact h

theorem guarded_append {C : σ → α → Prop} (h : Guarded step C s (as ++ bs))
    (hrun : run step s as = some s') : Guarded step C s as ∧ Guarded step C s' bs := by
  induction as generalizing s with
  | nil =>
    cases hrun
    exact ⟨trivial, h⟩
  | cons a as ih =>
    obtain ⟨s₁, ha, hr⟩ := Option.bind_eq_some_iff.mp hrun
    have htail := ih (h.2 s₁ ha) hr
    refine ⟨⟨h.1, fun s₂ h₂ => ?_⟩, htail.2⟩
    rw [ha] at h₂
    cases h₂
    exact htail.1

theorem Guarded.and {C D : σ → α → Prop} (hC : Guarded step C s as) (hD : Guarded step D s as) :
    Guarded step (fun s a => C s a ∧ D s a) s as := by
  induction as generalizing s with
  | nil => trivial
  | cons a as ih => exact ⟨⟨hC.1, hD.1⟩, fun s' hs => ih (hC.2 s' hs) (hD.2 s' hs)⟩

/-- A run is guarded when the condition holds wherever the run can be cut. -/
theorem guarded_iff {C : σ → α → Prop} : Guarded step C s as ↔
    ∀ bs a cs s', as = bs ++ a :: cs → run step s bs = some s' → C s' a := by
  induction as generalizing s with
  | nil => exact ⟨fun _ bs a cs _ h => absurd h.symm (by simp), fun _ => trivial⟩
  | cons b as ih =>
    constructor
    · rintro ⟨hc, hnext⟩ bs a cs s' heq hrun
      cases bs with
      | nil =>
        cases heq
        cases hrun
        exact hc
      | cons b' bs =>
        cases heq
        obtain ⟨s₁, hb, hr⟩ := Option.bind_eq_some_iff.mp hrun
        exact ih.mp (hnext s₁ hb) bs a cs s' rfl hr
    · intro h
      refine ⟨h [] b as s rfl rfl, fun s₁ hb => ih.mpr fun bs a cs s' heq hrun => ?_⟩
      refine h (b :: bs) a cs s' (by rw [heq]; rfl) ?_
      rw [run, hb]
      exact hrun

/-- The run rule for runs all of whose steps meet the condition `C`. -/
theorem guarded_induction {C : σ → α → Prop} {P : List α → σ → Prop} (h₀ : P [] s₀)
    (hstep : ∀ as s a s', run step s₀ as = some s → P as s → C s a → step s a = some s' →
      P (as ++ [a]) s')
    (hC : Guarded step C s₀ as) (h : run step s₀ as = some s) : P as s := by
  induction as using List.reverseRecOn generalizing s with
  | nil =>
    cases h
    exact h₀
  | append_singleton as a ih =>
    obtain ⟨s₁, h₁, ha⟩ := run_snoc_some h
    have hg := guarded_append hC h₁
    exact hstep as s₁ a s h₁ (ih hg.1 h₁) hg.2.1 ha

/-- A property that a step keeps exactly if it meets `C` holds throughout a run exactly if all
steps of the run meet `C`. -/
theorem always_iff_guarded {C : σ → α → Prop} {P : σ → Prop} (h₀ : P s₀)
    (hstep : ∀ s a s', P s → step s a = some s' → (P s' ↔ C s a)) (h : run step s₀ as = some s) :
    (∀ bs cs s', as = bs ++ cs → run step s₀ bs = some s' → P s') ↔ Guarded step C s₀ as := by
  rw [guarded_iff]
  constructor
  · rintro hP bs a cs s₁ rfl hbs
    rw [List.append_cons] at h
    obtain ⟨s₂, hsnoc, -⟩ := run_append_some h
    have ha : step s₁ a = some s₂ := by
      rw [run_snoc, hbs] at hsnoc
      exact hsnoc
    exact (hstep s₁ a s₂ (hP bs (a :: cs) s₁ rfl hbs) ha).mp
      (hP (bs ++ [a]) cs s₂ (List.append_cons ..) hsnoc)
  · intro hC bs
    induction bs using List.reverseRecOn with
    | nil =>
      intro cs s' _ hbs
      cases hbs
      exact h₀
    | append_singleton bs a ih =>
      intro cs s' heq hbs
      obtain ⟨s₁, hprev, ha⟩ := run_snoc_some hbs
      rw [List.append_assoc] at heq
      exact (hstep s₁ a s' (ih (a :: cs) s₁ heq hprev) ha).mpr (hC bs a cs s₁ heq hprev)

/-! ## Outputs -/

section Outputs

variable {β : Type} {out : σ → α → Option β}

/-- What the steps of a run put out, in the order of the run. -/
def outputs (step : σ → α → Option σ) (out : σ → α → Option β) : σ → List α → List β
  | _, [] => []
  | s, a :: as =>
    (out s a).toList ++
      match step s a with
      | some s' => outputs step out s' as
      | none => []

theorem outputs_snoc (h : run step s as = some s') :
    outputs step out s (as ++ [a]) = outputs step out s as ++ (out s' a).toList := by
  induction as generalizing s with
  | nil =>
    cases h
    rw [List.nil_append, outputs, outputs, List.nil_append]
    split
    · rw [outputs, List.append_nil]
    · rw [List.append_nil]
  | cons b as ih =>
    obtain ⟨s₁, hb, hr⟩ := Option.bind_eq_some_iff.mp h
    rw [List.cons_append, outputs, outputs, hb, List.append_assoc]
    dsimp only
    rw [ih hr]

end Outputs

/-! ## Components -/

/-- One machine runs inside of another: an action of the whole is an action of the part, or
leaves the part as it is. -/
def Component {τ β : Type} (step : σ → α → Option σ) (part : τ → β → Option τ) (view : σ → τ)
    (act : α → Option β) : Prop :=
  ∀ s a s', step s a = some s' →
    match act a with
    | some b => part (view s) b = some (view s')
    | none => view s' = view s

section Components

variable {τ β : Type} {part : τ → β → Option τ} {view : σ → τ} {act : α → Option β}

/-- A run of the whole, as the part sees it. -/
theorem run_component (hc : Component step part view act) (h : run step s as = some s') :
    run part (view s) (as.filterMap act) = some (view s') := by
  induction as generalizing s with
  | nil =>
    cases h
    rfl
  | cons a as ih =>
    obtain ⟨s₁, ha, hr⟩ := Option.bind_eq_some_iff.mp h
    have hpart := hc s a s₁ ha
    cases hact : act a with
    | none =>
      rw [hact] at hpart
      rw [List.filterMap_cons_none hact, ← hpart]
      exact ih hr
    | some b =>
      rw [hact] at hpart
      rw [List.filterMap_cons_some hact, run_cons hpart]
      exact ih hr

/-- A condition on the steps of the whole, as the part sees it. -/
theorem guarded_component {C : σ → α → Prop} {D : τ → β → Prop}
    (hc : Component step part view act) (hCD : ∀ s a b, act a = some b → C s a → D (view s) b)
    (hC : Guarded step C s as) (h : run step s as = some s') :
    Guarded part D (view s) (as.filterMap act) := by
  induction as generalizing s with
  | nil => trivial
  | cons a as ih =>
    obtain ⟨s₁, ha, hr⟩ := Option.bind_eq_some_iff.mp h
    have hpart := hc s a s₁ ha
    have hnext := ih (hC.2 s₁ ha) hr
    cases hact : act a with
    | none =>
      rw [hact] at hpart
      rw [List.filterMap_cons_none hact, ← hpart]
      exact hnext
    | some b =>
      rw [hact] at hpart
      rw [List.filterMap_cons_some hact]
      exact guarded_cons (hCD s a b hact hC.1) hpart hnext

end Components

end Machine
