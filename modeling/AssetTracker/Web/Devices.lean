import AssetTracker.Lib.Prog
import AssetTracker.Lib.Machine

/-!
# Deletions on the devices page (web UI)

`handleDeleteDevice` of `routes/devices.tsx` and the dialog that starts it. A run of
the handler is suspended at its three awaits; between them nothing else happens. Runs
share the state of the page: a flag and the target of the dialog.

Results:
1. `prog_start`, `prog_answer`: a run goes through the stages of `Stage`.
2. `step_cases`: what can happen on the page. `confirm_handlers`, `settle_handlers`: the
   steps start the handler and let it go on.
3. `indicated_iff`: the flag shows that a run is unfinished, exactly as long as no run
   ends before another one that has started.
-/

namespace AssetTracker.WebUi.Devices

open Effects

/-! ## `handleDeleteDevice` -/

/-- How a promise settles. -/
inductive Settled where
  | fulfilled
  | rejected
deriving DecidableEq, Repr

inductive PageEffect where
  | setIsRefreshingDeleted (value : Bool)
  | setDeleteTarget (id : Option String)
  | mutateAsync (id : String)
  | setTimeout (milliseconds : Nat)
  | invalidateQueries (queryKey : List String)

abbrev PageEffect.Answer : PageEffect → Type
  | .setIsRefreshingDeleted _ => Unit
  | .setDeleteTarget _ => Unit
  | .mutateAsync _ => Settled
  | .setTimeout _ => Unit
  | .invalidateQueries _ => Settled

abbrev Handler := Prog PageEffect.Answer

def setIsRefreshingDeleted (value : Bool) : Handler Unit :=
  Prog.perform (PageEffect.setIsRefreshingDeleted value)

def setDeleteTarget (id : Option String) : Handler Unit :=
  Prog.perform (PageEffect.setDeleteTarget id)

def mutateAsync (id : String) : Handler Settled := Prog.perform (PageEffect.mutateAsync id)

def setTimeout (milliseconds : Nat) : Handler Unit :=
  Prog.perform (PageEffect.setTimeout milliseconds)

def invalidateQueries (queryKey : List String) : Handler Settled :=
  Prog.perform (PageEffect.invalidateQueries queryKey)

/-- The last part of the `try` block. -/
def refreshDeleted : Handler Settled := invalidateQueries ["events", "device.deleted"]

/-- The `try` block: whether it throws. -/
def tryDelete (id : String) : Handler Settled := do
  match ← mutateAsync id with
  | .rejected => return .rejected
  | .fulfilled => do
    setDeleteTarget none
    setTimeout 5000
    refreshDeleted

/-- `catch` and `finally`. -/
def afterTry (outcome : Settled) : Handler Unit := do
  match outcome with
  | .rejected => setDeleteTarget none
  | .fulfilled => pure ()
  setIsRefreshingDeleted false

def handleDeleteDevice (id : String) : Handler Unit := do
  setIsRefreshingDeleted true
  afterTry (← tryDelete id)

/-! ## The page -/

structure Page where
  isRefreshingDeleted : Bool
  deleteTarget : Option String
deriving DecidableEq, Repr

/-- A handler runs up to its next await. -/
def advance : Handler Unit → Page → Handler Unit × Page
  | .op (.setIsRefreshingDeleted value) k, page =>
    advance (k ()) { page with isRefreshingDeleted := value }
  | .op (.setDeleteTarget id) k, page => advance (k ()) { page with deleteTarget := id }
  | handler, page => (handler, page)

/-- The promise that a handler awaits has settled. -/
def answer (outcome : Settled) : Handler Unit → Page → Handler Unit × Page
  | .op (.mutateAsync _) k, page => advance (k outcome) page
  | .op (.setTimeout _) k, page => advance (k ()) page
  | .op (.invalidateQueries _) k, page => advance (k outcome) page
  | handler, page => (handler, page)

/-- Where a run of the handler stands. -/
inductive Stage where
  | mutating (id : String)
  | waiting
  | refreshing
  | finished
deriving DecidableEq, Repr

namespace Stage

/-- What is left of the handler. -/
def prog : Stage → Handler Unit
  | mutating id => do afterTry (← tryDelete id)
  | waiting => do
    setTimeout 5000
    afterTry (← refreshDeleted)
  | refreshing => do afterTry (← refreshDeleted)
  | finished => .pure ()

/-- The promise has settled: where the run stands next, and the page. -/
def resume (outcome : Settled) : Stage → Page → Stage × Page
  | mutating _, page =>
    match outcome with
    | .fulfilled => (waiting, { page with deleteTarget := none })
    | .rejected => (finished, ⟨false, none⟩)
  | waiting, page => (refreshing, page)
  | refreshing, page =>
    match outcome with
    | .fulfilled => (finished, { page with isRefreshingDeleted := false })
    | .rejected => (finished, ⟨false, none⟩)
  | finished, page => (finished, page)

/-- A timer is never rejected, and a finished run awaits nothing. -/
def awaits : Stage → Settled → Bool
  | mutating _, _ => true
  | waiting, outcome => outcome = .fulfilled
  | refreshing, _ => true
  | finished, _ => false

/-- The run finishes when its promise settles in this way. -/
def ends : Stage → Settled → Bool
  | mutating _, outcome => outcome = .rejected
  | refreshing, _ => true
  | _, _ => false

end Stage

/-- The page and the runs that were started. -/
structure State where
  page : Page
  runs : List Stage
deriving DecidableEq, Repr

def State.start : State := ⟨⟨false, none⟩, []⟩

/-- What is left of the handlers that were started. -/
def State.handlers (s : State) : List (Handler Unit) := s.runs.map Stage.prog

/-- `deleteDevice.isPending`. -/
def State.isPending (s : State) : Bool :=
  s.runs.any fun
    | .mutating _ => true
    | _ => false

inductive Action where
  | onDelete (id : String)
  | onCancel
  | onConfirm
  /-- The promise that a run awaits settles. -/
  | settle (i : Nat) (outcome : Settled)
deriving DecidableEq, Repr

/-- The buttons of `DeleteDialog` are there while the dialog is open, and disabled while a
deletion is pending. -/
def step (s : State) : Action → Option State
  | .onDelete id => some { s with page := { s.page with deleteTarget := some id } }
  | .onCancel =>
    match s.page.deleteTarget with
    | some id =>
      if id = "" ∨ s.isPending then none
      else some { s with page := { s.page with deleteTarget := none } }
    | none => none
  | .onConfirm =>
    match s.page.deleteTarget with
    | some id =>
      if id = "" ∨ s.isPending then none
      else some ⟨{ s.page with isRefreshingDeleted := true }, s.runs ++ [.mutating id]⟩
    | none => none
  | .settle i outcome =>
    match s.runs[i]? with
    | some stage =>
      if stage.awaits outcome then
        some ⟨(stage.resume outcome s.page).2, s.runs.set i (stage.resume outcome s.page).1⟩
      else none
    | none => none

/-! ## 1. Stages -/

/-- A run begins with its deletion. -/
theorem prog_start (id : String) (page : Page) : advance (handleDeleteDevice id) page =
    ((Stage.mutating id).prog, { page with isRefreshingDeleted := true }) := rfl

theorem prog_answer (outcome : Settled) (stage : Stage) (page : Page) :
    answer outcome stage.prog page =
      ((stage.resume outcome page).1.prog, (stage.resume outcome page).2) := by
  cases stage <;> cases outcome <;> rfl

/-! ## 2. Steps -/

variable {s s' : State} {a : Action} {as : List Action}

/-- What can happen: a click that only moves the target, a new run, or a run that goes on. -/
theorem step_cases (h : step s a = some s') :
    ((∀ i outcome, a ≠ .settle i outcome) ∧ s'.runs = s.runs ∧
      s'.page.isRefreshingDeleted = s.page.isRefreshingDeleted) ∨
    (a = .onConfirm ∧ ∃ id, s'.runs = s.runs ++ [.mutating id] ∧
      s'.page.isRefreshingDeleted = true) ∨
    ∃ i outcome stage, a = .settle i outcome ∧ s.runs[i]? = some stage ∧
      stage.awaits outcome = true ∧
      s' = ⟨(stage.resume outcome s.page).2, s.runs.set i (stage.resume outcome s.page).1⟩ := by
  cases a with
  | onDelete id =>
    cases h
    exact .inl ⟨fun _ _ => Action.noConfusion, rfl, rfl⟩
  | onCancel =>
    simp only [step] at h
    split at h
    · split at h
      · cases h
      · cases h
        exact .inl ⟨fun _ _ => Action.noConfusion, rfl, rfl⟩
    · cases h
  | onConfirm =>
    simp only [step] at h
    split at h
    · split at h
      · cases h
      · cases h
        exact .inr (.inl ⟨rfl, _, rfl, rfl⟩)
    · cases h
  | settle i outcome =>
    simp only [step] at h
    split at h
    · next stage hstage =>
      split at h
      · next hawaits =>
        cases h
        exact .inr (.inr ⟨i, outcome, stage, rfl, hstage, hawaits, rfl⟩)
      · cases h
    · cases h

/-- The button of the dialog calls the handler, which runs up to its first await. -/
theorem confirm_handlers (h : step s .onConfirm = some s') : ∃ id,
    s.page.deleteTarget = some id ∧
    s'.handlers = s.handlers ++ [(advance (handleDeleteDevice id) s.page).1] ∧
    s'.page = (advance (handleDeleteDevice id) s.page).2 := by
  simp only [step] at h
  split at h
  · next id htarget =>
    split at h
    · cases h
    · cases h
      refine ⟨id, htarget, ?_, ?_⟩
      · rw [prog_start, State.handlers, List.map_append]
        rfl
      · rw [prog_start]
  · cases h

/-- A promise that settles is the one that some handler awaits, and this one goes on. -/
theorem settle_handlers {i : Nat} {outcome : Settled} (h : step s (.settle i outcome) = some s') :
    ∃ handler, s.handlers[i]? = some handler ∧
      s'.handlers = s.handlers.set i (answer outcome handler s.page).1 ∧
      s'.page = (answer outcome handler s.page).2 := by
  simp only [step] at h
  split at h
  · next stage hstage =>
    split at h
    · cases h
      refine ⟨stage.prog, ?_, ?_, ?_⟩
      · rw [State.handlers, List.getElem?_map, hstage, Option.map_some]
      · rw [prog_answer, State.handlers, List.map_set]
        rfl
      · rw [prog_answer]
    · cases h
  · cases h

/-- A run that ends clears the flag. -/
theorem resume_ends {stage : Stage} {outcome : Settled} (h : stage.ends outcome = true)
    (page : Page) : (stage.resume outcome page).1 = .finished ∧
      (stage.resume outcome page).2.isRefreshingDeleted = false := by
  cases stage with
  | mutating id =>
    obtain rfl : outcome = .rejected := of_decide_eq_true h
    exact ⟨rfl, rfl⟩
  | waiting => cases h
  | refreshing => cases outcome <;> exact ⟨rfl, rfl⟩
  | finished => cases h

/-- A run that goes on leaves the flag. -/
theorem resume_goesOn {stage : Stage} {outcome : Settled} (hawaits : stage.awaits outcome = true)
    (h : stage.ends outcome = false) (page : Page) :
    (stage.resume outcome page).1 ≠ .finished ∧
      (stage.resume outcome page).2.isRefreshingDeleted = page.isRefreshingDeleted := by
  cases stage with
  | mutating id =>
    cases outcome with
    | fulfilled => exact ⟨Stage.noConfusion, rfl⟩
    | rejected => cases h
  | waiting => exact ⟨Stage.noConfusion, rfl⟩
  | refreshing => cases h
  | finished => cases hawaits

/-! ## 3. The indicator -/

/-- The flag is set exactly while a run is unfinished. -/
def Indicated (s : State) : Prop :=
  s.page.isRefreshingDeleted = true ↔ ∃ stage ∈ s.runs, stage ≠ .finished

/-- A run that ends is the only one that is unfinished. The `finally` of `handleDeleteDevice`
clears the one flag without a look at other runs. Deletions that follow one another are in. -/
def EndsAlone (s : State) : Action → Prop
  | .settle i outcome => ∀ stage ∈ s.runs[i]?, stage.ends outcome = true →
      ∀ j < s.runs.length, j ≠ i → s.runs[j]? = some .finished
  | _ => True

instance (s : State) : ∀ a, Decidable (EndsAlone s a)
  | .settle i outcome => inferInstanceAs (Decidable (∀ stage ∈ s.runs[i]?,
      stage.ends outcome = true → ∀ j < s.runs.length, j ≠ i → s.runs[j]? = some .finished))
  | .onDelete _ => isTrue trivial
  | .onCancel => isTrue trivial
  | .onConfirm => isTrue trivial

theorem start_indicated : Indicated .start := by
  refine iff_of_false Bool.false_ne_true ?_
  rintro ⟨stage, hmem, -⟩
  cases hmem

/-- After one run has finished there is an unfinished one if another one is. -/
theorem unfinished_set {runs : List Stage} {i : Nat} :
    (∃ stage ∈ runs.set i .finished, stage ≠ .finished) ↔
      ∃ j < runs.length, j ≠ i ∧ runs[j]? ≠ some .finished := by
  constructor
  · rintro ⟨stage, hmem, hne⟩
    obtain ⟨j, hj⟩ := List.mem_iff_getElem?.mp hmem
    by_cases hji : j = i
    · subst hji
      have hlt := (List.getElem?_eq_some_iff.mp hj).1
      rw [List.length_set] at hlt
      rw [List.getElem?_set_self hlt] at hj
      exact absurd (Option.some.inj hj).symm hne
    · rw [List.getElem?_set_ne (Ne.symm hji)] at hj
      refine ⟨j, (List.getElem?_eq_some_iff.mp hj).1, hji, fun hfinished => ?_⟩
      exact hne (Option.some.inj (hj.symm.trans hfinished))
  · rintro ⟨j, hj, hji, hne⟩
    have hget : (runs.set i .finished)[j]? = some runs[j] :=
      (List.getElem?_set_ne (Ne.symm hji)).trans (List.getElem?_eq_getElem hj)
    refine ⟨runs[j], List.mem_of_getElem? hget, fun hfinished => ?_⟩
    exact hne (hfinished ▸ List.getElem?_eq_getElem hj)

/-- A run that ends leaves the flag right if and only if it is the only one. -/
theorem ends_indicated {i : Nat} {outcome : Settled} {stage : Stage} (hstage : s.runs[i]? = some stage)
    (h : stage.ends outcome = true) :
    Indicated ⟨(stage.resume outcome s.page).2, s.runs.set i (stage.resume outcome s.page).1⟩ ↔
      EndsAlone s (.settle i outcome) := by
  obtain ⟨hfinished, hflag⟩ := resume_ends h s.page
  unfold Indicated
  rw [hflag, hfinished, unfinished_set]
  constructor
  · intro hind stage' _ _ j hj hji
    by_contra hne
    exact Bool.false_ne_true (hind.mpr ⟨j, hj, hji, hne⟩)
  · intro halone
    refine iff_of_false Bool.false_ne_true ?_
    rintro ⟨j, hj, hji, hne⟩
    exact hne (halone stage hstage h j hj hji)

/-- A run that goes on leaves the flag right. -/
theorem goesOn_indicated {i : Nat} {outcome : Settled} {stage : Stage} (hs : Indicated s)
    (hstage : s.runs[i]? = some stage) (hawaits : stage.awaits outcome = true)
    (h : stage.ends outcome = false) :
    Indicated ⟨(stage.resume outcome s.page).2, s.runs.set i (stage.resume outcome s.page).1⟩ := by
  obtain ⟨hunfinished, hflag⟩ := resume_goesOn hawaits h s.page
  have hne : stage ≠ .finished := by
    rintro rfl
    cases hawaits
  refine iff_of_true ?_ ⟨_, ?_, hunfinished⟩
  · exact hflag.trans (hs.mpr ⟨stage, List.mem_of_getElem? hstage, hne⟩)
  · exact List.mem_set (List.getElem?_eq_some_iff.mp hstage).1 _

/-- One step, from a state in which the flag is right. -/
theorem step_indicated (hs : Indicated s) (h : step s a = some s') :
    Indicated s' ↔ EndsAlone s a := by
  rcases step_cases h with ⟨hother, hruns, hflag⟩ | ⟨rfl, id, hruns, hflag⟩ |
    ⟨i, outcome, stage, rfl, hstage, hawaits, rfl⟩
  · refine iff_of_true ?_ ?_
    · unfold Indicated
      rw [hruns, hflag]
      exact hs
    · cases a with
      | settle i outcome => exact absurd rfl (hother i outcome)
      | _ => trivial
  · refine iff_of_true (iff_of_true hflag ⟨.mutating id, ?_, Stage.noConfusion⟩) trivial
    rw [hruns]
    exact List.mem_append_right _ List.mem_cons_self
  · cases hends : stage.ends outcome with
    | true => exact ends_indicated hstage hends
    | false =>
      refine iff_of_true (goesOn_indicated hs hstage hawaits hends) fun stage' hstage' hends' => ?_
      obtain rfl : stage = stage' := Option.some.inj (hstage.symm.trans hstage')
      exact Bool.noConfusion (hends.symm.trans hends')

/-- The flag is set exactly while a run is unfinished, throughout a run of the page, if and
only if no run of the handler ends before another one that has started. -/
theorem indicated_iff (h : Machine.run step .start as = some s) :
    (∀ bs cs s₁, as = bs ++ cs → Machine.run step .start bs = some s₁ → Indicated s₁) ↔
      Machine.Guarded step EndsAlone .start as :=
  Machine.always_iff_guarded start_indicated (fun _ _ _ => step_indicated) h

/-- A deletion that fails, and after it another one, to its end. -/
def deletionsInTurn : List Action :=
  [.onDelete "a", .onConfirm, .settle 0 .rejected, .onDelete "b", .onConfirm,
    .settle 1 .fulfilled, .settle 1 .fulfilled, .settle 1 .fulfilled]

theorem deletionsInTurn_indicated : ∃ s, Machine.run step .start deletionsInTurn = some s ∧
    ∀ bs cs s₁, deletionsInTurn = bs ++ cs → Machine.run step .start bs = some s₁ →
      Indicated s₁ := by
  have hrun : Machine.run step .start deletionsInTurn =
      some ⟨⟨false, none⟩, [.finished, .finished]⟩ := by decide
  exact ⟨_, hrun, (indicated_iff hrun).mpr (by decide)⟩

/-- A second deletion is confirmed while the first one waits. -/
def twoDeletions : List Action :=
  [.onDelete "a", .onConfirm, .settle 0 .fulfilled, .onDelete "b", .onConfirm,
    .settle 1 .fulfilled, .settle 0 .fulfilled, .settle 0 .fulfilled]

/-- The first one finishes, and the flag is cleared while the second one waits. -/
theorem twoDeletions_not_indicated : ∃ s, Machine.run step .start twoDeletions = some s ∧
    s = ⟨⟨false, none⟩, [.finished, .waiting]⟩ ∧ ¬ Indicated s := by
  refine ⟨⟨⟨false, none⟩, [.finished, .waiting]⟩, by decide, rfl, fun h => ?_⟩
  exact Bool.false_ne_true (h.mpr ⟨.waiting, by decide, by decide⟩)

end AssetTracker.WebUi.Devices
