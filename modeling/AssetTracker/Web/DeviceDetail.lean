import AssetTracker.Web.Devices
import AssetTracker.Web.Schemas

/-!
# New events on the page of a device (web UI)

`handleCreateEvent` of `routes/devices.$id.tsx`, the form that it submits and the buttons
around it. A run of the handler is suspended at its one await. The button for a new event
resets the form, and with it the flag that keeps the form from being submitted twice. Modals
cover that button but do not disable it.

Results:
1. `prog_start`, `prog_answer`: what a run does before its await, and after.
2. `step_cases`: what can happen on the page. `newEvent_handler`, `submit_handlers`,
   `settle_handlers`: the steps run the handlers.
3. `tracked_iff`: the flag counts the creations in flight, exactly as long as no new event is
   begun before the last one has settled.
-/

namespace AssetTracker.WebUi.DeviceDetail

open Effects Text
open NodeService (Value)
open Devices (Settled)

/-! ## The page -/

inductive Field where
  | type
  | name
  | actor
  | description
deriving DecidableEq, Repr

/-- `eventType`, `eventName`, `eventActor` and `eventDescription`. -/
structure Form where
  type : JsString
  name : JsString
  actor : JsString
  description : JsString
deriving DecidableEq

def Form.empty : Form := ⟨[], [], [], []⟩

def Form.set (form : Form) (value : JsString) : Field → Form
  | .type => { form with type := value }
  | .name => { form with name := value }
  | .actor => { form with actor := value }
  | .description => { form with description := value }

/-- The errors are the members of an object. -/
structure Page where
  showCreateEvent : Bool
  form : Form
  eventErrors : List (String × String)
  eventPending : Bool
deriving DecidableEq

/-- `s || undefined`. -/
def orUndefined (s : JsString) : Value := if s = [] then none else some (.str s)

/-- What `handleCreateEvent` gives to the schema. -/
def eventInput (id : JsString) (form : Form) : Input :=
  .object fun
    | "type" => some (.str form.type)
    | "deviceId" => some (.str id)
    | "name" => some (.str form.name)
    | "actor" => orUndefined form.actor
    | "description" => orUndefined form.description
    | _ => none

/-- The first message for each field. -/
def fieldErrors (issues : List Issue) : List (String × String) :=
  issues.foldl (fun errors issue =>
    if (errors.lookup issue.path).getD "" = "" then
      errors.filter (fun e => e.1 ≠ issue.path) ++ [(issue.path, issue.message)]
    else errors) []

def formError : List (String × String) := [("form", "Failed to create event. Please try again.")]

/-! ## `handleCreateEvent` -/

inductive PageEffect where
  | setForm (form : Form)
  | setEventErrors (errors : List (String × String))
  | setEventPending (value : Bool)
  | setShowCreateEvent (value : Bool)
  | mutateAsync (data : Data)

abbrev PageEffect.Answer : PageEffect → Type
  | .mutateAsync _ => Settled
  | _ => Unit

abbrev Handler := Prog PageEffect.Answer

def setForm (form : Form) : Handler Unit := Prog.perform (PageEffect.setForm form)

def setEventErrors (errors : List (String × String)) : Handler Unit :=
  Prog.perform (PageEffect.setEventErrors errors)

def setEventPending (value : Bool) : Handler Unit :=
  Prog.perform (PageEffect.setEventPending value)

def setShowCreateEvent (value : Bool) : Handler Unit :=
  Prog.perform (PageEffect.setShowCreateEvent value)

def mutateAsync (data : Data) : Handler Settled := Prog.perform (PageEffect.mutateAsync data)

def resetEventForm : Handler Unit := do
  setForm .empty
  setEventErrors []
  setEventPending false

/-- The `try` block: whether it throws. -/
def tryCreate (data : Data) : Handler Settled := do
  match ← mutateAsync data with
  | .rejected => return .rejected
  | .fulfilled => do
    resetEventForm
    setShowCreateEvent false
    return .fulfilled

/-- `catch` and `finally`. -/
def afterTry (outcome : Settled) : Handler Unit := do
  match outcome with
  | .rejected => setEventErrors formError
  | .fulfilled => pure ()
  setEventPending false

/-- The form is the one of the last render. -/
def handleCreateEvent (safeParse : SafeParse) (id : JsString) (form : Form) : Handler Unit := do
  setEventErrors []
  match safeParse createEventSchema (eventInput id form) with
  | .error issues => setEventErrors (fieldErrors issues)
  | .ok data => do
    setEventPending true
    afterTry (← tryCreate data)

/-- The button for a new event. -/
def beginEvent : Handler Unit := do
  resetEventForm
  setShowCreateEvent true

/-- A handler runs up to its next await. -/
def advance : Handler Unit → Page → Handler Unit × Page
  | .op (.setForm form) k, page => advance (k ()) { page with form := form }
  | .op (.setEventErrors errors) k, page => advance (k ()) { page with eventErrors := errors }
  | .op (.setEventPending value) k, page => advance (k ()) { page with eventPending := value }
  | .op (.setShowCreateEvent value) k, page =>
    advance (k ()) { page with showCreateEvent := value }
  | handler, page => (handler, page)

/-- The promise that a handler awaits has settled. -/
def answer (outcome : Settled) : Handler Unit → Page → Handler Unit × Page
  | .op (.mutateAsync _) k, page => advance (k outcome) page
  | handler, page => (handler, page)

/-! ## Runs -/

/-- Where a run of the handler stands. -/
inductive Stage where
  | creating (data : Data)
  | finished
deriving DecidableEq

namespace Stage

/-- What is left of the handler. -/
def prog : Stage → Handler Unit
  | creating data => do afterTry (← tryCreate data)
  | finished => .pure ()

end Stage

/-- The page after a creation has settled. -/
def Page.settled (page : Page) : Settled → Page
  | .fulfilled => ⟨false, .empty, [], false⟩
  | .rejected => { page with eventErrors := formError, eventPending := false }

/-- The page and the runs that were started. -/
structure State where
  page : Page
  runs : List Stage
deriving DecidableEq

def State.start : State := ⟨⟨false, .empty, [], false⟩, []⟩

/-- What is left of the handlers that were started. -/
def State.handlers (s : State) : List (Handler Unit) := s.runs.map Stage.prog

/-- The creations that are not settled. -/
def State.inFlight (s : State) : Nat := s.runs.countP (· ≠ .finished)

inductive Action where
  | newEvent
  /-- The buttons that cancel or close the modal. -/
  | close
  | change (field : Field) (value : JsString)
  | submit
  /-- The promise that a run awaits settles. -/
  | settle (i : Nat) (outcome : Settled)
deriving DecidableEq

section

variable (safeParse : SafeParse) (id : JsString)

/-- Nothing is submitted while the button of the form is disabled. -/
def step (s : State) : Action → Option State
  | .newEvent => some { s with page := ⟨true, .empty, [], false⟩ }
  | .close =>
    if s.page.showCreateEvent then some { s with page := { s.page with showCreateEvent := false } }
    else none
  | .change field value =>
    if s.page.showCreateEvent then
      some { s with page := { s.page with form := s.page.form.set value field } }
    else none
  | .submit =>
    if s.page.showCreateEvent ∧ s.page.eventPending = false then
      match safeParse createEventSchema (eventInput id s.page.form) with
      | .error issues =>
        some ⟨{ s.page with eventErrors := fieldErrors issues }, s.runs ++ [.finished]⟩
      | .ok data =>
        some ⟨{ s.page with eventErrors := [], eventPending := true }, s.runs ++ [.creating data]⟩
    else none
  | .settle i outcome =>
    match s.runs[i]? with
    | some (.creating _) => some ⟨s.page.settled outcome, s.runs.set i .finished⟩
    | _ => none

end

/-! ## 1. Stages -/

theorem prog_start (safeParse : SafeParse) (id : JsString) (page : Page) :
    advance (handleCreateEvent safeParse id page.form) page =
      match safeParse createEventSchema (eventInput id page.form) with
      | .error issues => (Stage.finished.prog, { page with eventErrors := fieldErrors issues })
      | .ok data =>
        ((Stage.creating data).prog, { page with eventErrors := [], eventPending := true }) := by
  unfold handleCreateEvent
  cases safeParse createEventSchema (eventInput id page.form) <;> rfl

theorem prog_answer (outcome : Settled) (data : Data) (page : Page) :
    answer outcome (Stage.creating data).prog page =
      (Stage.finished.prog, page.settled outcome) := by
  cases outcome <;> rfl

/-! ## 2. Steps -/

variable {safeParse : SafeParse} {id : JsString} {s s' : State} {a : Action} {as : List Action}

/-- What can happen: something that only touches the form, a reset, a submission that is
checked or sent, or a creation that settles. -/
theorem step_cases (h : step safeParse id s a = some s') :
    (a ≠ .newEvent ∧ s'.page.eventPending = s.page.eventPending ∧
      (s'.runs = s.runs ∨ s'.runs = s.runs ++ [.finished])) ∨
    (a = .newEvent ∧ s'.page.eventPending = false ∧ s'.runs = s.runs) ∨
    (a = .submit ∧ s.page.eventPending = false ∧ s'.page.eventPending = true ∧
      ∃ data, s'.runs = s.runs ++ [.creating data]) ∨
    ∃ i outcome data, a = .settle i outcome ∧ s.runs[i]? = some (.creating data) ∧
      s' = ⟨s.page.settled outcome, s.runs.set i .finished⟩ := by
  cases a with
  | newEvent =>
    cases h
    exact .inr (.inl ⟨rfl, rfl, rfl⟩)
  | close =>
    simp only [step] at h
    split at h <;> cases h
    exact .inl ⟨Action.noConfusion, rfl, .inl rfl⟩
  | change field value =>
    simp only [step] at h
    split at h <;> cases h
    exact .inl ⟨Action.noConfusion, rfl, .inl rfl⟩
  | submit =>
    simp only [step] at h
    split at h
    · next hshown =>
      split at h <;> cases h
      · exact .inl ⟨Action.noConfusion, rfl, .inr rfl⟩
      · exact .inr (.inr (.inl ⟨rfl, hshown.2, rfl, _, rfl⟩))
    · cases h
  | settle i outcome =>
    simp only [step] at h
    split at h <;> cases h
    next data hstage => exact .inr (.inr (.inr ⟨i, outcome, data, rfl, hstage, rfl⟩))

theorem newEvent_handler (h : step safeParse id s .newEvent = some s') :
    s'.handlers = s.handlers ∧ s'.page = (advance beginEvent s.page).2 := by
  cases h
  exact ⟨rfl, rfl⟩

/-- The form calls the handler, which runs up to its await, or to its end. -/
theorem submit_handlers (h : step safeParse id s .submit = some s') :
    s'.handlers = s.handlers ++ [(advance (handleCreateEvent safeParse id s.page.form) s.page).1] ∧
      s'.page = (advance (handleCreateEvent safeParse id s.page.form) s.page).2 := by
  rw [prog_start]
  simp only [step] at h
  split at h
  · split at h <;> cases h <;> exact ⟨List.map_append, rfl⟩
  · cases h

/-- A promise that settles is the one that some handler awaits, and this one goes on. -/
theorem settle_handlers {i : Nat} {outcome : Settled}
    (h : step safeParse id s (.settle i outcome) = some s') :
    ∃ handler, s.handlers[i]? = some handler ∧
      s'.handlers = s.handlers.set i (answer outcome handler s.page).1 ∧
      s'.page = (answer outcome handler s.page).2 := by
  simp only [step] at h
  split at h <;> cases h
  next data hstage =>
  refine ⟨(Stage.creating data).prog, ?_, ?_, ?_⟩
  · rw [State.handlers, List.getElem?_map, hstage, Option.map_some]
  · rw [prog_answer, State.handlers, List.map_set]
    rfl
  · rw [prog_answer]

/-! ## 3. The flag -/

/-- A creation is in flight if and only if the flag is set, and never a second one. -/
def Tracked (s : State) : Prop := s.inFlight = if s.page.eventPending then 1 else 0

/-- A new event is begun after the last one has settled. `resetEventForm` clears the flag, also
while a creation is in flight, and so lets another one be submitted. -/
def Settles (s : State) : Action → Prop
  | .newEvent => s.inFlight = 0
  | _ => True

instance (s : State) : ∀ a, Decidable (Settles s a)
  | .newEvent => inferInstanceAs (Decidable (s.inFlight = 0))
  | .close => isTrue trivial
  | .change _ _ => isTrue trivial
  | .submit => isTrue trivial
  | .settle _ _ => isTrue trivial

/-- One creation less is in flight. -/
theorem inFlight_set {i : Nat} {data : Data} (h : s.runs[i]? = some (.creating data)) (page : Page) :
    s.inFlight = State.inFlight ⟨page, s.runs.set i .finished⟩ + 1 := by
  obtain ⟨hlt, hget⟩ := List.getElem?_eq_some_iff.mp h
  have hpos : 0 < s.inFlight := List.countP_pos_iff.mpr ⟨_, List.mem_of_getElem? h, by simp⟩
  have hset : State.inFlight ⟨page, s.runs.set i .finished⟩ = s.inFlight - 1 := by
    rw [State.inFlight, List.countP_set hlt, hget, if_pos (by simp), if_neg (by simp)]
    rfl
  omega

/-- One step, from a state in which the flag is right. -/
theorem step_tracked (hs : Tracked s) (h : step safeParse id s a = some s') :
    Tracked s' ↔ Settles s a := by
  unfold Tracked at hs ⊢
  rcases step_cases h with ⟨hother, hflag, hruns⟩ | ⟨rfl, hflag, hruns⟩ |
    ⟨rfl, hbefore, hflag, data, hruns⟩ | ⟨i, outcome, data, rfl, hstage, rfl⟩
  · have hcount : s'.inFlight = s.inFlight := by
      unfold State.inFlight
      rcases hruns with hruns | hruns <;> rw [hruns]
      rw [List.countP_append, List.countP_singleton, if_neg (by decide), Nat.add_zero]
    refine iff_of_true (by rw [hcount, hflag, hs]) ?_
    cases a <;> first | exact absurd rfl hother | trivial
  · rw [hflag, State.inFlight, hruns]
    exact Iff.rfl
  · refine iff_of_true ?_ trivial
    rw [hbefore, if_neg Bool.false_ne_true] at hs
    rw [hflag, if_pos rfl, State.inFlight, hruns, List.countP_append]
    unfold State.inFlight at hs
    rw [hs, List.countP_singleton, if_pos (by simp)]
  · refine iff_of_true ?_ trivial
    have hflag : (s.page.settled outcome).eventPending = false := by cases outcome <;> rfl
    have hcount := inFlight_set hstage (s.page.settled outcome)
    rw [hflag, if_neg Bool.false_ne_true]
    split at hs <;> omega

theorem start_tracked : Tracked .start := rfl

/-- Throughout a run of the page a creation is in flight exactly while the flag is set, and
never a second one, if and only if no new event is begun while a creation is in flight. Nothing
is assumed of `safeParse`: it may accept any form or none. -/
theorem tracked_iff (h : Machine.run (step safeParse id) .start as = some s) :
    (∀ bs cs s₁, as = bs ++ cs → Machine.run (step safeParse id) .start bs = some s₁ → Tracked s₁) ↔
      Machine.Guarded (step safeParse id) Settles .start as :=
  Machine.always_iff_guarded start_tracked (fun _ _ _ => step_tracked) h

/-- The page of the device `a`. -/
def stepA : State → Action → Option State := step ObjectSchema.safeParse (utf16 "a")

/-- Fill the form and submit it. -/
def fillAndSubmit (type name : String) : List Action :=
  [.newEvent, .change .type (utf16 type), .change .name (utf16 name), .submit]

/-- An event fails, and is sent again. -/
def oneEvent : List Action :=
  fillAndSubmit "repair" "pump" ++ [.settle 0 .rejected, .submit, .settle 1 .fulfilled]

theorem oneEvent_tracked : ∃ s, Machine.run stepA .start oneEvent = some s ∧
    ∀ bs cs s₁, oneEvent = bs ++ cs → Machine.run stepA .start bs = some s₁ →
      Tracked s₁ := by
  have hrun : Machine.run stepA .start oneEvent =
      some ⟨⟨false, .empty, [], false⟩, [.finished, .finished]⟩ := by decide
  exact ⟨_, hrun, (tracked_iff hrun).mpr (by decide)⟩

/-- A second event is begun while the first one is in flight. -/
def twoEvents : List Action := fillAndSubmit "repair" "pump" ++ fillAndSubmit "audit" "valve"

/-- Both are in flight; the first one that succeeds clears what is typed, and closes the form. -/
theorem twoEvents_not_tracked : ∃ s, Machine.run stepA .start twoEvents = some s ∧
    s.inFlight = 2 ∧ ¬ Tracked s := by
  obtain ⟨s, hrun⟩ := Option.isSome_iff_exists.mp
    (by decide : (Machine.run stepA .start twoEvents).isSome = true)
  have hcount : (Machine.run stepA .start twoEvents).map State.inFlight = some 2 := by
    decide
  rw [hrun] at hcount
  refine ⟨s, hrun, Option.some.inj hcount, fun htracked => ?_⟩
  rw [Tracked, Option.some.inj hcount] at htracked
  split at htracked <;> cases htracked

end AssetTracker.WebUi.DeviceDetail
