import AssetTracker.Node.Shutdown

/-!
# `/events` (Node service)

What a client of `POST /events` and `GET /events` is told. A request runs with its
responses on record, so that a handler which responds twice, or not at all, shows.

Results:
1. `post_run`, `reported_iff`: a post is reported as it should, unless the body is
   `null`, which cannot be destructured.
2. `get_run`, `get_selects`: a query that names a type ignores the device.
-/

namespace AssetTracker.NodeRequests

open Encoding Effects Text NodeShutdown
open NodeService hiding execute handlePost Response

/-! ## Definitions -/

/-- The collection, and the responses that were sent. -/
abbrev Observed := Collection × List Reply

/-- The effects of one request with nothing else going on. -/
def observe (sorter : Sorter) (env : Env) (bytes : Option ByteArray) (e : Effect) (s : Observed) :
    e.Answer × Observed :=
  match e with
  | .finish reply => ((), (s.1, s.2 ++ [reply]))
  | e =>
    let (answer, docs) := alone sorter env bytes e s.1
    (answer, (docs, s.2))

/-- `POST /events` with this body. -/
def post (sorter : Sorter) (env : Env) (body : ByteArray) (docs : Collection) : Observed :=
  (handlePost.run (observe sorter env (some body)) (docs, [])).2

/-- What `searchParams.get` returns for a parameter that may be there. -/
def param : Option JsString → Value
  | none => some .null
  | some s => some (.str s)

/-- `GET /events` with these parameters. -/
def get (sorter : Sorter) (env : Env) (deviceId type : Option JsString) (docs : Collection) :
    Observed :=
  ((handleGet (param deviceId) (param type)).run (observe sorter env none) (docs, [])).2

def status : Reply → Nat
  | .posted (.created _) => 201
  | .posted (.failed status _) => status
  | .events _ => 200
  | .failed status _ => status
  | .other status => status

/-! ## What is promised -/

/-- The body is JSON, and an event for `createEvent`. -/
def Acceptable (env : Env) (body : ByteArray) : Prop :=
  ∃ v p event, parseBytes body = some v ∧ destructure v = .ok p ∧
    createEvent env.uuid env.now p = .ok event

/-- One response to a post, and what it says. -/
structure Tells (env : Env) (body : ByteArray) (docs docs' : Collection) (reply : Reply) : Prop where
  created : status reply = 201 ↔ Acceptable env body ∧ env.saveError = none
  refused : ¬ Acceptable env body → status reply = 400
  failed : status reply = 500 → Acceptable env body ∧ env.saveError ≠ none
  stored : docs' ≠ docs → status reply = 201

def Reported (env : Env) (body : ByteArray) (docs : Collection) (after : Observed) : Prop :=
  ∃ reply, after.2 = [reply] ∧ Tells env body docs after.1 reply

/-- A parameter that is present and not empty. -/
def Given (p : Option JsString) (s : JsString) : Prop := p = some s ∧ s ≠ []

/-- What a query is asked for by both parameters. -/
structure RespectsFilters (deviceId type : Option JsString) (docs : Collection)
    (events : List Event) : Prop where
  of_device : ∀ s, Given deviceId s → ∀ e ∈ events, isText s e.deviceId = true
  of_type : ∀ t, Given type t → ∀ e ∈ events, isText t e.type = true
  complete : ∀ e ∈ docs, (∀ s, Given deviceId s → isText s e.deviceId = true) →
    (∀ t, Given type t → isText t e.type = true) → project e ∈ events

/-- What it returns: the stored events of the type, or without a type those of the device,
each as often as it is stored. -/
structure Selects (deviceId type : Option JsString) (docs : Collection) (events : List Event) :
    Prop where
  by_type : ∀ t, Given type t → events.Perm ((docs.filter fun e => isText t e.type).map project)
  by_device : ∀ s, Given deviceId s → (∀ t, ¬ Given type t) →
    events.Perm ((docs.filter fun e => isText s e.deviceId).map project)

/-! ## 1. Posts -/

section

variable {sorter : Sorter} {env : Env} {bytes : Option ByteArray} {docs : Collection}
  {sent : List Reply}

theorem execute_observe (p : Params) : (execute p).run (observe sorter env bytes) (docs, sent) =
    match createEvent env.uuid env.now p with
    | .error err => (.error (.thrown err), (docs, sent))
    | .ok event =>
      match env.saveError with
      | some message => (.error (.driver (.failed message)), (docs, sent))
      | none => (.ok event, (docs ++ [event], sent)) := by
  unfold execute
  rw [Prog.perform_bind, Prog.run_op]
  dsimp only [observe, alone]
  cases createEvent env.uuid env.now p with
  | error err => rfl
  | ok event =>
    dsimp only
    rw [Prog.perform_bind, Prog.run_op]
    dsimp only [observe, alone]
    cases env.saveError <;> rfl

/-- What a post leaves, case by case. -/
theorem post_run (sorter : Sorter) (env : Env) (body : ByteArray) (docs : Collection) :
    post sorter env body docs =
      match parseBytes body with
      | none => (docs, [.posted (.failed 400 "invalid JSON body")])
      | some v =>
        match destructure v with
        | .error err => (docs, [(Failure.thrown err).reply])
        | .ok p =>
          match createEvent env.uuid env.now p with
          | .error err => (docs, [(Failure.thrown err).reply])
          | .ok event =>
            match env.saveError with
            | some _ => (docs, [.posted (.failed 500 "internal server error")])
            | none => (docs ++ [event], [.posted (.created event)]) := by
  unfold post handlePost
  rw [Prog.perform_bind, Prog.run_op]
  dsimp only [observe, alone, Option.bind_some]
  cases parseBytes body with
  | none => rfl
  | some v =>
    dsimp only
    cases destructure v with
    | error err => rfl
    | ok p =>
      dsimp only
      rw [Prog.run_bind, execute_observe]
      cases createEvent env.uuid env.now p with
      | error err => rfl
      | ok event => cases env.saveError <;> rfl

/-- Only `null` has no properties to destructure. -/
theorem destructure_error {v : Json} {err : JsError} (h : destructure v = .error err) :
    v = .null ∧ ∃ message, err = .typeError message := by
  cases v with
  | null =>
    cases h
    exact ⟨rfl, _, rfl⟩
  | bool _ | num _ | str _ | arr _ | obj _ => cases h

/-- A body that is JSON is acceptable if `execute` gets as far as the repository with it. -/
theorem acceptable_iff (env : Env) {body : ByteArray} {v : Json}
    (hbody : parseBytes body = some v) : Acceptable env body ↔
      ∃ p event, destructure v = .ok p ∧ createEvent env.uuid env.now p = .ok event := by
  constructor
  · rintro ⟨v', p, event, hv, hp⟩
    obtain rfl := Option.some_inj.mp (hbody.symm.trans hv)
    exact ⟨p, event, hp⟩
  · rintro ⟨p, event, hp⟩
    exact ⟨v, p, event, hbody, hp⟩

/-- A refusal, of a body that is not acceptable. -/
theorem tells_refused {body : ByteArray} {reply : Reply} (h : ¬ Acceptable env body)
    (hstatus : status reply = 400) : Tells env body docs docs reply where
  created := by
    rw [hstatus]
    exact iff_of_false (by decide) fun hcreated => h hcreated.1
  refused _ := hstatus
  failed hfailed := absurd (hstatus.symm.trans hfailed) (by decide)
  stored hne := absurd rfl hne

/-- An acceptable body that the repository does not save. -/
theorem tells_failed {body : ByteArray} {reply : Reply} (h : Acceptable env body)
    (hsave : env.saveError ≠ none) (hstatus : status reply = 500) :
    Tells env body docs docs reply where
  created := by
    rw [hstatus]
    exact iff_of_false (by decide) fun hcreated => hsave hcreated.2
  refused hnot := absurd h hnot
  failed _ := ⟨h, hsave⟩
  stored hne := absurd rfl hne

/-- An acceptable body that is saved. -/
theorem tells_created {body : ByteArray} {docs' : Collection} {reply : Reply}
    (h : Acceptable env body) (hsave : env.saveError = none) (hstatus : status reply = 201) :
    Tells env body docs docs' reply where
  created := iff_of_true hstatus ⟨h, hsave⟩
  refused hnot := absurd h hnot
  failed hfailed := absurd (hstatus.symm.trans hfailed) (by decide)
  stored _ := hstatus

/-- A post is reported as it should, unless its body is the value `null`, from which `execute`
cannot take fields. Any other value that is no object is refused for the fields that it lacks. -/
theorem reported_iff (sorter : Sorter) (env : Env) (body : ByteArray) (docs : Collection) :
    Reported env body docs (post sorter env body docs) ↔ parseBytes body ≠ some .null := by
  rw [post_run]
  cases hbody : parseBytes body with
  | none =>
    refine iff_of_true ⟨_, rfl, tells_refused ?_ rfl⟩ nofun
    rintro ⟨v, p, event, hv, -⟩
    cases hbody.symm.trans hv
  | some v =>
    have hacceptable := acceptable_iff env hbody
    dsimp only
    cases hparams : destructure v with
    | error err =>
      obtain ⟨rfl, message, rfl⟩ := destructure_error hparams
      refine iff_of_false ?_ fun hne => hne rfl
      -- what is thrown is no `ValidationError`
      rintro ⟨reply, hsent, htells⟩
      obtain rfl := List.singleton_inj.mp hsent
      obtain ⟨p, event, hp, -⟩ := hacceptable.mp (htells.failed rfl).1
      cases hp
    | ok p =>
      have hnull : v ≠ .null := by
        rintro rfl
        cases hparams
      refine iff_of_true ?_ fun h => hnull (Option.some_inj.mp h)
      dsimp only
      cases hevent : createEvent env.uuid env.now p with
      | error err =>
        obtain ⟨-, rfl⟩ := createEvent_error.mp hevent
        refine ⟨_, rfl, tells_refused ?_ rfl⟩
        intro h
        obtain ⟨p', event, hp, hcreate⟩ := hacceptable.mp h
        cases hparams.symm.trans hp
        cases hevent.symm.trans hcreate
      | ok event =>
        have h : Acceptable env body := hacceptable.mpr ⟨p, event, hparams, hevent⟩
        dsimp only
        cases hsave : env.saveError with
        | some message => exact ⟨_, rfl, tells_failed h (by rw [hsave]; nofun) rfl⟩
        | none => exact ⟨_, rfl, tells_created h hsave rfl⟩

/-- JSON, but no object. -/
def nullBody : ByteArray := "null".toUTF8

theorem nullBody_parse : parseBytes nullBody = some .null := by
  rw [parseBytes, nullBody, decodeUtf8_toUTF8]
  rfl

/-- `null` is refused like a failure of the repository. -/
theorem null_not_reported : ∃ (sorter : Sorter) (env : Env), env.saveError = none ∧
    (post sorter env nullBody []).2 = [.posted (.failed 500 "internal server error")] ∧
    ¬ Reported env nullBody [] (post sorter env nullBody []) := by
  have hrun := post_run unitSorter ⟨Uuid.numbered 1, 0, none⟩ nullBody []
  rw [nullBody_parse] at hrun
  refine ⟨unitSorter, ⟨Uuid.numbered 1, 0, none⟩, rfl, by rw [hrun]; rfl, ?_⟩
  rw [hrun]
  rintro ⟨reply, hsent, htells⟩
  obtain rfl := List.singleton_inj.mp hsent
  exact (htells.failed rfl).2 rfl

/-! ## 2. Queries -/

theorem truthy_param {p : Option JsString} : truthy (param p) = true ↔ ∃ s, Given p s := by
  cases p with
  | none => exact iff_of_false nofun fun ⟨s, h, _⟩ => nomatch h
  | some s =>
    show (s != []) = true ↔ _
    rw [bne_iff_ne]
    constructor
    · exact fun h => ⟨s, rfl, h⟩
    · rintro ⟨_, h, hs⟩
      cases h
      exact hs

theorem given_unique {p : Option JsString} {s s' : JsString} (h : Given p s)
    (hparam : param p = some (.str s')) : s = s' := by
  obtain ⟨rfl, -⟩ := h
  cases hparam
  rfl

/-- The one response that is sent is the one that the handler returns. -/
theorem handleGet_observe (sorter : Sorter) (env : Env) (bytes : Option ByteArray)
    (docs : Collection) (sent : List Reply) (deviceId type : Value) : ∃ reply err,
    (handleGet deviceId type).run (alone sorter env bytes) docs = (.responded reply err, docs) ∧
      ((handleGet deviceId type).run (observe sorter env bytes) (docs, sent)).2 =
        (docs, sent ++ [reply]) := by
  unfold handleGet
  repeat' split
  all_goals exact ⟨_, _, rfl, rfl⟩

/-- What a query leaves. -/
theorem get_run (sorter : Sorter) (env : Env) (deviceId type : Option JsString)
    (docs : Collection) : get sorter env deviceId type docs =
      (docs, [if truthy (param deviceId) || truthy (param type) then
        queryReply (if truthy (param type) then listByType sorter (param type) docs
          else listByDevice sorter (param deviceId) docs)
        else .failed 400 "deviceId or type is required"]) := by
  obtain ⟨reply, err, halone, hobserve⟩ :=
    handleGet_observe sorter env none docs [] (param deviceId) (param type)
  refine hobserve.trans ?_
  cases hnamed : truthy (param deviceId) || truthy (param type) with
  | true =>
    cases halone.symm.trans (handleGet_alone sorter env (param deviceId) (param type) docs
      (Bool.or_eq_true _ _ ▸ hnamed))
    rfl
  | false =>
    obtain ⟨hdevice, htype⟩ := Bool.or_eq_false_iff.mp hnamed
    unfold handleGet at halone
    rw [if_pos (by rw [hdevice, htype]; rfl)] at halone
    cases halone
    rfl

theorem queryReply_ok {r : Except JsError (List Event)} (h : status (queryReply r) = 200) :
    ∃ events, r = .ok events := by
  cases r with
  | ok events => exact ⟨events, rfl⟩
  | error err => cases h

/-- A query that answers 200 selects by the type if there is one, and by the device if there
is none. -/
theorem get_selects (sorter : Sorter) (env : Env) (deviceId type : Option JsString)
    (docs : Collection) (reply : Reply)
    (hsent : (get sorter env deviceId type docs).2 = [reply]) (hok : status reply = 200) :
    ∃ events, reply = .events events ∧ Selects deviceId type docs events := by
  rw [get_run] at hsent
  obtain rfl := List.singleton_inj.mp hsent
  split at hok
  · next hnamed =>
    rw [if_pos hnamed]
    obtain ⟨events, hlist⟩ := queryReply_ok hok
    refine ⟨events, congrArg queryReply hlist, ?_⟩
    by_cases htype : truthy (param type) = true
    · rw [if_pos htype] at hlist
      obtain ⟨t, ht, -, rfl⟩ := listByType_ok.mp hlist
      obtain ⟨t', ht'⟩ := truthy_param.mp htype
      refine ⟨fun t'' ht'' => ?_, fun _ _ hnone => absurd ht' (hnone t')⟩
      obtain rfl := given_unique ht'' ht
      exact (sorter.perm _).map project
    · rw [if_neg htype] at hlist
      obtain ⟨s, hs, -, rfl⟩ := listByDevice_ok.mp hlist
      refine ⟨fun t ht => absurd (truthy_param.mpr ⟨t, ht⟩) htype, fun s' hs' _ => ?_⟩
      obtain rfl := given_unique hs' hs
      exact (sorter.perm _).map project
  · cases hok

def otherDevice : JsString := utf16 "00000000-0000-4000-8000-000000000002"

def createdType : JsString := utf16 "device.created"

/-- An update of another device than that of `lateEvent`. -/
def otherEvent : Event := { updateEvent with deviceId := some (.str otherDevice) }

/-- Two events that differ in their devices and in their types. -/
def twoDevices : Collection := [otherEvent, lateEvent]

theorem createdType_reply : (get unitSorter ⟨Uuid.numbered 1, 0, none⟩ (some otherDevice)
    (some createdType) twoDevices).2 = [.events [lateEvent]] := by
  have hlist : listByType unitSorter (param (some createdType)) twoDevices = .ok [lateEvent] := by
    refine listByType_ok.mpr ⟨createdType, rfl, by decide, ?_⟩
    have hfilter : twoDevices.filter (fun doc => isText createdType doc.type) = [lateEvent] := by
      have hother : isText createdType otherEvent.type = false := by decide
      have hlate : isText createdType lateEvent.type = true := beq_self_eq_true _
      simp only [twoDevices, List.filter_cons, hother, hlate, List.filter_nil, if_true]
      rfl
    rw [findByType, hfilter]
    exact (congrArg (List.map project) (List.mergeSort_singleton lateEvent)).symm
  rw [get_run, hlist]
  rfl

/-- A query with both selects by the type. -/
theorem get_selects_created :
    ∃ events, Reply.events [lateEvent] = .events events ∧
      Selects (some otherDevice) (some createdType) twoDevices events :=
  get_selects unitSorter ⟨Uuid.numbered 1, 0, none⟩ (some otherDevice) (some createdType)
    twoDevices (.events [lateEvent]) createdType_reply rfl

/-- An event of another device is returned when the query names a type. -/
theorem get_ignores_device : ∃ events,
    (get unitSorter ⟨Uuid.numbered 1, 0, none⟩ (some otherDevice) (some createdType)
      twoDevices).2 = [.events events] ∧
    ¬ RespectsFilters (some otherDevice) (some createdType) twoDevices events := by
  refine ⟨[lateEvent], createdType_reply, fun h => ?_⟩
  have hdevice := h.of_device otherDevice ⟨rfl, by decide⟩ lateEvent List.mem_cons_self
  revert hdevice
  decide

end

end AssetTracker.NodeRequests
