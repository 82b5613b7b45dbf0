import AssetTracker.Node.Consumer
import Mathlib.Data.List.Lex

/-!
# The event log (Node service)

What is in the collection after any sequence of requests and messages, and what the
queries return. Nothing that a call returned is lost, doubled or changed
(`event_log_faithful`). What is stored need not be an `Event` as the typedef describes
it: the three optional fields are not checked (`stored_not_wellFormed`).

Results:
1. `serve_run`, `logAll_run`: the collection after a run.
2. `stored_wellFormed_iff`: the runs after which all events are well-formed, and the
   parameters for which `createEvent` keeps to the typedef.
3. `event_log_faithful`: the queries.
-/

namespace AssetTracker.NodeService

open Encoding Text ConsumerLemmas

/-! ## Definitions -/

/-- What reaches the service: a `POST /events`, or a message. -/
inductive Input where
  | post (body : ByteArray)
  | message (m : KafkaMessage)

/-- The collection after the service has handled an input. -/
def handle (env : Env) (input : Input) (docs : Collection) : Collection :=
  match input with
  | .post body => ((handlePost env body).run docs).2
  | .message m => ((handleMessage env m).run docs).2

/-- The collection after a sequence of inputs. -/
def serve : List (Env × Input) → Collection → Collection
  | [], docs => docs
  | (env, input) :: inputs, docs => serve inputs (handle env input docs)

/-- Calls of `LogEventUseCase.execute`, one after another, with what they return. -/
def logAll : List (Env × Params) → Collection → List (Except JsError Event) × Collection
  | [], docs => ([], docs)
  | (env, p) :: calls, docs =>
    let (r, docs) := (execute env p).run docs
    let (rs, docs) := logAll calls docs
    (r :: rs, docs)

/-- A string or null. -/
def isNullable : Value → Bool
  | some .null => true
  | some (.str _) => true
  | _ => false

/-- The typedef `Event`. -/
structure WellFormed (e : Event) : Prop where
  id : ∃ s, e.id = some (.str s)
  type : ∃ s, e.type = some (.str s) ∧ trim s ≠ []
  deviceId : ∃ s, e.deviceId = some (.str s) ∧ isUuidV4 s = true
  name : ∃ s, e.name = some (.str s) ∧ trim s ≠ []
  timestamp : ∃ s, e.timestamp = some (.str s)
  actor : isNullable e.actor = true
  description : isNullable e.description = true

/-- The optional parameters are of the types that the doc comment of `createEvent` gives;
a timestamp that is replaced may be anything. -/
structure Params.Typed (p : Params) : Prop where
  timestamp : truthy p.timestamp = true → isString p.timestamp = true
  actor : p.actor = none ∨ isNullable p.actor = true
  description : p.description = none ∨ isNullable p.description = true

/-! ## 1. Runs -/

/-- The event that an input stores, if it stores one. -/
def loggedBy (env : Env) : Input → Option Event
  | .post body => (paramsOf body).bind (logged env)
  | .message m => stored env m

theorem handle_eq (env : Env) (input : Input) (docs : Collection) :
    handle env input docs = docs ++ (loggedBy env input).toList := by
  cases input with
  | post body => exact handlePost_run.2
  | message m => rw [handle, handleMessage_run, loggedBy]

theorem serve_run (inputs : List (Env × Input)) (docs : Collection) :
    serve inputs docs = docs ++ inputs.filterMap fun i => loggedBy i.1 i.2 := by
  induction inputs generalizing docs with
  | nil => exact (List.append_nil docs).symm
  | cons i inputs ih =>
    rw [serve, handle_eq, ih, List.append_assoc, filterMap_cons_toList]

/-- The calls return what they store. -/
theorem logAll_run (calls : List (Env × Params)) (docs : Collection) :
    (logAll calls docs).1.filterMap Except.toOption = calls.filterMap (fun c => logged c.1 c.2) ∧
    (logAll calls docs).2 = docs ++ calls.filterMap fun c => logged c.1 c.2 := by
  induction calls generalizing docs with
  | nil => exact ⟨rfl, (List.append_nil docs).symm⟩
  | cons c calls ih =>
    obtain ⟨hdocs, hans⟩ := execute_run c.1 c.2 docs
    obtain ⟨ih₁, ih₂⟩ := ih (docs ++ (logged c.1 c.2).toList)
    simp only [logAll, hdocs, ih₁, ih₂, List.append_assoc, filterMap_cons_toList, hans, and_self]

/-! ## 2. Well-formed events -/

theorem isNullable_orDefault {v : Value} :
    isNullable (orDefault v .null) = true ↔ v = none ∨ isNullable v = true := by
  cases v with
  | none => exact ⟨fun _ => .inl rfl, fun _ => rfl⟩
  | some v => exact ⟨.inr, fun h => h.resolve_left nofun⟩

/-- An event is well-formed when the optional parameters have their types. -/
theorem event_wellFormed_iff {p : Params} {t d n : JsString} (h : p.Accepted t d n) (uuid : Uuid)
    (now : Instant) : WellFormed (p.event uuid now) ↔ p.Typed := by
  have htime : (∃ s, (p.event uuid now).timestamp = some (.str s)) ↔
      (truthy p.timestamp = true → isString p.timestamp = true) := by
    show (∃ s, (if truthy p.timestamp = true then p.timestamp else text (toISOString now)) =
      some (.str s)) ↔ _
    split
    · next ht =>
      rw [forall_prop_of_true ht]
      cases p.timestamp with
      | none => exact ⟨nofun, nofun⟩
      | some v => cases v <;> simp [isString]
    · next ht => exact ⟨fun _ h => absurd h ht, fun _ => ⟨_, rfl⟩⟩
  constructor
  · intro hw
    exact ⟨htime.mp hw.timestamp, isNullable_orDefault.mp hw.actor,
      isNullable_orDefault.mp hw.description⟩
  · intro ht
    exact ⟨⟨_, rfl⟩, ⟨t, h.type, h.type_trim⟩, ⟨d, h.deviceId, h.uuid⟩, ⟨n, h.name, h.name_trim⟩,
      htime.mpr ht.timestamp, isNullable_orDefault.mpr ht.actor,
      isNullable_orDefault.mpr ht.description⟩

/-- The event of a message is well-formed. -/
theorem stored_wellFormed {env : Env} {m : KafkaMessage} {e : Event} (h : stored env m = some e) :
    WellFormed e := by
  unfold stored at h
  split at h
  · obtain ⟨f, hf, rfl⟩ := Option.map_eq_some_iff.mp h
    obtain ⟨bytes, -, hbytes⟩ := Option.bind_eq_some_iff.mp hf
    obtain ⟨v, -, hv⟩ := Option.bind_eq_some_iff.mp hbytes
    obtain ⟨members, -, -, -, -, -, hmem, hu, hn, -⟩ := fieldsOf_eq_some.mp hv
    exact ⟨⟨_, rfl⟩, ⟨_, rfl, trim_of_mem hmem⟩, ⟨_, rfl, hu⟩, ⟨_, rfl, hn⟩, ⟨_, rfl⟩, rfl, rfl⟩
  · cases h

/-- After a run over an empty collection all events are well-formed exactly if in every
body that was accepted and saved the optional fields have their types; and `createEvent`
keeps to the typedef for the parameters of these types, and for those that it refuses. -/
theorem stored_wellFormed_iff (inputs : List (Env × Input)) (p : Params) (uuid : Uuid)
    (now : Instant) :
    ((∀ e ∈ serve inputs [], WellFormed e) ↔
      ∀ env body p, (env, Input.post body) ∈ inputs → env.saveError = none →
        paramsOf body = some p → p.errors = [] → p.Typed) ∧
    ((∀ e, createEvent uuid now p = .ok e → WellFormed e) ↔ (p.errors = [] → p.Typed)) := by
  constructor
  · rw [serve_run, List.nil_append]
    constructor
    · intro h env body p hin hsave hp herr
      obtain ⟨t, d, n, hacc⟩ := errors_eq_nil.mp herr
      refine (event_wellFormed_iff hacc env.uuid env.now).mp (h _ ?_)
      refine List.mem_filterMap.mpr ⟨_, hin, ?_⟩
      rw [loggedBy, hp, Option.bind_some]
      exact logged_eq_some.mpr ⟨hsave, ⟨t, d, n, hacc⟩, rfl⟩
    · intro h e he
      obtain ⟨⟨env, input⟩, hin, hlog⟩ := List.mem_filterMap.mp he
      cases input with
      | message m => exact stored_wellFormed hlog
      | post body =>
        obtain ⟨p, hp, hlog⟩ := Option.bind_eq_some_iff.mp hlog
        obtain ⟨hsave, ⟨t, d, n, hacc⟩, rfl⟩ := logged_eq_some.mp hlog
        exact (event_wellFormed_iff hacc env.uuid env.now).mpr
          (h env body p hin hsave hp (errors_eq_nil.mpr ⟨t, d, n, hacc⟩))
  · constructor
    · intro h herr
      obtain ⟨t, d, n, hacc⟩ := errors_eq_nil.mp herr
      exact (event_wellFormed_iff hacc uuid now).mp (h _ (createEvent_ok.mpr ⟨⟨t, d, n, hacc⟩, rfl⟩))
    · intro h e he
      obtain ⟨⟨t, d, n, hacc⟩, rfl⟩ := createEvent_ok.mp he
      exact (event_wellFormed_iff hacc uuid now).mpr (h (errors_eq_nil.mpr ⟨t, d, n, hacc⟩))

/-- A body whose timestamp is a number. -/
def numberBody : ByteArray :=
  ("\x7b\x22type\x22:\x22device.moved\x22,\x22deviceId\x22:\x2200000000-0000-4000-8000-000000000001\x22," ++
    "\x22name\x22:\x22laptop\x22,\x22timestamp\x22:5\x7d").toUTF8

theorem numberBody_params : ∃ p, paramsOf numberBody = some p ∧ p.errors = [] ∧ ¬ p.Typed := by
  have h : (paramsOf numberBody).any (fun p =>
      p.errors.isEmpty && (truthy p.timestamp && !isString p.timestamp)) = true := by
    rw [paramsOf, numberBody, parseBytes, decodeUtf8_toUTF8]
    decide +kernel
  obtain ⟨p, hp, hcheck⟩ := (Option.any_eq_true _ _).mp h
  rw [Bool.and_eq_true, Bool.and_eq_true, List.isEmpty_iff, Bool.not_eq_true'] at hcheck
  obtain ⟨herr, ht, hs⟩ := hcheck
  refine ⟨p, hp, herr, fun htyped => ?_⟩
  rw [htyped.timestamp ht] at hs
  cases hs

/-- Not all stored events are well-formed. -/
theorem stored_not_wellFormed :
    ¬ ∀ (inputs : List (Env × Input)), ∀ e ∈ serve inputs [], WellFormed e := by
  intro hall
  obtain ⟨p, hp, herr, hnot⟩ := numberBody_params
  obtain ⟨t, d, n, hacc⟩ := errors_eq_nil.mp herr
  let env : Env := ⟨Uuid.numbered 2, 0, none⟩
  refine hnot ((event_wellFormed_iff hacc env.uuid env.now).mp
    (hall [(env, .post numberBody)] _ ?_))
  rw [serve_run, List.nil_append]
  refine List.mem_filterMap.mpr ⟨_, List.mem_singleton_self _, ?_⟩
  rw [loggedBy, hp, Option.bind_some]
  exact logged_eq_some.mpr ⟨rfl, ⟨t, d, n, hacc⟩, rfl⟩

/-! ## 3. Queries -/

/-- What a query by device returns, when it succeeds. -/
theorem listByDevice_ok {sorter : Sorter} {d : Value} {docs : Collection} {es : List Event} :
    listByDevice sorter d docs = .ok es ↔
      ∃ s, d = some (.str s) ∧ isUuidV4 s = true ∧ es = findByDeviceId sorter s docs := by
  constructor
  · intro h
    unfold listByDevice at h
    split at h
    · cases h
    · next hblank =>
      obtain ⟨s, rfl, -⟩ := blank_eq_false.mp (Bool.not_eq_true _ ▸ hblank)
      dsimp only at h
      split at h
      · next hu =>
        cases h
        exact ⟨s, rfl, hu, rfl⟩
      · cases h
  · rintro ⟨s, rfl, hu, rfl⟩
    have hblank : blank (some (.str s)) = false :=
      blank_eq_false.mpr ⟨s, rfl, trim_of_isUuidV4 hu⟩
    simp [listByDevice, hblank, hu]

/-- What a query by type returns, when it succeeds. -/
theorem listByType_ok {sorter : Sorter} {t : Value} {docs : Collection} {es : List Event} :
    listByType sorter t docs = .ok es ↔
      ∃ s, t = some (.str s) ∧ trim s ≠ [] ∧ es = findByType sorter s docs := by
  constructor
  · intro h
    unfold listByType at h
    split at h
    · cases h
    · next hblank =>
      obtain ⟨s, rfl, hs⟩ := blank_eq_false.mp (Bool.not_eq_true _ ▸ hblank)
      cases h
      exact ⟨s, rfl, hs, rfl⟩
  · rintro ⟨s, rfl, hs, rfl⟩
    simp [listByType, blank_eq_false.mpr ⟨s, rfl, hs⟩]

/-- The projection of a query gives back what `createEvent` made. -/
theorem project_event (p : Params) (uuid : Uuid) (now : Instant) :
    project (p.event uuid now) = p.event uuid now := rfl

/-- A query returns the documents that it selects, newest first. -/
theorem query_perm (sorter : Sorter) (select : Event → Bool) {docs : Collection}
    (h : ∀ e ∈ docs, project e = e) :
    ((sorter.sort (docs.filter select)).map project).Perm (docs.filter select) ∧
    ((sorter.sort (docs.filter select)).map project).Pairwise
      fun a b => sorter.le b.timestamp a.timestamp := by
  have hsame : (sorter.sort (docs.filter select)).map project = sorter.sort (docs.filter select) := by
    refine (List.map_congr_left fun e he => ?_).trans (List.map_id _)
    exact h e (List.mem_of_mem_filter ((sorter.perm _).mem_iff.mp he))
  rw [hsame]
  exact ⟨sorter.perm _, sorter.descending _⟩

/-- After any sequence of calls over an empty collection: every event that was returned can
be asked for, by its device and by its type; and a query that succeeds gives precisely the
returned events of this device, or type, each as often and as it was returned, in
descending order of their timestamps. -/
theorem event_log_faithful (sorter : Sorter) (calls : List (Env × Params)) :
    let returned := (logAll calls []).1.filterMap Except.toOption
    let docs := (logAll calls []).2
    (∀ e ∈ returned, (∃ es, listByDevice sorter e.deviceId docs = .ok es) ∧
      ∃ es, listByType sorter e.type docs = .ok es) ∧
    (∀ d es, listByDevice sorter d docs = .ok es → ∃ s, d = some (.str s) ∧
      es.Perm (returned.filter fun e => isText s e.deviceId) ∧
      es.Pairwise fun a b => sorter.le b.timestamp a.timestamp) ∧
    ∀ t es, listByType sorter t docs = .ok es → ∃ s, t = some (.str s) ∧
      es.Perm (returned.filter fun e => isText s e.type) ∧
      es.Pairwise fun a b => sorter.le b.timestamp a.timestamp := by
  obtain ⟨hret, hdocs⟩ := logAll_run calls []
  rw [List.nil_append] at hdocs
  simp only [hret, hdocs]
  have hproject : ∀ e ∈ calls.filterMap fun c => logged c.1 c.2, project e = e := by
    intro e he
    obtain ⟨c, -, hc⟩ := List.mem_filterMap.mp he
    obtain ⟨-, -, rfl⟩ := logged_eq_some.mp hc
    exact project_event c.2 c.1.uuid c.1.now
  refine ⟨fun e he => ?_, fun d es h => ?_, fun t es h => ?_⟩
  · obtain ⟨c, -, hc⟩ := List.mem_filterMap.mp he
    obtain ⟨-, ⟨t, d, n, hacc⟩, rfl⟩ := logged_eq_some.mp hc
    exact ⟨⟨_, listByDevice_ok.mpr ⟨d, hacc.deviceId, hacc.uuid, rfl⟩⟩,
      _, listByType_ok.mpr ⟨t, hacc.type, hacc.type_trim, rfl⟩⟩
  · obtain ⟨s, rfl, -, rfl⟩ := listByDevice_ok.mp h
    exact ⟨s, rfl, query_perm sorter _ hproject⟩
  · obtain ⟨s, rfl, -, rfl⟩ := listByType_ok.mp h
    exact ⟨s, rfl, query_perm sorter _ hproject⟩

/-- The code units of a timestamp; nothing for what is not a string. -/
def units : Value → List Nat
  | some (.str s) => s.map UInt16.toNat
  | _ => []

def newerFirst (a b : Event) : Bool := decide (units b.timestamp ≤ units a.timestamp)

theorem newerFirst_trans (a b c : Event) (hab : newerFirst a b = true) (hbc : newerFirst b c = true) :
    newerFirst a c = true := by
  rw [newerFirst, decide_eq_true_eq] at hab hbc ⊢
  exact le_trans hbc hab

theorem newerFirst_total (a b : Event) : (newerFirst a b || newerFirst b a) = true := by
  rw [Bool.or_eq_true, newerFirst, newerFirst, decide_eq_true_eq, decide_eq_true_eq]
  exact le_total _ _

/-- A driver that compares timestamps code unit by code unit. -/
def unitSorter : Sorter where
  le a b := units a ≤ units b
  sort docs := docs.mergeSort newerFirst
  perm docs := List.mergeSort_perm docs newerFirst
  descending docs := (List.pairwise_mergeSort newerFirst_trans newerFirst_total docs).imp
    fun hab => of_decide_eq_true hab

/-- Two events of one device and a call that is refused. -/
def threeCalls : List (Env × Params) :=
  [(⟨Uuid.numbered 1, 0, none⟩, createdFields.params),
    (⟨Uuid.numbered 2, 0, none⟩, { createdFields.params with name := none }),
    (⟨Uuid.numbered 3, 0, none⟩, { createdFields.params with timestamp := none })]

theorem event_log_faithful_three :
    ∀ e ∈ (logAll threeCalls []).1.filterMap Except.toOption,
      ∃ es, listByDevice unitSorter e.deviceId (logAll threeCalls []).2 = .ok es :=
  fun e he => ((event_log_faithful unitSorter threeCalls).1 e he).1

end AssetTracker.NodeService
