import AssetTracker.Lib.Pool
import AssetTracker.Node.EventLog

/-!
# Graceful shutdown (Node service)

Requests, messages and the function `shutdown` of `main`, interleaved. Each is a
thread with one effect for every point at which it waits: for a body, for
MongoDB, for the response to be finished, for the consumer. The README promises
that requests in flight complete before exit. `shutdown` does not wait for
`server.close()`; what it waits for is the disconnect of the consumer.

Results:
1. `handlePost_alone`, `handleMessage_alone`, `handleGet_alone`: without other
   threads the handlers are those of the use cases.
2. `drains`: the promise is kept by the runs in which that disconnect outlasts
   all open work.
3. `not_drained`: one that breaks it.
-/

namespace AssetTracker.NodeShutdown

open Encoding Effects Text NodeService

/-! ## Effects -/

/-- An error of the driver. After `mongoClient.close()` every operation fails. -/
inductive DriverError where
  | closed
  | failed (message : String)
deriving DecidableEq, Repr

inductive Query where
  | byDeviceId (deviceId : JsString)
  | byType (type : JsString)
deriving DecidableEq, Repr

inductive Reply where
  | posted (r : NodeService.Response)
  | events (events : List Event)
  | failed (status : Nat) (error : String)
  | other (status : Nat)

inductive Effect where
  /-- `parseBody`, up to the event `end` or `error`. -/
  | body
  /-- `crypto.randomUUID` and the clock. -/
  | fresh
  | insertOne (event : Event)
  | find (query : Query)
  /-- `ping`, or the timeout that races it. -/
  | ping
  /-- `res.end`, up to the event `finish`. -/
  | finish (reply : Reply)
  /-- `stop` of the consumer, which never rejects. -/
  | stopConsumer
  | closeMongo

abbrev Effect.Answer : Effect → Type
  | body => Option ByteArray
  | fresh => Uuid × Instant
  | insertOne _ => Except DriverError Unit
  | find _ => Except DriverError (List Event)
  | ping => Bool
  | finish _ => Unit
  | stopConsumer => Unit
  | closeMongo => Unit

abbrev Program (α : Type) := Prog Effect.Answer α

/-- What a thread has done when it returns, with the error of MongoDB that it logs. -/
inductive Outcome where
  | responded (reply : Reply) (err : Option DriverError)
  | handled (err : Option DriverError)
  | shutDown

def Outcome.error : Outcome → Option DriverError
  | responded _ err => err
  | handled err => err
  | shutDown => none

/-! ## Handlers -/

/-- An exception of `LogEventUseCase.execute`. -/
inductive Failure where
  | thrown (err : JsError)
  | driver (err : DriverError)

def Failure.error : Failure → Option DriverError
  | thrown _ => none
  | driver err => some err

/-- `LogEventUseCase.execute`. -/
def execute (p : Params) : Program (Except Failure Event) := do
  let (uuid, now) ← Prog.perform Effect.fresh
  match createEvent uuid now p with
  | .error err => return .error (.thrown err)
  | .ok event =>
    match ← Prog.perform (Effect.insertOne event) with
    | .error err => return .error (.driver err)
    | .ok () => return .ok event

def respond (reply : Reply) (err : Option DriverError) : Program Outcome := do
  Prog.perform (Effect.finish reply)
  return .responded reply err

def Failure.reply : Failure → Reply
  | thrown (.validation errors) => .posted (.failed 400 (JsError.validation errors).message)
  | _ => .posted (.failed 500 "internal server error")

def handlePost : Program Outcome := do
  match (← Prog.perform Effect.body).bind parseBytes with
  | none => respond (.posted (.failed 400 "invalid JSON body")) none
  | some body =>
    match destructure body with
    | .error err => respond (Failure.thrown err).reply none
    | .ok p =>
      match ← execute p with
      | .error failure => respond failure.reply failure.error
      | .ok event => respond (.posted (.created event)) none

/-- `handleGet`, after the validation of its parameter. -/
def answerQuery (query : Query) : Program Outcome := do
  match ← Prog.perform (Effect.find query) with
  | .error err => respond (.failed 500 "internal server error") (some err)
  | .ok events => respond (.events events) none

/-- `deviceId` and `type` are the parameters of the query string, or null. -/
def handleGet (deviceId type : Value) : Program Outcome :=
  if !truthy deviceId && !truthy type then
    respond (.failed 400 "deviceId or type is required") none
  else if truthy type then
    match type with
    | some (.str s) =>
      if blank type then respond (.failed 400 "type is required") none else answerQuery (.byType s)
    | _ => respond (.failed 400 "type is required") none
  else
    match deviceId with
    | some (.str s) =>
      if blank deviceId then respond (.failed 400 "deviceId is required") none
      else if isUuidV4 s then answerQuery (.byDeviceId s)
      else respond (.failed 400 "deviceId must be a valid UUID v4") none
    | _ => respond (.failed 400 "deviceId is required") none

def handleReady : Program Outcome := do
  if ← Prog.perform Effect.ping then respond (.other 200) none else respond (.other 503) none

/-- `#handleMessage`. Whatever is thrown is logged. -/
def handleMessage (message : KafkaMessage) : Program Outcome :=
  match valueToString message with
  | .error _ => return .handled none
  | .ok raw =>
    match Encoding.parse raw with
    | none => return .handled none
    | some event =>
      match validate event, messageParams event with
      | .ok none, .ok p => do
        match ← execute p with
        | .error failure => return .handled failure.error
        | .ok _ => return .handled none
      | _, _ => return .handled none

/-- `shutdown`, after `server.close()`. -/
def shutdown (kafkaConsumer : Bool) : Program Outcome := do
  if kafkaConsumer then
    Prog.perform Effect.stopConsumer
  Prog.perform Effect.closeMongo
  return .shutDown

/-! ## The process -/

structure Service where
  /-- The server accepts requests. -/
  accepting : Bool
  /-- The consumer delivers messages. -/
  delivering : Bool
  mongoOpen : Bool
  docs : Collection

/-- `main`, after `server.listen`, with the consumer if `KAFKA_BROKER` is set. -/
def Service.start (kafkaConsumer : Bool) (docs : Collection) : Service :=
  ⟨true, kafkaConsumer, true, docs⟩

/-- The requests that the callback of the server sends to different handlers. `other` is
answered without waiting for anything. -/
inductive Request where
  | postEvents
  | getEvents (deviceId type : Value)
  | ready
  | other (status : Nat)

inductive Work where
  | request (r : Request)
  | message (m : KafkaMessage)
  /-- SIGTERM or SIGINT. -/
  | signal

def Work.isSignal : Work → Bool
  | signal => true
  | request _ => false
  | message _ => false

def Request.handler : Request → Program Outcome
  | postEvents => handlePost
  | getEvents deviceId type => handleGet deviceId type
  | ready => handleReady
  | other status => respond (.other status) none

/-- What the environment decides when an effect happens. -/
inductive Input where
  | body (bytes : Option ByteArray)
  | fresh (uuid : Uuid) (now : Instant)
  /-- MongoDB refuses the operation. -/
  | refused (message : String)
  /-- The operation succeeds, or what was waited for happens. -/
  | done

/-- Work starts while its source is there; `shutdown` calls `server.close()` first. -/
def Service.enter (s : Service) : Work → Option Service
  | .request _ => if s.accepting then some s else none
  | .message _ => if s.delivering then some s else none
  | .signal => some { s with accepting := false }

def Service.insertOne (s : Service) (event : Event) : Input → Option (Except DriverError Unit × Service)
  | .done =>
    some (if s.mongoOpen then (.ok (), { s with docs := s.docs ++ [event] }) else (.error .closed, s))
  | .refused message => some (.error (if s.mongoOpen then .failed message else .closed), s)
  | _ => none

def Service.find (sorter : Sorter) (s : Service) (query : Query) :
    Input → Option (Except DriverError (List Event) × Service)
  | .done =>
    let found := match query with
      | .byDeviceId deviceId => findByDeviceId sorter deviceId s.docs
      | .byType type => findByType sorter type s.docs
    some (if s.mongoOpen then .ok found else .error .closed, s)
  | .refused message => some (.error (if s.mongoOpen then .failed message else .closed), s)
  | _ => none

def Service.handle (sorter : Sorter) (e : Effect) (x : Input) (s : Service) :
    Option (e.Answer × Service) :=
  match e, x with
  | .body, .body bytes => some (bytes, s)
  | .fresh, .fresh uuid now => some ((uuid, now), s)
  | .insertOne event, x => s.insertOne event x
  | .find query, x => s.find sorter query x
  | .ping, .done => some (s.mongoOpen, s)
  | .ping, .refused _ => some (false, s)
  | .finish _, .done => some ((), s)
  | .stopConsumer, .done => some ((), { s with delivering := false })
  -- the disconnect fails, and messages may still be delivered
  | .stopConsumer, .refused _ => some ((), s)
  | .closeMongo, .done => some ((), { s with mongoOpen := false })
  | _, _ => none

def system (kafkaConsumer : Bool) (sorter : Sorter) :
    System Work Input Effect.Answer Outcome Service where
  enter q s := s.enter q
  body
    | .request r => r.handler
    | .message m => handleMessage m
    | .signal => shutdown kafkaConsumer
  handle := Service.handle sorter

abbrev Process := Pool Work Effect.Answer Outcome Service

abbrev Task := Thread Work Effect.Answer Outcome

abbrev Action := PoolAction Work Input

/-! ## What is promised -/

/-- Every request that was accepted has its response finished, and every message that was
delivered is through with its save. -/
def Idle (p : Process) : Prop :=
  ∀ t ∈ p.threads, t.label.isSignal = false → t.returned?.isSome = true

/-- `mongoClient.close()` is called next. -/
def Closing (t : Task) : Prop := ∃ k, t.prog = .op Effect.closeMongo k

structure Drained (p : Process) : Prop where
  closed_last : ∀ t ∈ p.threads, Closing t → Idle p
  idle_after : p.shared.mongoOpen = false → Idle p
  not_refused : ∀ t ∈ p.threads, ∀ o, t.returned? = some o → o.error ≠ some .closed

/-- The function `shutdown` waits for the consumer. -/
def Stopping (t : Task) : Prop := ∃ k, t.prog = .op Effect.stopConsumer k

/-- When the wait for the consumer ends, or a signal comes where there is no consumer, no
request and no message is open; and no message is delivered after that. It is a condition on the
state before the step at which `shutdown` goes on to `mongoClient.close`: the function waits for
nothing else, since `server.close` is called and not awaited. Excluded are the runs in which work
is open at that moment, as a request is that takes longer than the disconnect of the consumer, or
one that has come before the signal where no consumer is configured. -/
def Outlasts (kafkaConsumer : Bool) (p : Process) : Action → Prop
  | .spawn (.request _) => True
  | .spawn (.message _) => ∀ t ∈ p.threads, t.label.isSignal = true → Stopping t
  | .spawn .signal => kafkaConsumer = false → Idle p
  | .run i _ => ∀ t, p.threads[i]? = some t → Stopping t → Idle p

/-! ## 1. One handler alone -/

/-- The effects of one request or message with nothing else going on. -/
def alone (sorter : Sorter) (env : Env) (bytes : Option ByteArray) :
    (e : Effect) → Collection → e.Answer × Collection
  | .body, docs => (bytes, docs)
  | .fresh, docs => ((env.uuid, env.now), docs)
  | .insertOne event, docs =>
    match env.saveError with
    | some message => (.error (.failed message), docs)
    | none => (.ok (), docs ++ [event])
  | .find (.byDeviceId deviceId), docs => (.ok (findByDeviceId sorter deviceId docs), docs)
  | .find (.byType type), docs => (.ok (findByType sorter type docs), docs)
  | .ping, docs => (true, docs)
  | .finish _, docs => ((), docs)
  | .stopConsumer, docs => ((), docs)
  | .closeMongo, docs => ((), docs)

section

variable {sorter : Sorter} {env : Env} {bytes : Option ByteArray} {docs : Collection}

theorem execute_alone (p : Params) : (execute p).run (alone sorter env bytes) docs =
    match createEvent env.uuid env.now p with
    | .error err => (.error (.thrown err), docs)
    | .ok event =>
      match env.saveError with
      | some message => (.error (.driver (.failed message)), docs)
      | none => (.ok event, docs ++ [event]) := by
  unfold execute
  rw [Prog.perform_bind, Prog.run_op]
  dsimp only [alone]
  cases createEvent env.uuid env.now p with
  | error err => rfl
  | ok event =>
    dsimp only
    rw [Prog.perform_bind, Prog.run_op]
    dsimp only [alone]
    cases env.saveError <;> rfl

/-- Alone, a request stores and answers what `EventHandler.handlePost` does. -/
theorem handlePost_alone (sorter : Sorter) (env : Env) (body : ByteArray) (docs : Collection) :
    ∃ r err docs', (NodeService.handlePost env body).run docs = (.ok r, docs') ∧
      handlePost.run (alone sorter env (some body)) docs = (.responded (.posted r) err, docs') := by
  unfold NodeService.handlePost handlePost
  rw [Prog.perform_bind, Prog.run_op]
  dsimp only [alone, Option.bind_some]
  cases parseBytes body with
  | none => exact ⟨_, _, _, rfl, rfl⟩
  | some v =>
    dsimp only
    rw [run_tryCatch, run_bind, run_lift]
    cases destructure v with
    | error err => cases err <;> exact ⟨_, _, _, rfl, rfl⟩
    | ok p =>
      dsimp only
      rw [run_bind, execute_eq, Prog.run_bind, execute_alone]
      cases createEvent env.uuid env.now p with
      | error err => cases err <;> exact ⟨_, _, _, rfl, rfl⟩
      | ok event => cases env.saveError <;> exact ⟨_, _, _, rfl, rfl⟩

/-- Alone, a message stores what `#handleMessage` stores. -/
theorem handleMessage_alone (sorter : Sorter) (env : Env) (message : KafkaMessage)
    (docs : Collection) :
    ∃ err, (handleMessage message).run (alone sorter env bytes) docs =
      (.handled err, ((NodeService.handleMessage env message).run docs).2) := by
  unfold NodeService.handleMessage handleMessage
  rw [run_tryCatch, run_bind, run_lift]
  cases valueToString message with
  | error err => exact ⟨_, rfl⟩
  | ok raw =>
    dsimp only
    cases Encoding.parse raw with
    | none => exact ⟨_, rfl⟩
    | some event =>
      dsimp only
      rw [run_bind, run_lift]
      cases validate event with
      | error err => exact ⟨_, rfl⟩
      | ok warning =>
        cases warning with
        | some w => exact ⟨_, rfl⟩
        | none =>
          dsimp only
          rw [run_bind, run_lift]
          cases messageParams event with
          | error err => exact ⟨_, rfl⟩
          | ok p =>
            dsimp only
            rw [run_bind, execute_eq, Prog.run_bind, execute_alone]
            cases createEvent env.uuid env.now p with
            | error err => exact ⟨_, rfl⟩
            | ok event => cases env.saveError <;> exact ⟨_, rfl⟩

/-- What `handleGet` answers to the result of its use case. -/
def queryReply : Except JsError (List Event) → Reply
  | .ok events => .events events
  | .error err => .failed 400 err.message

theorem blank_of_no_string {v : Value} (h : ∀ s, v ≠ some (.str s)) : blank v = true := by
  rw [← Bool.not_eq_false]
  intro hb
  obtain ⟨s, rfl, -⟩ := blank_eq_false.mp hb
  exact h s rfl

/-- Alone, a query that names a parameter answers what its use case returns. -/
theorem handleGet_alone (sorter : Sorter) (env : Env) (deviceId type : Value) (docs : Collection)
    (h : truthy deviceId = true ∨ truthy type = true) :
    (handleGet deviceId type).run (alone sorter env bytes) docs =
      (.responded (queryReply (if truthy type then listByType sorter type docs
        else listByDevice sorter deviceId docs)) none, docs) := by
  have hnone : (!truthy deviceId && !truthy type) = false := by
    obtain h | h := h <;> simp [h]
  unfold handleGet
  rw [if_neg (by rw [hnone]; exact Bool.false_ne_true)]
  cases htype : truthy type with
  | true =>
    rw [if_pos rfl, if_pos rfl]
    unfold listByType
    split
    · next s => cases blank (some (.str s)) <;> rfl
    · next hne =>
      rw [blank_of_no_string hne]
      rfl
  | false =>
    rw [if_neg Bool.false_ne_true, if_neg Bool.false_ne_true]
    by_cases hs : ∃ s, deviceId = some (.str s)
    · obtain ⟨s, rfl⟩ := hs
      dsimp only [listByDevice]
      split
      · rfl
      · split <;> rfl
    · have hne (s : JsString) : deviceId ≠ some (.str s) := fun h => hs ⟨s, h⟩
      unfold listByDevice
      rw [blank_of_no_string hne]
      split
      · next s => exact absurd rfl (hne s)
      · rfl

end

/-! ## 2. Runs whose wait is long enough -/

inductive Phase where
  /-- A request or message for which MongoDB was open so far. -/
  | working
  /-- One that found it closed. -/
  | struck
  | stopping
  | closing
  | finished
deriving DecidableEq, Repr

/-- The answer says that the client is closed. -/
def SaysClosed : (e : Effect) → e.Answer → Prop
  | .insertOne _, r => r = .error .closed
  | .find _, r => r = .error .closed
  | _, _ => False

inductive Next : Protocol Effect.Answer Phase
  | work {e : Effect} {r : e.Answer} (he : e ≠ .stopConsumer ∧ e ≠ .closeMongo)
      (hr : ¬ SaysClosed e r) : Next .working e r .working
  | strike {e : Effect} {r : e.Answer} (hr : SaysClosed e r) : Next .working e r .struck
  | answer {reply : Reply} {r : Unit} : Next .struck (.finish reply) r .struck
  | stop {r : Unit} : Next .stopping .stopConsumer r .closing
  | close {r : Unit} : Next .closing .closeMongo r .finished

def Work.phase (kafkaConsumer : Bool) : Work → Phase
  | request _ => .working
  | message _ => .working
  | signal => if kafkaConsumer then .stopping else .closing

/-- Only what found MongoDB closed logs that it was. -/
def Ended : Phase → Outcome → Prop
  | .working, o | .finished, o => o.error ≠ some .closed
  | .struck, _ => True
  | .stopping, _ | .closing, _ => False

namespace ShutdownLemmas

theorem respond_working {reply : Reply} {err : Option DriverError} (h : err ≠ some .closed) :
    (respond reply err).Follows Next Ended .working :=
  fun _ => ⟨.working, .work (by simp) id, h⟩

theorem respond_struck (reply : Reply) (err : Option DriverError) :
    (respond reply err).Follows Next Ended .struck :=
  fun _ => ⟨.struck, .answer, trivial⟩

/-- What `execute` returns, and whether it found MongoDB closed. -/
def Executed (φ : Phase) : Except Failure Event → Prop
  | .ok _ => φ = .working
  | .error failure => φ = .working ∧ failure.error ≠ some .closed ∨ φ = .struck

theorem execute_follows (p : Params) : (execute p).Follows Next Executed .working := by
  unfold execute
  rw [Prog.perform_bind]
  rintro ⟨uuid, now⟩
  refine ⟨.working, .work (by simp) id, ?_⟩
  dsimp only
  cases createEvent uuid now p with
  | error err => exact .inl ⟨rfl, by simp [Failure.error]⟩
  | ok event =>
    rintro (err | ⟨⟩)
    · by_cases herr : err = .closed
      · subst herr
        exact ⟨.struck, .strike rfl, .inr rfl⟩
      · refine ⟨.working, .work (by simp) (fun h => herr (by cases h; rfl)), .inl ⟨rfl, ?_⟩⟩
        exact fun h => herr (Option.some.inj h)
    · exact ⟨.working, .work (by simp) nofun, rfl⟩

theorem handlePost_follows : handlePost.Follows Next Ended .working := by
  unfold handlePost
  rw [Prog.perform_bind]
  intro bytes
  refine ⟨.working, .work (by simp) id, ?_⟩
  dsimp only
  cases bytes.bind parseBytes with
  | none => exact respond_working (by simp)
  | some body =>
    dsimp only
    cases destructure body with
    | error err => exact respond_working (by simp)
    | ok p =>
      refine (execute_follows p).bind fun φ r hr => ?_
      cases r with
      | ok event =>
        obtain rfl := hr
        exact respond_working (by simp)
      | error failure =>
        obtain ⟨rfl, herr⟩ | rfl := hr
        · exact respond_working herr
        · exact respond_struck _ _

theorem answerQuery_follows (query : Query) : (answerQuery query).Follows Next Ended .working := by
  rintro (err | events)
  · by_cases herr : err = .closed
    · subst herr
      exact ⟨.struck, .strike rfl, respond_struck _ _⟩
    · exact ⟨.working, .work (by simp) (fun h => herr (by cases h; rfl)),
        respond_working fun h => herr (Option.some.inj h)⟩
  · exact ⟨.working, .work (by simp) nofun, respond_working (by simp)⟩

theorem handleGet_follows (deviceId type : Value) :
    (handleGet deviceId type).Follows Next Ended .working := by
  unfold handleGet
  repeat' split
  all_goals first
    | exact respond_working (by simp)
    | exact answerQuery_follows _

theorem handleReady_follows : handleReady.Follows Next Ended .working := by
  rintro (_ | _)
  · exact ⟨.working, .work (by simp) id, respond_working (by simp)⟩
  · exact ⟨.working, .work (by simp) id, respond_working (by simp)⟩

theorem handleMessage_follows (message : KafkaMessage) :
    (handleMessage message).Follows Next Ended .working := by
  have hnone : (Prog.pure (Outcome.handled none) : Program Outcome).Follows Next Ended .working := by
    simp [Ended, Outcome.error]
  unfold handleMessage
  split
  · exact hnone
  · split
    · exact hnone
    · split
      · refine (execute_follows _).bind fun φ r hr => ?_
        cases r with
        | ok event =>
          obtain rfl := hr
          exact hnone
        | error failure =>
          obtain ⟨rfl, herr⟩ | rfl := hr
          · exact herr
          · exact trivial
      · exact hnone

theorem shutdown_follows (kafkaConsumer : Bool) :
    (shutdown kafkaConsumer).Follows Next Ended (Work.signal.phase kafkaConsumer) := by
  have hclose : (Prog.op Effect.closeMongo fun _ => Prog.pure Outcome.shutDown :
      Program Outcome).Follows Next Ended .closing :=
    fun _ => ⟨.finished, .close, by simp [Ended, Outcome.error]⟩
  cases kafkaConsumer with
  | false => exact hclose
  | true => exact fun _ => ⟨.closing, .stop, hclose⟩

theorem body_follows (kafkaConsumer : Bool) (sorter : Sorter) (q : Work) :
    ((system kafkaConsumer sorter).body q).Follows Next Ended (q.phase kafkaConsumer) := by
  cases q with
  | request r =>
    cases r with
    | postEvents => exact handlePost_follows
    | getEvents deviceId type => exact handleGet_follows deviceId type
    | ready => exact handleReady_follows
    | other status => exact respond_working (by simp)
  | message m => exact handleMessage_follows m
  | signal => exact shutdown_follows kafkaConsumer

/-- What an operation of MongoDB, or none, leaves as it is. -/
theorem handle_frame {sorter : Sorter} {e : Effect} {x : Input} {s s' : Service} {r : e.Answer}
    (h : Service.handle sorter e x s = some (r, s')) :
    s'.accepting = s.accepting ∧ (e ≠ .closeMongo → s'.mongoOpen = s.mongoOpen) := by
  cases e with
  | body | fresh | ping | finish _ | stopConsumer | closeMongo =>
    cases x <;> cases h <;> exact ⟨rfl, fun hne => by first | rfl | exact absurd rfl hne⟩
  | insertOne event =>
    cases x with
    | done =>
      unfold Service.handle Service.insertOne at h
      dsimp only at h
      split at h <;> cases h <;> exact ⟨rfl, fun _ => rfl⟩
    | refused message =>
      obtain ⟨-, rfl⟩ := Prod.mk.inj (Option.some.inj h)
      exact ⟨rfl, fun _ => rfl⟩
    | body _ | fresh _ _ => cases h
  | find query =>
    cases x with
    | done | refused _ =>
      obtain ⟨-, rfl⟩ := Prod.mk.inj (Option.some.inj h)
      exact ⟨rfl, fun _ => rfl⟩
    | body _ | fresh _ _ => cases h

/-- Only a closed client says that it is closed. -/
theorem closed_of_answer {sorter : Sorter} {e : Effect} {x : Input} {s s' : Service} {r : e.Answer}
    (h : Service.handle sorter e x s = some (r, s')) (hr : SaysClosed e r) :
    s.mongoOpen = false := by
  cases hopen : s.mongoOpen with
  | false => rfl
  | true =>
    cases e with
    | body | fresh | ping | finish _ | stopConsumer | closeMongo => exact hr.elim
    | insertOne event =>
      cases x with
      | done | refused _ =>
        simp only [Service.handle, Service.insertOne, hopen, if_true, Option.some.injEq,
          Prod.mk.injEq] at h
        rw [← h.1] at hr
        cases hr
      | body _ | fresh _ _ => cases h
    | find query =>
      cases x with
      | done | refused _ =>
        simp only [Service.handle, Service.find, hopen, if_true, Option.some.injEq,
          Prod.mk.injEq] at h
        rw [← h.1] at hr
        cases hr
      | body _ | fresh _ _ => cases h

end ShutdownLemmas

/-- `Idle`, of the tasks with their phases. -/
def AllIdle (ts : List (Task × Phase)) : Prop :=
  ∀ t ∈ ts, t.1.label.isSignal = false → t.1.returned?.isSome = true

theorem idle_map {s : Service} {ts : List (Task × Phase)} :
    Idle ⟨s, ts.map Prod.fst⟩ ↔ AllIdle ts := by
  unfold Idle AllIdle
  simp only [List.forall_mem_map]

/-- The function `shutdown` is past its wait. -/
def Phase.Past (φ : Phase) : Prop := φ = .closing ∨ φ = .finished

/-- What the runs keep: once some `shutdown` is past its wait nothing is open, and until
then MongoDB is. -/
structure Held (s : Service) (ts : List (Task × Phase)) : Prop where
  signals : ∀ t ∈ ts, t.1.label.isSignal = true ↔ t.2 = .stopping ∨ t.2.Past
  accepting : s.accepting = true → ∀ t ∈ ts, t.1.label.isSignal = false
  past : ∀ t ∈ ts, t.2.Past → AllIdle ts
  mongo : s.mongoOpen = false → ∃ t ∈ ts, t.2.Past
  unstruck : ∀ t ∈ ts, t.2 ≠ .struck

namespace ShutdownLemmas

variable {ts : List (Task × Phase)}

/-- A step of a function `shutdown` opens nothing. -/
theorem allIdle_replace {before after : List (Task × Phase)} {x x' : Task × Phase}
    (h : AllIdle (before ++ x :: after)) (hsignal : x'.1.label.isSignal = true) :
    AllIdle (before ++ x' :: after) :=
  forall_replace h fun hwork => absurd (hwork.symm.trans hsignal) Bool.noConfusion

theorem not_past_working : ¬ Phase.Past .working := by
  rintro (h | h) <;> cases h

theorem not_past_stopping : ¬ Phase.Past .stopping := by
  rintro (h | h) <;> cases h

/-- A task that waits for the consumer is in the phase `stopping`. -/
theorem phase_of_stopping (hf : System.Following Next (fun _ => Ended) ts) {t : Task × Phase}
    (ht : t ∈ ts) (hsignals : t.2 = .stopping ∨ t.2.Past) (h : Stopping t.1) : t.2 = .stopping := by
  obtain ⟨⟨q, prog⟩, φ⟩ := t
  obtain ⟨k, hprog⟩ := h
  have hprog : prog = _ := hprog
  subst hprog
  obtain ⟨φ', hnext, -⟩ := hf _ ht ()
  obtain rfl | rfl | rfl := hsignals
  · rfl
  · cases hnext
  · cases hnext

end ShutdownLemmas

open ShutdownLemmas

namespace Held

variable {kafkaConsumer : Bool} {s s' : Service} {ts : List (Task × Phase)}

/-- A request or message is never in a phase of `shutdown`. -/
theorem isSignal_false (h : Held s ts) {t : Task × Phase} (ht : t ∈ ts) (hw : t.2 = .working) :
    t.1.label.isSignal = false := by
  rw [← Bool.not_eq_true, h.signals t ht, hw]
  rintro (hp | hp)
  · cases hp
  · exact not_past_working hp

/-- New work that is no signal, while no `shutdown` is past its wait. -/
theorem add (h : Held s ts) (hpast : ∀ t ∈ ts, ¬ t.2.Past) {t₀ : Task}
    (h₀ : t₀.label.isSignal = false) : Held s (ts ++ [(t₀, .working)]) := by
  have hpast' := forall_snoc (c := (t₀, Phase.working)) hpast not_past_working
  refine ⟨forall_snoc h.signals (iff_of_false (by simp [h₀]) ?_),
    fun ha => forall_snoc (h.accepting ha) h₀, fun t ht hp => absurd hp (hpast' t ht), fun hc => ?_,
    forall_snoc h.unstruck Phase.noConfusion⟩
  · rintro (hp | hp)
    · cases hp
    · exact not_past_working hp
  · obtain ⟨t, ht, hp⟩ := h.mongo hc
    exact absurd hp (hpast t ht)

/-- A signal. Where there is no consumer, `shutdown` is past its wait at once. -/
theorem signal (h : Held s ts) {t₀ : Task} (h₀ : t₀.label = .signal)
    (hidle : kafkaConsumer = false → AllIdle ts) :
    Held { s with accepting := false } (ts ++ [(t₀, Work.signal.phase kafkaConsumer)]) := by
  have hsignal : t₀.label.isSignal = true := by rw [h₀]; rfl
  have hidle' (hall : AllIdle ts) (φ : Phase) : AllIdle (ts ++ [(t₀, φ)]) :=
    forall_snoc hall fun hwork => absurd (hwork.symm.trans hsignal) Bool.noConfusion
  refine ⟨forall_snoc h.signals (iff_of_true hsignal ?_), fun ha => absurd ha Bool.false_ne_true,
    forall_snoc (fun t ht hp => hidle' (h.past t ht hp) _) fun hp => ?_, fun hc => ?_,
    forall_snoc h.unstruck ?_⟩
  · cases kafkaConsumer with
    | true => exact .inl rfl
    | false => exact .inr (.inl rfl)
  · cases kafkaConsumer with
    | true => exact absurd hp not_past_stopping
    | false => exact hidle' (hidle rfl) _
  · obtain ⟨t, ht, hp⟩ := h.mongo hc
    exact ⟨t, List.mem_append_left _ ht, hp⟩
  · cases kafkaConsumer <;> exact Phase.noConfusion

/-- A task goes on, in a phase that suits its label. -/
theorem move {before after : List (Task × Phase)} {x x' : Task × Phase}
    (h : Held s (before ++ x :: after)) (hlabel : x'.1.label = x.1.label)
    (hphase : x'.2 = x.2 ∨ x.1.label.isSignal = true ∧ x'.2.Past)
    (haccepting : s'.accepting = s.accepting)
    (hpast : (∃ t ∈ before ++ x' :: after, t.2.Past) → AllIdle (before ++ x' :: after))
    (hmongo : s'.mongoOpen = false → ∃ t ∈ before ++ x' :: after, t.2.Past) :
    Held s' (before ++ x' :: after) := by
  have hx : x ∈ before ++ x :: after := by simp
  refine ⟨forall_replace h.signals ?_, fun ha => ?_, fun t ht hp => hpast ⟨t, ht, hp⟩, hmongo,
    forall_replace h.unstruck ?_⟩
  · rw [hlabel]
    obtain hsame | ⟨hsignal, hp⟩ := hphase
    · rw [hsame]
      exact h.signals x hx
    · exact iff_of_true hsignal (.inr hp)
  · rw [haccepting] at ha
    refine forall_replace (h.accepting ha) ?_
    rw [hlabel]
    exact h.accepting ha x hx
  · obtain hsame | ⟨-, hp⟩ := hphase
    · rw [hsame]
      exact h.unstruck x hx
    · intro heq
      rw [heq] at hp
      obtain hp | hp := hp <;> cases hp

/-- A task that is about to perform an effect is open. -/
theorem not_past {before after : List (Task × Phase)} {q : Work} {e : Effect}
    {k : e.Answer → Program Outcome} {φ : Phase}
    (h : Held s (before ++ (⟨q, .op e k⟩, φ) :: after)) (hq : q.isSignal = false) :
    ∀ t ∈ before ++ (⟨q, .op e k⟩, φ) :: after, ¬ t.2.Past := by
  intro t ht hp
  have hreturned := h.past t ht hp (⟨q, .op e k⟩, φ) (by simp) hq
  cases hreturned

end Held

/-- Every step keeps it, when the wait outlasts the open work. -/
theorem held_trans {kafkaConsumer : Bool} {sorter : Sorter} {s s' : Service}
    {ts ts' : List (Task × Phase)} {a : Action} (hf : System.Following Next (fun _ => Ended) ts)
    (hlong : Outlasts kafkaConsumer ⟨s, ts.map Prod.fst⟩ a) (h : Held s ts)
    (ht : System.Trans (system kafkaConsumer sorter) (Work.phase kafkaConsumer) Next s ts a s' ts') :
    Held s' ts' := by
  cases ht with
  | spawn q hs =>
    have henter : s.enter q = some s' := hs
    cases q with
    | request r =>
      rw [Service.enter] at henter
      split at henter
      · next haccepting =>
        cases henter
        refine h.add (fun t ht hp => ?_) rfl
        -- once a signal has come, no request is accepted
        have hsignal := (h.signals t ht).mpr (.inr hp)
        rw [h.accepting haccepting t ht] at hsignal
        cases hsignal
      · cases henter
    | message m =>
      rw [Service.enter] at henter
      split at henter
      · cases henter
        refine h.add (fun t ht hp => ?_) rfl
        have hsignal := (h.signals t ht).mpr (.inr hp)
        -- where a `shutdown` is past its wait, no message is delivered
        have hstopping := hlong t.1 (List.mem_map_of_mem ht) hsignal
        rw [phase_of_stopping hf ht ((h.signals t ht).mp hsignal) hstopping] at hp
        exact not_past_stopping hp
      · cases henter
    | signal =>
      cases henter
      exact h.signal rfl fun hnone => idle_map.mp (hlong hnone)
  | @run _ e r φ φ' before after q k x hs hnext =>
    have hhandle : Service.handle sorter e x s = some (r, s') := hs
    obtain ⟨haccepting, hmongo⟩ := handle_frame hhandle
    have hmem : ((⟨q, .op e k⟩, φ) : Task × Phase) ∈ before ++ (⟨q, .op e k⟩, φ) :: after := by simp
    have hsignals := h.signals _ hmem
    cases hnext with
    | work he hr =>
      -- the task is open, so no `shutdown` is past its wait, and none is after the step
      have hnone := h.not_past (h.isSignal_false hmem rfl)
      have hnone' : ∀ t ∈ before ++ (⟨q, k r⟩, .working) :: after, ¬ t.2.Past :=
        forall_replace hnone not_past_working
      refine h.move rfl (.inl rfl) haccepting (fun ⟨t, ht, hp⟩ => absurd hp (hnone' t ht)) fun hc => ?_
      rw [hmongo he.2] at hc
      obtain ⟨t, ht, hp⟩ := h.mongo hc
      exact absurd hp (hnone t ht)
    | strike hr =>
      -- MongoDB is open as long as the task is
      obtain ⟨t, ht, hp⟩ := h.mongo (closed_of_answer hhandle hr)
      exact absurd hp (h.not_past (h.isSignal_false hmem rfl) t ht)
    | answer => exact absurd rfl (h.unstruck _ hmem)
    | stop =>
      have hq : q.isSignal = true := hsignals.mpr (.inl rfl)
      -- the disconnect has outlasted all open work
      have hidle : AllIdle (before ++ (⟨q, .op .stopConsumer k⟩, Phase.stopping) :: after) :=
        idle_map.mp (hlong ⟨q, .op .stopConsumer k⟩ (by simp) ⟨k, rfl⟩)
      refine h.move rfl (.inr ⟨hq, .inl rfl⟩) haccepting (fun _ => allIdle_replace hidle hq) fun _ => ?_
      exact ⟨_, List.mem_append_right _ List.mem_cons_self, .inl rfl⟩
    | close =>
      have hq : q.isSignal = true := hsignals.mpr (.inr (.inl rfl))
      have hidle := h.past _ hmem (.inl rfl)
      refine h.move rfl (.inr ⟨hq, .inr rfl⟩) haccepting (fun _ => allIdle_replace hidle hq) fun _ => ?_
      exact ⟨_, List.mem_append_right _ List.mem_cons_self, .inr rfl⟩

/-- In every run in which the wait for the consumer outlasts all open work (`hlong`), MongoDB is
closed only when every accepted request is answered and every message is through with its save,
and none of them finds it closed. Nothing else is assumed of the run: MongoDB may refuse any
operation, the disconnect may fail, and there may be several signals. -/
theorem drains {kafkaConsumer : Bool} {sorter : Sorter} {docs : Collection} {as : List Action}
    {p : Process}
    (hlong : Machine.Guarded (system kafkaConsumer sorter).step (Outlasts kafkaConsumer)
      ⟨.start kafkaConsumer docs, []⟩ as)
    (h : (system kafkaConsumer sorter).Reaches (.start kafkaConsumer docs) as p) : Drained p := by
  obtain ⟨ts, hts, hf, hheld⟩ := System.guarded_protocol_run (P := fun _ s ts => Held s ts)
    (body_follows kafkaConsumer sorter)
    ⟨by simp, fun _ => by simp, by simp, fun hc => absurd hc Bool.noConfusion, by simp⟩
    (fun _ _ _ _ _ _ _ hheld hf hc ht => held_trans hf hc hheld ht) hlong h
  obtain ⟨s, threads⟩ := p
  dsimp only at hts hheld
  subst hts
  refine ⟨?_, ?_, ?_⟩
  · rintro t ht ⟨k, hprog⟩
    obtain ⟨⟨t', φ⟩, ht', rfl⟩ := List.mem_map.mp ht
    have hfollows := hf _ ht'
    rw [hprog] at hfollows
    obtain ⟨φ', hnext, -⟩ := hfollows ()
    cases hnext with
    | work he => exact absurd rfl he.2
    | strike hr => exact hr.elim
    | close => exact idle_map.mpr (hheld.past _ ht' (.inl rfl))
  · intro hc
    obtain ⟨t, ht, hp⟩ := hheld.mongo hc
    exact idle_map.mpr (hheld.past t ht hp)
  · intro t ht o ho
    obtain ⟨⟨⟨q, prog⟩, φ⟩, ht', rfl⟩ := List.mem_map.mp ht
    have hfollows := hf _ ht'
    cases prog with
    | op e k => cases ho
    | pure o' =>
      obtain rfl := Option.some.inj ho
      cases φ with
      | working | finished => exact hfollows
      | struck => exact absurd rfl (hheld.unstruck _ ht')
      | stopping | closing => exact hfollows.elim

/-- How `handlePost` goes on after `execute`. -/
def posted : Except Failure Event → Program Outcome
  | .error failure => respond failure.reply failure.error
  | .ok event => respond (.posted (.created event)) none

/-- How `#handleMessage` goes on after `execute`. -/
def consumed : Except Failure Event → Program Outcome
  | .error failure => .pure (.handled failure.error)
  | .ok _ => .pure (.handled none)

/-- `handlePost` with a body that can be read. -/
theorem handlePost_reads {b : Option ByteArray} {v : Json} {p : Params}
    (hv : b.bind parseBytes = some v) (hp : destructure v = .ok p) : ∃ k,
    handlePost = .op Effect.body k ∧ k b = execute p >>= posted := by
  refine ⟨_, rfl, ?_⟩
  rw [Prog.bind, hv]
  dsimp only
  rw [hp]
  exact congrArg (execute p >>= ·) (funext fun r => by cases r <;> rfl)

/-- `#handleMessage` with a message that can be read. -/
theorem handleMessage_reads {m : KafkaMessage} {raw : String} {v : Json} {p : Params}
    (hraw : valueToString m = .ok raw) (hv : Encoding.parse raw = some v)
    (hvalid : validate v = .ok none) (hp : messageParams v = .ok p) :
    handleMessage m = execute p >>= consumed := by
  unfold handleMessage
  rw [hraw]
  dsimp only
  rw [hv]
  dsimp only
  rw [hvalid, hp]
  exact congrArg (execute p >>= ·) (funext fun r => by cases r <;> rfl)

/-- How `execute` goes on after `insertOne`. -/
def inserted (event : Event) : Except DriverError Unit → Program (Except Failure Event)
  | .error err => .pure (.error (.driver err))
  | .ok () => .pure (.ok event)

/-- `execute` with parameters that are accepted. -/
theorem execute_inserts {uuid : Uuid} {now : Instant} {p : Params} {event : Event}
    (h : createEvent uuid now p = .ok event) : ∃ k, execute p = .op Effect.fresh k ∧
      k (uuid, now) = .op (Effect.insertOne event) (inserted event) := by
  refine ⟨_, rfl, ?_⟩
  rw [Prog.bind]
  dsimp only
  rw [h]
  refine congrArg (Prog.op (Effect.insertOne event)) (funext fun r => ?_)
  rcases r with err | ⟨⟩ <;> rfl

/-- A request for a valid event. -/
def lateBody : ByteArray :=
  (writeObject [("type", "device.created"), ("deviceId", "00000000-0000-4000-8000-000000000001"),
    ("name", "laptop")]).toUTF8

def lateParams : Params where
  type := text "device.created"
  deviceId := text "00000000-0000-4000-8000-000000000001"
  name := text "laptop"
  timestamp := none
  actor := none
  description := none

theorem lateBody_params : ∃ body, (some lateBody).bind parseBytes = some body ∧
    destructure body = .ok lateParams := by
  have hbytes : (some lateBody).bind parseBytes = parse (writeObject [("type", "device.created"),
      ("deviceId", "00000000-0000-4000-8000-000000000001"), ("name", "laptop")]) := by
    rw [Option.bind_some, parseBytes, lateBody, decodeUtf8_toUTF8]
  exact ⟨_, hbytes.trans (parse_writeObject _), rfl⟩

def lateEvent : Event := lateParams.event (Uuid.numbered 1) 0

theorem lateParams_created : createEvent (Uuid.numbered 1) 0 lateParams = .ok lateEvent :=
  createEvent_ok.mpr ⟨⟨_, _, _, rfl, rfl, rfl, by decide, by decide, by decide⟩, rfl⟩

/-- A message about the same device. -/
def lateText : String :=
  writeObject [("type", "device.updated"), ("deviceId", "00000000-0000-4000-8000-000000000001"),
    ("name", "laptop"), ("timestamp", "2026-01-02T03:04:05Z")]

def lateMessage : KafkaMessage := ⟨some lateText.toUTF8⟩

def updateParams : Params where
  type := text "device.updated"
  deviceId := text "00000000-0000-4000-8000-000000000001"
  name := text "laptop"
  timestamp := text "2026-01-02T03:04:05Z"
  actor := none
  description := none

def updateEvent : Event := updateParams.event (Uuid.numbered 2) 0

theorem updateParams_created : createEvent (Uuid.numbered 2) 0 updateParams = .ok updateEvent :=
  createEvent_ok.mpr ⟨⟨_, _, _, rfl, rfl, rfl, by decide, by decide, by decide⟩, rfl⟩

theorem lateMessage_reads : handleMessage lateMessage = execute updateParams >>= consumed := by
  have hraw : valueToString lateMessage = .ok lateText := by
    rw [valueToString, lateMessage]
    exact congrArg Except.ok (decodeUtf8_toUTF8 _ _)
  exact handleMessage_reads hraw (parse_writeObject _) (by decide) rfl

/-- A post and a message wait for their `insertOne` when the signal comes, and both are done
before the disconnect ends. -/
def waitedRun : List Action :=
  [.spawn (.request .postEvents), .spawn (.message lateMessage), .run 0 (.body (some lateBody)),
    .run 0 (.fresh (Uuid.numbered 1) 0), .run 1 (.fresh (Uuid.numbered 2) 0), .spawn .signal,
    .run 1 .done, .run 0 .done, .run 0 .done, .run 2 .done, .run 2 .done]

/-- The post and the message are open. -/
def openWork (p q : Program Outcome) : Process :=
  ⟨.start true [], [⟨.request .postEvents, p⟩, ⟨.message lateMessage, q⟩]⟩

theorem spawn_message (m : KafkaMessage) (t : Task) : (system true unitSorter).step
    ⟨.start true [], [t]⟩ (.spawn (.message m)) =
      some ⟨.start true [], [t, ⟨.message m, handleMessage m⟩]⟩ := rfl

theorem not_stopping {q : Work} {e : Effect} {k : e.Answer → Program Outcome}
    (he : e ≠ .stopConsumer) : ¬ Stopping ⟨q, .op e k⟩ := by
  rintro ⟨k', hprog⟩
  cases hprog
  exact he rfl

/-- A thread that does not wait for the consumer goes on. -/
theorem outlasts_run {kafkaConsumer : Bool} {p : Process} {i : Nat} {x : Input} {q : Work}
    {e : Effect} {k : e.Answer → Program Outcome} (he : e ≠ .stopConsumer)
    (hi : p.threads[i]? = some ⟨q, .op e k⟩) : Outlasts kafkaConsumer p (.run i x) := by
  intro t ht hstopping
  obtain rfl := Option.some.inj (hi.symm.trans ht)
  exact absurd hstopping (not_stopping he)

/-- Both have come to their `insertOne`. -/
def waiting : Process :=
  openWork (.op (.insertOne lateEvent) (inserted lateEvent) >>= posted)
    (.op (.insertOne updateEvent) (inserted updateEvent) >>= consumed)

/-- The rest of the run. -/
theorem waiting_outlasts : Machine.Guarded (system true unitSorter).step (Outlasts true) waiting
    (waitedRun.drop 5) := by
  have hidle : ∀ p : Process, p.threads.map (fun t => t.returned?.isSome || t.label.isSignal) =
      [true, true, true] → Idle p := by
    intro p hp t ht hsignal
    have hor : (t.returned?.isSome || t.label.isSignal) = true := by
      have hmem := List.mem_map_of_mem (f := fun t : Task =>
        t.returned?.isSome || t.label.isSignal) ht
      rw [hp] at hmem
      simpa using hmem
    rwa [hsignal, Bool.or_false] at hor
  refine Machine.guarded_cons Bool.noConfusion rfl ?_
  refine Machine.guarded_cons (outlasts_run Effect.noConfusion rfl) rfl ?_
  refine Machine.guarded_cons (outlasts_run Effect.noConfusion rfl) rfl ?_
  refine Machine.guarded_cons (outlasts_run Effect.noConfusion rfl) rfl ?_
  -- the wait ends here
  refine Machine.guarded_cons (fun _ _ _ => hidle _ rfl) rfl ?_
  exact Machine.guarded_cons (outlasts_run Effect.noConfusion rfl) rfl trivial

theorem waitedRun_run : Machine.Guarded (system true unitSorter).step (Outlasts true)
    ⟨.start true [], []⟩ waitedRun ∧ ∃ p, (system true unitSorter).Reaches (.start true [])
      waitedRun p ∧ p.shared.mongoOpen = false ∧ p.shared.docs = [updateEvent, lateEvent] := by
  obtain ⟨body, hparse, hparams⟩ := lateBody_params
  obtain ⟨k, hpost, hbody⟩ := handlePost_reads hparse hparams
  obtain ⟨kp, hexecute, hfresh⟩ := execute_inserts lateParams_created
  obtain ⟨km, hexecute', hfresh'⟩ := execute_inserts updateParams_created
  have hmessage : handleMessage lateMessage = .op .fresh km >>= consumed := by
    rw [lateMessage_reads, hexecute']
  let step := (system true unitSorter).step
  have hrequest : step ⟨.start true [], []⟩ (.spawn (.request .postEvents)) =
      some ⟨.start true [], [⟨.request .postEvents, .op .body k⟩]⟩ := by
    rw [← hpost]
    rfl
  have hdeliver : step ⟨.start true [], [⟨.request .postEvents, .op .body k⟩]⟩
      (.spawn (.message lateMessage)) =
      some (openWork (.op .body k) (.op .fresh km >>= consumed)) := by
    rw [← hmessage]
    exact spawn_message lateMessage _
  have hread : step (openWork (.op .body k) (.op .fresh km >>= consumed))
      (.run 0 (.body (some lateBody))) =
      some (openWork (.op .fresh kp >>= posted) (.op .fresh km >>= consumed)) :=
    congrArg (fun p => some (openWork p _)) (hbody.trans (congrArg (· >>= posted) hexecute))
  have hcreate : step (openWork (.op .fresh kp >>= posted) (.op .fresh km >>= consumed))
      (.run 0 (.fresh (Uuid.numbered 1) 0)) =
      some (openWork (.op (.insertOne lateEvent) (inserted lateEvent) >>= posted)
        (.op .fresh km >>= consumed)) :=
    congrArg (fun p => some (openWork (p >>= posted) _)) hfresh
  have hcreate' : step (openWork (.op (.insertOne lateEvent) (inserted lateEvent) >>= posted)
      (.op .fresh km >>= consumed)) (.run 1 (.fresh (Uuid.numbered 2) 0)) = some waiting :=
    congrArg (fun p => some (openWork _ (p >>= consumed))) hfresh'
  refine ⟨?_, ?_⟩
  · refine Machine.guarded_cons trivial hrequest (Machine.guarded_cons ?_ hdeliver ?_)
    · intro t ht hsignal
      obtain rfl := List.mem_singleton.mp ht
      cases hsignal
    refine Machine.guarded_cons (outlasts_run Effect.noConfusion rfl) hread ?_
    refine Machine.guarded_cons (outlasts_run Effect.noConfusion rfl) hcreate ?_
    exact Machine.guarded_cons (outlasts_run Effect.noConfusion rfl) hcreate' waiting_outlasts
  · obtain ⟨p, hp, hclosed, hdocs⟩ : ∃ p, Machine.run step waiting (waitedRun.drop 5) = some p ∧
        p.shared.mongoOpen = false ∧ p.shared.docs = [updateEvent, lateEvent] := ⟨_, rfl, rfl, rfl⟩
    refine ⟨p, ?_, hclosed, hdocs⟩
    exact (Machine.run_cons hrequest).trans <| (Machine.run_cons hdeliver).trans <|
      (Machine.run_cons hread).trans <| (Machine.run_cons hcreate).trans <|
      (Machine.run_cons hcreate').trans hp

theorem drains_waited : ∃ p, (system true unitSorter).Reaches (.start true []) waitedRun p ∧
    p.shared.mongoOpen = false ∧ p.shared.docs = [updateEvent, lateEvent] ∧ Drained p := by
  obtain ⟨houtlasts, p, hp, hclosed, hdocs⟩ := waitedRun_run
  exact ⟨p, hp, hclosed, hdocs, drains houtlasts hp⟩

/-! ## 3. A request that is too late -/

/-- The request waits for `insertOne` when the signal comes. -/
def lateRun : List Action :=
  [.spawn (.request .postEvents), .run 0 (.body (some lateBody)),
    .run 0 (.fresh (Uuid.numbered 1) 0), .spawn .signal]

/-- Without a consumer the client is closed while a request is open, and the request is
refused. -/
theorem not_drained : ∃ p p', (system false unitSorter).Reaches (.start false []) lateRun p ∧
    Machine.run (system false unitSorter).step p [.run 1 .done, .run 0 .done, .run 0 .done] = some p' ∧
    (∃ t ∈ p.threads, Closing t ∧ ¬ Idle p) ∧
    (p'.threads[0]?.bind Thread.returned?) =
      some (.responded (.posted (.failed 500 "internal server error")) (some .closed)) := by
  obtain ⟨body, hparse, hparams⟩ := lateBody_params
  obtain ⟨k, hpost, hbody⟩ := handlePost_reads hparse hparams
  obtain ⟨k', hexecute, hfresh⟩ := execute_inserts lateParams_created
  have hread : (system false unitSorter).step
      ⟨.start false [], [⟨.request .postEvents, handlePost⟩]⟩ (.run 0 (.body (some lateBody))) =
      some ⟨.start false [], [⟨.request .postEvents, .op .fresh k' >>= posted⟩]⟩ := by
    rw [hpost, ← hexecute, ← hbody]
    rfl
  have hcreated : (system false unitSorter).step
      ⟨.start false [], [⟨.request .postEvents, .op .fresh k' >>= posted⟩]⟩
      (.run 0 (.fresh (Uuid.numbered 1) 0)) =
      some ⟨.start false [], [⟨.request .postEvents,
        .op (.insertOne lateEvent) (inserted lateEvent) >>= posted⟩]⟩ := by
    rw [← hfresh]
    rfl
  have hrun : (system false unitSorter).Reaches (.start false []) lateRun _ :=
    (Machine.run_cons rfl).trans ((Machine.run_cons hread).trans ((Machine.run_cons hcreated).trans rfl))
  refine ⟨_, _, hrun, rfl, ⟨⟨.signal, shutdown false⟩, ?_, ⟨_, rfl⟩, ?_⟩, rfl⟩
  · exact List.mem_cons_of_mem _ List.mem_cons_self
  · intro hidle
    cases hidle _ List.mem_cons_self rfl

end AssetTracker.NodeShutdown
