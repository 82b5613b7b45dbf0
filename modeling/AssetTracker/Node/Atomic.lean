import AssetTracker.Lib.Atomic
import AssetTracker.Node.Shutdown

/-!
# Handlers are atomic (Node service)

A handler uses the collection at most once. So whatever other requests, messages and a
`shutdown` do meanwhile, it stores and answers what it would alone.

Results:
1. `work_follows`: every kind of work is atomic, in the sense of `Effects.Setting`.
2. `message_alone`, `posted_alone`, `post_alone`, `query_alone`: what it does alone.
-/

namespace AssetTracker.NodeAtomic

open Encoding Effects Text NodeShutdown
open NodeService hiding execute handlePost handleMessage Response Input

/-! ## A handler alone -/

/-- What a handler is told when it runs alone: a body, what it draws, and the error of the
driver if it has one. -/
structure World where
  body : Option ByteArray
  uuid : Uuid
  now : Instant
  driver : Option DriverError

def found (sorter : Sorter) (docs : Collection) : Query → List Event
  | .byDeviceId deviceId => findByDeviceId sorter deviceId docs
  | .byType type => findByType sorter type docs

def solo (sorter : Sorter) (ω : World) : (e : Effect) → Collection → e.Answer × Collection
  | .body, docs => (ω.body, docs)
  | .fresh, docs => ((ω.uuid, ω.now), docs)
  | .insertOne event, docs =>
    match ω.driver with
    | some err => (.error err, docs)
    | none => (.ok (), docs ++ [event])
  | .find query, docs =>
    match ω.driver with
    | some err => (.error err, docs)
    | none => (.ok (found sorter docs query), docs)
  | .ping, docs => (ω.driver.isNone, docs)
  | .finish _, docs => ((), docs)
  | .stopConsumer, docs => ((), docs)
  | .closeMongo, docs => ((), docs)

def setting (sorter : Sorter) : Setting Effect.Answer Input Service Collection World where
  solo := solo sorter
  handle := Service.handle sorter
  data := Service.docs
  settled e := e = .body

/-- The worlds in which this body comes. -/
def Sends (body : Option ByteArray) (ω : World) : Prop := ω.body = body

/-! ## 1. Effects -/

namespace AtomicLemmas

variable {sorter : Sorter} {b : Option ByteArray}

theorem exists_sends (b : Option ByteArray) : ∃ ω, Sends b ω :=
  ⟨⟨b, Uuid.numbered 0, 0, none⟩, rfl⟩

def usesStore : Effect → Bool
  | .insertOne _ => true
  | .find _ => true
  | _ => false

theorem quiet {e : Effect} (h : usesStore e = false) : (setting sorter).Quiet e := by
  refine ⟨fun {x s r s'} hs => ?_, fun ω d => ?_⟩
  · cases e with
    | insertOne | find => cases h
    | body | fresh | ping | finish | stopConsumer | closeMongo =>
      cases x <;> cases hs <;> rfl
  · cases e with
    | insertOne | find => cases h
    | body | fresh | ping | finish | stopConsumer | closeMongo => rfl

/-- What MongoDB answers among others it could answer alone. -/
theorem store_answer {e : Effect} (h : usesStore e = true) {x : Input} {s s' : Service}
    {r : e.Answer} (hs : Service.handle sorter e x s = some (r, s')) :
    ∃ driver, ∀ ω : World, ω.driver = driver → solo sorter ω e s.docs = (r, s'.docs) := by
  cases e with
  | body | fresh | ping | finish | stopConsumer | closeMongo => cases h
  | insertOne event =>
    cases x with
    | body | fresh => cases hs
    | done =>
      obtain hs := Option.some.inj hs
      split at hs
      · cases hs
        exact ⟨none, fun ω hω => by rw [solo, hω]⟩
      · cases hs
        exact ⟨some .closed, fun ω hω => by rw [solo, hω]⟩
    | refused message =>
      cases hs
      exact ⟨some _, fun ω hω => by rw [solo, hω]⟩
  | find query =>
    cases x with
    | body | fresh => cases hs
    | done =>
      obtain ⟨hr, rfl⟩ := Prod.mk.inj (Option.some.inj hs)
      split at hr
      · subst hr
        exact ⟨none, fun ω hω => by rw [solo, hω]; cases query <;> rfl⟩
      · subst hr
        exact ⟨some .closed, fun ω hω => by rw [solo, hω]⟩
    | refused message =>
      cases hs
      exact ⟨some _, fun ω hω => by rw [solo, hω]⟩

variable {K : World → Prop} {a : Outcome}

/-- The error of the driver is not yet known. -/
def Open (K : World → Prop) : Prop := (∃ ω, K ω) ∧ ∀ ω driver, K ω → K { ω with driver := driver }

theorem next_commit (hK : Open K) {e : Effect} (h : usesStore e = true) (r : e.Answer) (a : Outcome) :
    (setting sorter).AtomicNext (.before K) e r (.after a) := by
  refine .commit fun x s s' hs => ?_
  obtain ⟨driver, hdriver⟩ := store_answer h hs
  obtain ⟨⟨ω, hω⟩, hopen⟩ := hK
  exact ⟨{ ω with driver := driver }, hopen ω driver hω, hdriver _ rfl⟩

/-- An effect that answers nothing, or nothing new. -/
theorem next_same (hK : ∃ ω, K ω) {e : Effect} (h : usesStore e = false) {r : e.Answer}
    (hr : ∀ ω d, (solo sorter ω e d).1 = r) :
    (setting sorter).AtomicNext (α := Outcome) (.before K) e r (.before K) :=
  .learn (quiet h) hK fun ω hω => ⟨hω, fun d => hr ω d⟩

theorem open_sends (b : Option ByteArray) : Open (Sends b) := ⟨exists_sends b, fun _ _ hω => hω⟩

/-- The UUID and the clock are drawn, but nothing was stored yet. -/
def Drawn (b : Option ByteArray) (uuid : Uuid) (now : Instant) (ω : World) : Prop :=
  ω.body = b ∧ ω.uuid = uuid ∧ ω.now = now

theorem open_drawn (b : Option ByteArray) (uuid : Uuid) (now : Instant) : Open (Drawn b uuid now) :=
  ⟨⟨⟨b, uuid, now, none⟩, rfl, rfl, rfl⟩, fun _ _ hω => hω⟩

/-! ### Handlers -/

theorem respond_before (hK : ∃ ω, K ω) (reply : Reply) (err : Option DriverError) :
    (respond reply err).Follows (setting sorter).AtomicNext Stage.Ends (.before K) :=
  fun _ => ⟨_, next_same hK rfl fun _ _ => rfl, trivial⟩

theorem respond_after (reply : Reply) (err : Option DriverError) :
    (respond reply err).Follows (setting sorter).AtomicNext Stage.Ends
      (.after (.responded reply err)) :=
  fun _ => ⟨_, .rest (quiet rfl), rfl⟩

/-- What `handlePost` returns after `execute`. -/
def posted : Except Failure Event → Outcome
  | .error failure => .responded failure.reply failure.error
  | .ok event => .responded (.posted (.created event)) none

/-- What `handleMessage` returns after `execute`. -/
def consumed : Except Failure Event → Outcome
  | .error failure => .handled failure.error
  | .ok _ => .handled none

/-- What `execute` returns, and what its caller returns after it. -/
def Executed (answer : Except Failure Event → Outcome) :
    Stage World Outcome → Except Failure Event → Prop
  | .before K, r => (∃ ω, K ω) ∧ ∃ err, r = .error (.thrown err)
  | .after a, r => a = answer r
  | .lost, _ => False

theorem execute_follows (answer : Except Failure Event → Outcome) (p : Params) :
    (execute p).Follows (setting sorter).AtomicNext (Executed answer) (.before (Sends b)) := by
  unfold execute
  rw [Prog.perform_bind]
  rintro ⟨uuid, now⟩
  refine ⟨.before (Drawn b uuid now), .learn (quiet rfl) (open_drawn b uuid now).1 fun ω hω => ?_, ?_⟩
  · obtain ⟨hb, rfl, rfl⟩ := hω
    exact ⟨hb, fun d => rfl⟩
  · dsimp only
    cases createEvent uuid now p with
    | error err => exact ⟨(open_drawn b uuid now).1, err, rfl⟩
    | ok event =>
      rintro (err | ⟨⟩)
      · exact ⟨.after (answer (.error (.driver err))), next_commit (open_drawn b uuid now) rfl _ _, rfl⟩
      · exact ⟨.after (answer (.ok event)), next_commit (open_drawn b uuid now) rfl _ _, rfl⟩

/-- The body is what the request sends. -/
theorem body_follows {k : Option ByteArray → Program Outcome}
    (h : (k b).Follows (setting sorter).AtomicNext Stage.Ends (.before (Sends b)))
    (hlost : ∀ bytes, (k bytes).Follows (setting sorter).AtomicNext Stage.Ends .lost) :
    (Prog.op Effect.body k : Program Outcome).Follows (setting sorter).AtomicNext Stage.Ends
      (.before (Sends b)) := by
  intro bytes
  by_cases hb : bytes = b
  · subst hb
    exact ⟨.before (Sends bytes), .learn (quiet rfl) (exists_sends bytes) fun ω hω => ⟨hω, fun _ => hω⟩, h⟩
  · exact ⟨.lost, .miss rfl fun ω hω _ heq => hb (heq.symm.trans hω), hlost bytes⟩

theorem lost_follows (p : Program Outcome) :
    p.Follows (setting sorter).AtomicNext Stage.Ends .lost := by
  induction p with
  | pure a => exact trivial
  | op e k ih => exact fun r => ⟨.lost, .astray, ih r⟩

theorem handlePost_follows : handlePost.Follows (setting sorter).AtomicNext Stage.Ends
    (.before (Sends b)) := by
  unfold handlePost
  rw [Prog.perform_bind]
  refine body_follows ?_ fun _ => lost_follows _
  cases b.bind parseBytes with
  | none => exact respond_before (exists_sends b) _ _
  | some v =>
    dsimp only
    cases destructure v with
    | error err => exact respond_before (exists_sends b) _ _
    | ok p =>
      dsimp only
      refine (execute_follows posted p).bind fun φ r hr => ?_
      cases φ with
      | before K =>
        obtain ⟨hK, err, rfl⟩ := hr
        exact respond_before hK _ _
      | after a =>
        obtain rfl : a = posted r := hr
        cases r with
        | error failure => exact respond_after _ _
        | ok event => exact respond_after _ _
      | lost => exact hr.elim

theorem answerQuery_follows (query : Query) : (answerQuery query).Follows
    (setting sorter).AtomicNext Stage.Ends (.before (Sends b)) := by
  rintro (err | events)
  · exact ⟨.after (.responded _ (some err)), next_commit (open_sends b) rfl _ _, respond_after _ _⟩
  · exact ⟨.after (.responded _ none), next_commit (open_sends b) rfl _ _, respond_after _ _⟩

theorem handleGet_follows (deviceId type : Value) : (handleGet deviceId type).Follows
    (setting sorter).AtomicNext Stage.Ends (.before (Sends b)) := by
  unfold handleGet
  repeat' split
  all_goals first
    | exact respond_before (exists_sends b) _ _
    | exact answerQuery_follows _

theorem handleReady_follows : handleReady.Follows (setting sorter).AtomicNext Stage.Ends
    (.before (Sends b)) := by
  intro up
  have hK : ∃ ω : World, ω.body = b ∧ ω.driver.isNone = up := by
    cases up with
    | true => exact ⟨⟨b, Uuid.numbered 0, 0, none⟩, rfl, rfl⟩
    | false => exact ⟨⟨b, Uuid.numbered 0, 0, some .closed⟩, rfl, rfl⟩
  refine ⟨.before _, .learn (quiet rfl) hK fun ω hω => ⟨hω.1, fun _ => hω.2⟩, ?_⟩
  cases up with
  | true => exact respond_before hK _ _
  | false => exact respond_before hK _ _

theorem handleMessage_follows (message : KafkaMessage) : (handleMessage message).Follows
    (setting sorter).AtomicNext Stage.Ends (.before (Sends b)) := by
  unfold handleMessage
  split
  · exact trivial
  · split
    · exact trivial
    · split
      · refine (execute_follows consumed _).bind fun φ r hr => ?_
        cases φ with
        | before K =>
          obtain ⟨-, err, rfl⟩ := hr
          exact trivial
        | after a =>
          obtain rfl : a = consumed r := hr
          cases r with
          | error failure => rfl
          | ok event => rfl
        | lost => exact hr.elim
      · exact trivial

theorem shutdown_follows (kafkaConsumer : Bool) : (shutdown kafkaConsumer).Follows
    (setting sorter).AtomicNext Stage.Ends (.before (Sends b)) := by
  have hclose : (Prog.op Effect.closeMongo fun _ => Prog.pure Outcome.shutDown :
      Program Outcome).Follows (setting sorter).AtomicNext Stage.Ends (.before (Sends b)) :=
    fun _ => ⟨_, next_same (exists_sends b) rfl fun _ _ => rfl, trivial⟩
  cases kafkaConsumer with
  | false => exact hclose
  | true => exact fun _ => ⟨_, next_same (exists_sends b) rfl fun _ _ => rfl, hclose⟩

end AtomicLemmas

open AtomicLemmas

/-- All work is atomic. -/
theorem work_follows (kafkaConsumer : Bool) (sorter : Sorter) (b : Option ByteArray) (q : Work) :
    ((system kafkaConsumer sorter).body q).Follows (setting sorter).AtomicNext Stage.Ends
      (.before (Sends b)) := by
  cases q with
  | request r =>
    cases r with
    | postEvents => exact handlePost_follows
    | getEvents deviceId type => exact handleGet_follows deviceId type
    | ready => exact handleReady_follows
    | other status => exact respond_before (exists_sends b) _ _
  | message m => exact handleMessage_follows m
  | signal => exact shutdown_follows kafkaConsumer

/-! ## 2. What work does alone -/

section

variable {sorter : Sorter} {ω : World} {docs docs' : Collection}

theorem solo_alone (h : ω.driver = none) :
    solo sorter ω = alone sorter ⟨ω.uuid, ω.now, none⟩ ω.body := by
  funext e docs
  cases e with
  | body | fresh | finish | stopConsumer | closeMongo => rfl
  | insertOne event => rw [solo, h]; rfl
  | find query => rw [solo, h]; cases query <;> rfl
  | ping => rw [solo, h]; rfl

/-- When the driver fails nothing is stored. -/
theorem solo_failed {err : DriverError} (h : ω.driver = some err) {α : Type} (p : Program α)
    (docs : Collection) : (p.run (solo sorter ω) docs).2 = docs := by
  have hone : ∀ e, (solo sorter ω e docs).2 = docs := by
    intro e
    cases e with
    | body | fresh | finish | stopConsumer | closeMongo | ping => rfl
    | insertOne event => rw [solo, h]
    | find query => rw [solo, h]
  induction p with
  | pure a => rfl
  | op e k ih => rw [Prog.run_op, hone, ih]

theorem message_alone {m : KafkaMessage} {b : Option ByteArray} {a : Outcome}
    (h : (setting sorter).Alone (Sends b) (handleMessage m) docs a docs') :
    docs' = docs ∨ ∃ env e, stored env m = some e ∧ docs' = docs ++ [e] := by
  obtain ⟨ω, -, hrun⟩ := h
  have hdocs : ((handleMessage m).run (solo sorter ω) docs).2 = docs' := congrArg Prod.snd hrun
  cases hdriver : ω.driver with
  | some err => exact .inl (hdocs.symm.trans (solo_failed hdriver _ docs))
  | none =>
    let env : Env := ⟨ω.uuid, ω.now, none⟩
    obtain ⟨err, halone⟩ := @handleMessage_alone ω.body sorter env m docs
    have hrun' : docs' = docs ++ (stored env m).toList := by
      rw [← hdocs, solo_alone hdriver, halone, handleMessage_run]
    cases hstored : stored env m with
    | none =>
      rw [hstored] at hrun'
      exact .inl (hrun'.trans (List.append_nil docs))
    | some e =>
      rw [hstored] at hrun'
      exact .inr ⟨env, e, hstored, hrun'⟩

/-- A post stores the event for its body, or nothing. -/
theorem posted_alone {b : Option ByteArray} {a : Outcome}
    (h : (setting sorter).Alone (Sends b) handlePost docs a docs') :
    docs' = docs ∨ ∃ body env e, b = some body ∧ (paramsOf body).bind (logged env) = some e ∧
      docs' = docs ++ [e] := by
  obtain ⟨ω, rfl, hrun⟩ := h
  have hdocs : (handlePost.run (solo sorter ω) docs).2 = docs' := congrArg Prod.snd hrun
  cases hdriver : ω.driver with
  | some err => exact .inl (hdocs.symm.trans (solo_failed hdriver _ docs))
  | none =>
    rw [solo_alone hdriver] at hdocs
    cases hbody : ω.body with
    | none =>
      rw [hbody] at hdocs
      exact .inl hdocs.symm
    | some body =>
      obtain ⟨r, err, docs'', hservice, halone⟩ :=
        handlePost_alone sorter ⟨ω.uuid, ω.now, none⟩ body docs
      have hlogged : docs' = docs ++ ((paramsOf body).bind (logged ⟨ω.uuid, ω.now, none⟩)).toList := by
        rw [← handlePost_run.2, hservice, ← hdocs, hbody, halone]
      cases hevent : (paramsOf body).bind (logged ⟨ω.uuid, ω.now, none⟩) with
      | none =>
        rw [hevent] at hlogged
        exact .inl (hlogged.trans (List.append_nil docs))
      | some e =>
        rw [hevent] at hlogged
        exact .inr ⟨body, _, e, rfl, hevent, hlogged⟩

theorem execute_solo (p : Params) : (execute p).run (solo sorter ω) docs =
    match createEvent ω.uuid ω.now p with
    | .error err => (.error (.thrown err), docs)
    | .ok event =>
      match ω.driver with
      | some err => (.error (.driver err), docs)
      | none => (.ok event, docs ++ [event]) := by
  unfold execute
  rw [Prog.perform_bind, Prog.run_op]
  dsimp only [solo]
  cases createEvent ω.uuid ω.now p with
  | error err => rfl
  | ok event =>
    dsimp only
    rw [Prog.perform_bind, Prog.run_op]
    dsimp only [solo]
    cases ω.driver <;> rfl

/-- A post of an object is refused, or fails, or creates an event. -/
theorem post_alone {b : Option ByteArray} {v : Json} {p : Params} {a : Outcome}
    (hv : b.bind parseBytes = some v) (hp : destructure v = .ok p)
    (h : (setting sorter).Alone (Sends b) handlePost docs a docs') :
    (∃ uuid now err, createEvent uuid now p = .error err ∧
        a = .responded (Failure.thrown err).reply none ∧ docs' = docs) ∨
      (∃ err, a = .responded (Failure.driver err).reply (some err) ∧ docs' = docs) ∨
      ∃ uuid now event, createEvent uuid now p = .ok event ∧
        a = .responded (.posted (.created event)) none ∧ docs' = docs ++ [event] := by
  obtain ⟨ω, rfl, hrun⟩ := h
  replace hrun : handlePost.run (solo sorter ω) docs = (a, docs') := hrun
  unfold handlePost at hrun
  rw [Prog.perform_bind, Prog.run_op] at hrun
  dsimp only [solo] at hrun
  rw [hv] at hrun
  dsimp only at hrun
  rw [hp] at hrun
  dsimp only at hrun
  rw [Prog.run_bind, execute_solo] at hrun
  cases hcreate : createEvent ω.uuid ω.now p with
  | error err =>
    rw [hcreate] at hrun
    cases hrun
    exact .inl ⟨_, _, err, hcreate, rfl, rfl⟩
  | ok event =>
    rw [hcreate] at hrun
    dsimp only at hrun
    cases hdriver : ω.driver with
    | some err =>
      rw [hdriver] at hrun
      cases hrun
      exact .inr (.inl ⟨err, rfl, rfl⟩)
    | none =>
      rw [hdriver] at hrun
      cases hrun
      exact .inr (.inr ⟨_, _, event, hcreate, rfl, rfl⟩)

/-- The query of a request is answered, or fails. -/
theorem query_alone {b : Option ByteArray} {query : Query} {a : Outcome}
    (h : (setting sorter).Alone (Sends b) (answerQuery query) docs a docs') :
    docs' = docs ∧ (a = .responded (.events (found sorter docs query)) none ∨
      ∃ err, a = .responded (.failed 500 "internal server error") (some err)) := by
  obtain ⟨ω, -, hrun⟩ := h
  replace hrun : (answerQuery query).run (solo sorter ω) docs = (a, docs') := hrun
  unfold answerQuery at hrun
  rw [Prog.perform_bind, Prog.run_op] at hrun
  dsimp only [solo] at hrun
  cases hdriver : ω.driver with
  | some err =>
    rw [hdriver] at hrun
    cases hrun
    exact ⟨rfl, .inr ⟨err, rfl⟩⟩
  | none =>
    rw [hdriver] at hrun
    cases hrun
    exact ⟨rfl, .inl rfl⟩

theorem respond_alone {b : Option ByteArray} {reply : Reply} {err : Option DriverError} {a : Outcome}
    (h : (setting sorter).Alone (Sends b) (respond reply err) docs a docs') :
    a = .responded reply err ∧ docs' = docs := by
  obtain ⟨ω, -, hrun⟩ := h
  cases hrun
  exact ⟨rfl, rfl⟩

end

end AssetTracker.NodeAtomic
