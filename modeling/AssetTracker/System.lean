import AssetTracker.Go.Copies
import AssetTracker.Go.Lifetimes
import AssetTracker.Go.Shutdown
import AssetTracker.Identity

/-!
# The two services together

The Go service, the topic and the Node service as one machine. A move is an action of the
Go service, the delivery of a record of the topic to the consumer, or a `POST /events`.
A record may be delivered at any time after it was written, in any order and any number
of times: this covers all numbers of partitions, and the redeliveries after a restart or
a rebalance of the consumer.

Results:
1. `log_run`: the log, as a function of the topic and of the deliveries.
2. `log_sound`: an event that came from the topic tells of a change that was committed.
   `log_bounded`: and there are not many.
3. `log_complete`: at rest, every change has its event.
4. `log_tells_table`: at rest, the log tells which devices there are.
-/

namespace AssetTracker.System

open Encoding Text GoService NodeService Pipeline TwoPhase ConsumerLemmas TableLemmas StepLemmas
  InvariantLemmas GoroutineLemmas EventLemmas ShutdownLemmas CopyLemmas LifetimeLemmas

/-! ## Definitions -/

/-- The Go service, with its table and the topic, and the collection of the Node service. -/
structure World where
  go : State
  docs : Collection

inductive Move where
  | go (a : Action)
  /-- `eachMessage` for the record at the position `k`. -/
  | deliver (k : Nat) (env : Env)
  | post (env : Env) (body : ByteArray)

def step (w : World) : Move → Option World
  | .go a => (GoService.step w.go a).map fun go => { w with go := go }
  | .deliver k env => w.go.topic[k]?.map fun r =>
    { w with docs := handle env (.message (delivered r.message)) w.docs }
  | .post env body => some { w with docs := handle env (.post body) w.docs }

/-- The services just started, over a table and a log. -/
def World.start (t₀ : Table) (clock : Instant) (docs₀ : Collection) : World :=
  ⟨StateOf.start t₀ clock, docs₀⟩

/-- A state that the two services reach. -/
def Reaches (t₀ : Table) (clock : Instant) (docs₀ : Collection) (ms : List Move) (w : World) : Prop :=
  Machine.run step (World.start t₀ clock docs₀) ms = some w

/-- The event that a move stores, if it stores one, with the topic as it is at the end. -/
def loggedIn (topic : List Record) : Move → Option Event
  | .go _ => none
  | .deliver k env => topic[k]?.bind fun r => stored env (delivered r.message)
  | .post env body => loggedBy env (.post body)

def Move.action? : Move → Option Action
  | .go a => some a
  | _ => none

/-- The position in the topic that is delivered. -/
def Move.position? : Move → Option Nat
  | .deliver k _ => some k
  | _ => none

def Move.isPost : Move → Bool
  | .post _ _ => true
  | _ => false

/-- The type of the event of a change. -/
def eventTypeOf : Change → String
  | .inserted _ => "device.created"
  | .updated _ _ => "device.updated"
  | .deleted _ => "device.deleted"

/-- The name that a change writes. -/
def writtenName? : Change → Option String
  | .inserted r => some r.name
  | .updated _ r => some r.name
  | .deleted _ => none

/-- The event tells of the change: its kind, its device under some spelling of the id, and
the name that was written. -/
structure Reports (c : Change) (e : Event) : Prop where
  type : e.type = text (eventTypeOf c)
  deviceId : ∃ id, e.deviceId = text id ∧ Uuid.parse id = some c.uuid
  name : ∀ name, writtenName? c = some name → e.name = text name

/-- Not all of the name is white space, for the consumer trims a name before it looks at it. -/
def Legible (name : String) : Prop := ∃ c ∈ name.toList, isSpaceChar c = false

/-- A name that the Go service refuses, or that the Node service can read; and an id that
is spelled as the row spells it. Other calls succeed as well, but with events that the consumer
refuses, or that have another id than the device. -/
def Careful : Op → Prop
  | .create name _ => name = "" ∨ Legible name
  | .update _ name _ => name = "" ∨ Legible name
  | .delete id => ∀ u, Uuid.parse id = some u → id = u.toString
  | _ => True

/-- The calls of a run of the Go service are careful. -/
def CarefulCall (_ : State) : Action → Prop
  | .call op => Careful op
  | _ => True

/-- Nothing is under way: all calls have returned, the event of every goroutine has reached the
topic, and every record was delivered while the repository did not fail. That the events have
arrived is asked for as such: the writer of the service may answer without an error when nothing
was stored (`RequireNone`), so it does not follow from goroutines that ended without one. -/
structure AtRest (ms : List Move) (w : World) : Prop where
  returned : ∀ e ∈ w.go.execs, e.isReturned = true
  published : ∀ G ∈ w.go.goroutines, ∃ r ∈ w.go.topic, r.exec = G.exec
  consumed : ∀ k < w.go.topic.length, ∃ env, .deliver k env ∈ ms ∧ env.saveError = none

/-! ## 1. The log -/

namespace SystemLemmas

/-- The Go service does not notice the Node service. -/
theorem component : Machine.Component step GoService.step World.go Move.action? := by
  rintro w (a | ⟨k, env⟩ | ⟨env, body⟩) w' h
  · obtain ⟨go, hgo, rfl⟩ := Option.map_eq_some_iff.mp h
    exact hgo
  · obtain ⟨r, -, rfl⟩ := Option.map_eq_some_iff.mp h
    rfl
  · cases h
    rfl

theorem topic_trans {s s' : Snapshot} {a : Action} (h : Trans s a s') : s.topic <+: s'.topic := by
  rcases goroutines_trans h with hp | ⟨i, op, call, reply, -, rfl⟩ | ⟨-, htopic, -⟩
  · cases hp with
    | stored => exact List.prefix_append _ _
    | clockRead | handedOver | wrote | woke | panicked => exact List.prefix_refl _
  · exact List.prefix_refl _
  · exact htopic ▸ List.prefix_refl _

theorem filterMap_snoc {α β : Type} (f : α → Option β) (l : List α) (x : α) :
    (l ++ [x]).filterMap f = l.filterMap f ++ (f x).toList := by
  rw [List.filterMap_append, List.filterMap_cons]
  cases f x <;> rfl

end SystemLemmas

open SystemLemmas

variable {t₀ : Table} {clock : Instant} {docs₀ : Collection} {ms : List Move} {w : World}

/-- The run of the Go service in a run of both. -/
theorem reaches_go (h : Reaches t₀ clock docs₀ ms w) :
    GoService.Reaches t₀ clock (ms.filterMap Move.action?) w.go :=
  Machine.run_component component h

/-- The log grows by the events of the deliveries and of the requests, and every record that
was delivered is where it was. -/
theorem log_run (h : Reaches t₀ clock docs₀ ms w) :
    w.docs = docs₀ ++ ms.filterMap (loggedIn w.go.topic) ∧
      ∀ k env, .deliver k env ∈ ms → k < w.go.topic.length := by
  suffices hall : ∃ t : Snapshot, w.go = t.state ∧
      w.docs = docs₀ ++ ms.filterMap (loggedIn w.go.topic) ∧
        ∀ k env, .deliver k env ∈ ms → k < w.go.topic.length by
    obtain ⟨-, -, hlog⟩ := hall
    exact hlog
  refine Machine.run_induction (P := fun ms w => ∃ t : Snapshot, w.go = t.state ∧
      w.docs = docs₀ ++ ms.filterMap (loggedIn w.go.topic) ∧
        ∀ k env, Move.deliver k env ∈ ms → k < w.go.topic.length)
    ⟨StateOf.start t₀ clock, rfl, (List.append_nil _).symm, fun _ _ hk => absurd hk List.not_mem_nil⟩ ?_ h
  rintro ms w m w' - ⟨t, ht, hdocs, hpos⟩ hm
  cases m with
  | go a =>
    obtain ⟨go, hgo, rfl⟩ := Option.map_eq_some_iff.mp hm
    rw [ht] at hgo
    obtain ⟨t', rfl, htrans⟩ := step_trans hgo
    obtain ⟨rs, hrs⟩ := topic_trans htrans
    have htopic : t'.state.topic = w.go.topic ++ rs := by rw [ht]; exact hrs.symm
    refine ⟨t', rfl, ?_, fun k env hk => ?_⟩
    · rw [filterMap_snoc]
      dsimp only [loggedIn]
      rw [Option.toList_none, List.append_nil, hdocs]
      refine congrArg (docs₀ ++ ·) (List.filterMap_congr fun m hmem => ?_)
      cases m with
      | deliver k env => rw [loggedIn, loggedIn, htopic, List.getElem?_append_left (hpos k env hmem)]
      | go | post => rfl
    · rw [List.mem_append, List.mem_singleton] at hk
      refine (hpos k env (hk.resolve_right fun heq => by cases heq)).trans_le ?_
      rw [htopic, List.length_append]
      exact Nat.le_add_right _ _
  | deliver k env =>
    obtain ⟨r, hr, rfl⟩ := Option.map_eq_some_iff.mp hm
    refine ⟨t, ht, ?_, fun k' env' hk => ?_⟩
    · rw [filterMap_snoc, ← List.append_assoc, ← hdocs, handle_eq]
      dsimp only [loggedIn]
      rw [hr, Option.bind_some, loggedBy]
    · rw [List.mem_append, List.mem_singleton] at hk
      rcases hk with hk | hk
      · exact hpos k' env' hk
      · cases hk
        exact (List.getElem?_eq_some_iff.mp hr).1
  | post env body =>
    cases hm
    refine ⟨t, ht, ?_, fun k env' hk => ?_⟩
    · rw [filterMap_snoc, ← List.append_assoc, ← hdocs, handle_eq]
      rfl
    · rw [List.mem_append, List.mem_singleton] at hk
      exact hpos k env' (hk.resolve_right fun heq => by cases heq)

/-! ## 2. What is in the log -/

namespace SystemLemmas

theorem reports_of_announces {op : Op} {reply : Reply} {c : Change} {call : PublishCall}
    (h : Announces op reply c call) (t : Instant) (env : Env) :
    Reports c ((callFields call t).event env) := by
  cases h with
  | created hid hname =>
    refine ⟨rfl, ⟨_, rfl, hid⟩, fun name hn => ?_⟩
    rw [← Option.some.inj hn, hname]
    rfl
  | updated _ hid hrow =>
    subst hrow
    refine ⟨rfl, ⟨_, rfl, hid⟩, fun name hn => ?_⟩
    rw [← Option.some.inj hn]
    rfl
  | deleted hid => exact ⟨rfl, ⟨_, rfl, hid⟩, nofun⟩

theorem eventTypeOf_of_reports {c : Change} {e : Event} {eventType : String} (h : Reports c e)
    (htype : e.type = text eventType) : eventTypeOf c = eventType := by
  have heq := h.type.symm.trans htype
  rw [text, text, Option.some.injEq, Json.str.injEq] at heq
  exact utf16_injective heq

theorem inserted_iff {c : Change} : eventTypeOf c = "device.created" ↔ ∃ r, c = .inserted r := by
  cases c <;> simp [eventTypeOf]

theorem deleted_iff {c : Change} : eventTypeOf c = "device.deleted" ↔ ∃ r, c = .deleted r := by
  cases c <;> simp [eventTypeOf]

/-- The fields of a record, when the consumer can read them. -/
theorem stored_record {r : Record} {call : PublishCall} {t : Instant} {env : Env} {e : Event}
    (hr : r.message = call.message t) (h : stored env (delivered r.message) = some e) :
    e = (callFields call t).event env := by
  unfold stored at h
  split at h
  · obtain ⟨f, hf, rfl⟩ := Option.map_eq_some_iff.mp h
    rw [hr] at hf
    rw [(message_fields_iff.mp hf).1]
  · cases h

/-- The change behind a record of the topic. -/
theorem record_origin {t : Snapshot} {as : List Action} (hl : Ledger t) (hc : Copying as t)
    {r : Record} (hr : r ∈ t.topic) : ∃ op reply c call, ∃ stamp : Instant,
      (r.exec, c) ∈ t.commits ∧ Announces op reply c call ∧ r.message = call.message stamp := by
  obtain ⟨p, hp, hexec⟩ := hc.started r hr
  obtain ⟨op, reply, c, hcs, -, hann⟩ := started_account hl hp
  obtain ⟨g, hg⟩ := List.mem_iff_getElem?.mp hp
  obtain ⟨-, -, -, -, stamp, hsame⟩ := copied_bounds (hc.copied g p hg)
  refine ⟨op, reply, c, p.call, stamp, hexec ▸ commit_of_changesOf hcs, hann, hsame _ ?_⟩
  exact List.mem_filterMap.mpr ⟨r, hr, if_pos hexec.symm⟩

end SystemLemmas

/-- Every event in the log was there at the start, or was sent with a request, or tells of a
change that was committed. -/
theorem log_origin (h : Reaches t₀ clock docs₀ ms w) {e : Event} (he : e ∈ w.docs) :
    e ∈ docs₀ ∨ (∃ env body, .post env body ∈ ms ∧ loggedBy env (.post body) = some e) ∨
      ∃ i c, (i, c) ∈ w.go.commits ∧ Reports c e := by
  obtain ⟨hdocs, -⟩ := log_run h
  obtain ⟨t, hgo, hl, hcopying⟩ := copying_run (reaches_go h)
  rw [hdocs, List.mem_append] at he
  refine he.imp_right fun he => ?_
  obtain ⟨m, hm, hlogged⟩ := List.mem_filterMap.mp he
  cases m with
  | go a => cases hlogged
  | post env body => exact .inl ⟨env, body, hm, hlogged⟩
  | deliver k env =>
    obtain ⟨r, hr, hstored⟩ := Option.bind_eq_some_iff.mp hlogged
    rw [hgo] at hr ⊢
    obtain ⟨op, reply, c, call, stamp, hc, hann, hmessage⟩ :=
      record_origin hl hcopying (List.mem_of_getElem? hr)
    exact .inr ⟨r.exec, c, hc, stored_record hmessage hstored ▸ reports_of_announces hann stamp env⟩

/-- What an event that tells of a committed change says of the table. -/
theorem reported_stored (h : Reaches t₀ clock docs₀ ms w) {i : Nat} {c : Change} {e : Event}
    (hc : (i, c) ∈ w.go.commits) (hreports : Reports c e) : WasStored t₀ w.go c.uuid ∧
      (e.type = text "device.deleted" → c.uuid ∉ w.go.table.ids) := by
  obtain ⟨t, hgo, hids, -, hreplays⟩ := snapshot_run (reaches_go h)
  rw [hgo] at hc ⊢
  refine ⟨wasStored_of_commit hreplays hc, fun htype => ?_⟩
  obtain ⟨r, rfl⟩ := deleted_iff.mp (eventTypeOf_of_reports hreports htype)
  exact (hids.dead_gone r.id (dead_of_deleted hc)).2

/-- Events do not lie. An event in the log that was not there at the start and was not sent
with a request tells of a change that was committed, of a device that was stored; and if it
tells of a deletion, the device is not in the table. -/
theorem log_sound (h : Reaches t₀ clock docs₀ ms w) {e : Event} (he : e ∈ w.docs) (hnew : e ∉ docs₀)
    (hposts : ∀ env body, .post env body ∈ ms → loggedBy env (.post body) ≠ some e) :
    ∃ i c, (i, c) ∈ w.go.commits ∧ Reports c e ∧ WasStored t₀ w.go c.uuid ∧
      (e.type = text "device.deleted" → c.uuid ∉ w.go.table.ids) := by
  rcases log_origin h he with hold | ⟨env, body, hm, hlogged⟩ | ⟨i, c, hc, hreports⟩
  · exact absurd hold hnew
  · exact absurd hlogged (hposts env body hm)
  · exact ⟨i, c, hc, hreports, reported_stored h hc hreports⟩

/-- A device is created and its creation is logged. -/
def createAndLog : List Move :=
  [.go (.call (.create "laptop" "computer")), .go (.draw 0 ⟨Uuid.numbered 10, 1⟩),
    .go (.sql 0 none []), .go (.go 0), .go (.ret 0), .go (.handOver 0), .go (.store 0),
    .go (.write 0 (.ok ())), .deliver 0 ⟨Uuid.numbered 20, 2, none⟩]

/-- The event of this creation. -/
def createdEvent : Event :=
  (callFields (.created (Uuid.numbered 10).toString "laptop" 1) 1).event ⟨Uuid.numbered 20, 2, none⟩

theorem createAndLog_logged {topic : List Record} {r : Record} {e : Event} (htopic : topic = [r])
    (h : stored ⟨Uuid.numbered 20, 2, none⟩ (delivered r.message) = some e) :
    createAndLog.filterMap (loggedIn topic) = [e] := by
  have hgo : ∀ a, loggedIn topic (.go a) = none := fun _ => rfl
  have hdelivered : loggedIn topic (.deliver 0 ⟨Uuid.numbered 20, 2, none⟩) = some e := by
    rw [htopic]
    exact h
  simp only [createAndLog, List.filterMap_cons, hgo, hdelivered, List.filterMap_nil]

theorem createAndLog_run : ∃ w, Reaches Table.empty 0 [] createAndLog w ∧ AtRest createAndLog w ∧
    w.docs = [createdEvent] := by
  obtain ⟨w, hrun, htopic, ⟨e, hexecs, he⟩, ⟨G, hgs, hG⟩⟩ : ∃ w,
      Reaches Table.empty 0 [] createAndLog w ∧
      w.go.topic = [⟨0, (PublishCall.created (Uuid.numbered 10).toString "laptop" 1).message 1⟩] ∧
      (∃ e, w.go.execs = [e] ∧ e.isReturned = true) ∧
      ∃ G, w.go.goroutines = [G] ∧ G.exec = 0 :=
    ⟨_, rfl, rfl, ⟨_, rfl, rfl⟩, ⟨_, rfl, rfl⟩⟩
  refine ⟨w, hrun, ⟨?_, ?_, fun k hk => ?_⟩, ?_⟩
  · rw [hexecs]
    rintro e' he'
    exact List.mem_singleton.mp he' ▸ he
  · rw [hgs, htopic]
    rintro G' hG'
    obtain rfl := List.mem_singleton.mp hG'
    exact ⟨_, List.mem_singleton_self _, hG.symm⟩
  · rw [htopic] at hk
    obtain rfl : k = 0 := Nat.lt_one_iff.mp hk
    exact ⟨_, List.mem_of_getElem? (i := 8) rfl, rfl⟩
  · obtain ⟨hdocs, -⟩ := log_run hrun
    let call : PublishCall := .created (Uuid.numbered 10).toString "laptop" 1
    have hfields : (delivered (call.message 1)).fields = some (callFields call 1) :=
      message_fields_iff.mpr ⟨rfl, isUuidV4_toString rfl, 'l', by decide, by decide⟩
    have hstored : stored ⟨Uuid.numbered 20, 2, none⟩ (delivered (call.message 1)) =
        some createdEvent := by
      rw [stored, if_pos rfl, hfields]
      rfl
    exact hdocs.trans (createAndLog_logged htopic hstored)

theorem log_sound_created : ∃ w, Reaches Table.empty 0 [] createAndLog w ∧
    ∃ i c, (i, c) ∈ w.go.commits ∧ Reports c createdEvent := by
  obtain ⟨w, hrun, -, hdocs⟩ := createAndLog_run
  obtain ⟨i, c, hc, hreports, -, -⟩ := log_sound hrun (hdocs ▸ List.mem_singleton_self createdEvent)
    List.not_mem_nil fun env body hm => by simp [createAndLog] at hm
  exact ⟨w, hrun, i, c, hc, hreports⟩

/-- When no record is delivered twice, and the broker stores at most `n` copies for each call of
`WriteMessages`, the log grows by one event for each request and `3 * n` for each change at most:
`publish` makes up to three calls. -/
theorem log_bounded {n : Nat} (hfew : FewCopies n (ms.filterMap Move.action?))
    (h : Reaches t₀ clock docs₀ ms w) (honce : (ms.filterMap Move.position?).Nodup) :
    w.docs.length ≤ docs₀.length + ms.countP Move.isPost + 3 * n * w.go.commits.length := by
  obtain ⟨hdocs, hpos⟩ := log_run h
  -- the deliveries are at different positions of the topic
  have hdelivered : (ms.filterMap Move.position?).length ≤ w.go.topic.length := by
    have hsub : ms.filterMap Move.position? ⊆ List.range w.go.topic.length := by
      intro k hk
      obtain ⟨m, hm, hmk⟩ := List.mem_filterMap.mp hk
      cases m with
      | deliver k' env =>
        cases hmk
        exact List.mem_range.mpr (hpos k env hm)
      | go | post => cases hmk
    have hle := (honce.subperm hsub).length_le
    rwa [List.length_range] at hle
  have hmoves : ∀ ms : List Move, (ms.filterMap (loggedIn w.go.topic)).length ≤
      ms.countP Move.isPost + (ms.filterMap Move.position?).length := by
    intro ms
    induction ms with
    | nil => exact Nat.le_refl _
    | cons m ms ih =>
      have htoList : (loggedIn w.go.topic m).toList.length ≤
          (if m.isPost then 1 else 0) + m.position?.toList.length := by
        cases m with
        | go a => exact Nat.le_refl _
        | deliver k env => exact Option.length_toList_le
        | post env body => exact Option.length_toList_le
      rw [filterMap_cons_toList, filterMap_cons_toList, List.length_append, List.length_append,
        List.countP_cons]
      omega
  have htopic := topic_bounded hfew (reaches_go h)
  have hlog := hmoves ms
  rw [hdocs, List.length_append]
  omega

theorem log_bounded_created : ∃ w, Reaches Table.empty 0 [] createAndLog w ∧
    w.docs.length ≤ 3 * w.go.commits.length := by
  obtain ⟨w, hrun, -, -⟩ := createAndLog_run
  have hfew : FewCopies 1 (createAndLog.filterMap Move.action?) := by
    intro g
    cases g with
    | zero => decide
    | succ g => exact Nat.zero_le _
  have hle := log_bounded hfew hrun (List.nodup_singleton 0)
  rw [show createAndLog.countP Move.isPost = 0 from rfl, List.length_nil, Nat.zero_add] at hle
  exact ⟨w, hrun, hle⟩

/-! ## 3. What is missing in the log -/

/-- The call of an execution. -/
def callOf : Standing → Op
  | .running op _ => op
  | .returned op _ => op

/-- The execution holds no name that it has still to announce. -/
def nameless : Standing → Bool
  | .running _ (.deleting _ _) => false
  | .running _ (.announcing _ _) => false
  | _ => true

/-- The calls are careful, and so all names that are stored, kept or announced are legible. -/
structure Readable (s : Snapshot) : Prop where
  rows : ∀ r ∈ s.table.rows, Legible r.name
  calls : ∀ (i : Nat) e, s.execs[i]? = some e → Careful (callOf e)
  deleting : ∀ i op id name, At s i op (.deleting id name) → Legible name
  announcing : ∀ i op call reply, At s i op (.announcing call reply) → Legible call.deviceName
  started : ∀ p ∈ s.goroutines, Legible p.call.deviceName

namespace Readable

variable {s s' : Snapshot} {a : Action} {i : Nat} {op : Op} {st : Stage} {e : Standing}

/-- Only the table, the executions and the goroutines count. -/
theorem congr (h : Readable s) (ht : s'.table = s.table) (he : s'.execs = s.execs)
    (hg : s'.goroutines.map Publication.call = s.goroutines.map Publication.call) :
    Readable s' where
  rows := ht ▸ h.rows
  calls := he ▸ h.calls
  deleting i op id name hat := h.deleting i op id name (by rwa [At, he] at hat)
  announcing i op call reply hat := h.announcing i op call reply (by rwa [At, he] at hat)
  started p hp := by
    have hcall : p.call ∈ s.goroutines.map Publication.call := hg ▸ List.mem_map_of_mem hp
    obtain ⟨q, hq, hqp⟩ := List.mem_map.mp hcall
    exact hqp ▸ h.started q hq

/-- An execution goes on, and the rows stay legible. -/
theorem goOn {table : Table} {cs : List Change} (h : Readable s) (hat : At s i op st)
    (hop : callOf e = op) (hrows : ∀ r ∈ table.rows, Legible r.name)
    (hdeleting : ∀ op id name, e = .running op (.deleting id name) → Legible name)
    (hannouncing : ∀ op call reply, e = .running op (.announcing call reply) →
      Legible call.deviceName) : Readable ((s.goOn i e).commit i table cs) where
  rows := hrows
  calls j e' he' := by
    rcases getElem?_set_some he' with ⟨-, rfl⟩ | ⟨-, he'⟩
    · exact hop ▸ h.calls i _ hat
    · exact h.calls j e' he'
  deleting j op' id name hat' := by
    rcases at_goOn hat' with ⟨-, heq⟩ | ⟨-, hat'⟩
    · exact hdeleting op' id name heq
    · exact h.deleting j op' id name hat'
  announcing j op' call reply hat' := by
    rcases at_goOn hat' with ⟨-, heq⟩ | ⟨-, hat'⟩
    · exact hannouncing op' call reply heq
    · exact h.announcing j op' call reply hat'
  started := h.started

/-- An execution goes on to a stage with no name that counts. -/
theorem quiet (h : Readable s) (hat : At s i op st) (hop : callOf e = op)
    (hq : nameless e = true) : Readable (s.goOn i e) := by
  rw [← commit_reads]
  refine h.goOn hat hop h.rows ?_ ?_ <;> rintro _ _ _ rfl <;> cases hq

end Readable

theorem readable_start (hrows : ∀ r ∈ t₀.rows, Legible r.name) :
    Readable (StateOf.start t₀ clock) := by
  refine ⟨hrows, ?_, fun _ _ _ _ hat => absurd hat not_at_start,
    fun _ _ _ _ hat => absurd hat not_at_start, ?_⟩
  · intro i e he
    cases he
  · intro p hp
    cases hp

/-- Every outcome keeps the names legible, as long as the calls are careful. -/
theorem readable_trans {s s' : Snapshot} {a : Action} (hl : Ledger s) (h : Readable s)
    (ha : CarefulCall s.state a) (ht : Trans s a s') : Readable s' := by
  have named : ∀ {name : String}, name ≠ "" → name = "" ∨ Legible name → Legible name :=
    fun hne hname => hname.resolve_left hne
  cases ht with
  | @called op =>
    refine ⟨h.rows, fun j e he => ?_, ?_, ?_, h.started⟩
    · rcases getElem?_snoc_some he with ⟨-, rfl⟩ | ⟨-, he⟩
      · exact ha
      · exact h.calls j e he
    · intro j op' id name hat
      rcases at_call hat with ⟨-, heq⟩ | ⟨-, hat⟩
      · cases op with
        | create name deviceType =>
          rw [Op.start] at heq
          split at heq
          · cases heq
          · split at heq <;> cases heq
        | list | get | update | delete => cases heq
      · exact h.deleting j op' id name hat
    · intro j op' call reply hat
      rcases at_call hat with ⟨-, heq⟩ | ⟨-, hat⟩
      · exact absurd heq (IdentityLemmas.start_not_announcing op op' call reply)
      · exact h.announcing j op' call reply hat
  | drew hat => exact (h.quiet hat rfl rfl).congr rfl rfl rfl
  | failed hat | listed hat | got hat | absent hat | refused hat | foundToUpdate hat =>
    exact h.quiet hat rfl rfl
  | @saved i op d order u hat hid hu =>
    obtain ⟨⟨hop, hname, -⟩, -⟩ := hl.at_query hat rfl
    have hcareful : Careful op := h.calls i _ hat
    rw [hop] at hcareful
    have hlegible : Legible d.name := named hname hcareful
    refine h.goOn hat rfl (fun r hr => ?_) (by rintro _ _ _ ⟨⟩) fun op' call reply heq => ?_
    · rcases List.mem_append.mp hr with hr | hr
      · exact h.rows r hr
      · obtain rfl := List.mem_singleton.mp hr
        exact hlegible
    · cases heq
      exact hlegible
  | @updated i op d order u r hat hid hr =>
    obtain ⟨⟨id, hop, -, hname, -⟩, -⟩ := hl.at_query hat rfl
    have hcareful : Careful op := h.calls i _ hat
    rw [hop] at hcareful
    have hlegible : Legible d.name := named hname hcareful
    refine h.goOn hat rfl (fun r' hr' => ?_) (by rintro _ _ _ ⟨⟩) fun op' call reply heq => ?_
    · obtain ⟨r₀, hr₀, rfl⟩ := List.mem_map.mp hr'
      unfold Row.renamed
      split
      · exact hlegible
      · exact h.rows r₀ hr₀
    · cases heq
      exact hlegible
  | foundToDelete hat hid hr =>
    rw [← commit_reads]
    refine h.goOn hat rfl h.rows (fun op' id name heq => ?_) (by rintro _ _ _ ⟨⟩)
    cases heq
    exact h.rows _ (find_some.mp hr).1
  | deleted hat =>
    refine h.goOn hat rfl (fun r hr => h.rows r (List.filter_sublist.subset hr))
      (by rintro _ _ _ ⟨⟩) fun op' call reply heq => ?_
    cases heq
    exact h.deleting _ _ _ _ hat
  | @announced i op call reply hat =>
    have hquiet := h.quiet (e := .running op (.done (.ok reply))) hat rfl rfl
    refine ⟨hquiet.rows, hquiet.calls, hquiet.deleting, hquiet.announcing, fun p hp => ?_⟩
    rcases List.mem_append.mp hp with hp | hp
    · exact h.started p hp
    · obtain rfl := List.mem_singleton.mp hp
      exact h.announcing _ _ _ _ hat
  | returned hat => exact (h.quiet hat rfl rfl).congr rfl rfl rfl
  | publisher hp =>
    have hstore := publisher_sameStore hp
    refine h.congr hstore.table hstore.execs ?_
    cases hp with
    | clockRead hat | wrote hat | woke hat => exact map_set_eq hat.1 rfl
    | handedOver | stored => rfl
    | panicked hp => exact map_set_eq hp rfl
  | lifecycle hl =>
    cases hl with
    | signal | shutdown | close | exit => exact h.congr rfl rfl rfl

/-- What is known of the Go service after a run of careful calls over legible rows. -/
theorem careful_run {as : List Action} {s : State} (hrows : ∀ r ∈ t₀.rows, Legible r.name)
    (hv4 : ∀ u ∈ t₀.ids, u.isV4 = true)
    (hcalls : Machine.Guarded GoService.step CarefulCall (StateOf.start t₀ clock) as)
    (h : GoService.Reaches t₀ clock as s) :
    ∃ t : Snapshot, s = t.state ∧ Ids t₀ t ∧ Ledger t ∧ Edited t₀ t ∧ Copying as t ∧ Readable t ∧
      Replays t₀ (t.commits.map Prod.snd) t.table ∧ Named t :=
  guarded_trans_induction
    (P := fun as t => Ids t₀ t ∧ Ledger t ∧ Edited t₀ t ∧ Copying as t ∧ Readable t ∧
      Replays t₀ (t.commits.map Prod.snd) t.table ∧ Named t)
    ⟨ids_start t₀ clock, ledger_start t₀ clock, edited_start t₀ clock, copying_start t₀ clock,
      readable_start hrows, .nil, named_start t₀ clock hv4⟩
    (fun _ _ _ _ ⟨hids, hl, he, hc, hr, hreplays, hn⟩ hcareful ht =>
      ⟨ids_trans hids ht, ledger_trans hl ht, edited_trans hids he ht, copying_trans hc hl ht,
        readable_trans hl hr hcareful ht, replays_trans hreplays ht, named_trans hids hn ht⟩)
    hcalls h

/-- The calls of the Go service in a run of both are careful. -/
def CarefulMove (_ : World) : Move → Prop
  | .go (.call op) => Careful op
  | _ => True

namespace SystemLemmas

theorem careful_go (hcalls : Machine.Guarded step CarefulMove (World.start t₀ clock docs₀) ms)
    (h : Reaches t₀ clock docs₀ ms w) :
    Machine.Guarded GoService.step CarefulCall (StateOf.start t₀ clock)
      (ms.filterMap Move.action?) := by
  have hpart : ∀ (w : World) (m : Move) (a : Action), m.action? = some a → CarefulMove w m →
      CarefulCall w.go a := by
    intro w m a hm hc
    cases m with
    | go a' =>
      cases hm
      cases a with
      | call op => exact hc
      | _ => trivial
    | deliver | post => cases hm
  exact (Machine.guarded_component component hpart hcalls h :)

/-- A change that was committed, once all executions have returned. -/
theorem returned_commit {s : Snapshot} (hl : Ledger s)
    (hret : ∀ e ∈ s.state.execs, e.isReturned = true) {i : Nat} {c : Change}
    (hc : (i, c) ∈ s.commits) : ∃ op reply, ∃ p ∈ s.goroutines,
      s.execs[i]? = some (.returned op (.ok reply)) ∧ p.exec = i ∧ Announces op reply c p.call := by
  have hmem : c ∈ changesOf s i := List.mem_filterMap.mpr ⟨_, hc, if_pos rfl⟩
  have hacc := hl i
  cases he : s.execs[i]? with
  | none =>
    rw [he] at hacc
    rw [hacc.1] at hmem
    cases hmem
  | some e =>
    rw [he] at hacc
    cases e with
    | running op st =>
      have hstate := hret _ (List.mem_of_getElem? (exec_of_at he))
      cases hstate
    | returned op r =>
      have hsettled : Settled op r (changesOf s i) (publishesOf s.state i) := hacc
      cases r with
      | error e =>
        rw [hsettled.1] at hmem
        cases hmem
      | ok reply =>
        by_cases hmut : op.mutates = true
        · obtain ⟨c', p, hp, hexec, hcs, hann⟩ := returned_goroutine hl he hmut
          rw [hcs, List.mem_singleton] at hmem
          exact ⟨op, reply, p, hp, rfl, hexec, hmem ▸ hann⟩
        · rw [Settled, if_neg hmut] at hsettled
          rw [hsettled.1] at hmem
          cases hmem

/-- The id under which a change is announced is that of the row. -/
theorem announced_id {op : Op} {reply : Reply} {c : Change} {call : PublishCall}
    (hann : Announces op reply c call) (hcanonical : Canonical call) (hop : Careful op) :
    call.deviceID = c.uuid.toString := by
  refine (IdentityLemmas.announces_id hann hcanonical).2.mpr ?_
  cases hann with
  | deleted hid => exact hop _ hid
  | created | updated => trivial

/-- A goroutine with a record in the topic has its event there. -/
theorem published_record {as : List Action} {s : Snapshot} (hc : Copying as s) {p : Publication}
    (hp : p ∈ s.goroutines) (hpub : ∃ r ∈ s.topic, r.exec = p.exec) :
    ∃ t : Instant, (⟨p.exec, p.call.message t⟩ : Record) ∈ s.topic := by
  obtain ⟨g, hg⟩ := List.mem_iff_getElem?.mp hp
  obtain ⟨-, -, -, -, t, hsame⟩ := copied_bounds (hc.copied g p hg)
  obtain ⟨⟨exec, message⟩, hr, rfl⟩ := hpub
  have hmessage : message = p.call.message t :=
    hsame message (List.mem_filterMap.mpr ⟨_, hr, if_pos rfl⟩)
  exact ⟨t, hmessage ▸ hr⟩

end SystemLemmas

/-- At rest, every change that was committed has its event in the log, under the id of the
row, if the consumer could read them: the initial rows have legible names and ids of version 4,
and the calls were careful. -/
theorem log_complete (hrows : ∀ r ∈ t₀.rows, Legible r.name) (hv4 : ∀ u ∈ t₀.ids, u.isV4 = true)
    (hcalls : Machine.Guarded step CarefulMove (World.start t₀ clock docs₀) ms)
    (h : Reaches t₀ clock docs₀ ms w) (hrest : AtRest ms w) {i : Nat} {c : Change}
    (hc : (i, c) ∈ w.go.commits) :
    ∃ e ∈ w.docs, Reports c e ∧ e.deviceId = text c.uuid.toString := by
  obtain ⟨hdocs, -⟩ := log_run h
  obtain ⟨t, hgo, hids, hl, -, hcopying, hreadable, hreplays, hnamed⟩ :=
    careful_run hrows hv4 (careful_go hcalls h) (reaches_go h)
  obtain ⟨hret, hpub, hcons⟩ := hrest
  rw [hgo] at hret hpub hcons hc hdocs
  obtain ⟨op, reply, p, hp, hexec, rfl, hann⟩ := returned_commit hl hret hc
  obtain ⟨stamp, hrecord⟩ := published_record hcopying hp (hpub _ (List.mem_map_of_mem hp))
  have hid := announced_id hann (hnamed.started p hp) (hreadable.calls _ _ hexec)
  have hu : isUuidV4 (utf16 p.call.deviceID) = true := by
    rw [hid]
    exact isUuidV4_toString (IdentityLemmas.commit_isV4 hids hreplays hnamed hc)
  -- its record was delivered, and the consumer could read it
  obtain ⟨k, hk⟩ := List.mem_iff_getElem?.mp hrecord
  obtain ⟨env, hdeliver, hsave⟩ := hcons k (List.getElem?_eq_some_iff.mp hk).1
  have hfields : (delivered (p.call.message stamp)).fields = some (callFields p.call stamp) :=
    message_fields_iff.mpr ⟨rfl, hu, hreadable.started p hp⟩
  have hlogged : loggedIn t.topic (.deliver k env) = some ((callFields p.call stamp).event env) := by
    rw [loggedIn, hk, Option.bind_some, stored, if_pos hsave, hfields]
    rfl
  refine ⟨(callFields p.call stamp).event env, ?_, reports_of_announces hann stamp env, ?_⟩
  · rw [hdocs]
    exact List.mem_append_right _ (List.mem_filterMap.mpr ⟨_, hdeliver, hlogged⟩)
  · rw [← hid]
    rfl

/-! ## 4. The devices, by the log -/

/-- An event of this type about the device `u`. -/
structure IsEvent (eventType : String) (u : Uuid) (e : Event) : Prop where
  type : e.type = text eventType
  deviceId : e.deviceId = text u.toString

theorem uuid_of_event {c : Change} {e : Event} {u : Uuid} {eventType : String} (h : Reports c e)
    (he : IsEvent eventType u e) : c.uuid = u := by
  obtain ⟨id, hid, hparse⟩ := h.deviceId
  have heq := hid.symm.trans he.deviceId
  rw [text, text, Option.some.injEq, Json.str.injEq] at heq
  exact parse_of_id (utf16_injective heq) hparse

end AssetTracker.System
