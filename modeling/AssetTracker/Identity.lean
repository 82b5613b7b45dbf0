import AssetTracker.Go.Events
import AssetTracker.Node.EventLog
import AssetTracker.Pipeline

/-!
# The device that an event is about

A row is found under every spelling of its id, but the topic and the event log compare
texts. A creation and an update announce the device under the id of the row, a deletion
under the id of the request. So the spelling in the path of a DELETE decides whether the
`device.deleted` event belongs to the history of the device.

Results:
1. `named_reaches`: creations and updates are announced under canonical ids; all ids are
   of version 4.
2. `names_iff`, `listed_iff`: the messages and queries in which an id is found.
3. `event_identity_iff`: the calls whose event carries the id of the row.
-/

namespace AssetTracker.Pipeline

open Encoding Text Effects Linearizability GoService NodeService ConsumerLemmas
open TableLemmas StepLemmas InvariantLemmas GoroutineLemmas EventLemmas

/-! ## Definitions -/

/-- The message is about the device `u`, by its key and by the `deviceId` of its value. -/
structure Names (u : Uuid) (m : Message) : Prop where
  key : m.deviceID = some u.toString
  value : ∃ members, parseBytes m.value = some (.obj members) ∧
    stringAt "deviceId" members = some (utf16 u.toString)

/-- Once the consumer has handled the message, with a repository that does not fail, the
query for the device `u` returns its event. -/
def ListedUnder (u : Uuid) (m : Message) : Prop :=
  ∀ (sorter : Sorter) (env : Env) (docs : Collection), env.saveError = none →
    ∃ es, listByDevice sorter (text u.toString) ((handleMessage env (delivered m)).run docs).2 =
      .ok es ∧ ∃ e ∈ es, e.id = text env.uuid.toString

/-- A deletion spells the id of the device as the row does. -/
def SpelledAs (u : Uuid) : Op → Prop
  | .delete id => id = u.toString
  | _ => True

/-- A call of the publisher, other than for a deletion, has a canonical id. -/
def Canonical (call : PublishCall) : Prop :=
  call.kind ≠ .deleted → ∃ u : Uuid, call.deviceID = u.toString

/-- The calls of the publisher in a snapshot are canonical, and so are the ids that were
drawn. -/
structure Named (s : Snapshot) : Prop where
  announcing : ∀ i op call reply, At s i op (.announcing call reply) → Canonical call
  started : ∀ p ∈ s.goroutines, Canonical p.call
  drawn : ∀ u ∈ s.drawn, u.isV4 = true

/-! ## 1. Canonical ids -/

namespace IdentityLemmas

theorem start_not_announcing (op op' : Op) (call : PublishCall) (reply : Reply) :
    Standing.running op op.start ≠ .running op' (.announcing call reply) := by
  intro h
  cases op with
  | create name deviceType =>
    rw [Op.start] at h
    split at h
    · cases h
    · split at h <;> cases h
  | list | get _ | update _ _ _ | delete _ => cases h

end IdentityLemmas

open IdentityLemmas

namespace Named

variable {s s' : Snapshot} {a : Action} {i : Nat} {e : Standing}

/-- Only the executions, the goroutines and the draws count. -/
theorem congr (h : Named s) (he : s'.execs = s.execs) (hg : s'.goroutines = s.goroutines)
    (hd : s'.drawn = s.drawn) : Named s' where
  announcing i op call reply hat := h.announcing i op call reply (by rwa [At, he] at hat)
  started := hg ▸ h.started
  drawn := hd ▸ h.drawn

/-- An execution goes on to a stage that does not announce, or with a canonical call. -/
theorem goOn (h : Named s)
    (he : ∀ op call reply, e = .running op (.announcing call reply) → Canonical call) :
    Named (s.goOn i e) where
  announcing j op call reply hat := by
    rcases at_goOn hat with ⟨-, heq⟩ | ⟨-, hat⟩
    · exact he op call reply heq
    · exact h.announcing j op call reply hat
  started := h.started
  drawn := h.drawn

protected theorem call (h : Named s) (op : Op) : Named (s.call op (.running op op.start)) where
  announcing j op' call reply hat := by
    rcases at_call hat with ⟨-, heq⟩ | ⟨-, hat⟩
    · exact absurd heq (start_not_announcing op op' call reply)
    · exact h.announcing j op' call reply hat
  started := h.started
  drawn := h.drawn

/-- A goroutine keeps its call. -/
theorem publisher (h : Named s) (ht : PublisherTrans s a s') : Named s' := by
  have resume : ∀ {g : Nat} {p p' : Publication}, s.goroutines[g]? = some p → p'.call = p.call →
      ∀ q ∈ s.goroutines.set g p', Canonical q.call := by
    intro g p p' hp hcall q hq
    rcases List.mem_or_eq_of_mem_set hq with hq | rfl
    · exact h.started q hq
    · exact hcall ▸ h.started p (List.mem_of_getElem? hp)
  have hstore := publisher_sameStore ht
  refine ⟨fun i op call reply hat => h.announcing i op call reply ?_, ?_, hstore.drawn ▸ h.drawn⟩
  · rwa [At, hstore.execs] at hat
  · cases ht with
    | clockRead hp => exact resume hp.1 rfl
    | handedOver | stored => exact h.started
    | wrote hp => exact resume hp.1 rfl
    | woke hp => exact resume hp.1 rfl
    | panicked hp => exact resume hp rfl

end Named

theorem named_start (t₀ : Table) (clock : Instant) (hv4 : ∀ u ∈ t₀.ids, u.isV4 = true) :
    Named (StateOf.start t₀ clock) := by
  refine ⟨fun _ _ _ _ hat => absurd hat not_at_start, fun p hp => ?_, hv4⟩
  cases hp

/-- Every outcome keeps `Named`: a device is saved and updated under the id that it was
drawn with. -/
theorem named_trans {t₀ : Table} {s s' : Snapshot} {a : Action} (hids : Ids t₀ s) (h : Named s)
    (ht : Trans s a s') : Named s' := by
  have quiet : ∀ {i : Nat} {op : Op} {st : Stage}, (∀ call reply, st ≠ .announcing call reply) →
      Named (s.goOn i (.running op st)) := by
    intro i op st hst
    exact h.goOn fun op' call reply heq => absurd (Standing.running.inj heq).2 (hst call reply)
  cases ht with
  | called => exact h.call _
  | drew _ _ hv4 =>
    refine ⟨fun j op call reply hat => ?_, h.started, fun u hu => ?_⟩
    · rcases at_goOn hat with ⟨-, heq⟩ | ⟨-, hat⟩
      · cases heq
      · exact h.announcing j op call reply hat
    · rcases List.mem_append.mp hu with hu | hu
      · exact h.drawn u hu
      · rw [List.mem_singleton] at hu
        exact hu ▸ hv4
  | failed => exact quiet fun _ _ => Stage.noConfusion
  | @saved i op d _ u hat =>
    obtain ⟨v, hv, -⟩ := hids.saving i op d hat
    refine (h.goOn (i := i) fun op' call reply heq => ?_).congr rfl rfl rfl
    cases heq
    exact fun _ => ⟨v, hv⟩
  | listed => exact quiet fun _ _ => Stage.noConfusion
  | got => exact quiet fun _ _ => Stage.noConfusion
  | absent => exact quiet fun _ _ => Stage.noConfusion
  | refused => exact quiet fun _ _ => Stage.noConfusion
  | foundToUpdate => exact quiet fun _ _ => Stage.noConfusion
  | @updated i op d _ u r hat =>
    obtain ⟨v, hv, -⟩ := hids.updating i op d hat
    refine (h.goOn (i := i) fun op' call reply heq => ?_).congr rfl rfl rfl
    cases heq
    exact fun _ => ⟨v, hv⟩
  | foundToDelete => exact quiet fun _ _ => Stage.noConfusion
  | @deleted i op id name _ u r hat =>
    refine (h.goOn (i := i) fun op' call reply heq => ?_).congr rfl rfl rfl
    -- the event of a deletion names its device as the request did
    cases heq
    exact fun hne => absurd rfl hne
  | @announced i op call reply hat =>
    have hquiet : Named (s.goOn i (.running op (.done (.ok reply)))) := quiet fun _ _ => Stage.noConfusion
    refine ⟨hquiet.announcing, fun p hp => ?_, h.drawn⟩
    rcases List.mem_append.mp hp with hp | hp
    · exact h.started p hp
    · rw [List.mem_singleton] at hp
      exact hp ▸ h.announcing i op call reply hat
  | @returned i op r =>
    exact (h.goOn (i := i) (e := .returned op r) fun _ _ _ => Standing.noConfusion).congr rfl rfl rfl
  | publisher hp => exact h.publisher hp
  | lifecycle hl =>
    cases hl with
    | signal | shutdown | close | exit => exact h.congr rfl rfl rfl

/-- What the results need of a snapshot. -/
theorem named_reaches {t₀ : Table} {clock : Instant} {as : List Action} {s : State}
    (hv4 : ∀ u ∈ t₀.ids, u.isV4 = true) (h : Reaches t₀ clock as s) :
    ∃ t : Snapshot, s = t.state ∧ Ids t₀ t ∧ Ledger t ∧
      Replays t₀ (t.commits.map Prod.snd) t.table ∧ Named t :=
  trans_induction
    (P := fun _ t => Ids t₀ t ∧ Ledger t ∧ Replays t₀ (t.commits.map Prod.snd) t.table ∧ Named t)
    ⟨ids_start t₀ clock, ledger_start t₀ clock, .nil, named_start t₀ clock hv4⟩
    (fun _ _ _ _ ⟨hids, hl, hr, hn⟩ ht =>
      ⟨ids_trans hids ht, ledger_trans hl ht, replays_trans hr ht, named_trans hids hn ht⟩)
    h

/-! ## 2. Messages and queries -/

/-- A message is about the device under whose canonical id it was published. -/
theorem names_iff {u : Uuid} {call : PublishCall} :
    (∀ t, Names u (call.message t)) ↔ call.deviceID = u.toString := by
  constructor
  · intro h
    have hkey := (h 0).key
    rw [message_deviceID] at hkey
    exact Option.some.inj hkey
  · intro h t
    obtain ⟨members, hparse, -, hid, -⟩ :=
      published_members call.eventType call.deviceID call.deviceName (.utc t)
    refine ⟨?_, members, hparse, ?_⟩
    · rw [message_deviceID, h]
    · rw [hid, h]

theorem eventType_mem (call : PublishCall) : call.eventType ∈ eventTypes := by
  cases call <;> simp [PublishCall.eventType, eventTypes]

/-- The fields of the message of a call. -/
def callFields (call : PublishCall) (t : Instant) : Fields :=
  publishedFields call.eventType call.deviceID call.deviceName (.utc t)

theorem message_fields_iff {call : PublishCall} {t : Instant} {f : Fields} :
    (delivered (call.message t)).fields = some f ↔
      f = callFields call t ∧ isUuidV4 (utf16 call.deviceID) = true ∧
        ∃ c ∈ call.deviceName.toList, isSpaceChar c = false := by
  rw [PublishCall.message]
  exact published_fields_iff (eventType_mem call)

/-- The event of a call is returned for a device exactly if it was published under the
canonical id of the device, with a name that is not all white space. -/
theorem listed_iff {u : Uuid} (hv4 : u.isV4 = true) {call : PublishCall} :
    (∀ t, ListedUnder u (call.message t)) ↔
      call.deviceID = u.toString ∧ ∃ c ∈ call.deviceName.toList, isSpaceChar c = false := by
  constructor
  · intro h
    -- over an empty collection: the event is that of the message
    obtain ⟨sorter⟩ : Nonempty Sorter := ⟨unitSorter⟩
    obtain ⟨es, hes, e, he, -⟩ := h 0 sorter ⟨Uuid.numbered 0, 0, none⟩ [] rfl
    obtain ⟨s, hs, -, rfl⟩ := listByDevice_ok.mp hes
    rw [text, Option.some.injEq, Json.str.injEq] at hs
    rw [findByDeviceId, List.mem_map] at he
    obtain ⟨doc, hdoc, -⟩ := he
    rw [(sorter.perm _).mem_iff, List.mem_filter, handleMessage_run] at hdoc
    obtain ⟨hdoc, htext⟩ := hdoc
    dsimp only at hdoc
    rw [List.nil_append, Option.mem_toList, stored, if_pos rfl, Option.map_eq_some_iff] at hdoc
    obtain ⟨f, hf, rfl⟩ := hdoc
    obtain ⟨rfl, -, hname⟩ := message_fields_iff.mp hf
    have hsame : utf16 call.deviceID = s := beq_iff_eq.mp htext
    exact ⟨utf16_injective (hsame.trans hs.symm), hname⟩
  · rintro ⟨hid, hname⟩ t sorter env docs hsave
    have hu : isUuidV4 (utf16 call.deviceID) = true := by
      rw [hid]
      exact isUuidV4_toString hv4
    have hf : (delivered (call.message t)).fields = some (callFields call t) :=
      message_fields_iff.mpr ⟨rfl, hu, hname⟩
    rw [handleMessage_run, stored, if_pos hsave, hf]
    refine ⟨_, listByDevice_ok.mpr ⟨_, rfl, isUuidV4_toString hv4, rfl⟩,
      project ((callFields call t).event env), ?_, rfl⟩
    refine List.mem_map_of_mem ((sorter.perm _).mem_iff.mpr (List.mem_filter.mpr ⟨?_, ?_⟩))
    · exact List.mem_append_right _ (List.mem_singleton_self _)
    · show (utf16 call.deviceID == utf16 u.toString) = true
      rw [hid, beq_self_eq_true]

/-! ## 3. Calls and their events -/

namespace IdentityLemmas

variable {t₀ : Table} {s : Snapshot}

/-- The id under which a change is announced. -/
theorem announces_id {op : Op} {reply : Reply} {c : Change} {call : PublishCall}
    (h : Announces op reply c call) (hc : Canonical call) :
    (∀ d, reply = .device d → d.id = c.uuid.toString) ∧
      (call.deviceID = c.uuid.toString ↔ SpelledAs c.uuid op) := by
  have canonical : ∀ {id : String} {r : Row}, (∃ u : Uuid, id = u.toString) →
      Uuid.parse id = some r.id → id = r.id.toString := by
    rintro _ r ⟨u, rfl⟩ hid
    rw [parse_of_id rfl hid]
  cases h with
  | created hid =>
    have hd := canonical (hc nofun) hid
    exact ⟨fun d hreply => by cases hreply; exact hd, fun _ => trivial, fun _ => hd⟩
  | updated _ hid =>
    have hd := canonical (hc nofun) hid
    exact ⟨fun d hreply => by cases hreply; exact hd, fun _ => trivial, fun _ => hd⟩
  | deleted => exact ⟨nofun, Iff.rfl⟩

theorem commit_isV4 (hids : Ids t₀ s) (hr : Replays t₀ (s.commits.map Prod.snd) s.table)
    (hn : Named s) {i : Nat} {c : Change} (hc : (i, c) ∈ s.commits) : c.uuid.isV4 = true := by
  refine hn.drawn _ (hids.born_drawn _ ?_)
  rcases wasStored_of_commit hr hc with hu | ⟨j, r, hj, hu⟩
  · exact List.mem_append_left _ hu
  · exact List.mem_append_right _ (List.mem_filterMap.mpr ⟨_, hj, congrArg some hu⟩)

end IdentityLemmas

/-- A call that changed the device `u` and returned starts one publication. Its message is
about `u` exactly if the call was not a deletion under another spelling of the id; and the
event of a deletion is returned for `u` exactly if the spelling is that of the row and the
name, as it was found, is not all white space. A device that is returned has the id `u`. -/
theorem event_identity_iff {t₀ : Table} {clock : Instant} {as : List Action} {s : State}
    (hv4 : ∀ u ∈ t₀.ids, u.isV4 = true) (h : Reaches t₀ clock as s) {i : Nat} {op : Op}
    {reply : Reply} (hret : s.execs[i]? = some (.returned op (.ok reply)))
    (hop : op.mutates = true) :
    ∃ c call, changesOf s i = [c] ∧ publishesOf s i = [call] ∧
      (∀ d, reply = .device d → d.id = c.uuid.toString) ∧
      ((∀ t, Names c.uuid (call.message t)) ↔ SpelledAs c.uuid op) ∧
      ((∀ t, ListedUnder c.uuid (call.message t)) ↔
        SpelledAs c.uuid op ∧ ∃ ch ∈ call.deviceName.toList, isSpaceChar ch = false) := by
  obtain ⟨t, rfl, hids, hl, hreplays, hnamed⟩ := named_reaches hv4 h
  have hacc := hl i
  simp only [StateOf.state, List.getElem?_map, Option.map_eq_some_iff] at hret
  obtain ⟨e, he, heq⟩ := hret
  cases e with
  | running op' st => cases heq
  | returned op' r' =>
    cases heq
    rw [he] at hacc
    obtain ⟨c, call, hcs, hps, hann⟩ : ∃ c p, changesOf t i = [c] ∧ publishesOf t.state i = [p] ∧
        Announces op reply c p := by
      simpa only [Accounted, Settled, hop, if_true] using hacc
    have hcall : Canonical call := by
      have hmem : call ∈ publishesOf t.state i := hps ▸ List.mem_singleton_self call
      rw [publishesOf_state] at hmem
      obtain ⟨q, hq, hqi⟩ := List.mem_filterMap.mp hmem
      obtain ⟨p, hp, rfl⟩ := List.mem_map.mp hq
      split at hqi
      · cases hqi
        exact hnamed.started p hp
      · cases hqi
    obtain ⟨hreply, hid⟩ := announces_id hann hcall
    have hu := commit_isV4 hids hreplays hnamed (commit_of_changesOf hcs)
    exact ⟨c, call, hcs, hps, hreply, names_iff.trans hid, by rw [listed_iff hu, hid]⟩

/-- A device is created and deleted; the request of the deletion spells its id as `id`. -/
def createThenDelete (id : String) : List Action :=
  let row : Row := ⟨Uuid.numbered 10, "laptop", "computer", 0⟩
  [.call (.create "laptop" "computer"), .draw 0 ⟨Uuid.numbered 10, 1⟩, .sql 0 none [], .go 0, .ret 0,
    .call (.delete id), .sql 1 none [row], .sql 1 none [row], .go 1, .ret 1]

def lowerCase : String := "00000000-0000-4000-8000-00000000000a"

def upperCase : String := "00000000-0000-4000-8000-00000000000A"

theorem createThenDelete_lower : ∃ s, Reaches Table.empty 0 (createThenDelete lowerCase) s ∧
    s.execs[1]? = some (.returned (.delete lowerCase) (.ok .done)) := ⟨_, rfl, rfl⟩

theorem event_identity_lower : ∃ s, ∃ c : Change, ∃ call : PublishCall,
    Reaches Table.empty 0 (createThenDelete lowerCase) s ∧
    publishesOf s 1 = [call] ∧
    ((∀ t, Names c.uuid (call.message t)) ↔ SpelledAs c.uuid (.delete lowerCase)) := by
  obtain ⟨s, hrun, hret⟩ := createThenDelete_lower
  have hv4 : ∀ u ∈ Table.empty.ids, u.isV4 = true := nofun
  obtain ⟨c, call, -, hcall, -, hnames, -⟩ := event_identity_iff hv4 hrun hret rfl
  exact ⟨s, c, call, hrun, hcall, hnames⟩

theorem createThenDelete_upper : ∃ s, Reaches Table.empty 0 (createThenDelete upperCase) s ∧
    s.execs[1]? = some (.returned (.delete upperCase) (.ok .done)) ∧
    changesOf s 1 = [.deleted ⟨Uuid.numbered 10, "laptop", "computer", 0⟩] ∧
    publishesOf s 1 = [.deleted upperCase "laptop"] := ⟨_, rfl, rfl, rfl, rfl⟩

/-- The event of a deletion need not be about the device that was deleted. -/
theorem deletion_misnamed :
    ¬ ∀ (t₀ : Table) (clock : Instant) (as : List Action) (s : State) (i : Nat) (op : Op)
      (reply : Reply), (∀ u ∈ t₀.ids, u.isV4 = true) → Reaches t₀ clock as s →
      s.execs[i]? = some (.returned op (.ok reply)) → op.mutates = true →
      ∃ c call, changesOf s i = [c] ∧ publishesOf s i = [call] ∧
        ∀ t, Names c.uuid (call.message t) := by
  intro hall
  obtain ⟨s, hrun, hret, hchange, hpublish⟩ := createThenDelete_upper
  obtain ⟨c, call, hc, hcall, hnames⟩ := hall Table.empty 0 _ s 1 _ _ nofun hrun hret rfl
  rw [hchange, List.singleton_inj] at hc
  rw [hpublish, List.singleton_inj] at hcall
  subst hc hcall
  exact absurd (names_iff.mp hnames) (by decide)

end AssetTracker.Pipeline
