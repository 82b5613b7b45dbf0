import AssetTracker.Lib.Layers
import AssetTracker.Timelines

/-!
# What browsers are shown

The lists of events that calls of `lib/api/events.ts` are settled with, in runs of any number
of browsers.

Results:
1. `lists_remember`: a list has every event whose creation was settled before, and everything
   that an earlier list showed.
2. `lists_sourced`: whatever a list shows was asked for, and it was there at the start, or
   posted by a browser or another client, or delivered.
3. `listing_run`: lists are there while the service accepts requests and MongoDB is open.
-/

namespace AssetTracker.Timelines

open Encoding Text Effects NodeShutdown NodeAtomic NodeServer WebUi EventsApi Linearizability
open NodeService hiding execute handlePost handleMessage Response Input Event

/-! ## Definitions -/

/-- What a call asks for. -/
def selects : EventCall → NodeService.Event → Bool
  | .getEvents deviceId, e => isText deviceId e.deviceId
  | .getDeletedDevices, e => isText deletedType e.type
  | .createEvent .., _ => false

/-- The promise of the call `k` is settled with a list. -/
structure Lists (s : State) (k : Nat) (c : EventCall) (l : List Json) : Prop where
  call : Event.call k (.call c) ∈ s.history
  ret : Event.ret k (.value (.arr l)) ∈ s.history

/-- The promise of the call `k`, which creates an event, is settled with it. -/
structure Creates (s : State) (k : Nat) (type deviceId : String) (v : Json) : Prop where
  call : ∃ name actor description,
    Event.call k (.call (.createEvent type deviceId name actor description)) ∈ s.history
  ret : Event.ret k (.value v) ∈ s.history

/-- Lists have what was settled before they were asked for. -/
structure Remembers (s : State) : Prop where
  device : ∀ {k k' type deviceId v l}, RealTime s.history k k' → Creates s k type deviceId v →
    Lists s k' (.getEvents (utf16 deviceId)) l → v ∈ l
  deleted : ∀ {k k' deviceId v l}, RealTime s.history k k' →
    Creates s k "device.deleted" deviceId v → Lists s k' .getDeletedDevices l → v ∈ l
  listed : ∀ {k k' c l l'}, RealTime s.history k k' → Lists s k c l → Lists s k' c l' →
    l.Subperm l'

/-- What brings an event to the log. -/
inductive Source : Op → NodeService.Event → Prop
  | posted {type deviceId name : String} {actor description : Option String} {uuid : Uuid}
      {now : Instant} {event : NodeService.Event} :
      createEvent uuid now (paramsOf type deviceId name actor description) = .ok event →
      Source (.call (.createEvent type deviceId name actor description)) event
  | delivered {m : KafkaMessage} {env : Env} {event : NodeService.Event} :
      stored env m = some event → Source (.message m) event
  | requested {bytes : ByteArray} {env : Env} {event : NodeService.Event} :
      loggedBy env (.post bytes) = some event → Source (.post (some bytes)) event

/-- What lists show. The source of an event was there before the list had been settled. -/
def Sourced (docs₀ : Collection) (s : State) : Prop :=
  ∀ k c l, Lists s k c l → ∀ v ∈ l, ∃ e : NodeService.Event, selects c e = true ∧
    v = (project e).json ∧ (e ∈ docs₀ ∨
      ∃ j op, Event.call j op ∈ s.history ∧ ¬ RealTime s.history k j ∧ Source op e)

variable {parser : UrlParser} {kafkaConsumer : Bool} {sorter : Sorter} {s : State}
  {docs docs' docs₀ : Collection} {as : List Action}

namespace ListingLemmas

/-! ### Steps of the log -/

/-- What a list is made of. -/
def shown (sorter : Sorter) (c : EventCall) (docs : Collection) : List Json :=
  ((sorter.sort (docs.filter (selects c))).map project).map NodeService.Event.json

theorem list_spec {c : EventCall} {l : List Json}
    (h : LogSpec sorter docs (.call c) (.value (.arr l)) docs') :
    docs' = docs ∧ l = shown sorter c docs := by
  generalize hv : Promise.value (.arr l) = v at h
  cases h with
  | call hspec =>
    cases hspec with
    | events | deleted =>
      cases hv
      exact ⟨rfl, rfl⟩
    | created => cases hv
    | unknown | refused | failed => cases hv
  | quiet => cases hv

theorem create_spec {type deviceId name : String} {actor description : Option String} {v : Json}
    (h : LogSpec sorter docs (.call (.createEvent type deviceId name actor description)) (.value v)
      docs') : ∃ e uuid now,
      createEvent uuid now (paramsOf type deviceId name actor description) = .ok e ∧
      docs' = docs ++ [e] ∧ v = e.json := by
  cases h with
  | call hspec =>
    cases hspec with
    | created hcreate => exact ⟨_, _, _, hcreate, rfl, rfl⟩

/-- The log grows at its end. -/
theorem spec_grows {op : Op} {v : Promise} (h : LogSpec sorter docs op v docs') :
    docs' = docs ∨ ∃ e, docs' = docs ++ [e] ∧ Source op e := by
  cases h with
  | call hspec =>
    cases hspec with
    | created hcreate => exact .inr ⟨_, rfl, .posted hcreate⟩
    | events | unknown | deleted | refused | failed => exact .inl rfl
  | stored hstored => exact .inr ⟨_, rfl, .delivered hstored⟩
  | posted hlogged => exact .inr ⟨_, rfl, .requested hlogged⟩
  | quiet => exact .inl rfl

theorem spec_prefix {op : Op} {v : Promise} (h : LogSpec sorter docs op v docs') : docs <+: docs' := by
  rcases spec_grows h with rfl | ⟨e, rfl, -⟩
  · exact List.prefix_rfl
  · exact List.prefix_append _ _

theorem legal_prefix {lin : List (Entry Nat Op Promise)} (h : Legal (LogSpec sorter) docs lin docs') :
    docs <+: docs' :=
  h.related (fun _ => List.prefix_rfl) (fun h h' => h.trans h') fun h => spec_prefix h

/-- Every event of the log has its source. -/
theorem legal_sourced {lin : List (Entry Nat Op Promise)}
    (h : Legal (LogSpec sorter) docs₀ lin docs) {e : NodeService.Event} (he : e ∈ docs) :
    e ∈ docs₀ ∨ ∃ a ∈ lin, Source a.op e := by
  induction h with
  | nil => exact .inl he
  | @snoc lin docs docs' a hlegal hspec ih =>
    have hold : e ∈ docs → e ∈ docs₀ ∨ ∃ a' ∈ lin ++ [a], Source a'.op e := fun he => by
      rcases ih he with he | ⟨a', ha', hsource⟩
      · exact .inl he
      · exact .inr ⟨a', List.mem_append_left _ ha', hsource⟩
    rcases spec_grows hspec with rfl | ⟨e', rfl, hsource⟩
    · exact hold he
    · rcases List.mem_append.mp he with he | he
      · exact hold he
      · obtain rfl := List.mem_singleton.mp he
        exact .inr ⟨a, List.mem_append_right _ (List.mem_singleton_self a), hsource⟩

theorem shown_perm (sorter : Sorter) (c : EventCall) (docs : Collection) :
    (shown sorter c docs).Perm ((docs.filter (selects c)).map fun e => (project e).json) := by
  rw [shown, List.map_map]
  exact (sorter.perm _).map _

theorem mem_shown {c : EventCall} {v : Json} : v ∈ shown sorter c docs ↔
    ∃ e ∈ docs, selects c e = true ∧ v = (project e).json := by
  rw [(shown_perm sorter c docs).mem_iff, List.mem_map]
  constructor
  · rintro ⟨e, he, rfl⟩
    exact ⟨e, (List.mem_filter.mp he).1, (List.mem_filter.mp he).2, rfl⟩
  · rintro ⟨e, he, hselect, rfl⟩
    exact ⟨e, List.mem_filter.mpr ⟨he, hselect⟩, rfl⟩

/-- A list of a log that has grown. -/
theorem shown_grows (c : EventCall) (h : docs <+: docs') :
    (shown sorter c docs).Subperm (shown sorter c docs') := by
  have hsub : ((docs.filter (selects c)).map fun e => (project e).json).Sublist
      ((docs'.filter (selects c)).map fun e => (project e).json) :=
    (h.sublist.filter _).map _
  exact (shown_perm sorter c docs).subperm.trans
    (hsub.subperm.trans (shown_perm sorter c docs').symm.subperm)

/-! ### Runs -/

/-- The order of the operations, and the log after it. -/
theorem exists_order (hparser : ReadsTargets parser) (hdocs : ∀ e ∈ docs₀, e.Textual)
    (hposts : TextualPosts as) (h : Reaches parser kafkaConsumer sorter docs₀ as s) :
    ∃ lin, Linearization (LogSpec sorter) docs₀ s.history lin ∧
      (∃ docs, Legal (LogSpec sorter) docs₀ lin docs) ∧
      ∀ k op v, Event.call k op ∈ s.history → Event.ret k v ∈ s.history → ⟨k, op, v⟩ ∈ lin := by
  obtain ⟨lin, hinv⟩ := inv_run hparser hdocs hposts h
  obtain ⟨hlin, hlegal⟩ := hinv.tracked.linearization
  refine ⟨lin, hlin, ⟨_, hlegal⟩, fun k op v hcall hret => ?_⟩
  obtain ⟨op', he⟩ := hlin.returned k v hret
  obtain rfl := hinv.tracked.call_unique (hlin.called _ he) hcall
  exact he

/-- An operation that was settled before a list was asked for. -/
theorem list_after (hparser : ReadsTargets parser) (hdocs : ∀ e ∈ docs₀, e.Textual)
    (hposts : TextualPosts as)
    (h : Reaches parser kafkaConsumer sorter docs₀ as s) {k k' : Nat} {op : Op} {v : Promise}
    {c : EventCall} {l : List Json} (hreal : RealTime s.history k k')
    (hcall : Event.call k op ∈ s.history) (hret : Event.ret k v ∈ s.history) (hl : Lists s k' c l) :
    ∃ docs docs' docs'', LogSpec sorter docs op v docs' ∧ docs' <+: docs'' ∧
      l = shown sorter c docs'' := by
  obtain ⟨lin, hlin, ⟨docs, hlegal⟩, hentry⟩ := exists_order hparser hdocs hposts h
  obtain ⟨pre, mid, post, rfl⟩ := Linearization.split (a := ⟨k, op, v⟩) (b := ⟨k', .call c, _⟩)
    hlin hreal (hentry k op v hcall hret) (hentry k' _ _ hl.call hl.ret)
  obtain ⟨docs₁, docs₂, -, hspec, hrest⟩ := LayerLemmas.legal_entry hlegal
  obtain ⟨docs₃, docs₄, hmid, hspec', -⟩ := LayerLemmas.legal_entry hrest
  exact ⟨docs₁, docs₂, docs₃, hspec, legal_prefix hmid, (list_spec hspec').2⟩

/-- The log that a list shows, and where its events come from. -/
theorem list_state (hparser : ReadsTargets parser) (hdocs : ∀ e ∈ docs₀, e.Textual)
    (hposts : TextualPosts as)
    (h : Reaches parser kafkaConsumer sorter docs₀ as s) {k : Nat} {c : EventCall} {l : List Json}
    (hl : Lists s k c l) : ∃ docs, docs₀ <+: docs ∧ l = shown sorter c docs ∧ ∀ e ∈ docs,
      e ∈ docs₀ ∨ ∃ j op, Event.call j op ∈ s.history ∧ ¬ RealTime s.history k j ∧ Source op e := by
  obtain ⟨lin, hlin, ⟨docs, hlegal⟩, hentry⟩ := exists_order hparser hdocs hposts h
  obtain ⟨pre, post, rfl⟩ := List.append_of_mem (hentry k _ _ hl.call hl.ret)
  obtain ⟨docs₁, docs₂, hpre, hspec, -⟩ := LayerLemmas.legal_entry hlegal
  refine ⟨docs₁, legal_prefix hpre, (list_spec hspec).2, fun e he => ?_⟩
  rcases legal_sourced hpre he with he | ⟨a, ha, hsource⟩
  · exact .inl he
  · exact .inr ⟨a.id, a.op, hlin.called a (List.mem_append_left _ ha), hlin.not_realTime ha, hsource⟩

/-- A creation that was settled before a list was asked for. -/
theorem created_shown (hparser : ReadsTargets parser) (hdocs : ∀ e ∈ docs₀, e.Textual)
    (hposts : TextualPosts as)
    (h : Reaches parser kafkaConsumer sorter docs₀ as s) {k k' : Nat} {type deviceId : String}
    {v : Json} {c : EventCall} {l : List Json} (hreal : RealTime s.history k k')
    (hc : Creates s k type deviceId v) (hl : Lists s k' c l)
    (hselect : ∀ e : NodeService.Event, e.type = some (.str (utf16 type)) →
      e.deviceId = some (.str (utf16 deviceId)) → selects c e = true) : v ∈ l := by
  obtain ⟨name, actor, description, hcall⟩ := hc.call
  obtain ⟨docs, docs', docs'', hspec, hprefix, rfl⟩ :=
    list_after hparser hdocs hposts h hreal hcall hc.ret hl
  obtain ⟨e, uuid, now, hcreate, rfl, rfl⟩ := create_spec hspec
  obtain ⟨-, rfl⟩ := createEvent_ok.mp hcreate
  refine mem_shown.mpr ⟨_, hprefix.subset (List.mem_append_right _ (List.mem_singleton_self _)),
    hselect _ rfl rfl, ?_⟩
  rw [project_event]

end ListingLemmas

open ListingLemmas

/-- Whatever browsers are shown stays, and whatever they have created is shown, as soon as the
promise of the creation is settled. A creation whose `fetch` failed may be shown or not, then
or later. What may be in the log is limited as in `events_linearizable`. -/
theorem lists_remember (hparser : ReadsTargets parser) (hdocs : ∀ e ∈ docs₀, e.Textual)
    (hposts : TextualPosts as)
    (h : Reaches parser kafkaConsumer sorter docs₀ as s) : Remembers s where
  device hreal hc hl := by
    refine created_shown hparser hdocs hposts h hreal hc hl fun e _ hdevice => ?_
    rw [selects, hdevice]
    exact beq_self_eq_true _
  deleted hreal hc hl := by
    refine created_shown hparser hdocs hposts h hreal hc hl fun e htype _ => ?_
    rw [selects, htype]
    exact beq_self_eq_true _
  listed hreal hl hl' := by
    obtain ⟨docs, docs', docs'', hspec, hprefix, rfl⟩ :=
      list_after hparser hdocs hposts h hreal hl.call hl.ret hl'
    obtain ⟨rfl, rfl⟩ := list_spec hspec
    exact shown_grows _ hprefix

/-- Lists show nothing that nobody has posted or published: what was not there at the start
was made of a creation of a browser, of a post of another client or of a message, and none of
them began after the list had been settled. What may be in the log is limited as in
`events_linearizable`. -/
theorem lists_sourced (hparser : ReadsTargets parser) (hdocs : ∀ e ∈ docs₀, e.Textual)
    (hposts : TextualPosts as)
    (h : Reaches parser kafkaConsumer sorter docs₀ as s) : Sourced docs₀ s := by
  intro k c l hl v hv
  obtain ⟨docs, -, rfl, hsource⟩ := list_state hparser hdocs hposts h hl
  obtain ⟨e, he, hselect, rfl⟩ := mem_shown.mp hv
  exact ⟨e, hselect, rfl, hsource e he⟩

/-! ## 3. A run -/

/-- A list is asked for over a proxy, found, sent and settled. -/
def listing (s : State) (c : EventCall) (proxy : Proxy) : List Action :=
  [.send c, .arrive s.flights.length proxy, .run s.process.threads.length .done,
    .run s.process.threads.length .done, .settle s.flights.length]

def State.asking (s : State) (c : EventCall) : State :=
  ⟨s.process, s.flights ++ [⟨.call c, .sent⟩], s.history ++ [.call s.flights.length (.call c)],
    s.rejected⟩

/-- The service works for a list. -/
def State.listing (s : State) (c : EventCall) (p : Program Outcome) : State :=
  ⟨⟨s.process.shared, s.process.threads ++ [⟨Op.work (.call c), p⟩]⟩,
    s.flights ++ [⟨.call c, .serving s.process.threads.length⟩],
    s.history ++ [.call s.flights.length (.call c)], s.rejected⟩

/-- A list is settled wherever the service accepts requests and MongoDB is open. -/
theorem listing_run (hparser : ReadsTargets parser) {c : EventCall} {query : Query}
    (hfetch : (c.fetch).isSome = true)
    (hhandler : (requestOf (branch c)).handler = answerQuery query)
    (hnew : s.flights.length ∉ s.rejected)
    (haccepting : s.process.shared.accepting = true) (hopen : s.process.shared.mongoOpen = true)
    (htext : ∀ e ∈ s.process.shared.docs, e.Textual) (proxy : Proxy) :
    ∃ s', Machine.run (step parser kafkaConsumer sorter) s (listing s c proxy) = some s' ∧
      s'.history = s.history ++ [.call s.flights.length (.call c),
        .ret s.flights.length (listed (found sorter s.process.shared.docs query))] := by
  have hlast : ∀ p, (s.listing c p).process.threads[s.process.threads.length]? =
      some ⟨Op.work (.call c), p⟩ := fun p => List.getElem?_concat_length
  have hset : ∀ p p', (s.listing c p).process.threads.set s.process.threads.length
      ⟨Op.work (.call c), p'⟩ = (s.listing c p').process.threads := fun p p' => by
    simp [State.listing]
  have hsend : step parser kafkaConsumer sorter s (.send c) = some (s.asking c) := by
    rw [step, if_pos hfetch]
    rfl
  have harrive : step parser kafkaConsumer sorter (s.asking c) (.arrive s.flights.length proxy) =
      some (s.listing c (answerQuery query)) := by
    obtain ⟨target, htarget⟩ := exists_target hfetch proxy
    have hsent : (s.asking c).flights[s.flights.length]? = some ⟨.call c, .sent⟩ :=
      List.getElem?_concat_length
    have hspawn : (system kafkaConsumer sorter).step (s.asking c).process (.spawn (Op.work (.call c))) =
        some (s.listing c (answerQuery query)).process := by
      have henter : s.process.shared.enter (Op.work (.call c)) = some s.process.shared :=
        if_pos haccepting
      exact Option.map_eq_some_iff.mpr ⟨_, henter, congrArg (fun p => Pool.mk _
        (s.process.threads ++ [⟨Op.work (.call c), p⟩])) hhandler⟩
    rw [TimelineLemmas.step_arrive hparser hsent htarget hspawn]
    simp [State.asking, State.listing]
  have hfind : step parser kafkaConsumer sorter (s.listing c (answerQuery query))
      (.run s.process.threads.length .done) =
      some (s.listing c (respond (.events (found sorter s.process.shared.docs query)) none)) := by
    have hhandle : Service.handle sorter (.find query) .done s.process.shared =
        some (.ok (found sorter s.process.shared.docs query), s.process.shared) := by
      cases query <;> exact congrArg (fun r => some (r, s.process.shared)) (if_pos hopen)
    have hstep : step parser kafkaConsumer sorter (s.listing c (answerQuery query)) (.run _ .done) =
        some _ := TimelineLemmas.step_run rfl (hlast (answerQuery query)) hhandle
    rw [hset] at hstep
    exact hstep
  have hfinish : ∀ reply, step parser kafkaConsumer sorter (s.listing c (respond reply none))
      (.run s.process.threads.length .done) = some (s.listing c (.pure (.responded reply none))) := by
    intro reply
    have hstep : step parser kafkaConsumer sorter (s.listing c (respond reply none)) (.run _ .done) =
        some _ := TimelineLemmas.step_run rfl (hlast (respond reply none)) rfl
    rw [hset] at hstep
    exact hstep
  have hpromise : promiseOf (.responded (.events (found sorter s.process.shared.docs query)) none) =
      some (listed (found sorter s.process.shared.docs query)) :=
    EventsApiLemmas.promise_events (EventsApiLemmas.found_textual htext query) none
  have hserving : (s.listing c (.pure (.responded
      (.events (found sorter s.process.shared.docs query)) none))).flights[s.flights.length]? =
      some ⟨.call c, .serving s.process.threads.length⟩ := List.getElem?_concat_length
  have hsettle : step parser kafkaConsumer sorter _ (.settle s.flights.length) = some _ :=
    TimelineLemmas.step_settle (s := s.listing c _) hnew hserving (hlast _) hpromise
  refine ⟨_, (Machine.run_cons hsend).trans <| (Machine.run_cons harrive).trans <|
    (Machine.run_cons hfind).trans <| (Machine.run_cons (hfinish _)).trans <|
    Machine.run_cons hsettle, ?_⟩
  exact List.append_assoc _ _ _

/-! An event is created or posted, and then the events of its device are listed. -/

def lookup : EventCall := .getEvents (utf16 "550e8400-e29b-41d4-a716-446655440000")

namespace ListingLemmas

theorem noted_found (sorter : Sorter) :
    findByDeviceId sorter (utf16 "550e8400-e29b-41d4-a716-446655440000") [noted] = [noted] := by
  have hfilter : [noted].filter (fun doc =>
      isText (utf16 "550e8400-e29b-41d4-a716-446655440000") doc.deviceId) = [noted] := by
    refine List.filter_eq_self.mpr fun e he => ?_
    obtain rfl := List.mem_singleton.mp he
    exact beq_self_eq_true _
  rw [findByDeviceId, hfilter, List.perm_singleton.mp (sorter.perm [noted])]
  rfl

theorem noted_textual : ∀ e ∈ [noted], e.Textual := fun e he => by
  obtain rfl := List.mem_singleton.mp he
  exact NodeService.created_textual TimelineLemmas.note_created rfl rfl rfl

end ListingLemmas

/-- The events of the device are listed where the event is stored. -/
theorem listNote_run {sorter : Sorter} {as : List Action} {s : State}
    (hrun : Reaches originUrl false sorter [] as s) (hposts : TextualPosts as)
    (hshared : s.process.shared = Service.start false [noted]) (hlength : s.flights.length = 1)
    (hrejected : s.rejected = []) : ∃ as s, Reaches originUrl false sorter [] as s ∧
      TextualPosts as ∧ Lists s 1 lookup [noted.json] := by
  have hfetch : (lookup.fetch).isSome = true := by
    rw [lookup, EventCall.fetch, Http.encodeURIComponent_utf16]
    rfl
  have hhandler : (requestOf (branch lookup)).handler =
      answerQuery (.byDeviceId (utf16 "550e8400-e29b-41d4-a716-446655440000")) :=
    (EventsApiLemmas.handler_getEvents hfetch).trans (if_pos (by decide))
  obtain ⟨s', hlist, hhistory⟩ := @listing_run originUrl false sorter s originUrl_reads _ _ hfetch
    hhandler (hrejected ▸ List.not_mem_nil) (hshared ▸ rfl) (hshared ▸ rfl)
    (hshared ▸ noted_textual) .nginx
  rw [hlength, hshared] at hhistory
  refine ⟨as ++ listing s lookup .nginx, s', ?_, fun req body hmem => ?_, ?_, ?_⟩
  · rw [Reaches, Machine.run_append, hrun, Option.bind_some]
    exact hlist
  · refine hposts req body ((List.mem_append.mp hmem).resolve_right fun hmem => ?_)
    simp [listing] at hmem
  · rw [hhistory]
    exact List.mem_append_right _ List.mem_cons_self
  · have hlisted : listed (found sorter [noted]
        (.byDeviceId (utf16 "550e8400-e29b-41d4-a716-446655440000"))) =
        .value (.arr [noted.json]) := congrArg listed (noted_found sorter)
    rw [hhistory]
    refine List.mem_append_right _ (List.mem_cons_of_mem _ ?_)
    exact hlisted ▸ List.mem_cons_self

theorem lists_remember_note : ∃ s, Remembers s ∧ Lists s 1 lookup [noted.json] := by
  obtain ⟨as, s, hrun, hposts, hlists⟩ :=
    listNote_run (createNote_run unitSorter) createNote_posts rfl rfl rfl
  exact ⟨s, lists_remember originUrl_reads (List.forall_mem_nil _) hposts hrun, hlists⟩

theorem lists_sourced_note : ∃ s, Sourced [] s ∧ Lists s 1 lookup [noted.json] := by
  obtain ⟨as, s, hrun, hposts, hlists⟩ :=
    listNote_run (postNote_run unitSorter) postNote_posts rfl rfl rfl
  exact ⟨s, lists_sourced originUrl_reads (List.forall_mem_nil _) hposts hrun, hlists⟩

end AssetTracker.Timelines
