import AssetTracker.Forms
import AssetTracker.Node.Atomic
import AssetTracker.Node.Responses
import AssetTracker.Node.Server
import AssetTracker.Web.EventCalls

/-!
# The events API, from the browser to the collection

A call of `lib/api/events.ts` against what the Node service makes of it.

Results:
1. `call_arrives`: the handler that a call comes to, with the parameters that it was made of.
2. `call_alone`: what the promise of a call is settled with, and what the call stores.
-/

namespace AssetTracker.EventsApi

open Encoding Text Effects NodeShutdown NodeAtomic NodeServer WebUi
open Http (isPlain plainPath isQueryChar searchParams queryState queryText)
open NodeService hiding execute handlePost handleMessage Response Input

/-! ## Definitions -/

/-- What the URL standard says of targets whose path is of plain names, and whose query is
escaped. -/
structure ReadsTargets (parser : UrlParser) : Prop where
  path : ∀ {names : List String}, names ≠ [] → (∀ s ∈ names, isPlain s = true) →
    parser (plainPath names) = some ⟨plainPath names, []⟩
  query : ∀ {names : List String} {query : List Char}, names ≠ [] →
    (∀ s ∈ names, isPlain s = true) → (∀ c ∈ query, isQueryChar c = true) →
    parser (String.ofList ((plainPath names).toList ++ '?' :: query)) =
      some ⟨plainPath names, searchParams query⟩

/-- `new URL` for a target that is a path, perhaps with a query that is escaped. -/
def originUrl : UrlParser := fun target =>
  match target.toList with
  | '/' :: '/' :: _ => none
  | '/' :: cs => some ⟨String.ofList ('/' :: cs.takeWhile (· ≠ '?')),
      searchParams ((cs.dropWhile (· ≠ '?')).drop 1)⟩
  | _ => none

/-- The branch for a call. -/
def branch : EventCall → Branch
  | .getEvents deviceId => .getEvents (some (ofUtf16 deviceId)) none
  | .createEvent .. => .postEvents
  | .getDeletedDevices => .getEvents none (some "device.deleted")

/-- The handler that a branch calls. -/
def requestOf : Branch → Request
  | .getEvents deviceId type =>
    .getEvents (NodeRequests.param (deviceId.map utf16)) (NodeRequests.param (type.map utf16))
  | .postEvents => .postEvents
  | .ready => .ready
  | .options => .other 204
  | .notFound => .other 404
  | _ => .other 200

/-- The handler that the callback of the server comes to. It depends neither on the clock nor
on the metrics. -/
def arrival (parser : UrlParser) (req : Incoming) : Option Request :=
  (handleRequest parser 0 req newMetricsHandler).2.dispatched.head?.map requestOf

/-- What the promise of a call is settled with. The response comes back when it is finished. -/
def promiseOf : Outcome → Option Promise
  | .responded reply _ => (NodeService.replyText reply).map fun text =>
    (settle (NodeRequests.status reply) text).1
  | _ => none

/-- How an id that is no UUID v4 is refused. -/
def refusal (deviceId : JsString) : String :=
  if deviceId = [] then "deviceId or type is required"
  else if blank (some (.str deviceId)) then "deviceId is required"
  else "deviceId must be a valid UUID v4"

/-- The parameters that a call gives to `createEvent` of the service. -/
def paramsOf (type deviceId name : String) (actor description : Option String) : Params :=
  eventParams (utf16 type) (utf16 deviceId) (utf16 name) (actor.map utf16) (description.map utf16)

def deletedType : JsString := utf16 "device.deleted"

def listed (events : List NodeService.Event) : Promise := .value (.arr (events.map NodeService.Event.json))

/-- One call as a step over the collection. -/
inductive CallSpec (sorter : Sorter) (docs : Collection) : EventCall → Promise → Collection → Prop
  | events {deviceId : JsString} : isUuidV4 deviceId = true →
      CallSpec sorter docs (.getEvents deviceId) (listed (findByDeviceId sorter deviceId docs)) docs
  | unknown {deviceId : JsString} : isUuidV4 deviceId = false →
      CallSpec sorter docs (.getEvents deviceId) (.thrown 400 (errorBody (refusal deviceId))) docs
  | deleted :
      CallSpec sorter docs .getDeletedDevices (listed (findByType sorter deletedType docs)) docs
  | created {type deviceId name : String} {actor description : Option String} {uuid : Uuid}
      {now : Instant} {event : NodeService.Event} :
      createEvent uuid now (paramsOf type deviceId name actor description) = .ok event →
      CallSpec sorter docs (.createEvent type deviceId name actor description) (.value event.json)
        (docs ++ [event])
  | refused {type deviceId name : String} {actor description : Option String} {uuid : Uuid}
      {now : Instant} {errors : List String} :
      createEvent uuid now (paramsOf type deviceId name actor description) =
        .error (.validation errors) →
      CallSpec sorter docs (.createEvent type deviceId name actor description)
        (.thrown 400 (errorBody (JsError.validation errors).message)) docs
  /-- MongoDB fails, or is closed. -/
  | failed {c : EventCall} :
      CallSpec sorter docs c (.thrown 500 (errorBody "internal server error")) docs

namespace EventsApiLemmas

theorem plainPath_chars {names : List String} (hne : names ≠ [])
    (h : ∀ s ∈ names, isPlain s = true) :
    ∃ c cs, (plainPath names).toList = '/' :: c :: cs ∧ c ≠ '/' ∧ ∀ d ∈ c :: cs, d ≠ '?' := by
  obtain ⟨s, ss, rfl⟩ := List.exists_cons_of_ne_nil hne
  have hmem : ∀ d ∈ ['/'].intercalate ((s :: ss).map String.toList), d ≠ '?' := by
    have hall : ∀ ls : List String, (∀ s ∈ ls, isPlain s = true) →
        '?' ∉ ['/'].intercalate (ls.map String.toList) := by
      intro ls
      induction ls with
      | nil => simp [List.intercalate]
      | cons l ls ih =>
        intro hls
        have hl : '?' ∉ l.toList :=
          Http.PathLemmas.not_mem_plain (hls l List.mem_cons_self) (by decide) (by decide)
        cases ls with
        | nil => simpa [List.intercalate] using hl
        | cons l' ls =>
          rw [List.map_cons] at ih
          rw [List.map_cons, List.map_cons, List.intercalate_cons_cons, List.mem_append,
            List.mem_append, not_or, not_or]
          exact ⟨⟨hl, by decide⟩, ih fun s hs => hls s (List.mem_cons_of_mem l hs)⟩
    rintro d hd rfl
    exact hall _ h hd
  have hs := Http.PathLemmas.plain_chars (h s List.mem_cons_self)
  obtain ⟨c, cs, hcs⟩ := List.exists_cons_of_ne_nil hs.1
  have hc : c ≠ '/' := by
    rintro rfl
    have hslash := hs.2 '/' (hcs ▸ List.mem_cons_self)
    exact absurd hslash (by decide)
  obtain ⟨ds, hds⟩ : ∃ ds, ['/'].intercalate ((s :: ss).map String.toList) = c :: ds := by
    rw [List.map_cons, hcs]
    cases ss with
    | nil => exact ⟨cs, by simp [List.intercalate]⟩
    | cons s' ss => exact ⟨_, by rw [List.map_cons, List.intercalate_cons_cons]; rfl⟩
  refine ⟨c, ds, ?_, hc, ?_⟩
  · rw [plainPath, String.toList_ofList, hds]
  · rwa [hds] at hmem

/-- The path and the query of a target. -/
theorem originUrl_split {c : Char} {cs rest : List Char} (hc : c ≠ '/')
    (h : ∀ d ∈ c :: cs, d ≠ '?') (hrest : rest = [] ∨ ∃ query, rest = '?' :: query) :
    originUrl (String.ofList ('/' :: c :: cs ++ rest)) =
      some ⟨String.ofList ('/' :: c :: cs), searchParams (rest.drop 1)⟩ := by
  have hpath : ∀ d ∈ c :: cs, decide (d ≠ '?') = true := fun d hd => decide_eq_true (h d hd)
  have htake : ((c :: cs) ++ rest).takeWhile (· ≠ '?') = c :: cs := by
    rw [List.takeWhile_append_of_pos hpath]
    rcases hrest with rfl | ⟨query, rfl⟩ <;> simp
  have hdrop : ((c :: cs) ++ rest).dropWhile (· ≠ '?') = rest := by
    rw [List.dropWhile_append_of_pos hpath]
    rcases hrest with rfl | ⟨query, rfl⟩ <;> simp
  rw [originUrl, String.toList_ofList, List.cons_append]
  split
  · next heq =>
    rw [List.cons_append] at heq
    exact absurd (List.cons.inj (List.cons.inj heq).2).1 hc
  · next heq =>
    obtain ⟨-, rfl⟩ := List.cons.inj heq
    rw [htake, hdrop]
  · next hno => exact absurd rfl (hno _)

end EventsApiLemmas

theorem originUrl_reads : ReadsTargets originUrl where
  path {names} hne h := by
    obtain ⟨c, cs, hpath, hc, hquery⟩ := EventsApiLemmas.plainPath_chars hne h
    have hsplit := EventsApiLemmas.originUrl_split hc hquery (.inl rfl)
    rwa [List.append_nil, ← hpath, String.ofList_toList] at hsplit
  query {names query} hne h _ := by
    obtain ⟨c, cs, hpath, hc, hquery⟩ := EventsApiLemmas.plainPath_chars hne h
    have hsplit := EventsApiLemmas.originUrl_split hc hquery (.inr ⟨query, rfl⟩)
    rwa [← hpath, String.ofList_toList] at hsplit

/-! ## 1. Handlers -/

variable {parser : UrlParser} {c : EventCall} {proxy : Proxy} {target : String}

namespace EventsApiLemmas

theorem target_ne {s : String} {rest : List Char} (h : s.toList.take 2 ≠ ['/', 'e']) :
    String.ofList ("/events".toList ++ rest) ≠ s := by
  rintro rfl
  rw [String.toList_ofList] at h
  exact h rfl

/-- The parameters of a call survive their way. -/
theorem parser_target (hparser : ReadsTargets parser) (h : c.target proxy = some target) :
    parser target = some ⟨"/events", c.params⟩ := by
  have hevents : plainPath ["events"] = "/events" := by decide
  have hplain : ∀ s ∈ ["events"], isPlain s = true := by decide
  rw [target_eq h]
  split
  · next hnil =>
    have hread := hparser.path (List.cons_ne_nil _ _) hplain
    rwa [hevents, ← hnil] at hread
  · have hchars : ∀ d ∈ queryState (queryText c.params), isQueryChar d = true :=
      fun d => Http.isQueryChar_of_mem
    have hread := hparser.query (List.cons_ne_nil _ _) hplain hchars
    have hparams : ∀ p ∈ c.params, isPlain p.1 = true := by
      cases c with
      | getEvents deviceId =>
        rintro p hp
        rw [List.mem_singleton.mp hp]
        exact (by decide : isPlain "deviceId" = true)
      | createEvent => simp [EventCall.params]
      | getDeletedDevices => decide
    rwa [hevents, Http.searchParams_queryText hparams] at hread

/-- The chain of conditions, for a target that begins with `/events`. -/
theorem routes_call (hparser : ReadsTargets parser) (h : c.target proxy = some target)
    (w : NodeServer.Work) : Throws.run (routes parser ⟨c.method, target⟩) w =
      (.ok (), { w with dispatched := w.dispatched ++ [branch c] }) := by
  have hurl : parser (Incoming.mk c.method target).url = some ⟨"/events", c.params⟩ :=
    parser_target hparser h
  have hmethod : c.method ≠ "OPTIONS" := by
    cases c with
    | getEvents | getDeletedDevices => exact (by decide : "GET" ≠ "OPTIONS")
    | createEvent => exact (by decide : "POST" ≠ "OPTIONS")
  have hne : ∀ s : String, s.toList.take 2 ≠ ['/', 'e'] → ¬ (target = s ∧ c.method = "GET") := by
    rintro s hs ⟨rfl, -⟩
    rw [target_eq h] at hs
    exact target_ne hs rfl
  unfold routes
  rw [if_neg hmethod, if_neg (hne _ (by decide)), if_neg (hne _ (by decide)),
    if_neg (hne _ (by decide)), if_neg (hne _ (by decide)), Throws.run_bind_ok (parseUrl_run hurl w),
    if_neg fun hmetrics => absurd hmetrics.1 (by decide : "/events" ≠ "/metrics/requests")]
  by_cases hget : c.method = "GET"
  · have hdispatch : Throws.run (NodeServer.handleGet parser ⟨c.method, target⟩) w =
        (.ok (), { w with dispatched := w.dispatched ++ [branch c] }) := by
      unfold NodeServer.handleGet async
      rw [Throws.run_tryCatch, Throws.run_bind_ok (parseUrl_run hurl w)]
      cases c with
      | getEvents deviceId => rfl
      | getDeletedDevices => rfl
      | createEvent => exact absurd hget (by decide : "POST" ≠ "GET")
    rw [if_pos ⟨rfl, hget⟩, Throws.run_bind_ok hdispatch, Throws.run_pure]
  · rw [if_neg fun hboth => hget hboth.2]
    cases c with
    | getEvents deviceId => exact absurd rfl hget
    | getDeletedDevices => exact absurd rfl hget
    | createEvent type deviceId name actor description =>
      rw [if_pos ⟨target_eq h, rfl⟩]
      rfl

end EventsApiLemmas

open EventsApiLemmas

theorem call_arrives (hparser : ReadsTargets parser) (h : c.target proxy = some target) :
    arrival parser ⟨c.method, target⟩ = some (requestOf (branch c)) := by
  have hurl : parser (Incoming.mk c.method target).url = some ⟨"/events", c.params⟩ :=
    parser_target hparser h
  have hrun : ∃ w : NodeServer.Work, w.dispatched = [] ∧
      handleRequest parser 0 ⟨c.method, target⟩ newMetricsHandler =
        Throws.run (routes parser ⟨c.method, target⟩) w := by
    refine ⟨⟨countRequest ⟨"/events", c.params⟩ newMetricsHandler,
      listenersFor ⟨c.method, target⟩ ⟨"/events", c.params⟩ 0, [], []⟩, rfl, ?_⟩
    unfold handleRequest callback countRequest listenersFor
    rw [Throws.run_bind_ok (parseUrl_run hurl _)]
    cases Metrics.isInfraPath "/events" <;> rfl
  obtain ⟨w, hw, hrun⟩ := hrun
  rw [arrival, hrun, routes_call hparser h, hw]
  rfl

/-! ## 2. One call -/

namespace EventsApiLemmas

variable {sorter : Sorter} {docs docs' : Collection} {a : Outcome}

theorem settle_error {status : Nat} {message : String} (h : 300 ≤ status) :
    (settle status (NodeService.errorText message)).1 = .thrown status (errorBody message) := by
  have h204 : status ≠ 204 := fun heq => by
    rw [heq] at h
    exact absurd h (by decide)
  have hok : ¬ (200 ≤ status ∧ status ≤ 299) := fun hboth => absurd (h.trans hboth.2) (by decide)
  rw [settle, if_neg h204, NodeService.parse_failed]
  dsimp only
  rw [if_neg hok]
  rfl

theorem settle_value {status : Nat} {text : String} {v : Json} (h : status = 200 ∨ status = 201)
    (hparse : parse text = some v) : (settle status text).1 = .value v := by
  have h204 : status ≠ 204 := by rcases h with rfl | rfl <;> decide
  have hok : 200 ≤ status ∧ status ≤ 299 := by rcases h with rfl | rfl <;> decide
  rw [settle, if_neg h204, hparse]
  dsimp only
  rw [if_pos hok]

theorem promise_failed {status : Nat} {message : String} (h : 300 ≤ status)
    (err : Option DriverError) : promiseOf (.responded (.failed status message) err) =
      some (.thrown status (errorBody message)) :=
  congrArg some (settle_error h)

theorem promise_refused {status : Nat} {message : String} (h : 300 ≤ status)
    (err : Option DriverError) : promiseOf (.responded (.posted (.failed status message)) err) =
      some (.thrown status (errorBody message)) :=
  congrArg some (settle_error h)

theorem promise_events {es : List NodeService.Event} (h : ∀ e ∈ es, e.Textual)
    (err : Option DriverError) : promiseOf (.responded (.events es) err) = some (listed es) := by
  obtain ⟨text, htext, hparse⟩ := NodeService.parse_events h
  rw [promiseOf, htext]
  exact congrArg some (settle_value (.inl rfl) hparse)

theorem promise_created {e : NodeService.Event} (h : e.Textual) (err : Option DriverError) :
    promiseOf (.responded (.posted (.created e)) err) = some (.value e.json) := by
  obtain ⟨text, htext, hparse⟩ := NodeService.parse_created h
  rw [promiseOf, htext]
  exact congrArg some (settle_value (.inr rfl) hparse)

theorem found_textual (h : ∀ e ∈ docs, e.Textual) (query : Query) :
    ∀ e ∈ found sorter docs query, e.Textual := by
  have hsorted : ∀ keep : NodeService.Event → Bool,
      ∀ e ∈ (sorter.sort (docs.filter keep)).map project, e.Textual := by
    intro keep e he
    obtain ⟨doc, hdoc, rfl⟩ := List.mem_map.mp he
    exact NodeService.project_textual
      (h doc (List.mem_of_mem_filter ((sorter.perm _).mem_iff.mp hdoc)))
  cases query with
  | byDeviceId deviceId => exact hsorted _
  | byType type => exact hsorted _

/-- The fields of an event, sent and destructured. -/
theorem event_body (t d n : JsString) (a e : Option JsString) : ∃ v,
    (some (body [("type", some t), ("deviceId", some d), ("name", some n), ("actor", a),
      ("description", e)])).bind parseBytes = some v ∧ destructure v = .ok (eventParams t d n a e) := by
  refine ⟨.obj ([(utf16 "type", .str t), (utf16 "deviceId", .str d), (utf16 "name", .str n)] ++
    (a.map fun s => (utf16 "actor", Json.str s)).toList ++
    (e.map fun s => (utf16 "description", Json.str s)).toList), ?_, ?_⟩
  · rw [Option.bind_some, parseBytes, body, decodeUtf8_toUTF8, parse_stringify]
    cases a <;> cases e <;> rfl
  · cases a <;> cases e <;> rfl

theorem handleGet_device (s : JsString) :
    handleGet (NodeRequests.param (some s)) (NodeRequests.param none) =
      if isUuidV4 s then answerQuery (.byDeviceId s) else respond (.failed 400 (refusal s)) none := by
  cases s with
  | nil => rfl
  | cons u us =>
    have hblank : isUuidV4 (u :: us) = true → blank (some (.str (u :: us))) = false := fun h =>
      blank_eq_false.mpr ⟨_, rfl, trim_of_isUuidV4 h⟩
    show (if blank (some (.str (u :: us))) then respond (.failed 400 "deviceId is required") none
      else if isUuidV4 (u :: us) then answerQuery (.byDeviceId (u :: us))
      else respond (.failed 400 "deviceId must be a valid UUID v4") none) = _
    unfold refusal
    cases hv4 : isUuidV4 (u :: us) with
    | true =>
      rw [hblank hv4]
      rfl
    | false => cases blank (some (.str (u :: us))) <;> rfl

/-- The handler of a list of events of a device. -/
theorem handler_getEvents {deviceId : JsString}
    (h : ((EventCall.getEvents deviceId).fetch).isSome = true) :
    (requestOf (branch (.getEvents deviceId))).handler =
      if isUuidV4 deviceId then answerQuery (.byDeviceId deviceId)
      else respond (.failed 400 (refusal deviceId)) none := by
  have hid : utf16 (ofUtf16 deviceId) = deviceId := by
    by_contra hne
    rw [EventCall.fetch, Http.encodeURIComponent, if_neg hne] at h
    cases h
  rw [branch, requestOf, Option.map_some, hid]
  exact handleGet_device deviceId

theorem handleGet_deleted :
    handleGet (NodeRequests.param none) (NodeRequests.param (some deletedType)) =
      answerQuery (.byType deletedType) := by
  have hblank : blank (some (.str deletedType)) = false := by decide
  show (if blank (some (.str deletedType)) then respond (.failed 400 "type is required") none
    else answerQuery (.byType deletedType)) = _
  rw [hblank]
  rfl

/-- What a query that is answered comes to. -/
theorem query_promise {b : Option ByteArray} {query : Query} (htext : ∀ e ∈ docs, e.Textual)
    (h : (setting sorter).Alone (Sends b) (answerQuery query) docs a docs') :
    docs' = docs ∧ (promiseOf a = some (listed (found sorter docs query)) ∨
      promiseOf a = some (.thrown 500 (errorBody "internal server error"))) := by
  obtain ⟨hdocs, rfl | ⟨err, rfl⟩⟩ := query_alone h
  · exact ⟨hdocs, .inl (promise_events (found_textual htext query) none)⟩
  · exact ⟨hdocs, .inr (promise_failed (by decide) _)⟩

end EventsApiLemmas

open EventsApiLemmas

/-- A call that its handler works for alone is a step over the collection, and its promise is
settled. -/
theorem call_alone {sorter : Sorter} {docs docs' : Collection} {a : Outcome}
    (hc : (c.fetch).isSome = true) (htext : ∀ e ∈ docs, e.Textual)
    (h : (setting sorter).Alone (Sends c.body?) (requestOf (branch c)).handler docs a docs') :
    (∃ v, promiseOf a = some v ∧ CallSpec sorter docs c v docs') ∧ ∀ e ∈ docs', e.Textual := by
  cases c with
  | getEvents deviceId =>
    rw [handler_getEvents hc] at h
    split at h
    · next hv4 =>
      obtain ⟨rfl, hv | hv⟩ := query_promise htext h
      · exact ⟨⟨_, hv, .events hv4⟩, htext⟩
      · exact ⟨⟨_, hv, .failed⟩, htext⟩
    · next hv4 =>
      obtain ⟨rfl, rfl⟩ := respond_alone h
      exact ⟨⟨_, promise_failed (by decide) none, .unknown (Bool.eq_false_iff.mpr hv4)⟩, htext⟩
  | getDeletedDevices =>
    have hhandler : (requestOf (branch .getDeletedDevices)).handler =
        handleGet (NodeRequests.param none) (NodeRequests.param (some deletedType)) := rfl
    rw [hhandler, handleGet_deleted] at h
    obtain ⟨rfl, hv | hv⟩ := query_promise htext h
    · exact ⟨⟨_, hv, .deleted⟩, htext⟩
    · exact ⟨⟨_, hv, .failed⟩, htext⟩
  | createEvent type deviceId name actor description =>
    obtain ⟨v, hv, hp⟩ := event_body (utf16 type) (utf16 deviceId) (utf16 name) (actor.map utf16)
      (description.map utf16)
    have h' : (setting sorter).Alone (Sends (some (body [("type", some (utf16 type)),
        ("deviceId", some (utf16 deviceId)), ("name", some (utf16 name)), ("actor", actor.map utf16),
        ("description", description.map utf16)]))) NodeShutdown.handlePost docs a docs' := h
    rcases post_alone hv hp h' with ⟨uuid, now, err, hcreate, rfl, rfl⟩ | ⟨err, rfl, rfl⟩ |
      ⟨uuid, now, event, hcreate, rfl, rfl⟩
    · obtain ⟨-, rfl⟩ := createEvent_error.mp hcreate
      exact ⟨⟨_, promise_refused (by decide) none, .refused hcreate⟩, htext⟩
    · exact ⟨⟨_, promise_refused (by decide) _, .failed⟩, htext⟩
    · have hnew : event.Textual := by
        refine NodeService.created_textual hcreate rfl ?_ ?_
        · cases actor <;> rfl
        · cases description <;> rfl
      exact ⟨⟨_, promise_created hnew none, .created hcreate⟩, forall_snoc htext hnew⟩

end AssetTracker.EventsApi
