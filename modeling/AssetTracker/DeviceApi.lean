import AssetTracker.Lib.Layers
import AssetTracker.Forms
import AssetTracker.Go.Linearizable
import AssetTracker.Go.Responses
import AssetTracker.Go.Server
import AssetTracker.Web.Api

/-!
# The device API, from the browser to the table

A call of `lib/api/devices.ts` against what the Go service makes of it. The ids in the paths
are plain: nothing on the way escapes them, or reads them as anything else than a name.

Results:
1. `call_settles`: how the promise of a call is settled.
-/

namespace AssetTracker.DeviceApi

open Encoding Text Http GoService Server WebUi

/-! ## Definitions -/

/-- The call of a use case that a call comes to. On its way a surrogate that stands alone is
replaced, and a field that is missing is empty. -/
def useCase : ApiCall → Op
  | .getDevices => .list
  | .getDevice id => .get id
  | .createDevice name type => .create (ofUtf16 name) (ofUtf16 type)
  | .updateDevice id name type =>
    .update id ((name.map ofUtf16).getD "") ((type.map ofUtf16).getD "")
  | .deleteDevice id => .delete id

/-- A promise of the value that is read from a body. -/
def valued : Option Json → Promise
  | some v => .value v
  | none => .rejected

/-- The promise of a call whose use case returns this. Calls with an id may not find a device,
and calls with a body may be refused. -/
def promised (zone : Device → Int) (c : ApiCall) : Result → Promise
  | .error err =>
    if c.id?.isSome && err.is .notFound then .thrown 404 (errorBody "device not found")
    else if c.fetch.2.body.isSome && (err.is .nameRequired || err.is .typeRequired) then
      .thrown 400 (errorBody err.message)
    else .thrown 500 (errorBody "internal server error")
  | .ok reply =>
    if c.fetch.2.method = "DELETE" then .null else valued (reply.body.value zone)

def route : ApiCall → Route
  | .getDevices => .list
  | .getDevice _ => .get
  | .createDevice .. => .create
  | .updateDevice .. => .update
  | .deleteDevice _ => .delete

/-- What `authFetch` makes of a response of the Go service. -/
def settled (zone : Device → Int) (response : Response) : Promise × Bool :=
  settle response.status (response.body.encode zone)

/-! ## 1. One call -/

variable {jwt : Jwt} {config : AuthConfig} {t : Instant} {monitor : Response} {c : ApiCall}
  {proxy : Proxy} {token : String} {added : List (String × String)} {r : Request}

namespace DeviceApiLemmas

theorem settled_withCors (zone : Device → Int) (response : Response) :
    settled zone (withCors response) = settled zone response := rfl

theorem settled_error {zone : Device → Int} {status : Nat} {message : String} (h : 300 ≤ status) :
    settled zone (writeError status message) =
      (.thrown status (errorBody message), status == 401) := by
  have h204 : status ≠ 204 := fun heq => by
    rw [heq] at h
    exact absurd h (by decide)
  have hok : ¬ (200 ≤ status ∧ status ≤ 299) := fun hboth =>
    absurd (h.trans hboth.2) (by decide)
  unfold settled settle
  rw [parse_encode]
  exact (if_neg h204).trans (if_neg hok)

theorem settled_failure (zone : Device → Int) (checksFound checksFields : Bool) (err : Err) :
    settled zone (writeFailure checksFound checksFields err) =
      (if checksFound && err.is .notFound then .thrown 404 (errorBody "device not found")
        else if checksFields && (err.is .nameRequired || err.is .typeRequired) then
          .thrown 400 (errorBody err.message)
        else .thrown 500 (errorBody "internal server error"), false) := by
  unfold writeFailure
  split
  · exact settled_error (by decide)
  · split
    · exact settled_error (by decide)
    · exact settled_error (by decide)

theorem settled_body {zone : Device → Int} {status : Nat} {body : Body}
    (h : status = 200 ∨ status = 201) :
    settled zone (writeJSON status body) = (valued (body.value zone), false) := by
  have h204 : status ≠ 204 := by rcases h with rfl | rfl <;> decide
  have hok : 200 ≤ status ∧ status ≤ 299 := by rcases h with rfl | rfl <;> decide
  have hsettled : settled zone (writeJSON status body) = settle status (body.encode zone) := rfl
  rw [hsettled, settle, parse_encode, if_neg h204]
  cases body.value zone with
  | none => rfl
  | some v => exact if_pos hok

theorem request_matches (h : c.request proxy token added = some r) :
    (route c).pattern.Matches r c.id?.toList := by
  obtain ⟨hplain, hpath, hmethod, -, -⟩ := request_path h
  have hnames : ∀ s ∈ c.names, isPlain s = true := names_plain hplain
  refine ⟨.inr (.inl ?_), .inl ?_, ?_⟩
  · rw [hmethod]
    cases c <;> rfl
  · rw [hpath, cleanPath_plainPath hnames (List.cons_ne_nil _ _)]
  · rw [hpath, pathSegments_plainPath hnames (List.cons_ne_nil _ _)]
    have hslash : ∀ id, c.id? = some id → id ≠ "/" := by
      rintro id hid rfl
      rw [hid] at hplain
      exact absurd hplain (by decide)
    cases c with
    | getDevices => rfl
    | createDevice name type => rfl
    | getDevice id =>
      have := hslash id rfl
      simp [route, Route.pattern, Pattern.matchPath, matchSegments, ApiCall.names, ApiCall.id?, this]
    | updateDevice id name type =>
      have := hslash id rfl
      simp [route, Route.pattern, Pattern.matchPath, matchSegments, ApiCall.names, ApiCall.id?, this]
    | deleteDevice id =>
      have := hslash id rfl
      simp [route, Route.pattern, Pattern.matchPath, matchSegments, ApiCall.names, ApiCall.id?, this]

/-- The handler of a call calls its use case. -/
theorem handler_call (h : c.request proxy token added = some r) (t : Instant) :
    ∃ answer, (route c).handler t r c.id?.toList = .call (useCase c) answer ∧
      ∀ zone result, settled zone (answer result) = (promised zone c result, false) := by
  obtain ⟨-, -, -, hbody, -⟩ := request_path h
  cases c with
  | getDevices =>
    refine ⟨_, rfl, fun zone result => ?_⟩
    cases result with
    | error err => exact settled_failure zone false false err
    | ok reply => exact settled_body (.inl rfl)
  | getDevice id =>
    refine ⟨_, rfl, fun zone result => ?_⟩
    cases result with
    | error err => exact settled_failure zone true false err
    | ok reply => exact settled_body (.inl rfl)
  | createDevice name type =>
    have hdecode : decodeStrings "name" "type" r.body = some (ofUtf16 name, ofUtf16 type) := by
      rw [hbody]
      exact decode_body _ _
    refine ⟨_, by rw [route, Route.handler, handleCreate, hdecode]; rfl, fun zone result => ?_⟩
    cases result with
    | error err => exact settled_failure zone false true err
    | ok reply => exact settled_body (.inr rfl)
  | updateDevice id name type =>
    have hdecode : decodeStrings "name" "type" r.body =
        some ((name.map ofUtf16).getD "", (type.map ofUtf16).getD "") := by
      rw [hbody]
      exact decode_body _ _
    refine ⟨_, by rw [route, Route.handler, handleUpdate, hdecode]; rfl, fun zone result => ?_⟩
    cases result with
    | error err => exact settled_failure zone true true err
    | ok reply => exact settled_body (.inl rfl)
  | deleteDevice id =>
    refine ⟨_, rfl, fun zone result => ?_⟩
    cases result with
    | error err => exact settled_failure zone true false err
    | ok reply => rfl

end DeviceApiLemmas

open DeviceApiLemmas

/-- With a token that the service accepts, a call comes to its use case, and its promise is
settled with the result. With any other it is refused, which the session is told. -/
theorem call_settles (h : c.request proxy token added = some r) :
    (Authenticated jwt config.jwtSecret t r → ∃ answer,
      serve jwt config monitor t r = .call (useCase c) answer ∧
        ∀ zone result, settled zone (answer result) = (promised zone c result, false)) ∧
    (¬ Authenticated jwt config.jwtSecret t r → ∃ response,
      serve jwt config monitor t r = .respond response ∧
        ∃ message, ∀ zone, settled zone response = (.thrown 401 (errorBody message), true)) := by
  rw [serve_route (request_matches h)]
  constructor
  · intro hauth
    obtain ⟨answer, hcall, hanswer⟩ := handler_call h t
    rw [authMiddleware_pass hauth, hcall]
    exact ⟨_, rfl, fun zone result => (settled_withCors zone _).trans (hanswer zone result)⟩
  · intro hnot
    obtain ⟨message, hrefuse⟩ := authMiddleware_refuse hnot
    rw [hrefuse]
    exact ⟨_, rfl, message, fun zone => settled_error (show 300 ≤ 401 by decide)⟩

end AssetTracker.DeviceApi
