import Mathlib.Data.List.Induction
import AssetTracker.Lib.Json

/-!
# The health dots (web UI)

`hooks/use-health.ts` polls each service through `getHealth`; TanStack Query keeps
the last data when a later poll fails, and `LiveMetrics` shows what `classifyHealth`
makes of the three fields `isError`, `data` and `error`.

The dot is not a function of the last poll. An HTTP error with data from an earlier
poll is shown as `stale`, which is the only way to this status: `getHealth` throws
either a `TypeError` or the status and body of an HTTP error.

Results:
1. `useHealth_data`: the query holds data as soon as a poll has left some.
2. `dot_eq_stale_iff`: the histories that end with the status `stale`.
3. `dot_last`: the dot as a function of the last poll and of whether an earlier
   one succeeded.
-/

namespace AssetTracker.WebUi.Health

open Encoding Text

/-! ## `classifyHealth` -/

inductive HealthStatus where
  | healthy
  | offline
  | unhealthy
  | stale
deriving DecidableEq, Repr

/-- A value of type `unknown` that a query may hold as its `error`; `null` when it
holds none. -/
inductive Thrown where
  | null
  | typeError (message : JsString)
  | error (message : JsString)
  | object (members : List (JsString × Json))

/-- The property `message` when it is a string. -/
def Thrown.message : Thrown → Option JsString
  | .null => none
  | .typeError message => some message
  | .error message => some message
  | .object members =>
    match lookup (utf16 "message") members with
    | some (.str message) => some message
    | _ => none

def Thrown.isTypeError : Thrown → Bool
  | .typeError _ => true
  | _ => false

/-- `toLowerCase` on the letters that matter to a search for an ASCII word: the other
characters with a lower case in ASCII have it in `i` and `k`, which are not in `fetch`. -/
def toLowerCase (s : JsString) : JsString :=
  s.map fun u => if 0x41 ≤ u ∧ u ≤ 0x5A then u + 0x20 else u

def includes (s word : JsString) : Bool := s.tails.any word.isPrefixOf

def isFetchErrorMessage (error : Thrown) : Bool :=
  match error.message with
  | some message => includes (toLowerCase message) (utf16 "fetch")
  | none => false

/-- `data?.status === "ok"`. -/
def statusIsOk : Option Json → Bool
  | some (.obj members) =>
    match lookup (utf16 "status") members with
    | some (.str status) => status == utf16 "ok"
    | _ => false
  | _ => false

def classifyHealth (isError : Bool) (data : Option Json) (error : Thrown) : HealthStatus :=
  if !isError && statusIsOk data then .healthy
  else if isError then
    if error.isTypeError then .offline
    else if isFetchErrorMessage error then .offline
    else if data.isSome then .stale
    else .unhealthy
  else .unhealthy

/-! ## `getHealth` -/

inductive ServiceName where
  | go
  | node
deriving DecidableEq, Repr

def ServiceName.text : ServiceName → String
  | .go => "go"
  | .node => "node"

def serviceMap : ServiceName → String
  | .go => "/api/go/health/ready"
  | .node => "/api/node/health/ready"

/-- A response with the value `response.json` resolves to, if it does. -/
structure HealthResponse where
  status : Nat
  json : Option Json

def HealthResponse.ok (r : HealthResponse) : Bool := 200 ≤ r.status && r.status ≤ 299

/-- What `fetch` makes of a GET at the time of a poll; `none` when it rejects. -/
abbrev Network := String → Option HealthResponse

def failedToFetch (service : ServiceName) : Thrown :=
  .typeError (utf16 ("Failed to fetch " ++ service.text ++ " health"))

/-- The digits of a status, as the number that is thrown. -/
def statusNumber (status : Nat) : Json := .num ⟨false, status, 0⟩

def getHealth (service : ServiceName) (fetch : Network) : Except Thrown Json :=
  match fetch (serviceMap service) with
  | none => .error (failedToFetch service)
  | some response =>
    match response.json with
    | none => .error (failedToFetch service)
    | some body =>
      if response.ok then .ok body
      else .error (.object [(utf16 "status", statusNumber response.status), (utf16 "body", body)])

/-! ## The query -/

/-- The fields of a query that `LiveMetrics` reads. -/
structure Query where
  isError : Bool
  data : Option Json
  error : Thrown

def Query.initial : Query := ⟨false, none, .null⟩

/-- A poll has ended; with `retry: false` its first failure counts. -/
def Query.settle (q : Query) : Except Thrown Json → Query
  | .ok body => ⟨false, some body, .null⟩
  | .error e => { q with isError := true, error := e }

/-- `useGoHealth` and `useNodeHealth` after a history of polls, the oldest first. -/
def useHealth (service : ServiceName) (polls : List Network) : Query :=
  polls.foldl (fun q fetch => q.settle (getHealth service fetch)) .initial

/-- The dot of a service in `LiveMetrics`. -/
def dot (service : ServiceName) (polls : List Network) : HealthStatus :=
  let health := useHealth service polls
  classifyHealth health.isError health.data health.error

/-! ## The badge -/

def priorityOrder : List HealthStatus := [.offline, .unhealthy, .stale, .healthy]

def worstStatus (goStatus nodeStatus : HealthStatus) : HealthStatus :=
  (priorityOrder.find? fun s => goStatus == s || nodeStatus == s).getD .healthy

/-- The badge shows the status of one of the two services, and neither is worse. -/
theorem worstStatus_spec (goStatus nodeStatus : HealthStatus) :
    worstStatus goStatus nodeStatus ∈ [goStatus, nodeStatus] ∧
      ∀ s ∈ [goStatus, nodeStatus],
        priorityOrder.idxOf (worstStatus goStatus nodeStatus) ≤ priorityOrder.idxOf s := by
  cases goStatus <;> cases nodeStatus <;> decide

/-! ## A history of polls -/

/-- How a poll ends. -/
inductive Outcome where
  | ok
  | networkFailure
  | httpError
deriving DecidableEq, Repr

/-- The poll of the service ends so: a 200 with status `ok`, no response, or an HTTP
error status with a JSON body. -/
def Ends (service : ServiceName) (fetch : Network) : Outcome → Prop
  | .ok => ∃ members, fetch (serviceMap service) = some ⟨200, some (.obj members)⟩ ∧
      lookup (utf16 "status") members = some (.str (utf16 "ok"))
  | .networkFailure => fetch (serviceMap service) = none
  | .httpError => ∃ response body, fetch (serviceMap service) = some response ∧
      response.json = some body ∧ response.ok = false

/-- The poll of the service leaves data behind. -/
def Resolves (service : ServiceName) (fetch : Network) : Prop :=
  ∃ body, getHealth service fetch = .ok body

theorem useHealth_snoc (service : ServiceName) (polls : List Network) (fetch : Network) :
    useHealth service (polls ++ [fetch]) =
      (useHealth service polls).settle (getHealth service fetch) := by
  unfold useHealth
  rw [List.foldl_append, List.foldl_cons, List.foldl_nil]

/-- The query holds data as soon as one poll has left some. -/
theorem useHealth_data {service : ServiceName} {polls : List Network} :
    (useHealth service polls).data.isSome = true ↔ ∃ fetch ∈ polls, Resolves service fetch := by
  induction polls using List.reverseRecOn with
  | nil => simp [useHealth, Query.initial]
  | append_singleton polls fetch ih =>
    rw [useHealth_snoc]
    cases hget : getHealth service fetch with
    | ok body =>
      have hlast : Resolves service fetch := ⟨body, hget⟩
      exact ⟨fun _ => ⟨fetch, by simp, hlast⟩, fun _ => rfl⟩
    | error e =>
      show (useHealth service polls).data.isSome = true ↔ _
      rw [ih]
      constructor
      · rintro ⟨p, hp, hr⟩
        exact ⟨p, List.mem_append_left _ hp, hr⟩
      · rintro ⟨p, hp, body, hbody⟩
        rcases List.mem_append.mp hp with hp | hp
        · exact ⟨p, hp, body, hbody⟩
        · rw [List.mem_singleton.mp hp, hget] at hbody
          cases hbody

/-! ## The last poll -/

theorem getHealth_networkFailure {service : ServiceName} {fetch : Network}
    (h : Ends service fetch .networkFailure) :
    getHealth service fetch = .error (failedToFetch service) := by
  unfold getHealth
  rw [show fetch (serviceMap service) = none from h]

theorem getHealth_ok {service : ServiceName} {fetch : Network} (h : Ends service fetch .ok) :
    ∃ body, getHealth service fetch = .ok body ∧ statusIsOk (some body) = true := by
  obtain ⟨members, hfetch, hstatus⟩ := h
  refine ⟨.obj members, ?_, ?_⟩
  · unfold getHealth
    rw [hfetch]
    rfl
  · show (match lookup (utf16 "status") members with
      | some (.str status) => status == utf16 "ok"
      | _ => false) = true
    rw [hstatus]
    exact beq_self_eq_true _

/-- What is thrown for an HTTP error is neither a `TypeError` nor has it a message. -/
theorem getHealth_httpError {service : ServiceName} {fetch : Network}
    (h : Ends service fetch .httpError) :
    ∃ e, getHealth service fetch = .error e ∧ e.isTypeError = false ∧
      isFetchErrorMessage e = false := by
  obtain ⟨response, body, hfetch, hjson, hok⟩ := h
  refine ⟨.object [(utf16 "status", statusNumber response.status), (utf16 "body", body)], ?_, rfl,
    ?_⟩
  · unfold getHealth
    rw [hfetch]
    dsimp only
    rw [hjson]
    dsimp only
    rw [hok, if_neg Bool.false_ne_true]
  · have hmessage : utf16 "status" ≠ utf16 "message" ∧ utf16 "body" ≠ utf16 "message" := by decide
    simp [isFetchErrorMessage, Thrown.message, lookup, hmessage]

theorem dot_ok {service : ServiceName} {earlier : List Network} {last : Network}
    (h : Ends service last .ok) : dot service (earlier ++ [last]) = .healthy := by
  obtain ⟨body, hget, hok⟩ := getHealth_ok h
  unfold dot
  rw [useHealth_snoc, hget]
  show classifyHealth false (some body) .null = .healthy
  simp [classifyHealth, hok]

theorem dot_networkFailure {service : ServiceName} {earlier : List Network} {last : Network}
    (h : Ends service last .networkFailure) : dot service (earlier ++ [last]) = .offline := by
  unfold dot
  rw [useHealth_snoc, getHealth_networkFailure h]
  rfl

/-- An HTTP error shows the data of the earlier polls, if there is some, as stale. -/
theorem dot_httpError {service : ServiceName} {earlier : List Network} {last : Network}
    (h : Ends service last .httpError) :
    dot service (earlier ++ [last]) =
      if (useHealth service earlier).data.isSome then .stale else .unhealthy := by
  obtain ⟨e, hget, htype, hmessage⟩ := getHealth_httpError h
  unfold dot
  rw [useHealth_snoc, hget]
  show classifyHealth true (useHealth service earlier).data e = _
  simp [classifyHealth, htype, hmessage]

/-- Other than by an HTTP error, `getHealth` fails with a `TypeError`. -/
theorem getHealth_error {service : ServiceName} {fetch : Network} {e : Thrown}
    (h : getHealth service fetch = .error e) :
    e = failedToFetch service ∨ Ends service fetch .httpError := by
  unfold getHealth at h
  cases hfetch : fetch (serviceMap service) with
  | none =>
    rw [hfetch] at h
    cases h
    exact .inl rfl
  | some response =>
    rw [hfetch] at h
    dsimp only at h
    cases hjson : response.json with
    | none =>
      rw [hjson] at h
      cases h
      exact .inl rfl
    | some body =>
      rw [hjson] at h
      dsimp only at h
      cases hok : response.ok with
      | false => exact .inr ⟨response, body, hfetch, hjson, hok⟩
      | true =>
        rw [hok] at h
        cases h

/-- The status `stale` stands for an HTTP error after a success, and for nothing else. -/
theorem dot_eq_stale_iff {service : ServiceName} {earlier : List Network} {last : Network} :
    dot service (earlier ++ [last]) = .stale ↔
      Ends service last .httpError ∧ ∃ fetch ∈ earlier, Resolves service fetch := by
  constructor
  · intro hdot
    cases hget : getHealth service last with
    | ok body =>
      unfold dot at hdot
      rw [useHealth_snoc, hget] at hdot
      replace hdot : classifyHealth false (some body) .null = .stale := hdot
      cases hok : statusIsOk (some body) <;> simp [classifyHealth, hok] at hdot
    | error e =>
      rcases getHealth_error hget with rfl | hlast
      · unfold dot at hdot
        rw [useHealth_snoc, hget] at hdot
        cases hdot
      · rw [dot_httpError hlast] at hdot
        cases hdata : (useHealth service earlier).data.isSome with
        | true => exact ⟨hlast, useHealth_data.mp hdata⟩
        | false =>
          rw [hdata] at hdot
          cases hdot
  · rintro ⟨hlast, hearlier⟩
    rw [dot_httpError hlast, if_pos (useHealth_data.mpr hearlier)]

/-- What the dot shows for the last poll, given whether an earlier one succeeded. -/
def shown (succeeded : Bool) : Outcome → HealthStatus
  | .ok => .healthy
  | .networkFailure => .offline
  | .httpError => if succeeded then .stale else .unhealthy

/-- The dot follows the last poll; after an HTTP error it also tells whether there is
data of an earlier poll. Of the polls before nothing else matters, neither how many there were
nor how they ended. -/
theorem dot_last (service : ServiceName) (earlier : List Network) (last : Network)
    (outcome : Outcome) (h : Ends service last outcome) :
    ((∀ fetch ∈ earlier, ¬ Resolves service fetch) →
      dot service (earlier ++ [last]) = shown false outcome) ∧
    ((∃ fetch ∈ earlier, Resolves service fetch) →
      dot service (earlier ++ [last]) = shown true outcome) := by
  cases outcome with
  | ok => exact ⟨fun _ => dot_ok h, fun _ => dot_ok h⟩
  | networkFailure => exact ⟨fun _ => dot_networkFailure h, fun _ => dot_networkFailure h⟩
  | httpError =>
    rw [dot_httpError h]
    constructor
    · intro hnone
      have hdata : ¬ (useHealth service earlier).data.isSome = true := fun hsome =>
        let ⟨fetch, hmem, hr⟩ := useHealth_data.mp hsome
        hnone fetch hmem hr
      rw [if_neg hdata]
      rfl
    · intro hsome
      rw [if_pos (useHealth_data.mpr hsome)]
      rfl

/-- The service is up. -/
def up : Network := fun _ => some ⟨200, some (.obj [(utf16 "status", .str (utf16 "ok"))])⟩

/-- The service has lost its database. -/
def degraded : Network :=
  fun _ => some ⟨503, some (.obj [(utf16 "status", .str (utf16 "degraded"))])⟩

theorem ends_up (service : ServiceName) : Ends service up .ok :=
  ⟨_, rfl, by simp [lookup]⟩

theorem ends_degraded (service : ServiceName) : Ends service degraded .httpError :=
  ⟨_, _, rfl, rfl, rfl⟩

theorem resolves_up (service : ServiceName) : Resolves service up :=
  let ⟨body, hbody, _⟩ := getHealth_ok (ends_up service)
  ⟨body, hbody⟩

/-- A 503 after a success. -/
theorem dot_last_degraded : dot .go ([up] ++ [degraded]) = .stale :=
  (dot_last .go [up] degraded .httpError (ends_degraded .go)).2
    ⟨up, List.mem_singleton_self up, resolves_up .go⟩

/-- The last poll alone does not decide: the 503 after a success is not shown as
`unhealthy`. -/
theorem dot_not_of_last :
    Ends .go up .ok ∧ Ends .go degraded .httpError ∧ dot .go ([up] ++ [degraded]) = .stale ∧
    ¬ ∀ (service : ServiceName) (earlier : List Network) (last : Network) (outcome : Outcome),
      (∀ fetch ∈ earlier, ∃ o, Ends service fetch o) → Ends service last outcome →
      dot service (earlier ++ [last]) = shown false outcome := by
  have hstale : dot .go ([up] ++ [degraded]) = .stale := by
    rw [dot_eq_stale_iff]
    exact ⟨ends_degraded .go, up, List.mem_singleton_self up, resolves_up .go⟩
  refine ⟨ends_up .go, ends_degraded .go, hstale, fun hall => ?_⟩
  have hunhealthy := hall .go [up] degraded .httpError
    (fun fetch hmem => ⟨.ok, List.mem_singleton.mp hmem ▸ ends_up .go⟩) (ends_degraded .go)
  rw [hstale] at hunhealthy
  cases hunhealthy

end AssetTracker.WebUi.Health
