import AssetTracker.Lib.Decoder
import AssetTracker.Lib.Http
import AssetTracker.Go.UseCases

/-!
# HTTP handlers of the devices (Go service)

The handlers of `internal/interfaces/device_handler.go`. A handler answers at
once, or it calls a use case and answers when it returns. Log lines are left out.

Results:
1. `Route.handler_call`, `Route.call_handler`: which use case a handler calls.
-/

namespace AssetTracker.GoService

open Encoding Http

/-! ## Responses -/

/-- What is written after the header: a value that is encoded as JSON, or a text. -/
inductive Body where
  | empty
  | object (fields : List (String × String))
  | device (d : Device)
  | devices (ds : List Device)
  | text (s : String)
deriving DecidableEq, Repr

structure Response where
  status : Nat
  headers : List (String × String)
  body : Body
deriving DecidableEq, Repr

def writeJSON (status : Nat) (data : Body) : Response :=
  ⟨status, [("Content-Type", "application/json")], data⟩

def writeError (status : Nat) (message : String) : Response :=
  writeJSON status (.object [("error", message)])

/-- What a handler does with a request: it answers, or calls a use case and answers
with what the result becomes. -/
inductive Outcome where
  | respond (response : Response)
  | call (op : Op) (answer : Result → Response)

/-- Change the response, whenever it comes. -/
def Outcome.map (f : Response → Response) : Outcome → Outcome
  | .respond response => .respond (f response)
  | .call op answer => .call op fun result => f (answer result)

/-- A handler serves a request at an instant, with the values of the wildcards of its
pattern. -/
abbrev Handler := Instant → Request → List String → Outcome

/-! ## `DeviceHandler` -/

/-- `PathValue` of the only wildcard. -/
def pathValue (values : List String) : String := values.headD ""

def Reply.body : Reply → Body
  | .device d => .device d
  | .devices ds => .devices ds
  | .done => .empty

/-- The response to an error of a use case. Not every handler looks for every sentinel. -/
def writeFailure (checksFound checksFields : Bool) (err : Err) : Response :=
  if checksFound && err.is .notFound then writeError 404 "device not found"
  else if checksFields && (err.is .nameRequired || err.is .typeRequired) then
    writeError 400 err.message
  else writeError 500 "internal server error"

def handleCreate : Handler := fun _ r _ =>
  match decodeStrings "name" "type" r.body with
  | none => .respond (writeError 400 "invalid request body")
  | some (name, deviceType) => .call (.create name deviceType) fun
    | .error err => writeFailure false true err
    | .ok device => writeJSON 201 device.body

def handleList : Handler := fun _ _ _ =>
  .call .list fun
    | .error err => writeFailure false false err
    | .ok devices => writeJSON 200 devices.body

def handleGet : Handler := fun _ _ values =>
  .call (.get (pathValue values)) fun
    | .error err => writeFailure true false err
    | .ok device => writeJSON 200 device.body

def handleUpdate : Handler := fun _ r values =>
  match decodeStrings "name" "type" r.body with
  | none => .respond (writeError 400 "invalid request body")
  | some (name, deviceType) => .call (.update (pathValue values) name deviceType) fun
    | .error err => writeFailure true true err
    | .ok device => writeJSON 200 device.body

def handleDelete : Handler := fun _ _ values =>
  .call (.delete (pathValue values)) fun
    | .error err => writeFailure true false err
    | .ok _ => ⟨204, [], .empty⟩

/-! ## Routes -/

/-- The routes that `NewDeviceHandler` registers, in this order. -/
inductive Route where
  | create
  | update
  | delete
  | list
  | get
deriving DecidableEq, Repr

def Route.pattern : Route → Pattern
  | create => { method := some "POST", segments := [.literal "devices"] }
  | update => { method := some "PUT", segments := [.literal "devices", .wildcard] }
  | delete => { method := some "DELETE", segments := [.literal "devices", .wildcard] }
  | list => { method := some "GET", segments := [.literal "devices"] }
  | get => { method := some "GET", segments := [.literal "devices", .wildcard] }

def Route.handler : Route → Handler
  | create => handleCreate
  | update => handleUpdate
  | delete => handleDelete
  | list => handleList
  | get => handleGet

/-- The request asks for a call of a use case: it matches the route, and a body that is
needed can be decoded. -/
inductive Asks (r : Request) : Op → Prop
  | create {name deviceType : String} :
      Route.create.pattern.Matches r [] →
      decodeStrings "name" "type" r.body = some (name, deviceType) →
      Asks r (.create name deviceType)
  | update {id name deviceType : String} :
      Route.update.pattern.Matches r [id] →
      decodeStrings "name" "type" r.body = some (name, deviceType) →
      Asks r (.update id name deviceType)
  | delete {id : String} : Route.delete.pattern.Matches r [id] → Asks r (.delete id)
  | list : Route.list.pattern.Matches r [] → Asks r .list
  | get {id : String} : Route.get.pattern.Matches r [id] → Asks r (.get id)

theorem devices_decodes : Decodes "/devices" := by decide

/-! ## 1. The call of a route -/

namespace HandlerLemmas

theorem values_collection {p : Pattern} {r : Request} {values : List String}
    (hp : p.Matches r values) (hs : p.segments = [.literal "devices"]) (ht : p.subtree = false) :
    values = [] := by
  have hpath := hp.path
  rw [Pattern.matchPath, hs, ht] at hpath
  obtain ⟨ss, -, hrest⟩ := matchSegments_literal hpath
  exact (matchSegments_nil hrest).2

theorem values_member {p : Pattern} {r : Request} {values : List String}
    (hp : p.Matches r values) (hs : p.segments = [.literal "devices", .wildcard])
    (ht : p.subtree = false) : ∃ id, values = [id] := by
  have hpath := hp.path
  rw [Pattern.matchPath, hs, ht] at hpath
  obtain ⟨ss, -, hrest⟩ := matchSegments_literal hpath
  obtain ⟨id, ss', values', -, rfl, hrest'⟩ := matchSegments_wildcard hrest
  exact ⟨id, by rw [(matchSegments_nil hrest').2]⟩

end HandlerLemmas

open HandlerLemmas

/-! What `handleCreate` and `handleUpdate` do with the body. -/

section

variable {r : Request} {name deviceType : String} (t : Instant) (values : List String)

theorem handleCreate_refused (h : decodeStrings "name" "type" r.body = none) :
    handleCreate t r values = .respond (writeError 400 "invalid request body") := by
  rw [handleCreate, h]

theorem handleCreate_call (h : decodeStrings "name" "type" r.body = some (name, deviceType)) :
    ∃ answer, handleCreate t r values = .call (.create name deviceType) answer ∧
      ∀ err, answer (.error err) = writeFailure false true err :=
  ⟨_, by rw [handleCreate, h], fun _ => rfl⟩

theorem handleUpdate_refused (h : decodeStrings "name" "type" r.body = none) :
    handleUpdate t r values = .respond (writeError 400 "invalid request body") := by
  rw [handleUpdate, h]

theorem handleUpdate_call (h : decodeStrings "name" "type" r.body = some (name, deviceType)) :
    ∃ answer, handleUpdate t r values = .call (.update (pathValue values) name deviceType) answer ∧
      ∀ err, answer (.error err) = writeFailure true true err :=
  ⟨_, by rw [handleUpdate, h], fun _ => rfl⟩

end

/-- A handler calls the use case that the request asks for. -/
theorem Route.handler_call {route : Route} {t : Instant} {r : Request} {values : List String}
    {op : Op} {answer : Result → Response} (hroute : route.pattern.Matches r values)
    (h : route.handler t r values = .call op answer) : Asks r op := by
  cases route with
  | create =>
    obtain rfl := values_collection hroute rfl rfl
    rw [Route.handler] at h
    cases hbody : decodeStrings "name" "type" r.body with
    | none =>
      rw [handleCreate_refused t [] hbody] at h
      cases h
    | some fields =>
      obtain ⟨answer', hcall, -⟩ := handleCreate_call t [] hbody
      rw [hcall] at h
      cases h
      exact .create hroute hbody
  | update =>
    obtain ⟨id, rfl⟩ := values_member hroute rfl rfl
    rw [Route.handler] at h
    cases hbody : decodeStrings "name" "type" r.body with
    | none =>
      rw [handleUpdate_refused t [id] hbody] at h
      cases h
    | some fields =>
      obtain ⟨answer', hcall, -⟩ := handleUpdate_call t [id] hbody
      rw [hcall] at h
      cases h
      exact .update hroute hbody
  | delete =>
    obtain ⟨id, rfl⟩ := values_member hroute rfl rfl
    cases h
    exact .delete hroute
  | list =>
    obtain rfl := values_collection hroute rfl rfl
    cases h
    exact .list hroute
  | get =>
    obtain ⟨id, rfl⟩ := values_member hroute rfl rfl
    cases h
    exact .get hroute

/-- What a request asks for is called by the handler of its route. -/
theorem Route.call_handler {r : Request} {op : Op} (h : Asks r op) (t : Instant) :
    ∃ (route : Route) (values : List String) (answer : Result → Response),
      route.pattern.Matches r values ∧ route.handler t r values = .call op answer := by
  cases h with
  | create hroute hbody =>
    obtain ⟨answer, hcall, -⟩ := handleCreate_call t [] hbody
    exact ⟨.create, _, answer, hroute, hcall⟩
  | @update id _ _ hroute hbody =>
    obtain ⟨answer, hcall, -⟩ := handleUpdate_call t [id] hbody
    exact ⟨.update, _, answer, hroute, hcall⟩
  | delete hroute => exact ⟨.delete, _, _, hroute, rfl⟩
  | list hroute => exact ⟨.list, _, _, hroute, rfl⟩
  | get hroute => exact ⟨.get, _, _, hroute, rfl⟩

end AssetTracker.GoService
