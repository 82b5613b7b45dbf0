import AssetTracker.Lib.Throws
import AssetTracker.Node.Event

/-!
# Use cases and their repository (Node service)

`LogEventUseCase`, `ListEventsUseCase`, `MongoEventRepository` and
`EventHandler.handlePost`. A call runs over the collection, which is the list of its
documents in the order of their insertion; between its start and its `await` nothing
else runs, so calls follow one another.

Results:
1. `execute_eq`, `execute_run`: what a call of `LogEventUseCase` returns and stores.
2. `handlePost_run`: a request stores what the call for its body stores.
-/

namespace AssetTracker.NodeService

open Encoding Text

/-! ## Definitions -/

abbrev Collection := List Event

/-- A function that may throw, over the collection. -/
abbrev Js := ExceptT JsError (StateM Collection)

/-- What one call gets from outside: a UUID, the clock, and the error of `insertOne` if
it fails. -/
structure Env where
  uuid : Uuid
  now : Instant
  saveError : Option String

/-- What a finished call leaves: its answer, and the collection. -/
def Js.run {α : Type} (x : Js α) (docs : Collection) : Except JsError α × Collection :=
  Id.run (StateT.run (ExceptT.run x) docs)

/-! ### The repository -/

/-- `insertOne({ ...event })`. A call that fails stores nothing. -/
def save (env : Env) (event : Event) : Js Unit := do
  match env.saveError with
  | some message => throw (.driver message)
  | none => modify fun docs => docs ++ [event]

/-- The sort of the driver: `le` is its order of values, `sort` is `.sort({ timestamp: -1 })`. -/
structure Sorter where
  le : Value → Value → Prop
  sort : Collection → Collection
  perm : ∀ docs, (sort docs).Perm docs
  descending : ∀ docs, (sort docs).Pairwise fun a b => le b.timestamp a.timestamp

/-- `v ?? null`. -/
def orNull (v : Value) : Value :=
  match v with
  | none => some .null
  | some v => some v

/-- The object that a document is mapped to. -/
def project (doc : Event) : Event where
  id := doc.id
  type := doc.type
  deviceId := doc.deviceId
  name := doc.name
  timestamp := doc.timestamp
  actor := orNull doc.actor
  description := orNull doc.description

/-- Equality of a field with a string. -/
def isText (s : JsString) : Value → Bool
  | some (.str s') => s' == s
  | _ => false

def findByDeviceId (sorter : Sorter) (deviceId : JsString) (docs : Collection) : List Event :=
  (sorter.sort (docs.filter fun doc => isText deviceId doc.deviceId)).map project

def findByType (sorter : Sorter) (type : JsString) (docs : Collection) : List Event :=
  (sorter.sort (docs.filter fun doc => isText type doc.type)).map project

/-! ### The use cases -/

/-- `LogEventUseCase.execute`, of a destructured parameter. -/
def execute (env : Env) (p : Params) : Js Event := do
  let event ← ExceptT.mk (pure (createEvent env.uuid env.now p))
  save env event
  return event

/-- The destructuring of a body. -/
def destructure (body : Json) : Except JsError Params := do
  match body with
  | .null => throw (.typeError "Cannot destructure property 'type' of 'object null' as it is null.")
  | body =>
    return { type := ← property body "type", deviceId := ← property body "deviceId",
             name := ← property body "name", timestamp := ← property body "timestamp",
             actor := ← property body "actor", description := ← property body "description" }

/-- `ListEventsUseCase.execute`. -/
def listByDevice (sorter : Sorter) (deviceId : Value) (docs : Collection) :
    Except JsError (List Event) :=
  if blank deviceId then .error (.validation ["deviceId is required"])
  else match deviceId with
    | some (.str s) =>
      if isUuidV4 s then .ok (findByDeviceId sorter s docs)
      else .error (.validation ["deviceId must be a valid UUID v4"])
    | _ => .error (.validation ["deviceId must be a valid UUID v4"])

/-- `ListEventsUseCase.executeByType`. -/
def listByType (sorter : Sorter) (type : Value) (docs : Collection) :
    Except JsError (List Event) :=
  if blank type then .error (.validation ["type is required"])
  else match type with
    | some (.str s) => .ok (findByType sorter s docs)
    | _ => .error (.validation ["type is required"])

/-! ### `handlePost` -/

inductive Response where
  | created (event : Event)
  | failed (status : Nat) (error : String)

/-- `n` bytes that are not UTF-8 become one U+FFFD. -/
def replacement (_ : Nat) : List Char := ['\uFFFD']

/-- `JSON.parse(buffer.toString())`. -/
def parseBytes (bytes : ByteArray) : Option Json := Encoding.parse (decodeUtf8 replacement bytes)

def handlePost (env : Env) (body : ByteArray) : Js Response := do
  match parseBytes body with
  | none => return .failed 400 "invalid JSON body"
  | some body =>
    tryCatch
      (do
        let p ← ExceptT.mk (pure (destructure body))
        let event ← execute env p
        return .created event)
      fun err =>
        match err with
        | .validation _ => return .failed 400 err.message
        | _ => return .failed 500 "internal server error"

/-! ## 1. `LogEventUseCase` -/

section

variable {α β : Type} {docs : Collection}

theorem run_lift (r : Except JsError α) : Js.run (ExceptT.mk (pure r)) docs = (r, docs) := rfl

theorem run_bind (x : Js α) (f : α → Js β) :
    Js.run (x >>= f) docs =
      match Js.run x docs with
      | (.ok a, docs') => Js.run (f a) docs'
      | (.error err, docs') => (.error err, docs') := by
  show Throws.run (x >>= f) docs = _
  rw [Throws.run_bind, show Js.run x docs = Throws.run x docs from rfl]
  obtain ⟨r | r, docs'⟩ := Throws.run x docs <;> rfl

theorem run_tryCatch (x : Js α) (h : JsError → Js α) :
    Js.run (tryCatch x h) docs =
      match Js.run x docs with
      | (.ok a, docs') => (.ok a, docs')
      | (.error err, docs') => Js.run (h err) docs' := by
  show Throws.run (tryCatch x h) docs = _
  rw [Throws.run_tryCatch, show Js.run x docs = Throws.run x docs from rfl]
  obtain ⟨r | r, docs'⟩ := Throws.run x docs <;> rfl

end

section

variable {env : Env} {docs : Collection} {p : Params}

theorem save_run (e : Event) : (save env e).run docs =
    match env.saveError with
    | some message => (.error (.driver message), docs)
    | none => (.ok (), docs ++ [e]) := by
  unfold save
  cases env.saveError <;> rfl

/-- The event that a call stores, if it stores one. -/
def logged (env : Env) (p : Params) : Option Event :=
  if env.saveError = none then (createEvent env.uuid env.now p).toOption else none

theorem execute_eq : (execute env p).run docs =
    match createEvent env.uuid env.now p with
    | .error err => (.error err, docs)
    | .ok e =>
      match env.saveError with
      | some message => (.error (.driver message), docs)
      | none => (.ok e, docs ++ [e]) := by
  unfold execute
  rw [run_bind, run_lift]
  cases createEvent env.uuid env.now p with
  | error err => rfl
  | ok e =>
    show Js.run (save env e >>= fun _ => pure e) docs = _
    rw [run_bind, save_run]
    cases env.saveError <;> rfl

/-- A call appends the event that it logs, and returns it; otherwise it throws and
stores nothing. -/
theorem execute_run (env : Env) (p : Params) (docs : Collection) :
    ((execute env p).run docs).2 = docs ++ (logged env p).toList ∧
      ((execute env p).run docs).1.toOption = logged env p := by
  rw [execute_eq, logged]
  cases createEvent env.uuid env.now p with
  | error err =>
    rw [show (Except.error err : Except JsError Event).toOption = none from rfl, ite_self]
    exact ⟨(List.append_nil _).symm, rfl⟩
  | ok e =>
    cases env.saveError with
    | some message => exact ⟨(List.append_nil _).symm, rfl⟩
    | none => exact ⟨rfl, rfl⟩

theorem logged_eq_some {e : Event} : logged env p = some e ↔
    env.saveError = none ∧ (∃ t d n, p.Accepted t d n) ∧ e = p.event env.uuid env.now := by
  rw [← createEvent_ok, logged]
  split
  · next h =>
    rw [and_iff_right h]
    cases createEvent env.uuid env.now p <;> simp [Except.toOption]
  · next h => exact ⟨nofun, fun he => absurd he.1 h⟩

/-- The head of a list of which not all elements have an image. -/
theorem filterMap_cons_toList {α β : Type} (f : α → Option β) (a : α) (l : List α) :
    (a :: l).filterMap f = (f a).toList ++ l.filterMap f := by
  cases h : f a <;> simp [h]

/-! ## 2. Requests -/

/-- The parameters of the call that a request makes. -/
def paramsOf (body : ByteArray) : Option Params :=
  (parseBytes body).bind fun v => (destructure v).toOption

/-- A request never throws, and stores the event of the call for its body. -/
theorem handlePost_run {body : ByteArray} : (∃ r, ((handlePost env body).run docs).1 = .ok r) ∧
    ((handlePost env body).run docs).2 =
      docs ++ ((paramsOf body).bind (logged env)).toList := by
  unfold handlePost paramsOf
  cases hp : parseBytes body with
  | none => exact ⟨⟨_, rfl⟩, (List.append_nil _).symm⟩
  | some v =>
    dsimp only [Option.bind_some]
    rw [run_tryCatch, run_bind, run_lift]
    cases hd : destructure v with
    | error err => cases err <;> exact ⟨⟨_, rfl⟩, (List.append_nil _).symm⟩
    | ok p =>
      obtain ⟨hdocs, hans⟩ := execute_run env p docs
      dsimp only [Except.toOption, Option.bind_some]
      rw [run_bind, ← hdocs]
      cases hx : (execute env p).run docs with
      | mk r docs' =>
        cases r with
        | ok e => exact ⟨⟨_, rfl⟩, rfl⟩
        | error err => cases err <;> exact ⟨⟨_, rfl⟩, rfl⟩

end

end AssetTracker.NodeService
