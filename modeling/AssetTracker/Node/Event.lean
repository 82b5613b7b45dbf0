import AssetTracker.Lib.Json
import AssetTracker.Lib.Uuid
import AssetTracker.Lib.Time

/-!
# Events (Node service)

`domain/event.js`, over the values that JSON and property access give. A `Value`
is `none` for `undefined`.

Results:
1. `blank_eq_false`: what passes the check that three validators share.
2. `createEvent_ok`, `createEvent_error`: which parameters are accepted, and what
   becomes of them.
-/

namespace AssetTracker.NodeService

open Encoding Text

/-! ## Values -/

abbrev Value := Option Json

/-- The double nearest to the number is zero. -/
def isZero (n : Decimal) : Bool :=
  n.digits == 0 || (n.exponent < 0 && n.digits * Nat.pow 2 1075 ≤ Nat.pow 10 (-n.exponent).toNat)

/-- What is not `false` in a condition. -/
def truthy : Value → Bool
  | none => false
  | some .null => false
  | some (.bool b) => b
  | some (.num n) => !isZero n
  | some (.str s) => s != []
  | some (.arr _) => true
  | some (.obj _) => true

/-- `typeof v === 'string'`. -/
def isString : Value → Bool
  | some (.str _) => true
  | _ => false

/-- `!v || typeof v !== 'string' || v.trim().length === 0`. -/
def blank (v : Value) : Bool :=
  !truthy v || !isString v || match v with
    | some (.str s) => (trim s).length == 0
    | _ => false

/-- `/^[0-9a-f]{8}-…$/i.test(v)`, of a string. -/
def isUuid : Value → Bool
  | some (.str s) => isUuidV4 s
  | _ => false

/-- A string literal. -/
def text (s : String) : Value := some (.str (utf16 s))

/-! ## Errors -/

/-- What can be thrown. -/
inductive JsError where
  /-- `ValidationError`, with its list of errors. -/
  | validation (errors : List String)
  | typeError (message : String)
  /-- An error of the MongoDB driver. -/
  | driver (message : String)
deriving DecidableEq, Repr

def JsError.message : JsError → String
  | validation errors => "; ".intercalate errors
  | typeError message => message
  | driver message => message

/-- `v[key]`. Arrays, strings, numbers and booleans have none of the properties that
the service reads. -/
def property (v : Json) (key : String) : Except JsError Value :=
  match v with
  | .null => .error (.typeError ("Cannot read properties of null (reading '" ++ key ++ "')"))
  | .obj members => .ok (lookup (utf16 key) members)
  | _ => .ok none

/-! ## `createEvent` -/

/-- The typedef `Event`. -/
structure Event where
  id : Value
  type : Value
  deviceId : Value
  name : Value
  timestamp : Value
  actor : Value
  description : Value

/-- The parameter object, destructured. -/
structure Params where
  type : Value
  deviceId : Value
  name : Value
  timestamp : Value := none
  actor : Value := none
  description : Value := none

/-- A default value stands in for `undefined`, and for nothing else. -/
def orDefault (v : Value) (default : Json) : Value := some (v.getD default)

/-- What `createEvent` finds wrong. -/
def Params.errors (p : Params) : List String :=
  (if blank p.type then ["type is required and must be a non-empty string"] else []) ++
  (if blank p.deviceId then ["deviceId is required and must be a non-empty string"]
    else if isUuid p.deviceId then [] else ["deviceId must be a valid UUID v4"]) ++
  (if blank p.name then ["name is required and must be a non-empty string"] else [])

/-- The object that `createEvent` returns. `uuid` is what `crypto.randomUUID` draws,
`now` the clock. -/
def Params.event (p : Params) (uuid : Uuid) (now : Instant) : Event where
  id := text uuid.toString
  type := p.type
  deviceId := p.deviceId
  name := p.name
  timestamp := if truthy p.timestamp then p.timestamp else text (toISOString now)
  actor := orDefault p.actor .null
  description := orDefault p.description .null

def createEvent (uuid : Uuid) (now : Instant) (p : Params) : Except JsError Event :=
  if 0 < p.errors.length then .error (.validation p.errors) else .ok (p.event uuid now)

/-! ## 1. The shared check -/

theorem blank_eq_false {v : Value} :
    blank v = false ↔ ∃ s, v = some (.str s) ∧ trim s ≠ [] := by
  constructor
  · intro h
    unfold blank at h
    rw [Bool.or_eq_false_iff, Bool.or_eq_false_iff] at h
    obtain ⟨⟨-, hstr⟩, htrim⟩ := h
    unfold isString at hstr
    split at hstr
    · next s => exact ⟨s, rfl, by simpa using htrim⟩
    · cases hstr
  · rintro ⟨s, rfl, hs⟩
    have hne : s ≠ [] := by
      rintro rfl
      exact hs rfl
    simp [blank, truthy, isString, hne, hs]

/-! ## 2. Accepted parameters -/

/-- Three strings, the first and the last not all white space, the second a UUID v4. -/
structure Params.Accepted (p : Params) (t d n : JsString) : Prop where
  type : p.type = some (.str t)
  deviceId : p.deviceId = some (.str d)
  name : p.name = some (.str n)
  type_trim : trim t ≠ []
  uuid : isUuidV4 d = true
  name_trim : trim n ≠ []

theorem errors_eq_nil {p : Params} : p.errors = [] ↔ ∃ t d n, p.Accepted t d n := by
  unfold Params.errors
  rw [List.append_eq_nil_iff, List.append_eq_nil_iff]
  constructor
  · rintro ⟨⟨htype, hid⟩, hname⟩
    split at htype
    · cases htype
    next ht =>
    split at hname
    · cases hname
    next hn =>
    split at hid
    · cases hid
    next hd =>
    obtain ⟨t, htype, ht⟩ := blank_eq_false.mp (Bool.not_eq_true _ ▸ ht)
    obtain ⟨n, hname, hn⟩ := blank_eq_false.mp (Bool.not_eq_true _ ▸ hn)
    obtain ⟨d, hdev, -⟩ := blank_eq_false.mp (Bool.not_eq_true _ ▸ hd)
    split at hid
    · next hu =>
      rw [hdev] at hu
      exact ⟨t, d, n, htype, hdev, hname, ht, hu, hn⟩
    · cases hid
  · rintro ⟨t, d, n, htype, hid, hname, ht, hu, hn⟩
    have blank_of : ∀ {v : Value} {s : JsString}, v = some (.str s) → trim s ≠ [] → blank v = false :=
      fun hv hs => blank_eq_false.mpr ⟨_, hv, hs⟩
    have huuid : isUuid p.deviceId = true := by
      rw [hid]
      exact hu
    rw [blank_of htype ht, blank_of hname hn, blank_of hid (trim_of_isUuidV4 hu), huuid]
    exact ⟨⟨rfl, rfl⟩, rfl⟩

theorem createEvent_ok {uuid : Uuid} {now : Instant} {p : Params} {e : Event} :
    createEvent uuid now p = .ok e ↔ (∃ t d n, p.Accepted t d n) ∧ e = p.event uuid now := by
  rw [← errors_eq_nil, createEvent]
  split
  · next h =>
    constructor
    · nofun
    · rintro ⟨hnil, -⟩
      rw [hnil] at h
      exact absurd h (Nat.lt_irrefl 0)
  · next h =>
    rw [Except.ok.injEq]
    exact ⟨fun he => ⟨List.length_eq_zero_iff.mp (Nat.eq_zero_of_not_pos h), he.symm⟩,
      fun he => he.2.symm⟩

theorem createEvent_error {uuid : Uuid} {now : Instant} {p : Params} {err : JsError} :
    createEvent uuid now p = .error err ↔ p.errors ≠ [] ∧ err = .validation p.errors := by
  rw [createEvent]
  split
  · next h =>
    rw [Except.error.injEq]
    exact ⟨fun he => ⟨List.length_pos_iff.mp h, he.symm⟩, fun he => he.2.symm⟩
  · next h =>
    refine ⟨nofun, fun he => absurd (List.length_pos_iff.mpr he.1) h⟩

end AssetTracker.NodeService
