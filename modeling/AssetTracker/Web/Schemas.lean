import AssetTracker.Lib.Stringify
import AssetTracker.Node.Event
import Mathlib.Data.List.Forall2

/-!
# Form schemas (web client)

`lib/schemas/device.ts` and `lib/schemas/event.ts`: objects of string fields, which
may be optional and may have a minimum length of one. What zod does with such a
schema is a parameter; `Documented` is what the forms rely on, and
`ObjectSchema.safeParse` behaves so. Keys that a schema does not name are left out
of what it returns, and that is what a request sends as JSON.

Results:
1. `safeParse_documented`: what a schema accepts, field by field, and what it returns.
2. `createDeviceSchema_ok`, `updateDeviceSchema_ok`, `createEventSchema_ok`: the three schemas.
-/

namespace AssetTracker.WebUi

open Encoding Text NodeService

/-! ## zod -/

/-- `z.string()`, with `.min(1, message)` when there is a message, and `.optional()`. -/
structure StringSchema where
  min : Option String
  isOptional : Bool

/-- `z.object({ ... })`, its fields in order. -/
abbrev ObjectSchema := List (String × StringSchema)

/-- What a schema is given: an object, by its properties, or something that is none, by
zod's name for its type. A property that JSON does not have counts as `null`. -/
inductive Input where
  | object (property : String → Value)
  | other (received : String)

def Input.property : Input → String → Value
  | object property, key => property key
  | other _, _ => none

structure Issue where
  path : String
  message : String
deriving DecidableEq, Repr

/-- What a schema returns: its fields in order, `none` for `undefined`. -/
abbrev Data := List (String × Option JsString)

/-- `schema.safeParse(x)`. -/
abbrev SafeParse := ObjectSchema → Input → Except (List Issue) Data

/-- `undefined` where it is optional, or a string that is not too short. -/
def StringSchema.Accepts (s : StringSchema) (v : Value) (r : Option JsString) : Prop :=
  (v = none ∧ s.isOptional = true ∧ r = none) ∨
    ∃ t, v = some (.str t) ∧ (s.min.isSome = true → t ≠ []) ∧ r = some t

/-- Every field of the schema is accepted, and the others are left out. -/
def ObjectSchema.Accepts (schema : ObjectSchema) (property : String → Value) (data : Data) : Prop :=
  List.Forall₂ (fun field r => r.1 = field.1 ∧ field.2.Accepts (property field.1) r.2) schema data

/-- What zod says of `safeParse`: it succeeds exactly for the objects that the schema accepts,
with a copy that has only the fields of the schema. Nothing is assumed of the issues that it
reports otherwise. -/
structure SafeParse.Documented (safeParse : SafeParse) : Prop where
  success : ∀ {schema x data}, safeParse schema x = .ok data ↔
    ∃ property, x = .object property ∧ schema.Accepts property data

/-! ### An implementation -/

def receivedType : Value → String
  | none => "undefined"
  | some .null => "null"
  | some (.bool _) => "boolean"
  | some (.num _) => "number"
  | some (.str _) => "string"
  | some (.arr _) => "array"
  | some (.obj _) => "object"

def invalidType (expected received : String) : String :=
  if received = "undefined" then "Required" else "Expected " ++ expected ++ ", received " ++ received

def StringSchema.parse (s : StringSchema) (v : Value) : Except String (Option JsString) :=
  if s.isOptional && v.isNone then .ok none
  else
    match v with
    | some (.str t) =>
      match s.min with
      | some message => if t.length < 1 then .error message else .ok (some t)
      | none => .ok (some t)
    | v => .error (invalidType "string" (receivedType v))

/-- The issues of all fields, and the values of those that have none. -/
def parseFields (property : String → Value) : ObjectSchema → List Issue × Data
  | [] => ([], [])
  | (key, s) :: fields =>
    let (issues, data) := parseFields property fields
    match s.parse (property key) with
    | .ok v => (issues, (key, v) :: data)
    | .error message => (⟨key, message⟩ :: issues, data)

def ObjectSchema.safeParse (schema : ObjectSchema) : Input → Except (List Issue) Data
  | .other received => .error [⟨"", invalidType "object" received⟩]
  | .object property =>
    match parseFields property schema with
    | ([], data) => .ok data
    | (issues, _) => .error issues

/-! ## The schemas -/

def createDeviceSchema : ObjectSchema :=
  [("name", ⟨some "Name is required", false⟩), ("type", ⟨some "Type is required", false⟩)]

def updateDeviceSchema : ObjectSchema :=
  [("name", ⟨some "Name is required", true⟩), ("type", ⟨some "Type is required", true⟩)]

def createEventSchema : ObjectSchema :=
  [("type", ⟨some "Type is required", false⟩), ("deviceId", ⟨some "Device is required", false⟩),
    ("name", ⟨some "Name is required", false⟩), ("actor", ⟨none, true⟩),
    ("description", ⟨none, true⟩)]

/-- `JSON.stringify(input)`, as the body of a request. -/
def body (data : Data) : ByteArray := (stringify (data.map fun (key, v) => (utf16 key, v))).toUTF8

/-! ## 1. What is accepted -/

theorem StringSchema.parse_ok {s : StringSchema} {v : Value} {r : Option JsString} :
    s.parse v = .ok r ↔ s.Accepts v r := by
  unfold StringSchema.parse StringSchema.Accepts
  cases v with
  | none =>
    cases hopt : s.isOptional with
    | false => simp
    | true => simpa using eq_comm
  | some v =>
    cases v with
    | str t =>
      cases hmin : s.min with
      | none => simpa using eq_comm
      | some message =>
        cases t with
        | nil => simp
        | cons u t => simpa using eq_comm
    | _ => simp

/-- No field has an issue exactly if every field is accepted. -/
theorem parseFields_ok {property : String → Value} {schema : ObjectSchema} {data : Data} :
    parseFields property schema = ([], data) ↔ schema.Accepts property data := by
  unfold ObjectSchema.Accepts
  induction schema generalizing data with
  | nil => simp [parseFields, eq_comm]
  | cons field fields ih =>
    obtain ⟨key, s⟩ := field
    rw [parseFields, List.forall₂_cons_left_iff]
    generalize hrest : parseFields property fields = p at ih
    obtain ⟨issues, rest⟩ := p
    cases hparse : s.parse (property key) with
    | error message =>
      refine iff_of_false (by simp) ?_
      rintro ⟨r, -, ⟨-, haccepts⟩, -⟩
      rw [← StringSchema.parse_ok, hparse] at haccepts
      cases haccepts
    | ok r =>
      constructor
      · intro h
        cases h
        exact ⟨(key, r), rest, ⟨rfl, StringSchema.parse_ok.mp hparse⟩, ih.mp rfl, rfl⟩
      · rintro ⟨⟨key', r'⟩, rest', ⟨rfl, haccepts⟩, hrest', rfl⟩
        rw [← StringSchema.parse_ok, hparse] at haccepts
        cases haccepts
        cases ih.mpr hrest'
        rfl

theorem safeParse_documented : SafeParse.Documented ObjectSchema.safeParse where
  success {schema x data} := by
    unfold ObjectSchema.safeParse
    cases x with
    | other received => simp
    | object property =>
      have hok := @parseFields_ok property schema data
      generalize hp : parseFields property schema = p at hok
      obtain ⟨issues, data'⟩ := p
      cases issues <;> simp_all

theorem accepts_required {message : String} {v : Value} {r : Option JsString}
    (h : StringSchema.Accepts ⟨some message, false⟩ v r) :
    ∃ t, v = some (.str t) ∧ t ≠ [] ∧ r = some t := by
  obtain ⟨-, hopt, -⟩ | ⟨t, hv, hmin, hr⟩ := h
  · cases hopt
  · exact ⟨t, hv, hmin rfl, hr⟩

theorem accepts_optional {min : Option String} {v : Value} {r : Option JsString}
    (h : StringSchema.Accepts ⟨min, true⟩ v r) :
    v = r.map Json.str ∧ (min.isSome = true → r ≠ some []) := by
  obtain ⟨hv, -, hr⟩ | ⟨t, hv, hmin, hr⟩ := h
  · subst hv hr
    exact ⟨rfl, fun _ hn => by cases hn⟩
  · subst hv hr
    exact ⟨rfl, fun hs ht => hmin hs (Option.some.inj ht)⟩

theorem accepts_cons {property : String → Value} {key : String} {s : StringSchema}
    {fields : ObjectSchema} {data : Data}
    (h : ObjectSchema.Accepts ((key, s) :: fields) property data) :
    ∃ r rest, s.Accepts (property key) r ∧ ObjectSchema.Accepts fields property rest ∧
      data = (key, r) :: rest := by
  obtain ⟨⟨key', r⟩, rest, ⟨rfl, hr⟩, hrest, rfl⟩ := List.forall₂_cons_left_iff.mp h
  exact ⟨r, rest, hr, hrest, rfl⟩

/-! ## 2. The three schemas -/

variable {safeParse : SafeParse} {x : Input} {data : Data}

theorem createDeviceSchema_ok (hzod : safeParse.Documented)
    (h : safeParse createDeviceSchema x = .ok data) :
    ∃ n t, x.property "name" = some (.str n) ∧ n ≠ [] ∧ x.property "type" = some (.str t) ∧
      t ≠ [] ∧ data = [("name", some n), ("type", some t)] := by
  obtain ⟨property, rfl, h₁⟩ := hzod.success.mp h
  obtain ⟨_, _, hn, h₂, rfl⟩ := accepts_cons h₁
  obtain ⟨_, _, ht, h₃, rfl⟩ := accepts_cons h₂
  cases h₃
  obtain ⟨n, hname, hn', rfl⟩ := accepts_required hn
  obtain ⟨t, htype, ht', rfl⟩ := accepts_required ht
  exact ⟨n, t, hname, hn', htype, ht', rfl⟩

theorem updateDeviceSchema_ok (hzod : safeParse.Documented)
    (h : safeParse updateDeviceSchema x = .ok data) :
    ∃ n t : Option JsString, x.property "name" = n.map Json.str ∧ n ≠ some [] ∧
      x.property "type" = t.map Json.str ∧ t ≠ some [] ∧ data = [("name", n), ("type", t)] := by
  obtain ⟨property, rfl, h₁⟩ := hzod.success.mp h
  obtain ⟨n, _, hn, h₂, rfl⟩ := accepts_cons h₁
  obtain ⟨t, _, ht, h₃, rfl⟩ := accepts_cons h₂
  cases h₃
  obtain ⟨hname, hn'⟩ := accepts_optional hn
  obtain ⟨htype, ht'⟩ := accepts_optional ht
  exact ⟨n, t, hname, hn' rfl, htype, ht' rfl, rfl⟩

theorem createEventSchema_ok (hzod : safeParse.Documented)
    (h : safeParse createEventSchema x = .ok data) :
    ∃ (t d n : JsString) (a e : Option JsString), x.property "type" = some (.str t) ∧
      x.property "deviceId" = some (.str d) ∧ x.property "name" = some (.str n) ∧
      data = [("type", some t), ("deviceId", some d), ("name", some n), ("actor", a),
        ("description", e)] := by
  obtain ⟨property, rfl, h₁⟩ := hzod.success.mp h
  obtain ⟨_, _, ht, h₂, rfl⟩ := accepts_cons h₁
  obtain ⟨_, _, hd, h₃, rfl⟩ := accepts_cons h₂
  obtain ⟨_, _, hn, h₄, rfl⟩ := accepts_cons h₃
  obtain ⟨a, _, -, h₅, rfl⟩ := accepts_cons h₄
  obtain ⟨e, _, -, h₆, rfl⟩ := accepts_cons h₅
  cases h₆
  obtain ⟨t, htype, -, rfl⟩ := accepts_required ht
  obtain ⟨d, hdevice, -, rfl⟩ := accepts_required hd
  obtain ⟨n, hname, -, rfl⟩ := accepts_required hn
  exact ⟨t, d, n, a, e, htype, hdevice, hname, rfl⟩

end AssetTracker.WebUi
