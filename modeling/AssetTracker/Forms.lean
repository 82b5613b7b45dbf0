import AssetTracker.Go.Handlers
import AssetTracker.Node.UseCases
import AssetTracker.Web.Schemas

/-!
# Forms and what the services make of them

The schemas of the web client against the validation of the two services, which
were written independently. A form that a schema accepts is sent as JSON; the
service decodes the body and validates what it finds.

`forms_accepted_iff`: a form for a new device is always accepted; one for an
update when it gives both fields; one for an event when neither its type nor its
name is blank.
-/

namespace AssetTracker.WebUi

open Encoding Text NodeService GoService

/-! ## What acceptance is -/

/-- `HandleCreate` decodes the body, and `NewDevice` accepts what it finds. -/
def CreateAccepts (bytes : ByteArray) : Prop :=
  ∀ (t : Instant) (r : Http.Request) (values : List String), r.body = bytes →
    ∃ name deviceType answer, handleCreate t r values = .call (.create name deviceType) answer ∧
      ∀ fresh : Fresh, ∃ d, (newDevice (m := Id) (pure fresh) name deviceType).run = .ok d

/-- `HandleUpdate` decodes the body, and `Device.Update` accepts what it finds, whatever
the device. -/
def UpdateAccepts (bytes : ByteArray) : Prop :=
  ∀ (t : Instant) (r : Http.Request) (values : List String), r.body = bytes →
    ∃ name deviceType answer,
      handleUpdate t r values = .call (.update (pathValue values) name deviceType) answer ∧
      ∀ d : Device, ∃ d', d.update name deviceType = .ok d'

/-- `handlePost` parses the body, and `createEvent` accepts what it finds. -/
def EventAccepts (bytes : ByteArray) : Prop :=
  ∃ v p, parseBytes bytes = some v ∧ destructure v = .ok p ∧
    ∀ (uuid : Uuid) (now : Instant), ∃ e, createEvent uuid now p = .ok e

/-! ## Bodies -/

theorem decode_body (n t : Option JsString) :
    decodeStrings "name" "type" (body [("name", n), ("type", t)]) =
      some ((n.map ofUtf16).getD "", (t.map ofUtf16).getD "") :=
  decodeStrings_stringify (by decide)

theorem createAccepts_iff {bytes : ByteArray} {name deviceType : String}
    (h : decodeStrings "name" "type" bytes = some (name, deviceType)) :
    CreateAccepts bytes ↔ name ≠ "" ∧ deviceType ≠ "" := by
  constructor
  · intro ha
    let r : Http.Request := ⟨"POST", "/devices", "", [], bytes, devices_decodes⟩
    have hbody : decodeStrings "name" "type" r.body = some (name, deviceType) := h
    obtain ⟨name', deviceType', answer, hcall, hok⟩ := ha 0 r [] rfl
    obtain ⟨answer', hcall', -⟩ := handleCreate_call 0 [] hbody
    rw [hcall'] at hcall
    cases hcall
    obtain ⟨d, hd⟩ := hok ⟨Uuid.numbered 0, 0⟩
    obtain ⟨hn, ht, -⟩ := newDevice_ok.mp hd
    exact ⟨hn, ht⟩
  · rintro ⟨hn, ht⟩ t r values rfl
    obtain ⟨answer, hcall, -⟩ := handleCreate_call t values h
    refine ⟨name, deviceType, answer, hcall, fun fresh => ?_⟩
    exact ⟨_, newDevice_ok.mpr ⟨hn, ht, rfl⟩⟩

theorem updateAccepts_iff {bytes : ByteArray} {name deviceType : String}
    (h : decodeStrings "name" "type" bytes = some (name, deviceType)) :
    UpdateAccepts bytes ↔ name ≠ "" ∧ deviceType ≠ "" := by
  constructor
  · intro ha
    let r : Http.Request := ⟨"PUT", "/devices/1", "", [], bytes, by decide⟩
    have hbody : decodeStrings "name" "type" r.body = some (name, deviceType) := h
    obtain ⟨name', deviceType', answer, hcall, hok⟩ := ha 0 r ["1"] rfl
    obtain ⟨answer', hcall', -⟩ := handleUpdate_call 0 ["1"] hbody
    rw [hcall'] at hcall
    cases hcall
    obtain ⟨d, hd⟩ := hok ⟨"", "", "", 0⟩
    obtain ⟨hn, ht, -⟩ := Device.update_ok.mp hd
    exact ⟨hn, ht⟩
  · rintro ⟨hn, ht⟩ t r values rfl
    obtain ⟨answer, hcall, -⟩ := handleUpdate_call t values h
    refine ⟨name, deviceType, answer, hcall, fun d => ?_⟩
    exact ⟨_, Device.update_ok.mpr ⟨hn, ht, rfl⟩⟩

/-- The parameters that the body of an event form comes to. -/
def eventParams (t d n : JsString) (a e : Option JsString) : Params where
  type := some (.str t)
  deviceId := some (.str d)
  name := some (.str n)
  actor := a.map Json.str
  description := e.map Json.str

theorem eventAccepts_iff {t d n : JsString} {a e : Option JsString} (hd : isUuidV4 d = true) :
    EventAccepts (body [("type", some t), ("deviceId", some d), ("name", some n), ("actor", a),
        ("description", e)]) ↔ trim t ≠ [] ∧ trim n ≠ [] := by
  have hparse : parseBytes (body [("type", some t), ("deviceId", some d), ("name", some n),
      ("actor", a), ("description", e)]) = some (.obj
        ([(utf16 "type", .str t), (utf16 "deviceId", .str d), (utf16 "name", .str n)] ++
          (a.map fun s => (utf16 "actor", Json.str s)).toList ++
          (e.map fun s => (utf16 "description", Json.str s)).toList)) := by
    rw [parseBytes, body, decodeUtf8_toUTF8, parse_stringify]
    cases a <;> cases e <;> rfl
  have hdestructure : destructure (.obj
        ([(utf16 "type", .str t), (utf16 "deviceId", .str d), (utf16 "name", .str n)] ++
          (a.map fun s => (utf16 "actor", Json.str s)).toList ++
          (e.map fun s => (utf16 "description", Json.str s)).toList)) =
      .ok (eventParams t d n a e) := by
    cases a <;> cases e <;> rfl
  constructor
  · rintro ⟨v, p, hv, hp, hok⟩
    rw [hparse] at hv
    obtain rfl := Option.some.inj hv
    rw [hdestructure] at hp
    obtain rfl := Except.ok.inj hp
    obtain ⟨event, hevent⟩ := hok (Uuid.numbered 0) 0
    obtain ⟨⟨t', d', n', ht, hd', hn, httrim, -, hntrim⟩, -⟩ := createEvent_ok.mp hevent
    cases ht
    cases hn
    exact ⟨httrim, hntrim⟩
  · rintro ⟨ht, hn⟩
    exact ⟨_, _, hparse, hdestructure, fun uuid now =>
      ⟨_, createEvent_ok.mpr ⟨⟨t, d, n, rfl, rfl, rfl, ht, hd, hn⟩, rfl⟩⟩⟩

/-! ## Accepted forms -/

theorem string_eq_empty {s : Option JsString} :
    (s.map ofUtf16).getD "" = "" ↔ s = none ∨ s = some [] := by
  cases s with
  | none => simp
  | some s => simp [ofUtf16_eq_empty]

theorem blank_str {s : JsString} : blank (some (.str s)) = false ↔ trim s ≠ [] := by
  rw [blank_eq_false]
  constructor
  · rintro ⟨s', hs, htrim⟩
    cases hs
    exact htrim
  · exact fun h => ⟨s, rfl, h⟩

/-- For every form: what the schema for new devices accepts, the service accepts. What the
schema for updates accepts, the service accepts exactly when both fields are given. What the
schema for events accepts with the id of a device, the service accepts exactly when neither
the type nor the name is blank. Of zod only what it documents is used (`hzod`); the ids of
devices are of version 4, as the service draws them. -/
theorem forms_accepted_iff {safeParse : SafeParse} (hzod : safeParse.Documented) (x : Input) :
    (∀ data, safeParse createDeviceSchema x = .ok data → CreateAccepts (body data)) ∧
    (∀ data, safeParse updateDeviceSchema x = .ok data → (UpdateAccepts (body data) ↔
      x.property "name" ≠ none ∧ x.property "type" ≠ none)) ∧
    ∀ data (id : Uuid), id.isV4 = true → safeParse createEventSchema x = .ok data →
      x.property "deviceId" = text id.toString → (EventAccepts (body data) ↔
        blank (x.property "type") = false ∧ blank (x.property "name") = false) := by
  refine ⟨fun data h => ?_, fun data h => ?_, fun data id hid h hdevice => ?_⟩
  · obtain ⟨n, t, -, hn, -, ht, rfl⟩ := createDeviceSchema_ok hzod h
    rw [createAccepts_iff (decode_body _ _), ne_eq, ne_eq, string_eq_empty, string_eq_empty]
    exact ⟨by simpa using hn, by simpa using ht⟩
  · obtain ⟨n, t, hname, hn, htype, ht, rfl⟩ := updateDeviceSchema_ok hzod h
    rw [updateAccepts_iff (decode_body _ _), ne_eq, ne_eq, string_eq_empty, string_eq_empty, hname,
      htype]
    simp [hn, ht]
  · obtain ⟨t, d, n, a, e, htype, hd, hname, rfl⟩ := createEventSchema_ok hzod h
    rw [hd, text, Option.some.injEq, Json.str.injEq] at hdevice
    subst hdevice
    rw [eventAccepts_iff (isUuidV4_toString hid), htype, hname, blank_str, blank_str]

/-- A form with text in each of its fields. -/
def textForm (fields : List (String × String)) : Input :=
  .object fun key => (fields.lookup key).bind text

theorem forms_accepted_maintenance :
    createEventSchema.safeParse (textForm [("type", "maintenance"),
        ("deviceId", (Uuid.numbered 1).toString), ("name", "pump")]) =
      .ok [("type", some (utf16 "maintenance")), ("deviceId", some (utf16 (Uuid.numbered 1).toString)),
        ("name", some (utf16 "pump")), ("actor", none), ("description", none)] ∧
    EventAccepts (body [("type", some (utf16 "maintenance")),
      ("deviceId", some (utf16 (Uuid.numbered 1).toString)), ("name", some (utf16 "pump")),
      ("actor", none), ("description", none)]) := by
  have h : createEventSchema.safeParse (textForm [("type", "maintenance"),
        ("deviceId", (Uuid.numbered 1).toString), ("name", "pump")]) =
      .ok [("type", some (utf16 "maintenance")), ("deviceId", some (utf16 (Uuid.numbered 1).toString)),
        ("name", some (utf16 "pump")), ("actor", none), ("description", none)] := rfl
  exact ⟨h, ((forms_accepted_iff safeParse_documented _).2.2 _ (Uuid.numbered 1) (by decide) h rfl).mpr
    ⟨by decide, by decide⟩⟩

/-- An update of the name alone, and an event whose type is a space: the schemas accept
them, the services do not. -/
theorem forms_refused :
    (updateDeviceSchema.safeParse (textForm [("name", "pump")]) =
        .ok [("name", some (utf16 "pump")), ("type", none)] ∧
      ¬ UpdateAccepts (body [("name", some (utf16 "pump")), ("type", none)])) ∧
    createEventSchema.safeParse (textForm [("type", " "),
        ("deviceId", (Uuid.numbered 1).toString), ("name", "pump")]) =
      .ok [("type", some (utf16 " ")), ("deviceId", some (utf16 (Uuid.numbered 1).toString)),
        ("name", some (utf16 "pump")), ("actor", none), ("description", none)] ∧
    ¬ EventAccepts (body [("type", some (utf16 " ")),
      ("deviceId", some (utf16 (Uuid.numbered 1).toString)), ("name", some (utf16 "pump")),
      ("actor", none), ("description", none)]) := by
  refine ⟨⟨rfl, fun h => ?_⟩, rfl, fun h => ?_⟩
  · exact ((updateAccepts_iff (decode_body _ _)).mp h).2 rfl
  · exact ((eventAccepts_iff (isUuidV4_toString (by decide))).mp h).1 (by decide)

end AssetTracker.WebUi
