import AssetTracker.Node.UseCases
import Mathlib.Data.List.Basic
import Mathlib.Data.List.Nodup

/-!
# The Kafka consumer (Node service)

`KafkaEventConsumer.#handleMessage`. Whatever a message holds and whatever fails, the
callback resolves (`handleMessage_run`): a message that is not valid is skipped, and so
is one whose event the repository did not take.

Results:
1. `handleMessage_run`: one message.
2. `consume_run`: a sequence of messages.
3. `consumer_stores_valid`: with a repository that does not fail, exactly the events of
   the valid messages are stored, in order.
4. `acknowledged_stored_iff`: valid messages are acknowledged only when they are stored
   exactly if the repository fails for none of them. `acknowledged_lost` loses one.
-/

namespace AssetTracker.NodeService

open Encoding Text

/-! ## Definitions -/

/-- A message; its value may be null. -/
structure KafkaMessage where
  value : Option ByteArray

/-- `VALID_EVENT_TYPES`. -/
def validEventTypes : List JsString :=
  [utf16 "device.created", utf16 "device.updated", utf16 "device.deleted"]

/-- `VALID_EVENT_TYPES.has(v)`. -/
def isValidEventType (v : Value) : Bool := validEventTypes.any fun s => isText s v

/-- `#validate`: the warning that is logged, `none` when there is none and the event is
valid. -/
def validate (event : Json) : Except JsError (Option String) := do
  let type ← property event "type"
  if !truthy type || !isString type then
    return some "invalid kafka message — missing or invalid type"
  if !isValidEventType type then
    return some "invalid kafka message — unknown event type"
  let deviceId ← property event "deviceId"
  if blank deviceId then
    return some "invalid kafka message — missing or invalid deviceId"
  let name ← property event "name"
  if blank name then
    return some "invalid kafka message — missing or invalid name"
  let timestamp ← property event "timestamp"
  if !truthy timestamp || !isString timestamp then
    return some "invalid kafka message — missing or invalid timestamp"
  return none

/-- `message.value.toString()`. -/
def valueToString (message : KafkaMessage) : Except JsError String :=
  match message.value with
  | none => .error (.typeError "Cannot read properties of null (reading 'toString')")
  | some bytes => .ok (decodeUtf8 replacement bytes)

/-- The parameter object of the call for an event. -/
def messageParams (event : Json) : Except JsError Params := do
  return { type := ← property event "type", deviceId := ← property event "deviceId",
           name := ← property event "name", timestamp := ← property event "timestamp" }

/-- `#handleMessage`, which is all that the callback `eachMessage` does. -/
def handleMessage (env : Env) (message : KafkaMessage) : Js Unit :=
  tryCatch
    (do
      let raw ← ExceptT.mk (pure (valueToString message))
      match Encoding.parse raw with
      | none => return ()
      | some event =>
        match ← ExceptT.mk (pure (validate event)) with
        | some _ => return ()
        | none =>
          let p ← ExceptT.mk (pure (messageParams event))
          let _ ← execute env p
          return ())
    fun _ => return ()

/-- Messages, one after another: what each callback resolved or rejected with, and the
collection. -/
def consume : List (Env × KafkaMessage) → Collection → List (Except JsError Unit) × Collection
  | [], docs => ([], docs)
  | (env, message) :: ms, docs =>
    let (r, docs) := (handleMessage env message).run docs
    let (rs, docs) := consume ms docs
    (r :: rs, docs)

/-! ### Valid messages -/

/-- The fields of a message. -/
structure Fields where
  type : JsString
  deviceId : JsString
  name : JsString
  timestamp : JsString
deriving DecidableEq

def stringAt (key : String) (members : List (JsString × Json)) : Option JsString :=
  match lookup (utf16 key) members with
  | some (.str s) => some s
  | _ => none

/-- The fields of an object that is a valid event: a known type, a UUID v4, a name that is
not all white space and a timestamp that is not empty. -/
def fieldsOf : Json → Option Fields
  | .obj members => do
    let type ← stringAt "type" members
    let deviceId ← stringAt "deviceId" members
    let name ← stringAt "name" members
    let timestamp ← stringAt "timestamp" members
    if type ∈ validEventTypes ∧ isUuidV4 deviceId = true ∧ trim name ≠ [] ∧ timestamp ≠ [] then
      some ⟨type, deviceId, name, timestamp⟩
    else none
  | _ => none

/-- The fields of a message whose value parses to a valid event. -/
def KafkaMessage.fields (message : KafkaMessage) : Option Fields :=
  message.value.bind fun bytes => (parseBytes bytes).bind fieldsOf

/-- The parameter object of the call for a message. -/
def Fields.params (f : Fields) : Params where
  type := some (.str f.type)
  deviceId := some (.str f.deviceId)
  name := some (.str f.name)
  timestamp := some (.str f.timestamp)

/-- The event of a message: its four fields, and no actor and no description. -/
def Fields.event (f : Fields) (env : Env) : Event where
  id := text env.uuid.toString
  type := some (.str f.type)
  deviceId := some (.str f.deviceId)
  name := some (.str f.name)
  timestamp := some (.str f.timestamp)
  actor := some .null
  description := some .null

/-- The event that a delivery stores, if it stores one. -/
def stored (env : Env) (message : KafkaMessage) : Option Event :=
  if env.saveError = none then message.fields.map fun f => f.event env else none

/-- The callback of a valid message resolves only when its event is in the repository. -/
def AtLeastOnce (ms : List (Env × KafkaMessage)) (docs : Collection) : Prop :=
  ∀ (i : Nat) env message f, ms[i]? = some (env, message) → message.fields = some f →
    (consume ms docs).1[i]? = some (.ok ()) → f.event env ∈ (consume ms docs).2

/-- `crypto.randomUUID` draws no UUID twice. Otherwise an event could be in the repository on
account of another delivery. -/
structure FreshIds (ms : List (Env × KafkaMessage)) (docs : Collection) : Prop where
  nodup : (ms.map fun m => m.1.uuid).Nodup
  fresh : ∀ m ∈ ms, ∀ e ∈ docs, e.id ≠ text m.1.uuid.toString

/-! ## 1. One message -/

namespace ConsumerLemmas

variable {members : List (JsString × Json)} {key : String} {s : JsString} {v : Value}

theorem stringAt_eq_some : stringAt key members = some s ↔
    lookup (utf16 key) members = some (.str s) := by
  unfold stringAt
  split
  · next s' h => simp [h]
  · next h => exact ⟨nofun, fun hs => absurd hs (h s)⟩

theorem isValidEventType_str : isValidEventType (some (.str s)) = true ↔ s ∈ validEventTypes := by
  simp [isValidEventType, isText]

theorem trim_of_mem (h : s ∈ validEventTypes) : trim s ≠ [] := by
  simp only [validEventTypes, List.mem_cons, List.not_mem_nil, or_false] at h
  rcases h with rfl | rfl | rfl <;> decide

/-- The check of a field that may be all white space. -/
theorem not_text_iff : (!truthy v || !isString v) = false ↔ ∃ s, v = some (.str s) ∧ s ≠ [] := by
  rw [Bool.or_eq_false_iff, Bool.not_eq_false', Bool.not_eq_false']
  constructor
  · rintro ⟨ht, hs⟩
    unfold isString at hs
    split at hs
    · next s => exact ⟨s, rfl, by simpa [truthy] using ht⟩
    · cases hs
  · rintro ⟨s, rfl, hs⟩
    exact ⟨by simpa [truthy] using hs, rfl⟩

/-- `#validate` passes objects of four strings, when the type is known, the id and the
name are not all white space and the timestamp is not empty. -/
theorem validate_ok_none {event : Json} : validate event = .ok none ↔
    ∃ members t d n ts, event = .obj members ∧ stringAt "type" members = some t ∧
      stringAt "deviceId" members = some d ∧ stringAt "name" members = some n ∧
      stringAt "timestamp" members = some ts ∧
      t ∈ validEventTypes ∧ trim d ≠ [] ∧ trim n ≠ [] ∧ ts ≠ [] := by
  constructor
  · intro h
    cases event with
    | null => cases h
    | bool b | num n | str s | arr es => cases h
    | obj members =>
      -- the checks of an object, one after another
      have hv : validate (.obj members) =
          if !truthy (lookup (utf16 "type") members) || !isString (lookup (utf16 "type") members) then
            .ok (some "invalid kafka message — missing or invalid type")
          else if !isValidEventType (lookup (utf16 "type") members) then
            .ok (some "invalid kafka message — unknown event type")
          else if blank (lookup (utf16 "deviceId") members) then
            .ok (some "invalid kafka message — missing or invalid deviceId")
          else if blank (lookup (utf16 "name") members) then
            .ok (some "invalid kafka message — missing or invalid name")
          else if !truthy (lookup (utf16 "timestamp") members) ||
              !isString (lookup (utf16 "timestamp") members) then
            .ok (some "invalid kafka message — missing or invalid timestamp")
          else .ok none := rfl
      rw [hv] at h
      split at h
      · cases h
      next ht =>
      split at h
      · cases h
      next hk =>
      split at h
      · cases h
      next hd =>
      split at h
      · cases h
      next hn =>
      split at h
      · cases h
      next hts =>
      obtain ⟨t, ht, -⟩ := not_text_iff.mp (Bool.not_eq_true _ ▸ ht)
      obtain ⟨d, hd, hdtrim⟩ := blank_eq_false.mp (Bool.not_eq_true _ ▸ hd)
      obtain ⟨n, hn, hntrim⟩ := blank_eq_false.mp (Bool.not_eq_true _ ▸ hn)
      obtain ⟨ts, hts, hne⟩ := not_text_iff.mp (Bool.not_eq_true _ ▸ hts)
      rw [ht] at hk
      refine ⟨members, t, d, n, ts, rfl, stringAt_eq_some.mpr ht, stringAt_eq_some.mpr hd,
        stringAt_eq_some.mpr hn, stringAt_eq_some.mpr hts, isValidEventType_str.mp ?_, hdtrim,
        hntrim, hne⟩
      simpa using hk
  · rintro ⟨members, t, d, n, ts, rfl, ht, hd, hn, hts, hmem, hdtrim, hntrim, hne⟩
    rw [stringAt_eq_some] at ht hd hn hts
    have h₁ := not_text_iff.mpr ⟨t, ht, by rintro rfl; exact trim_of_mem hmem rfl⟩
    have h₂ : isValidEventType (lookup (utf16 "type") members) = true :=
      ht ▸ isValidEventType_str.mpr hmem
    have h₃ := blank_eq_false.mpr ⟨d, hd, hdtrim⟩
    have h₄ := blank_eq_false.mpr ⟨n, hn, hntrim⟩
    have h₅ := not_text_iff.mpr ⟨ts, hts, hne⟩
    simp only [validate, property, bind, Except.bind, pure, Except.pure, h₁, h₂, h₃, h₄, h₅]
    rfl

theorem fieldsOf_eq_some {event : Json} {f : Fields} : fieldsOf event = some f ↔
    ∃ members, event = .obj members ∧ stringAt "type" members = some f.type ∧
      stringAt "deviceId" members = some f.deviceId ∧ stringAt "name" members = some f.name ∧
      stringAt "timestamp" members = some f.timestamp ∧ f.type ∈ validEventTypes ∧
      isUuidV4 f.deviceId = true ∧ trim f.name ≠ [] ∧ f.timestamp ≠ [] := by
  cases event with
  | null | bool b | num n | str s | arr es => exact ⟨nofun, fun ⟨_, h, _⟩ => nomatch h⟩
  | obj members =>
    simp only [fieldsOf, Option.bind_eq_bind, Option.bind_eq_some_iff]
    constructor
    · rintro ⟨t, ht, d, hd, n, hn, ts, hts, h⟩
      split at h
      · next hok =>
        cases h
        exact ⟨members, rfl, ht, hd, hn, hts, hok⟩
      · cases h
    · rintro ⟨_, heq, ht, hd, hn, hts, hok⟩
      cases heq
      exact ⟨_, ht, _, hd, _, hn, _, hts, if_pos hok⟩

theorem validate_of_fieldsOf {event : Json} {f : Fields} (h : fieldsOf event = some f) :
    validate event = .ok none := by
  obtain ⟨members, rfl, ht, hd, hn, hts, hmem, hu, hname, hne⟩ := fieldsOf_eq_some.mp h
  exact validate_ok_none.mpr ⟨members, _, _, _, _, rfl, ht, hd, hn, hts, hmem,
    trim_of_isUuidV4 hu, hname, hne⟩

/-- What the call of the use case gets from an object that `#validate` passed. -/
theorem messageParams_obj {members : List (JsString × Json)} {f : Fields}
    (ht : stringAt "type" members = some f.type)
    (hd : stringAt "deviceId" members = some f.deviceId)
    (hn : stringAt "name" members = some f.name)
    (hts : stringAt "timestamp" members = some f.timestamp) :
    messageParams (.obj members) = .ok f.params := by
  rw [stringAt_eq_some] at ht hd hn hts
  show Except.ok (⟨lookup (utf16 "type") members, lookup (utf16 "deviceId") members,
    lookup (utf16 "name") members, lookup (utf16 "timestamp") members, none, none⟩ : Params) = _
  rw [ht, hd, hn, hts]
  rfl

/-- `createEvent` takes what `#validate` passed exactly when the id is a UUID v4. -/
theorem logged_message {env : Env} {f : Fields} (ht : f.type ∈ validEventTypes)
    (hn : trim f.name ≠ []) (hts : f.timestamp ≠ []) :
    logged env f.params =
      if env.saveError = none ∧ isUuidV4 f.deviceId = true then some (f.event env) else none := by
  have hevent : f.params.event env.uuid env.now = f.event env := by
    have htruthy : truthy (some (.str f.timestamp)) = true := by simpa [truthy] using hts
    simp [Params.event, Fields.event, Fields.params, htruthy, orDefault]
  split
  · next h =>
    exact logged_eq_some.mpr
      ⟨h.1, ⟨f.type, f.deviceId, f.name, rfl, rfl, rfl, trim_of_mem ht, h.2, hn⟩, hevent.symm⟩
  · next h =>
    rw [Option.eq_none_iff_forall_ne_some]
    intro e he
    obtain ⟨hs, ⟨_, d, _, -, hd, -, -, hu, -⟩, -⟩ := logged_eq_some.mp he
    cases hd
    exact h ⟨hs, hu⟩

theorem stored_none {env : Env} {message : KafkaMessage} (h : message.fields = none) :
    stored env message = none := by
  rw [stored, h]
  split <;> rfl

end ConsumerLemmas

open ConsumerLemmas

/-- The callback resolves for every message, and stores the event of a valid one unless the
repository fails. -/
theorem handleMessage_run (env : Env) (message : KafkaMessage) (docs : Collection) :
    (handleMessage env message).run docs = (.ok (), docs ++ (stored env message).toList) := by
  have skipped : ∀ {r : Except JsError Unit × Collection}, r = (.ok (), docs) →
      stored env message = none → r = (.ok (), docs ++ (stored env message).toList) := by
    rintro _ rfl hnone
    rw [hnone]
    exact congrArg (Prod.mk _) (List.append_nil docs).symm
  obtain ⟨value⟩ := message
  unfold handleMessage
  rw [run_tryCatch, run_bind, run_lift]
  cases value with
  | none => exact skipped rfl (stored_none rfl)
  | some bytes =>
    dsimp only [valueToString]
    cases hp : Encoding.parse (decodeUtf8 replacement bytes) with
    | none =>
      refine skipped rfl (stored_none ?_)
      rw [KafkaMessage.fields, Option.bind_some, parseBytes, hp]
      rfl
    | some event =>
      have hfields : KafkaMessage.fields ⟨some bytes⟩ = fieldsOf event := by
        rw [KafkaMessage.fields, Option.bind_some, parseBytes, hp, Option.bind_some]
      have invalid : validate event ≠ .ok none → KafkaMessage.fields ⟨some bytes⟩ = none := by
        intro hv
        rw [hfields, Option.eq_none_iff_forall_ne_some]
        exact fun f hf => hv (validate_of_fieldsOf hf)
      dsimp only
      rw [run_bind, run_lift]
      cases hv : validate event with
      | error err => exact skipped rfl (stored_none (invalid (by rw [hv]; nofun)))
      | ok warning =>
        cases warning with
        | some w => exact skipped rfl (stored_none (invalid (by rw [hv]; nofun)))
        | none =>
          obtain ⟨members, t, d, n, ts, rfl, ht, hd, hn, hts, hmem, -, hname, hne⟩ :=
            validate_ok_none.mp hv
          let f : Fields := ⟨t, d, n, ts⟩
          -- what is left of the checks is the UUID of `createEvent`
          have hstored : stored env ⟨some bytes⟩ = logged env f.params := by
            rw [stored, hfields, logged_message (f := f) hmem hname hne]
            by_cases hu : isUuidV4 d = true
            · have hsome : fieldsOf (.obj members) = some f :=
                fieldsOf_eq_some.mpr ⟨members, rfl, ht, hd, hn, hts, hmem, hu, hname, hne⟩
              simp [hsome, f, hu]
            · have hnone : fieldsOf (.obj members) = none := by
                rw [Option.eq_none_iff_forall_ne_some]
                intro g hg
                obtain ⟨_, heq, -, hd', -, -, -, hu', -⟩ := fieldsOf_eq_some.mp hg
                cases heq
                rw [hd, Option.some.injEq] at hd'
                exact hu (hd' ▸ hu')
              simp [hnone, f, hu]
          obtain ⟨hdocs, -⟩ := execute_run env f.params docs
          dsimp only
          rw [run_bind, run_lift, messageParams_obj (f := f) ht hd hn hts]
          dsimp only
          rw [run_bind, hstored, ← hdocs]
          cases hx : (execute env f.params).run docs with
          | mk r docs' => cases r <;> rfl

/-! ## 2. A sequence of messages -/

/-- Every callback resolves; the collection grows by the events of the deliveries. -/
theorem consume_run (ms : List (Env × KafkaMessage)) (docs : Collection) :
    consume ms docs = (ms.map fun _ => .ok (), docs ++ ms.filterMap fun m => stored m.1 m.2) := by
  induction ms generalizing docs with
  | nil => simp [consume]
  | cons m ms ih =>
    obtain ⟨env, message⟩ := m
    simp only [consume, handleMessage_run, ih, List.map_cons, List.append_assoc,
      filterMap_cons_toList]

/-! ## 3. With a repository that does not fail -/

/-- No callback rejects, and what is stored are the events of the valid messages, in order and
one each, if no save fails (`hsave`). The other messages are any, also such without a value. -/
theorem consumer_stores_valid (ms : List (Env × KafkaMessage)) (docs : Collection)
    (hsave : ∀ m ∈ ms, m.1.saveError = none) :
    consume ms docs = (ms.map fun _ => .ok (),
      docs ++ ms.filterMap fun m => m.2.fields.map fun f => f.event m.1) := by
  rw [consume_run]
  refine congrArg (fun es => (_, docs ++ es)) (List.filterMap_congr fun m hm => ?_)
  rw [stored, if_pos (hsave m hm)]

/-- A type, an id, a name and a timestamp. -/
def createdFields : Fields :=
  ⟨utf16 "device.created", utf16 "00000000-0000-4000-8000-000000000001", utf16 "laptop",
    utf16 "2026-06-12T10:00:00Z"⟩

/-- A message with these fields, and an actor that is not stored. -/
def createdMessage : KafkaMessage where
  value := some (writeObject [("type", "device.created"),
    ("deviceId", "00000000-0000-4000-8000-000000000001"), ("name", "laptop"),
    ("timestamp", "2026-06-12T10:00:00Z"), ("actor", "intruder")]).toUTF8

theorem createdMessage_fields : createdMessage.fields = some createdFields := by
  rw [createdMessage, KafkaMessage.fields, Option.bind_some, parseBytes, decodeUtf8_toUTF8,
    parse_writeObject]
  decide

/-- Three messages, of which the second is valid: no value, an event, and an array. -/
def threeMessages : List (Env × KafkaMessage) :=
  [(⟨Uuid.numbered 1, 0, none⟩, ⟨none⟩),
    (⟨Uuid.numbered 2, 0, none⟩, createdMessage),
    (⟨Uuid.numbered 3, 0, none⟩, ⟨some "[null]".toUTF8⟩)]

theorem threeMessages_save : ∀ m ∈ threeMessages, m.1.saveError = none := by
  simp [threeMessages]

theorem threeMessages_ids : FreshIds threeMessages [] := ⟨by decide, by simp⟩

theorem consumer_stores_valid_three : consume threeMessages [] = ([.ok (), .ok (), .ok ()],
    [createdFields.event ⟨Uuid.numbered 2, 0, none⟩]) := by
  have harray : KafkaMessage.fields ⟨some "[null]".toUTF8⟩ = none := by
    rw [KafkaMessage.fields, Option.bind_some, parseBytes, decodeUtf8_toUTF8]
    decide
  have hnull : KafkaMessage.fields ⟨none⟩ = none := rfl
  rw [consumer_stores_valid threeMessages [] threeMessages_save]
  unfold threeMessages
  rw [List.filterMap_cons_none (by rw [hnull]; rfl),
    List.filterMap_cons_some (by rw [createdMessage_fields]; rfl),
    List.filterMap_cons_none (by rw [harray]; rfl), List.filterMap_nil]
  rfl

/-! ## 4. With a repository that fails -/

/-- The event of a valid delivery is in the repository exactly if its own save did not
fail. -/
theorem event_mem_iff {ms : List (Env × KafkaMessage)} {docs : Collection} {env : Env}
    {message : KafkaMessage} {f : Fields} (hids : FreshIds ms docs) (hmem : (env, message) ∈ ms)
    (hf : message.fields = some f) :
    f.event env ∈ (consume ms docs).2 ↔ env.saveError = none := by
  rw [consume_run, List.mem_append]
  constructor
  · rintro (hdocs | hstored)
    · exact absurd rfl (hids.fresh _ hmem _ hdocs)
    · obtain ⟨⟨env', message'⟩, hmem', hs⟩ := List.mem_filterMap.mp hstored
      unfold stored at hs
      split at hs
      · next hsave =>
        obtain ⟨f', -, heq⟩ := Option.map_eq_some_iff.mp hs
        -- the ids say that it is the same delivery
        have hid : text env'.uuid.toString = text env.uuid.toString := congrArg Event.id heq
        have huuid : env'.uuid = env.uuid := by
          rw [text, text, Option.some.injEq, Json.str.injEq] at hid
          exact Uuid.toString_injective (utf16_injective hid)
        cases List.inj_on_of_nodup_map hids.nodup hmem' hmem huuid
        exact hsave
      · cases hs
  · intro hsave
    refine .inr (List.mem_filterMap.mpr ⟨_, hmem, ?_⟩)
    rw [stored, if_pos hsave, hf]
    rfl

/-- No valid message is acknowledged before its event is stored exactly if the repository fails
for no valid message. The callback catches what `save` throws, and a callback that resolves is
acknowledged; so every such failure loses an event, also when later ones are stored. -/
theorem acknowledged_stored_iff {ms : List (Env × KafkaMessage)} {docs : Collection}
    (hids : FreshIds ms docs) :
    AtLeastOnce ms docs ↔ ∀ m ∈ ms, m.2.fields.isSome = true → m.1.saveError = none := by
  constructor
  · rintro h ⟨env, message⟩ hm hvalid
    obtain ⟨f, hf⟩ := Option.isSome_iff_exists.mp hvalid
    obtain ⟨i, hi⟩ := List.mem_iff_getElem?.mp hm
    refine (event_mem_iff hids hm hf).mp (h i env message f hi hf ?_)
    rw [consume_run, List.getElem?_map, hi]
    rfl
  · intro h i env message f hi hf _
    have hm := List.mem_of_getElem? hi
    exact (event_mem_iff hids hm hf).mpr (h _ hm (hf ▸ rfl))

theorem acknowledged_stored_three : AtLeastOnce threeMessages [] :=
  (acknowledged_stored_iff threeMessages_ids).mpr fun m hm _ => threeMessages_save m hm

/-- A delivery of a valid message for which the repository fails. -/
def failedDelivery : List (Env × KafkaMessage) :=
  [(⟨Uuid.numbered 1, 0, some "connection timed out"⟩, createdMessage)]

/-- The callback resolves, and the event is nowhere. -/
theorem acknowledged_lost :
    ¬ ∀ (ms : List (Env × KafkaMessage)) (docs : Collection), FreshIds ms docs →
      AtLeastOnce ms docs := by
  intro hall
  have hmem := hall failedDelivery [] ⟨by decide, by simp⟩ 0 _ _ _ rfl createdMessage_fields
    (by rw [consume_run]; rfl)
  rw [consume_run] at hmem
  cases hmem

end AssetTracker.NodeService
