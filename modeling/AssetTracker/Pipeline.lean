import AssetTracker.Go.Publisher
import AssetTracker.Node.Consumer

/-!
# From the Go service to the Node service

The message that the publisher builds for a device, as the consumer handles it. The
two services check the name with different rules: for the Go service a name must not be
empty, for the Node service it must not be all white space. The events of a device with
a name that only the first accepts are skipped.

Results:
1. `published_fields_iff`: what the consumer reads in a published message.
2. `published_stored_iff`: the published messages that are stored.
3. `published_lost`: one that is not.
-/

namespace AssetTracker.Pipeline

open Encoding Text GoService NodeService ConsumerLemmas

/-! ## Definitions -/

/-- The types of the messages that the publisher builds. -/
def eventTypes : List String := ["device.created", "device.updated", "device.deleted"]

/-- The domain of the Go service accepts a name and a type, for a new device or for an
update. -/
def Accepts (name deviceType : String) : Prop :=
  (∃ fresh d, (newDevice (m := Id) (pure fresh) name deviceType).run = .ok d) ∨
    ∃ d d' : Device, d.update name deviceType = .ok d'

/-- A published message, as the consumer gets it. -/
def delivered (m : Message) : KafkaMessage := ⟨some m.value⟩

/-- The fields of a published event. -/
def publishedFields (eventType deviceID name : String) (t : ZonedTime) : Fields :=
  ⟨utf16 eventType, utf16 deviceID, utf16 name, utf16 (formatRFC3339Nano t)⟩

/-- The consumer stores the message as one event with its type, device, name and
timestamp. -/
def StoredAs (m : Message) (f : Fields) (env : Env) (docs : Collection) : Prop :=
  (handleMessage env (delivered m)).run docs = (.ok (), docs ++ [f.event env])

/-! ## 1. What the consumer reads -/

theorem accepts_iff {name deviceType : String} :
    Accepts name deviceType ↔ name ≠ "" ∧ deviceType ≠ "" := by
  constructor
  · rintro (⟨fresh, d, h⟩ | ⟨d, d', h⟩)
    · exact ⟨(newDevice_ok.mp h).1, (newDevice_ok.mp h).2.1⟩
    · exact ⟨(Device.update_ok.mp h).1, (Device.update_ok.mp h).2.1⟩
  · rintro ⟨hname, htype⟩
    exact .inl ⟨⟨Uuid.numbered 0, 0⟩, _, newDevice_ok.mpr ⟨hname, htype, rfl⟩⟩

theorem mem_validEventTypes {eventType : String} (h : eventType ∈ eventTypes) :
    utf16 eventType ∈ validEventTypes :=
  List.mem_map_of_mem (f := utf16) h

/-- The four members of a payload. -/
theorem payload_strings (a b c d : JsString) (members : List (JsString × Json))
    (h : members = [(utf16 "type", .str a), (utf16 "deviceId", .str b), (utf16 "name", .str c),
      (utf16 "timestamp", .str d)]) :
    stringAt "type" members = some a ∧ stringAt "deviceId" members = some b ∧
      stringAt "name" members = some c ∧ stringAt "timestamp" members = some d := by
  subst h
  exact ⟨rfl, rfl, rfl, rfl⟩

/-- The object that the consumer parses. -/
theorem published_members (eventType deviceID name : String) (t : ZonedTime) :
    ∃ members, parseBytes (buildMessage eventType deviceID name t).value = some (.obj members) ∧
      stringAt "type" members = some (utf16 eventType) ∧
      stringAt "deviceId" members = some (utf16 deviceID) ∧
      stringAt "name" members = some (utf16 name) ∧
      stringAt "timestamp" members = some (utf16 (formatRFC3339Nano t)) := by
  obtain ⟨members, hparse, hmembers⟩ :
      ∃ members, parseBytes (buildMessage eventType deviceID name t).value = some (.obj members) ∧
        members = [(utf16 "type", .str (utf16 eventType)), (utf16 "deviceId", .str (utf16 deviceID)),
          (utf16 "name", .str (utf16 name)),
          (utf16 "timestamp", .str (utf16 (formatRFC3339Nano t)))] := by
    refine ⟨_, ?_, rfl⟩
    rw [parseBytes, buildMessage, decodeUtf8_toUTF8, EventPayload.marshal, parse_writeObject]
    rfl
  exact ⟨members, hparse, payload_strings _ _ _ _ members hmembers⟩

/-- The consumer accepts a published message with a UUID v4 and a name that is not all white
space, and reads what was published. -/
theorem published_fields_iff {eventType deviceID name : String} {t : ZonedTime} {f : Fields}
    (htype : eventType ∈ eventTypes) :
    (delivered (buildMessage eventType deviceID name t)).fields = some f ↔
      f = publishedFields eventType deviceID name t ∧ isUuidV4 (utf16 deviceID) = true ∧
        ∃ c ∈ name.toList, isSpaceChar c = false := by
  obtain ⟨members, hparse, htype', hid', hname', hstamp'⟩ :=
    published_members eventType deviceID name t
  have hblank : trim (utf16 name) ≠ [] ↔ ∃ c ∈ name.toList, isSpaceChar c = false := by
    rw [ne_eq, trim_utf16_eq_nil]
    simp
  rw [delivered, KafkaMessage.fields, Option.bind_some, hparse, Option.bind_some, fieldsOf_eq_some]
  constructor
  · rintro ⟨_, heq, ht, hd, hn, hs, -, hu, hname, -⟩
    cases heq
    rw [htype', Option.some.injEq] at ht
    rw [hid', Option.some.injEq] at hd
    rw [hname', Option.some.injEq] at hn
    rw [hstamp', Option.some.injEq] at hs
    refine ⟨?_, hd ▸ hu, hblank.mp (hn ▸ hname)⟩
    rw [publishedFields, ht, hd, hn, hs]
  · rintro ⟨rfl, hu, hname⟩
    dsimp only [publishedFields]
    exact ⟨members, rfl, htype', hid', hname', hstamp', mem_validEventTypes htype, hu,
      hblank.mpr hname, fun h => formatRFC3339Nano_ne_empty t (utf16_eq_nil.mp h)⟩

/-- The consumer reads the fields that were published, unless the name is all white space. -/
theorem published_fields {eventType deviceID name : String} {t : ZonedTime}
    (htype : eventType ∈ eventTypes) (hid : isUuidV4 (utf16 deviceID) = true) :
    (delivered (buildMessage eventType deviceID name t)).fields =
      if name.toList.all isSpaceChar then none
      else some (publishedFields eventType deviceID name t) := by
  split
  · next hspace =>
    rw [Option.eq_none_iff_forall_ne_some]
    intro f hf
    obtain ⟨-, -, c, hc, hcs⟩ := (published_fields_iff htype).mp hf
    rw [List.all_eq_true.mp hspace c hc] at hcs
    cases hcs
  · next hspace =>
    refine (published_fields_iff htype).mpr ⟨rfl, hid, ?_⟩
    simpa using hspace

/-! ## 2. What is stored -/

/-- With a repository that does not fail (`hsave`), an event is stored as it was published exactly
if the name of its device is not all white space. Its type and its id are any that the Go service
publishes (`htype`, `hid`), and its time is any. -/
theorem published_stored_iff {name eventType deviceID : String} {t : ZonedTime} {env : Env}
    {docs : Collection} (htype : eventType ∈ eventTypes)
    (hid : isUuidV4 (utf16 deviceID) = true) (hsave : env.saveError = none) :
    StoredAs (buildMessage eventType deviceID name t) (publishedFields eventType deviceID name t) env
        docs ↔ ∃ c ∈ name.toList, isSpaceChar c = false := by
  rw [StoredAs, handleMessage_run, stored, if_pos hsave, published_fields htype hid]
  split
  · next hspace =>
    constructor
    · intro h
      have hlen := congrArg (List.length ∘ Prod.snd) h
      simp at hlen
    · rintro ⟨c, hc, hcs⟩
      rw [List.all_eq_true.mp hspace c hc] at hcs
      cases hcs
  · next hspace =>
    refine ⟨fun _ => ?_, fun _ => rfl⟩
    by_contra hnone
    exact hspace (List.all_eq_true.mpr fun c hc =>
      Bool.of_not_eq_false fun hcs => hnone ⟨c, hc, hcs⟩)

/-- A creation, as it is published and stored. -/
theorem published_stored_laptop :
    StoredAs (buildMessage "device.created" "00000000-0000-4000-8000-000000000001" "laptop" (.utc 0))
      (publishedFields "device.created" "00000000-0000-4000-8000-000000000001" "laptop" (.utc 0))
      ⟨Uuid.numbered 2, 0, none⟩ [] :=
  (published_stored_iff (by decide) (by decide) rfl).mpr ⟨'l', by decide, by decide⟩

/-! ## 3. A name of white space -/

/-- The Go service accepts a name of one blank; its events are not stored. -/
theorem published_lost :
    ¬ ∀ (name deviceType eventType deviceID : String) (t : ZonedTime) (env : Env) (docs : Collection),
      Accepts name deviceType → eventType ∈ eventTypes → isUuidV4 (utf16 deviceID) = true →
      env.saveError = none → StoredAs (buildMessage eventType deviceID name t)
        (publishedFields eventType deviceID name t) env docs := by
  intro hall
  have hnone : (delivered (buildMessage "device.created" "00000000-0000-4000-8000-000000000001" " "
      (.utc 0))).fields = none := by
    rw [published_fields (by decide) (by decide), if_pos (by decide)]
  have hstored := hall " " "computer" "device.created" "00000000-0000-4000-8000-000000000001" (.utc 0)
    ⟨Uuid.numbered 2, 0, none⟩ [] (accepts_iff.mpr (by decide)) (by decide) (by decide) rfl
  rw [StoredAs, handleMessage_run, stored_none hnone] at hstored
  cases hstored

end AssetTracker.Pipeline
