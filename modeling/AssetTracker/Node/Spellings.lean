import AssetTracker.Node.Timeline

/-!
# Spellings of a device id (Node service)

The pattern for UUIDs of version 4 takes digits of either case. The collection keeps the
spelling that came, from a request or a message, and queries compare strings.

`keyed_iff`: two spellings of one UUID list the same events exactly when they are the
same string, or neither is in the log.
-/

namespace AssetTracker.NodeService

open Encoding Text

/-! ## Definitions -/

/-- The small letter of a hexadecimal digit. -/
def lowerHex (u : UInt16) : UInt16 := if 0x41 ≤ u.toNat ∧ u.toNat ≤ 0x46 then u + 0x20 else u

/-- Two strings that the pattern accepts, and that differ in the case of their digits only. -/
structure Respelled (u v : JsString) : Prop where
  accepted : isUuidV4 u = true
  accepted' : isUuidV4 v = true
  letters : u.map lowerHex = v.map lowerHex

/-- The events of the device do not depend on the spelling of its id. -/
structure KeyedByValue (sorter : Sorter) (u v : JsString) (docs : Collection) : Prop where
  same : ∃ es es', listByDevice sorter (some (.str u)) docs = .ok es ∧
    listByDevice sorter (some (.str v)) docs = .ok es' ∧ es.Perm es'
  listed : ∀ e ∈ docs, isText u e.deviceId = true →
    ∃ es, listByDevice sorter (some (.str v)) docs = .ok es ∧ project e ∈ es

/-! ## One log, two spellings -/

section

variable {sorter : Sorter} {docs : Collection} {u v : JsString}

theorem isText_iff {s : JsString} {value : Value} :
    isText s value = true ↔ value = some (.str s) := by
  constructor
  · intro h
    unfold isText at h
    split at h
    · rw [beq_iff_eq.mp h]
    · cases h
  · rintro rfl
    exact beq_self_eq_true s

theorem listByDevice_accepted (h : isUuidV4 u = true) :
    listByDevice sorter (some (.str u)) docs = .ok (findByDeviceId sorter u docs) :=
  listByDevice_ok.mpr ⟨u, rfl, h, rfl⟩

/-- What is listed for one spelling is not listed for another one. -/
theorem not_listed {e : Event} (he : e ∈ findByDeviceId sorter u docs) (hne : u ≠ v) :
    e ∉ findByDeviceId sorter v docs := by
  intro he'
  obtain ⟨d, -, hd, rfl⟩ := timeline_mem he
  obtain ⟨d', -, hd', heq⟩ := timeline_mem he'
  have hvalue : (project d').deviceId = (project d).deviceId := congrArg Event.deviceId heq
  have hsame : some (Json.str v) = some (.str u) := (isText_iff.mp hd').symm.trans
    (hvalue.trans (isText_iff.mp hd))
  cases hsame
  exact hne rfl

theorem not_keyed (h : Respelled u v) (hne : u ≠ v) {e : Event} (he : e ∈ docs)
    (htext : isText u e.deviceId = true ∨ isText v e.deviceId = true) :
    ¬ KeyedByValue sorter u v docs := by
  rintro ⟨⟨es, es', hu, hv, hperm⟩, -⟩
  cases hu.symm.trans (listByDevice_accepted h.accepted)
  cases hv.symm.trans (listByDevice_accepted h.accepted')
  obtain htext | htext := htext
  · have hmem : project e ∈ findByDeviceId sorter u docs := mem_timeline he htext
    exact not_listed hmem hne (hperm.mem_iff.mp hmem)
  · have hmem : project e ∈ findByDeviceId sorter v docs := mem_timeline he htext
    exact not_listed hmem hne.symm (hperm.mem_iff.mpr hmem)

theorem findByDeviceId_nil (h : ∀ e ∈ docs, isText u e.deviceId = false) :
    findByDeviceId sorter u docs = [] := by
  refine List.eq_nil_iff_forall_not_mem.mpr fun e he => ?_
  obtain ⟨d, hd, htext, -⟩ := timeline_mem he
  exact Bool.false_ne_true ((h d hd).symm.trans htext)

end

/-- After any requests and messages, two spellings list the same events exactly when they are
one string, or no event was logged under either. -/
theorem keyed_iff (sorter : Sorter) (inputs : List (Env × Input)) {u v : JsString}
    (h : Respelled u v) : KeyedByValue sorter u v (serve inputs []) ↔
      u = v ∨ ∀ e ∈ serve inputs [], isText u e.deviceId = false ∧ isText v e.deviceId = false := by
  constructor
  · intro hkeyed
    refine or_iff_not_imp_left.mpr fun hne e he => ?_
    have hnot := fun htext => not_keyed h hne he htext hkeyed
    exact ⟨Bool.eq_false_iff.mpr fun hu => hnot (.inl hu),
      Bool.eq_false_iff.mpr fun hv => hnot (.inr hv)⟩
  · rintro (rfl | hnone)
    · exact ⟨⟨_, _, listByDevice_accepted h.accepted, listByDevice_accepted h.accepted, .refl _⟩,
        fun e he htext => ⟨_, listByDevice_accepted h.accepted, mem_timeline he htext⟩⟩
    · refine ⟨⟨_, _, listByDevice_accepted h.accepted, listByDevice_accepted h.accepted', ?_⟩, ?_⟩
      · rw [findByDeviceId_nil fun e he => (hnone e he).1,
          findByDeviceId_nil fun e he => (hnone e he).2]
      · exact fun e he htext => absurd ((hnone e he).1.symm.trans htext) Bool.false_ne_true

/-! ## An event that is not found -/

def oneDeviceUpper : JsString := utf16 "550E8400-E29B-41D4-A716-446655440000"

theorem oneDevice_respelled : Respelled oneDevice oneDeviceUpper :=
  ⟨by decide, by decide, by decide⟩

/-- A request for an event of the device. -/
def deviceBody : ByteArray :=
  (writeObject [("type", "device.moved"), ("deviceId", "550e8400-e29b-41d4-a716-446655440000"),
    ("name", "laptop")]).toUTF8

def deviceParams : Params where
  type := text "device.moved"
  deviceId := some (.str oneDevice)
  name := text "laptop"

theorem deviceBody_params : paramsOf deviceBody = some deviceParams := by
  rw [paramsOf, deviceBody, parseBytes, decodeUtf8_toUTF8, parse_writeObject]
  rfl

theorem deviceBody_served : serve [(⟨Uuid.numbered 1, 0, none⟩, .post deviceBody)] [] =
    [deviceParams.event (Uuid.numbered 1) 0] := by
  have hlogged : loggedBy ⟨Uuid.numbered 1, 0, none⟩ (.post deviceBody) =
      some (deviceParams.event (Uuid.numbered 1) 0) := by
    rw [loggedBy, deviceBody_params]
    exact logged_eq_some.mpr
      ⟨rfl, ⟨_, _, _, rfl, rfl, rfl, by decide, by decide, by decide⟩, rfl⟩
  rw [serve_run, List.nil_append, List.filterMap_cons, hlogged, List.filterMap_nil]

/-- Two spellings of the id of another device. -/
theorem otherDevice_respelled : Respelled (utf16 "6ba7b810-9dad-41d1-80b4-00c04fd430c8")
    (utf16 "6BA7B810-9DAD-41D1-80B4-00C04FD430C8") :=
  ⟨by decide, by decide, by decide⟩

/-- An event is logged, but of a device with neither of the two spellings. -/
theorem keyed_other : KeyedByValue unitSorter (utf16 "6ba7b810-9dad-41d1-80b4-00c04fd430c8")
    (utf16 "6BA7B810-9DAD-41D1-80B4-00C04FD430C8")
    (serve [(⟨Uuid.numbered 1, 0, none⟩, .post deviceBody)] []) := by
  refine (keyed_iff unitSorter _ otherDevice_respelled).mpr (.inr fun e he => ?_)
  rw [deviceBody_served] at he
  obtain rfl := List.mem_singleton.mp he
  exact ⟨by decide, by decide⟩

/-- Posted under one spelling, it is not listed for the other one. -/
theorem not_keyed_posted : ¬ KeyedByValue unitSorter oneDevice oneDeviceUpper
    (serve [(⟨Uuid.numbered 1, 0, none⟩, .post deviceBody)] []) := by
  rw [deviceBody_served]
  exact not_keyed oneDevice_respelled (by decide) (List.mem_singleton_self _)
    (.inl (isText_iff.mpr rfl))

end AssetTracker.NodeService
