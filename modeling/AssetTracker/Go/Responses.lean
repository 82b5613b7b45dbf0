import AssetTracker.Lib.JsonLines
import AssetTracker.Go.Handlers

/-!
# The texts of responses (Go service)

What `json.NewEncoder(w).Encode` writes for the bodies of the handlers: a line of JSON, or
nothing for a value that it cannot marshal. An instant is written in the zone of its
`time.Time`, which is UTC for a device that was just made, and the zone of the process for
one that the driver has scanned.

Results:
1. `parse_encode`: a reader of JSON gets the value that was encoded.
-/

namespace AssetTracker.GoService

open Encoding

/-- `Time.MarshalJSON`, which is strict: RFC 3339 has years of four digits, and zones of
less than a day. -/
def marshalTime (t : ZonedTime) : Option String :=
  let year := (Date.ofDays ((unixSeconds t.instant + t.offset) / secondsPerDay)).year
  if 0 ≤ year ∧ year ≤ 9999 ∧ t.offset.natAbs < 86400 then some (formatRFC3339Nano t) else none

/-- The members of a device, with its time in the zone that is `zone d` seconds ahead. -/
def Device.members (zone : Device → Int) (d : Device) : Option (List MemberText) :=
  (marshalTime ⟨d.createdAt, zone d⟩).map fun createdAt =>
    [("id", d.id), ("name", d.name), ("type", d.type), ("createdAt", createdAt)].map stringMember

/-- The text of a body. A slice of no devices is written `[]`. -/
def Body.encode (zone : Device → Int) : Body → String
  | .empty => ""
  | .text s => s
  | .object fields => objectLine (fields.map stringMember)
  | .device d => ((d.members zone).map objectLine).getD ""
  | .devices ds => ((ds.mapM (Device.members zone)).map arrayLine).getD ""

/-- The value that a body stands for, if it is JSON. -/
def Body.value (zone : Device → Int) : Body → Option Json
  | .empty => none
  | .text s => parse s
  | .object fields => some (objectOf (fields.map stringMember))
  | .device d => (d.members zone).map objectOf
  | .devices ds => (ds.mapM (Device.members zone)).map fun os => .arr (os.map objectOf)

/-! ## 1. Reading a body -/

theorem parse_empty : parse "" = none := by decide

theorem parse_encode (zone : Device → Int) (body : Body) :
    parse (body.encode zone) = body.value zone := by
  cases body with
  | empty => exact parse_empty
  | text s => rfl
  | object fields => exact parse_objectLine _
  | device d =>
    rw [Body.encode, Body.value]
    cases d.members zone with
    | none => exact parse_empty
    | some ms => exact parse_objectLine ms
  | devices ds =>
    rw [Body.encode, Body.value]
    cases ds.mapM (Device.members zone) with
    | none => exact parse_empty
    | some os => exact parse_arrayLine os

end AssetTracker.GoService
