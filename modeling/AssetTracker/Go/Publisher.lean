import AssetTracker.Go.UseCases
import Mathlib.Data.List.Infix

/-!
# The event publisher (Go service)

`KafkaEventPublisher` of `internal/infrastructure`, and the closures that the use
cases start with `go`. A closure is a program of its own: it reads the clock (for
an update or a deletion), calls `WriteMessages`, at most three times, and sleeps.

Results:
1. `PublishStage.prog_eq`, `PublishCall.body_eq`: a closure goes through the stages of
   `PublishStage`, one effect from each to the next; every message it writes is
   `PublishCall.message` of one instant.
2. `message_deviceID`: the key of a message is the id of the device.
-/

namespace AssetTracker.GoService

open Encoding Effects

/-! ## Messages -/

/-- The payload of an event, in the order of the fields of the struct. -/
structure EventPayload where
  type : String
  deviceID : String
  name : String
  timestamp : String
deriving DecidableEq, Repr

/-- `json.Marshal`. A struct of strings always has a text. -/
def EventPayload.marshal (p : EventPayload) : String :=
  writeObject [("type", p.type), ("deviceId", p.deviceID), ("name", p.name),
    ("timestamp", p.timestamp)]

/-- A Kafka message: key and value are bytes. -/
structure Message where
  key : ByteArray
  value : ByteArray

/-- The message that `publish` builds. -/
def buildMessage (eventType deviceID deviceName : String) (timestamp : ZonedTime) : Message where
  key := deviceID.toUTF8
  value := (EventPayload.marshal
    ⟨eventType, deviceID, deviceName, formatRFC3339Nano timestamp⟩).toUTF8

/-! ## `publish` -/

inductive PublishEffect where
  | now
  | write (m : Message)
  | sleep (milliseconds : Nat)

/-- `WriteMessages` answers nothing, or the text of its error. -/
abbrev PublishEffect.Answer : PublishEffect → Type
  | .now => Instant
  | .write _ => Except String Unit
  | .sleep _ => Unit

abbrev Publisher := Prog PublishEffect.Answer

def now : Publisher Instant := Prog.perform PublishEffect.now

def writeMessages (m : Message) : Publisher (Except String Unit) :=
  Prog.perform (PublishEffect.write m)

def sleep (milliseconds : Nat) : Publisher Unit := Prog.perform (PublishEffect.sleep milliseconds)

/-- `strings.Contains`. -/
def contains (s sub : String) : Bool := decide (sub.toList <:+: s.toList)

/-- `isRetriable`, on the text of the error. -/
def isRetriable (message : String) : Bool :=
  contains message "Unknown Topic Or Partition" ||
    contains message "Leader Not Available" ||
    contains message "Not Leader" ||
    contains message "timed out" ||
    contains message "network"

def maxRetries : Nat := 3

/-- The error after the loop; `none` is a `lastErr` that is still `nil`. -/
def retriesExhausted : Option String → Err
  | some message => .wrap "write message after 3 retries" (.driver message)
  | none => .driver "write message after 3 retries: %!w(<nil>)"

/-- The loop `for range maxRetries`, with the rounds that are left. -/
def writeLoop (m : Message) : Nat → Option String → Publisher (Except Err Unit)
  | 0, lastErr => return .error (retriesExhausted lastErr)
  | rounds + 1, _ => do
    match ← writeMessages m with
    | .error e =>
      if isRetriable e then do
        sleep 100
        writeLoop m rounds (some e)
      else return .error (.wrap "write message" (.driver e))
    | .ok () => return .ok ()

def publish (eventType deviceID deviceName : String) (timestamp : ZonedTime) :
    Publisher (Except Err Unit) :=
  writeLoop (buildMessage eventType deviceID deviceName timestamp) maxRetries none

def publishDeviceCreated (deviceID deviceName : String) (timestamp : ZonedTime) :
    Publisher (Except Err Unit) :=
  publish "device.created" deviceID deviceName timestamp

def publishDeviceUpdated (deviceID deviceName : String) (timestamp : ZonedTime) :
    Publisher (Except Err Unit) :=
  publish "device.updated" deviceID deviceName timestamp

def publishDeviceDeleted (deviceID deviceName : String) (timestamp : ZonedTime) :
    Publisher (Except Err Unit) :=
  publish "device.deleted" deviceID deviceName timestamp

/-! ## Closures -/

namespace PublishCall

/-- What the closure of the `go` statement does. The error that it ends with is
only logged. -/
def body : PublishCall → Publisher (Except Err Unit)
  | created id name createdAt => publishDeviceCreated id name (.utc createdAt)
  | updated id name => do publishDeviceUpdated id name (.utc (← now))
  | deleted id name => do publishDeviceDeleted id name (.utc (← now))

def eventType : PublishCall → String
  | created .. => "device.created"
  | updated .. => "device.updated"
  | deleted .. => "device.deleted"

def deviceID : PublishCall → String
  | created id _ _ => id
  | updated id _ => id
  | deleted id _ => id

def deviceName : PublishCall → String
  | created _ name _ => name
  | updated _ name => name
  | deleted _ name => name

/-- The timestamp that the closure already holds when it starts. -/
def captured : PublishCall → Option Instant
  | created _ _ createdAt => some createdAt
  | _ => none

/-- The message of a call with the timestamp `t`. -/
def message (call : PublishCall) (t : Instant) : Message :=
  buildMessage call.eventType call.deviceID call.deviceName (.utc t)

end PublishCall

/-! ## 1. Stages -/

/-- The points at which a closure can stand. `writing` and `sleeping` have the
timestamp of the message and the rounds of the loop that are left. -/
inductive PublishStage where
  | reading
  | writing (t : Instant) (rounds : Nat) (lastErr : Option String)
  | sleeping (t : Instant) (rounds : Nat) (lastErr : String)
  | finished (r : Except Err Unit)
deriving DecidableEq

namespace PublishStage

/-- What is left of the closure at a stage. -/
def prog (call : PublishCall) : PublishStage → Publisher (Except Err Unit)
  | reading => do writeLoop (call.message (← now)) maxRetries none
  | writing t rounds lastErr => writeLoop (call.message t) (rounds + 1) lastErr
  | sleeping t rounds lastErr => do
    sleep 100
    writeLoop (call.message t) rounds (some lastErr)
  | finished r => .pure r

def written (t : Instant) (rounds : Nat) : Except String Unit → PublishStage
  | .ok () => finished (.ok ())
  | .error e =>
    if isRetriable e then sleeping t rounds e
    else finished (.error (.wrap "write message" (.driver e)))

def slept (t : Instant) (lastErr : String) : Nat → PublishStage
  | 0 => finished (.error (retriesExhausted (some lastErr)))
  | rounds + 1 => writing t rounds (some lastErr)

/-- The closure at a stage: one effect, and the stage that its answer leads to. -/
def tree (call : PublishCall) : PublishStage → Publisher (Except Err Unit)
  | reading => .op .now fun t => (writing t 2 none).prog call
  | writing t rounds _ => .op (.write (call.message t)) fun a => (written t rounds a).prog call
  | sleeping t rounds lastErr => .op (.sleep 100) fun _ => (slept t lastErr rounds).prog call
  | finished r => .pure r

end PublishStage

/-- The stage at which a closure starts. -/
def PublishCall.start : PublishCall → PublishStage
  | .created _ _ createdAt => .writing createdAt 2 none
  | _ => .reading

theorem PublishStage.prog_eq (call : PublishCall) (st : PublishStage) :
    st.prog call = st.tree call := by
  cases st with
  | reading => rfl
  | writing t rounds lastErr =>
    refine congrArg (Prog.op _) (funext fun a => ?_)
    rcases a with e | _
    · unfold written
      dsimp only
      by_cases h : isRetriable e = true
      · rw [if_pos h]
        exact if_pos h
      · rw [if_neg h]
        exact if_neg h
    · rfl
  | sleeping t rounds lastErr =>
    cases rounds <;> rfl
  | finished r => rfl

theorem PublishCall.body_eq (call : PublishCall) : call.body = call.start.prog call := by
  cases call <;> rfl

/-! ## 2. Keys -/

/-- The device that a message is about, by its key. -/
def Message.deviceID (m : Message) : Option String := String.fromUTF8? m.key

theorem message_deviceID (call : PublishCall) (t : Instant) :
    (call.message t).deviceID = some call.deviceID :=
  Text.fromUTF8_toUTF8 call.deviceID

end AssetTracker.GoService
