import AssetTracker.Lib.Time
import AssetTracker.Lib.Uuid

/-!
# Devices (Go service, domain layer)

`Device`, `newDevice` and `Device.update` are `internal/domain/device.go`. `Err`
stands for the Go values of type `error` that the service makes: the three
sentinels, the errors of the drivers, and `fmt.Errorf` with `%w`.

Results:
1. `newDevice_ok`, `Device.update_ok`: what is accepted has a name and a type;
   an update keeps the id and the creation time.
-/

namespace AssetTracker.GoService

open Encoding

/-! ## Errors -/

/-- A Go `error`. `driver` is an error of a library (the database driver, the
Kafka client), known by its text. -/
inductive Err where
  | nameRequired
  | typeRequired
  | notFound
  | driver (message : String)
  | wrap (context : String) (cause : Err)
deriving DecidableEq, Repr

/-- `Error()`. -/
def Err.message : Err → String
  | .nameRequired => "name is required"
  | .typeRequired => "type is required"
  | .notFound => "device not found"
  | .driver message => message
  | .wrap context cause => context ++ ": " ++ cause.message

/-- `errors.Is(err, target)`, for a sentinel `target`. -/
def Err.is : Err → Err → Bool
  | .wrap _ cause, target => cause.is target
  | e, target => e == target

/-! ## Devices -/

/-- A device. `createdAt` is the instant: no function of the service reads the
zone in which the instant is shown. -/
structure Device where
  id : String
  name : String
  type : String
  createdAt : Instant
deriving DecidableEq, Repr

/-- What `NewDevice` draws: `uuid.New()` and `time.Now()`. -/
structure Fresh where
  uuid : Uuid
  now : Instant
deriving DecidableEq, Repr

/-- `NewDevice`. The checks come first: nothing is drawn for a device that is refused. -/
def newDevice {m : Type → Type} [Monad m] (draw : m Fresh) (name deviceType : String) :
    ExceptT Err m Device :=
  if name = "" then throw .nameRequired
  else if deviceType = "" then throw .typeRequired
  else do
    let fresh ← draw
    return { id := fresh.uuid.toString, name := name, type := deviceType, createdAt := fresh.now }

/-- `(*Device).Update`. -/
def Device.update (d : Device) (name deviceType : String) : Except Err Device :=
  if name = "" then .error .nameRequired
  else if deviceType = "" then .error .typeRequired
  else .ok { d with name := name, type := deviceType }

/-! ## 1. What is accepted -/

theorem newDevice_ok {fresh : Fresh} {d : Device} {name deviceType : String} :
    (newDevice (m := Id) (pure fresh) name deviceType).run = .ok d ↔
      name ≠ "" ∧ deviceType ≠ "" ∧ d = ⟨fresh.uuid.toString, name, deviceType, fresh.now⟩ := by
  unfold newDevice
  split
  · next h => exact ⟨nofun, fun hd => absurd h hd.1⟩
  · next h =>
    split
    · next h' => exact ⟨nofun, fun hd => absurd h' hd.2.1⟩
    · next h' =>
      show Except.ok (⟨fresh.uuid.toString, name, deviceType, fresh.now⟩ : Device) = .ok d ↔ _
      simp [h, h', eq_comm]

theorem Device.update_ok {d d' : Device} {name deviceType : String} :
    d.update name deviceType = .ok d' ↔
      name ≠ "" ∧ deviceType ≠ "" ∧ d' = { d with name := name, type := deviceType } := by
  unfold Device.update
  split
  · next h => simp [h]
  · next h =>
    split
    · next h' => simp [h']
    · next h' => simp [h, h', eq_comm]

theorem Device.update_error {d : Device} {name deviceType : String} {e : Err} :
    d.update name deviceType = .error e ↔
      (name = "" ∧ e = .nameRequired) ∨ (name ≠ "" ∧ deviceType = "" ∧ e = .typeRequired) := by
  unfold Device.update
  split
  · next h => simp [h, eq_comm]
  · next h =>
    split
    · next h' => simp [h, h', eq_comm]
    · next h' => simp [h, h']

end AssetTracker.GoService
