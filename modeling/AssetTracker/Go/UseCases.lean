import AssetTracker.Lib.Prog
import AssetTracker.Go.Database

/-!
# Repository and use cases (Go service)

The use cases of `internal/application` over the repository of
`internal/infrastructure`, as programs whose effects are the draws of
`NewDevice`, the SQL statements and the `go` statements. A use case runs between
these effects without anyone noticing; at an effect other executions may come in.

Results:
1. `Stage.prog_eq`, `Op.prog_eq_start`: a use case goes through the stages of
   `Stage`, one effect from each to the next.
-/

namespace AssetTracker.GoService

open Encoding Effects

/-! ## Effects -/

/-- A call of the publisher as the closure of a `go` statement holds it. For an
update or a deletion the closure reads the clock itself. -/
inductive PublishCall where
  | created (deviceID deviceName : String) (createdAt : Instant)
  | updated (deviceID deviceName : String)
  | deleted (deviceID deviceName : String)
deriving DecidableEq, Repr

inductive Effect where
  | draw
  | sql (s : Stmt)
  | go (call : PublishCall)

abbrev Effect.Answer : Effect → Type
  | .draw => Fresh
  | .sql s => Except Fault s.Rows
  | .go _ => Unit

abbrev Program (α : Type) := Prog Effect.Answer α

/-- A Go function that returns a value or an error. -/
abbrev UseCase (α : Type) := ExceptT Err (Prog Effect.Answer) α

/-- The program of a use case, with the error in its result. -/
abbrev UseCase.run {α : Type} (uc : UseCase α) : Program (Except Err α) := ExceptT.run uc

def draw : Program Fresh := Prog.perform Effect.draw

def query (s : Stmt) : UseCase (Except Fault s.Rows) := ExceptT.lift (Prog.perform (Effect.sql s))

def goPublish (call : PublishCall) : UseCase Unit := ExceptT.lift (Prog.perform (Effect.go call))

/-! ## `PostgresDeviceRepository` -/

/-- A row scanned into a device: the id comes out in canonical spelling. -/
def Row.device (r : Row) : Device :=
  { id := r.id.toString, name := r.name, type := r.type, createdAt := ofMicroseconds r.createdAt }

def save (d : Device) : UseCase Unit := do
  match ← query (.insert d.id d.name d.type d.createdAt) with
  | .error e => throw (.wrap "save device" (.driver e.message))
  | .ok _ => return ()

def findAll : UseCase (List Device) := do
  match ← query .selectAll with
  | .error (.statement e) => throw (.wrap "find all devices" (.driver e))
  | .error (.scan e) => throw (.wrap "scan device" (.driver e))
  | .error (.iteration e) => throw (.wrap "rows iteration" (.driver e))
  | .ok rows => return rows.map Row.device

def findByID (id : String) : UseCase Device := do
  match ← query (.selectById id) with
  | .error e => throw (.wrap "find device by id" (.driver e.message))
  | .ok none => throw .notFound
  | .ok (some r) => return r.device

def update (d : Device) : UseCase Unit := do
  match ← query (.update d.name d.type d.id) with
  | .error e => throw (.wrap "update device" (.driver e.message))
  | .ok rowsAffected => if rowsAffected = 0 then throw .notFound else return ()

def delete (id : String) : UseCase Unit := do
  match ← query (.delete id) with
  | .error e => throw (.wrap "delete device" (.driver e.message))
  | .ok rowsAffected => if rowsAffected = 0 then throw .notFound else return ()

/-! ## Use cases -/

def createDevice (name deviceType : String) : UseCase Device := do
  let device ← newDevice draw name deviceType
  save device
  goPublish (.created device.id device.name device.createdAt)
  return device

def listDevices : UseCase (List Device) := findAll

def getDevice (id : String) : UseCase Device := findByID id

def updateDevice (id name deviceType : String) : UseCase Device := do
  let device ← findByID id
  let device ← ExceptT.mk (pure (device.update name deviceType))
  update device
  goPublish (.updated device.id device.name)
  return device

/-- The deletion is announced under the id of the request and the name found. -/
def deleteDevice (id : String) : UseCase Unit := do
  let device ← findByID id
  delete id
  goPublish (.deleted id device.name)

/-! ## Calls and replies -/

/-- A call of one of the five use cases (`DeviceUseCases`). -/
inductive Op where
  | create (name deviceType : String)
  | list
  | get (id : String)
  | update (id name deviceType : String)
  | delete (id : String)
deriving DecidableEq, Repr

inductive Reply where
  | device (d : Device)
  | devices (ds : List Device)
  | done
deriving DecidableEq, Repr

/-- What a use case returns: a reply or an error. -/
abbrev Result := Except Err Reply

/-- `deviceUseCases`: each call goes to its use case. -/
def Op.execute : Op → UseCase Reply
  | .create name deviceType => return .device (← createDevice name deviceType)
  | .list => return .devices (← listDevices)
  | .get id => return .device (← getDevice id)
  | .update id name deviceType => return .device (← updateDevice id name deviceType)
  | .delete id => do
    deleteDevice id
    return .done

def Op.prog (op : Op) : Program Result := op.execute.run

/-! ## 1. Stages -/

/-- The points at which an execution can stand: before an effect, or at its end. -/
inductive Stage where
  | drawing (name deviceType : String)
  | saving (d : Device)
  | listing
  | getting (id : String)
  | findingToUpdate (id name deviceType : String)
  | updating (d : Device)
  | findingToDelete (id : String)
  | deleting (id name : String)
  | announcing (call : PublishCall) (reply : Reply)
  | done (r : Result)
deriving DecidableEq, Repr

namespace Stage

/-- What is left of the program at a stage. -/
def prog : Stage → Program Result
  | drawing name deviceType => UseCase.run do
    let fresh ← draw
    let device : Device := ⟨fresh.uuid.toString, name, deviceType, fresh.now⟩
    save device
    goPublish (.created device.id device.name device.createdAt)
    return .device device
  | saving d => UseCase.run do
    save d
    goPublish (.created d.id d.name d.createdAt)
    return .device d
  | listing => UseCase.run do return .devices (← findAll)
  | getting id => UseCase.run do return .device (← findByID id)
  | findingToUpdate id name deviceType => UseCase.run do
    return .device (← updateDevice id name deviceType)
  | updating d => UseCase.run do
    update d
    goPublish (.updated d.id d.name)
    return .device d
  | findingToDelete id => UseCase.run do
    deleteDevice id
    return .done
  | deleting id name => UseCase.run do
    delete id
    goPublish (.deleted id name)
    return .done
  | announcing call reply => UseCase.run do
    goPublish call
    return reply
  | done r => .pure r

/-- A statement failed; the repository adds its context. -/
def failed (context : String) (e : Fault) : Stage :=
  done (.error (.wrap context (.driver e.message)))

def saved (d : Device) : Except Fault Nat → Stage
  | .error e => failed "save device" e
  | .ok _ => announcing (.created d.id d.name d.createdAt) (.device d)

def listed : Except Fault (List Row) → Stage
  | .error (.statement e) => failed "find all devices" (.statement e)
  | .error (.scan e) => failed "scan device" (.scan e)
  | .error (.iteration e) => failed "rows iteration" (.iteration e)
  | .ok rows => done (.ok (.devices (rows.map Row.device)))

def got : Except Fault (Option Row) → Stage
  | .error e => failed "find device by id" e
  | .ok none => done (.error .notFound)
  | .ok (some r) => done (.ok (.device r.device))

def foundToUpdate (name deviceType : String) : Except Fault (Option Row) → Stage
  | .error e => failed "find device by id" e
  | .ok none => done (.error .notFound)
  | .ok (some r) =>
    match r.device.update name deviceType with
    | .error e => done (.error e)
    | .ok d => updating d

def updated (d : Device) : Except Fault Nat → Stage
  | .error e => failed "update device" e
  | .ok rowsAffected =>
    if rowsAffected = 0 then done (.error .notFound)
    else announcing (.updated d.id d.name) (.device d)

def foundToDelete (id : String) : Except Fault (Option Row) → Stage
  | .error e => failed "find device by id" e
  | .ok none => done (.error .notFound)
  | .ok (some r) => deleting id r.name

def deleted (id name : String) : Except Fault Nat → Stage
  | .error e => failed "delete device" e
  | .ok rowsAffected =>
    if rowsAffected = 0 then done (.error .notFound)
    else announcing (.deleted id name) .done

/-- The program at a stage: one effect, and the stage that its answer leads to. -/
def tree : Stage → Program Result
  | drawing name deviceType =>
    .op .draw fun fresh => (saving ⟨fresh.uuid.toString, name, deviceType, fresh.now⟩).prog
  | saving d => .op (.sql (.insert d.id d.name d.type d.createdAt)) fun a => (saved d a).prog
  | listing => .op (.sql .selectAll) fun a => (listed a).prog
  | getting id => .op (.sql (.selectById id)) fun a => (got a).prog
  | findingToUpdate id name deviceType =>
    .op (.sql (.selectById id)) fun a => (foundToUpdate name deviceType a).prog
  | updating d => .op (.sql (.update d.name d.type d.id)) fun a => (updated d a).prog
  | findingToDelete id => .op (.sql (.selectById id)) fun a => (foundToDelete id a).prog
  | deleting id name => .op (.sql (.delete id)) fun a => (deleted id name a).prog
  | announcing call reply => .op (.go call) fun _ => (done (.ok reply)).prog
  | done r => .pure r

end Stage

/-- The stage at which a call begins. A `Create` without a name or a type is over at once. -/
def Op.start : Op → Stage
  | .create name deviceType =>
    if name = "" then .done (.error .nameRequired)
    else if deviceType = "" then .done (.error .typeRequired)
    else .drawing name deviceType
  | .list => .listing
  | .get id => .getting id
  | .update id name deviceType => .findingToUpdate id name deviceType
  | .delete id => .findingToDelete id

namespace UseCaseLemmas

variable {α : Type}

theorem op_congr {e : Effect} {k k' : e.Answer → Program α} (h : ∀ a, k a = k' a) :
    (Prog.op e k : Program α) = Prog.op e k' := congrArg _ (funext h)

theorem checked_prog (checked : Except Err Device) :
    UseCase.run (do
      let device ← (ExceptT.mk (pure checked) : UseCase Device)
      update device
      goPublish (.updated device.id device.name)
      return Reply.device device) =
    (match checked with
      | .error e => .done (.error e)
      | .ok d => .updating d : Stage).prog := by
  cases checked <;> rfl

end UseCaseLemmas

open UseCaseLemmas

/-- From stage to stage: what is left of the source after an answer is what is left
at the stage that the answer leads to. -/
theorem Stage.prog_eq (st : Stage) : st.prog = st.tree := by
  cases st with
  | drawing name deviceType => rfl
  | saving d =>
    refine op_congr fun a => ?_
    cases a <;> rfl
  | listing =>
    refine op_congr fun a => ?_
    rcases a with (e | e | e) | rows <;> rfl
  | getting id =>
    refine op_congr fun a => ?_
    rcases a with e | _ | r <;> rfl
  | findingToUpdate id name deviceType =>
    simp only [prog, updateDevice, findByID, bind_assoc]
    refine op_congr fun a => ?_
    rcases a with e | _ | r
    · rfl
    · rfl
    · exact checked_prog (r.device.update name deviceType)
  | updating d =>
    refine op_congr fun a => ?_
    rcases a with e | _ | n <;> rfl
  | findingToDelete id =>
    simp only [prog, deleteDevice, findByID, bind_assoc]
    refine op_congr fun a => ?_
    rcases a with e | _ | r <;> rfl
  | deleting id name =>
    refine op_congr fun a => ?_
    rcases a with e | _ | n <;> rfl
  | announcing call reply => rfl
  | done r => rfl

theorem Op.prog_eq_start (op : Op) : op.prog = op.start.prog := by
  cases op with
  | create name deviceType =>
    simp only [Op.prog, Op.execute, createDevice, newDevice, Op.start]
    split
    · rfl
    · split
      · rfl
      · simp only [bind_assoc]
        rfl
  | list => rfl
  | get id => rfl
  | update id name deviceType => rfl
  | delete id => rfl

end AssetTracker.GoService
