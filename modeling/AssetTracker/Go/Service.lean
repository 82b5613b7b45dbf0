import AssetTracker.Lib.Machine
import AssetTracker.Lib.Linearizability
import AssetTracker.Go.Publisher
import Mathlib.Tactic.Simps.Basic

/-!
# The service as a state machine

Any number of executions of the use cases run at the same time, together with
the goroutines that they start and with the shutdown of `cmd/main.go`. One action
is one effect of one of them, so a run is one interleaving. Executions and
goroutines are numbered in the order in which they start.

The state holds the devices table, the topic, and four records of what happened
that no code reads: the UUIDs drawn, the last reading of the clock, the calls and
returns that callers saw, and the changes that were committed.

A call of `WriteMessages` is not one step: the writer takes the message, the broker
stores copies of it, and the call returns. The writer of `main` leaves `RequiredAcks`
and `MaxAttempts` at their defaults, so neither an answer says that there is a copy, nor
the number of calls how many there are. The context of `publish` has no deadline, so a call
returns when the writer has done with its message; that a broker stores a message which the
writer has given up is left out. `Close` refuses calls from then on, and returns when the
calls that it found in progress have returned.
-/

namespace AssetTracker.GoService

open Encoding Effects Linearizability

/-! ## States -/

/-- An execution of a use case, with its call. -/
inductive Exec where
  | running (op : Op) (prog : Program Result)
  | returned (op : Op) (r : Result)

def Exec.isReturned : Exec → Bool
  | .running .. => false
  | .returned .. => true

/-- A goroutine that the execution `exec` started. `timestamp` is the instant that
it publishes, once it has one; `prog` is `none` after a panic, which the deferred
`recover` ends. -/
structure Goroutine where
  exec : Nat
  call : PublishCall
  timestamp : Option Instant
  prog : Option (Publisher (Except Err Unit))

def Goroutine.start (exec : Nat) (call : PublishCall) : Goroutine :=
  ⟨exec, call, call.captured, some call.body⟩

/-- The goroutine has nothing left to do. -/
def Goroutine.finished (g : Goroutine) : Bool :=
  match g.prog with
  | none => true
  | some (.pure _) => true
  | some (.op _ _) => false

/-- A message in the topic, with the execution that it comes from. -/
structure Record where
  exec : Nat
  message : Message

/-- `main`: serving until the signal, in `server.Shutdown` until it returns, then
`eventPublisher.Close`, then the end of the process. -/
inductive Phase where
  | serving
  | draining
  | drained
  | closed
  | exited
deriving DecidableEq

/-- A state of the service, over executions `E` and goroutines `G`. -/
structure StateOf (E G : Type) where
  table : Table
  drawn : List Uuid
  clock : Instant
  execs : List E
  goroutines : List G
  topic : List Record
  /-- The goroutines inside of `WriteMessages`, whose messages the writer has taken. -/
  handed : List Nat
  phase : Phase
  /-- `server.Shutdown` gave up waiting. -/
  forced : Bool
  history : History Nat Op Result
  commits : List (Nat × Change)

abbrev State := StateOf Exec Goroutine

namespace StateOf

variable {E G : Type}

/-- The service just started, over a table. The ids in the table count as drawn. -/
def start (table : Table) (clock : Instant) : StateOf E G where
  table := table
  drawn := table.ids
  clock := clock
  execs := []
  goroutines := []
  topic := []
  handed := []
  phase := .serving
  forced := false
  history := []
  commits := []

/-- Handlers call use cases until `server.Shutdown` has seen all of them return. -/
def acceptsCalls (s : StateOf E G) : Bool :=
  s.phase == .serving || s.phase == .draining || s.forced

/-- The writer takes messages until it is closed. -/
def writerOpen (s : StateOf E G) : Bool := s.phase != .closed && s.phase != .exited

/-- The execution `i` goes on as `e`. -/
@[simps]
def goOn (s : StateOf E G) (i : Nat) (e : E) : StateOf E G := { s with execs := s.execs.set i e }

/-- A handler calls a use case. -/
@[simps]
def call (s : StateOf E G) (op : Op) (e : E) : StateOf E G :=
  { s with execs := s.execs ++ [e], history := s.history ++ [.call s.execs.length op] }

/-- The execution `i` returns `r`. -/
@[simps]
def ret (s : StateOf E G) (i : Nat) (r : Result) : StateOf E G :=
  { s with history := s.history ++ [.ret i r] }

/-- `NewDevice` draws. -/
@[simps]
def draw (s : StateOf E G) (fresh : Fresh) : StateOf E G :=
  { s with drawn := s.drawn ++ [fresh.uuid], clock := fresh.now }

/-- The execution `i` commits changes that lead to `table`. -/
@[simps]
def commit (s : StateOf E G) (i : Nat) (table : Table) (changes : List Change) : StateOf E G :=
  { s with table := table, commits := s.commits ++ changes.map fun c => (i, c) }

/-- A goroutine starts. -/
@[simps]
def spawn (s : StateOf E G) (goroutine : G) : StateOf E G :=
  { s with goroutines := s.goroutines ++ [goroutine] }

/-- The goroutine `g` goes on as `goroutine`. -/
@[simps]
def resume (s : StateOf E G) (g : Nat) (goroutine : G) : StateOf E G :=
  { s with goroutines := s.goroutines.set g goroutine }

/-- The clock is read. -/
@[simps]
def tick (s : StateOf E G) (t : Instant) : StateOf E G := { s with clock := t }

/-- The writer takes the message of the goroutine `g`. -/
@[simps]
def handOver (s : StateOf E G) (g : Nat) : StateOf E G := { s with handed := s.handed ++ [g] }

/-- A message arrives in the topic. -/
@[simps]
def append (s : StateOf E G) (record : Record) : StateOf E G :=
  { s with topic := s.topic ++ [record] }

/-- The call of the goroutine `g` is over. -/
@[simps]
def release (s : StateOf E G) (g : Nat) : StateOf E G :=
  { s with handed := s.handed.filter (· ≠ g) }

/-- `main` goes on to the next phase. -/
@[simps]
def enter (s : StateOf E G) (phase : Phase) (forced : Bool) : StateOf E G :=
  { s with phase := phase, forced := forced }

end StateOf

/-! ## Steps -/

inductive Action where
  /-- A handler calls a use case. -/
  | call (op : Op)
  /-- `NewDevice` draws. -/
  | draw (i : Nat) (fresh : Fresh)
  /-- The next statement is executed, or fails; `order` is what `ORDER BY` would give. -/
  | sql (i : Nat) (fault : Option Fault) (order : List Row)
  /-- The `go` statement. -/
  | go (i : Nat)
  | ret (i : Nat)
  /-- A goroutine reads the clock. -/
  | clock (g : Nat) (t : Instant)
  /-- `WriteMessages` takes the message of a goroutine. -/
  | handOver (g : Nat)
  /-- The broker stores a copy of a message that the writer has taken. -/
  | store (g : Nat)
  /-- `WriteMessages` returns. -/
  | write (g : Nat) (answer : Except String Unit)
  /-- A sleep ends. -/
  | wake (g : Nat)
  /-- A goroutine panics. One that waits inside of `WriteMessages` does nothing that could. -/
  | panic (g : Nat)
  /-- SIGINT or SIGTERM. -/
  | signal
  /-- `server.Shutdown` returns: all handlers have returned, or its time is up. -/
  | shutdown (timedOut : Bool)
  /-- `eventPublisher.Close` is called. -/
  | close
  /-- It has returned, and the process ends. -/
  | exit

/-- The step of an execution that stands before an SQL statement. -/
def State.execute (s : State) (i : Nat) (op : Op) (stmt : Stmt)
    (k : Except Fault stmt.Rows → Program Result) (fault : Option Fault) (order : List Row) :
    State :=
  match fault with
  | some f => s.goOn i (.running op (k (.error f)))
  | none =>
    match s.table.exec order stmt with
    | .error f => s.goOn i (.running op (k (.error f)))
    | .ok d => (s.goOn i (.running op (k (.ok d.answer)))).commit i d.table d.changes

/-- A step of the process while it lives. -/
def liveStep (s : State) : Action → Option State
  | .call op => if s.acceptsCalls then some (s.call op (.running op op.prog)) else none
  | .draw i fresh =>
    match s.execs[i]? with
    | some (.running op (.op .draw k)) =>
      if fresh.uuid ∉ s.drawn ∧ fresh.uuid.isV4 then
        some ((s.goOn i (.running op (k fresh))).draw fresh)
      else none
    | _ => none
  | .sql i fault order =>
    match s.execs[i]? with
    | some (.running op (.op (.sql stmt) k)) =>
      if order.Perm s.table.rows ∧ Descending order then
        some (s.execute i op stmt k fault order)
      else none
    | _ => none
  | .go i =>
    match s.execs[i]? with
    | some (.running op (.op (.go call) k)) =>
      some ((s.goOn i (.running op (k ()))).spawn (Goroutine.start i call))
    | _ => none
  | .ret i =>
    match s.execs[i]? with
    | some (.running op (.pure r)) => some ((s.goOn i (.returned op r)).ret i r)
    | _ => none
  | .clock g t =>
    match s.goroutines[g]? with
    | some ⟨exec, call, _, some (.op .now k)⟩ =>
      some ((s.resume g ⟨exec, call, some t, some (k t)⟩).tick t)
    | _ => none
  | .handOver g =>
    match s.goroutines[g]? with
    | some ⟨_, _, _, some (.op (.write _) _)⟩ =>
      if g ∉ s.handed ∧ s.writerOpen then some (s.handOver g) else none
    | _ => none
  | .store g =>
    match s.goroutines[g]? with
    | some ⟨exec, _, _, some (.op (.write m) _)⟩ =>
      if g ∈ s.handed then some (s.append ⟨exec, m⟩) else none
    | _ => none
  | .write g answer =>
    match s.goroutines[g]? with
    | some ⟨exec, call, timestamp, some (.op (.write _) k)⟩ =>
      -- a writer that is closed refuses the call at once
      if g ∈ s.handed ∨ (s.writerOpen = false ∧ answer.toBool = false) then
        some ((s.resume g ⟨exec, call, timestamp, some (k answer)⟩).release g)
      else none
    | _ => none
  | .wake g =>
    match s.goroutines[g]? with
    | some ⟨exec, call, timestamp, some (.op (.sleep _) k)⟩ =>
      some (s.resume g ⟨exec, call, timestamp, some (k ())⟩)
    | _ => none
  | .panic g =>
    match s.goroutines[g]? with
    | some ⟨exec, call, timestamp, some (.op _ _)⟩ =>
      if g ∉ s.handed then some (s.resume g ⟨exec, call, timestamp, none⟩) else none
    | _ => none
  | .signal => if s.phase = .serving then some (s.enter .draining s.forced) else none
  | .shutdown timedOut =>
    if s.phase = .draining ∧ (timedOut = true ∨ s.execs.all Exec.isReturned) then
      some (s.enter .drained timedOut)
    else none
  | .close => if s.phase = .drained then some (s.enter .closed s.forced) else none
  | .exit =>
    -- `Close` waits for the calls that the writer has taken
    if s.phase = .closed ∧ s.handed = [] then some (s.enter .exited s.forced) else none

/-- One action of the service. After the end of the process there is none. -/
def step (s : State) (a : Action) : Option State :=
  if s.phase = .exited then none else liveStep s a

/-- A state that the service reaches over an initial table. -/
def Reaches (table : Table) (clock : Instant) (as : List Action) (s : State) : Prop :=
  Machine.run step (StateOf.start table clock) as = some s

end AssetTracker.GoService
