import AssetTracker.Go.Service

/-!
# What a step of the service can do

The states of the service hold programs. A `Snapshot` holds, instead of each
program, the stage at which it stands; `StateOf.state` puts the programs back.
`Trans` lists the outcomes of every action on snapshots. The invariants of the
service are proved by cases on it and never unfold `step`.

Results:
1. `step_trans`: every step from the state of a snapshot is one of the outcomes of
   `Trans`, and leads to the state of a snapshot.
2. `trans_run`, `guarded_trans_run`: the run rules of the service, and the same from its start.
-/

namespace AssetTracker.GoService

open Encoding Effects Linearizability

/-! ## Snapshots -/

/-- Where an execution stands. -/
inductive Standing where
  | running (op : Op) (st : Stage)
  | returned (op : Op) (r : Result)
deriving DecidableEq

def Standing.exec : Standing → Exec
  | .running op st => .running op st.prog
  | .returned op r => .returned op r

/-- Where a goroutine stands; `none` after a panic. -/
structure Publication where
  exec : Nat
  call : PublishCall
  timestamp : Option Instant
  stage : Option PublishStage

def Publication.goroutine (p : Publication) : Goroutine :=
  ⟨p.exec, p.call, p.timestamp, p.stage.map fun st => st.prog p.call⟩

def Publication.start (exec : Nat) (call : PublishCall) : Publication :=
  ⟨exec, call, call.captured, some call.start⟩

abbrev Snapshot := StateOf Standing Publication

/-- The state that a snapshot shows. -/
def StateOf.state (s : Snapshot) : State :=
  { s with execs := s.execs.map Standing.exec,
           goroutines := s.goroutines.map Publication.goroutine }

/-- The execution `i` stands at the stage `st`. -/
def At (s : Snapshot) (i : Nat) (op : Op) (st : Stage) : Prop :=
  s.execs[i]? = some (.running op st)

theorem not_at_start {table : Table} {clock : Instant} {i : Nat} {op : Op} {st : Stage} :
    ¬ At (StateOf.start table clock) i op st := by
  intro hat
  cases hat

/-- The goroutine `g` is `p` and stands at the stage `st`. -/
def Publishing (s : Snapshot) (g : Nat) (p : Publication) (st : PublishStage) : Prop :=
  s.goroutines[g]? = some p ∧ p.stage = some st

/-- The id that the statement of a stage looks up. -/
def Stage.lookup : Stage → Option String
  | .getting id => some id
  | .findingToUpdate id _ _ => some id
  | .updating d => some d.id
  | .findingToDelete id => some id
  | .deleting id _ => some id
  | _ => none

/-- A stage before an SQL statement. -/
def Stage.isQuery : Stage → Bool
  | .saving _ => true
  | .listing => true
  | st => st.lookup.isSome

/-- The action makes a statement fail. -/
def State.fails (s : State) : Action → Bool
  | .sql i fault order =>
    match s.execs[i]? with
    | some (.running _ (.op (.sql stmt) _)) =>
      fault.isSome || (s.table.exec order stmt).toOption.isNone
    | _ => false
  | _ => false

/-! ## Outcomes -/

/-- The outcomes of the actions of goroutines. -/
inductive PublisherTrans (s : Snapshot) : Action → Snapshot → Prop
  | clockRead {g : Nat} {p : Publication} {t : Instant} :
      Publishing s g p .reading →
      PublisherTrans s (.clock g t)
        ((s.resume g ⟨p.exec, p.call, some t, some (.writing t 2 none)⟩).tick t)
  | handedOver {g : Nat} {p : Publication} {t : Instant} {rounds : Nat} {lastErr : Option String} :
      Publishing s g p (.writing t rounds lastErr) → g ∉ s.handed → s.writerOpen = true →
      PublisherTrans s (.handOver g) (s.handOver g)
  | stored {g : Nat} {p : Publication} {t : Instant} {rounds : Nat} {lastErr : Option String} :
      Publishing s g p (.writing t rounds lastErr) → g ∈ s.handed →
      PublisherTrans s (.store g) (s.append ⟨p.exec, p.call.message t⟩)
  | wrote {g : Nat} {p : Publication} {t : Instant} {rounds : Nat} {lastErr : Option String}
      {answer : Except String Unit} :
      Publishing s g p (.writing t rounds lastErr) →
      (g ∈ s.handed ∨ s.writerOpen = false ∧ answer.toBool = false) →
      PublisherTrans s (.write g answer)
        ((s.resume g ⟨p.exec, p.call, p.timestamp, some (.written t rounds answer)⟩).release g)
  | woke {g : Nat} {p : Publication} {t : Instant} {rounds : Nat} {lastErr : String} :
      Publishing s g p (.sleeping t rounds lastErr) →
      PublisherTrans s (.wake g)
        (s.resume g ⟨p.exec, p.call, p.timestamp, some (.slept t lastErr rounds)⟩)
  | panicked {g : Nat} {p : Publication} :
      s.goroutines[g]? = some p → p.goroutine.finished = false → g ∉ s.handed →
      PublisherTrans s (.panic g) (s.resume g ⟨p.exec, p.call, p.timestamp, none⟩)

/-- The outcomes of the actions of `main`. -/
inductive LifecycleTrans (s : Snapshot) : Action → Snapshot → Prop
  | signal : s.phase = .serving → LifecycleTrans s .signal (s.enter .draining s.forced)
  | shutdown {timedOut : Bool} :
      s.phase = .draining →
      (timedOut = true ∨ ∀ i op st, ¬ At s i op st) →
      LifecycleTrans s (.shutdown timedOut) (s.enter .drained timedOut)
  | close : s.phase = .drained → LifecycleTrans s .close (s.enter .closed s.forced)
  | exit : s.phase = .closed → s.handed = [] → LifecycleTrans s .exit (s.enter .exited s.forced)

/-- The outcomes of every action. Those of an SQL statement that succeeds say what the
statement found and where the execution goes on. -/
inductive Trans (s : Snapshot) : Action → Snapshot → Prop
  | called {op : Op} :
      s.acceptsCalls = true → Trans s (.call op) (s.call op (.running op op.start))
  | drew {i : Nat} {op : Op} {name deviceType : String} {fresh : Fresh} :
      At s i op (.drawing name deviceType) → fresh.uuid ∉ s.drawn → fresh.uuid.isV4 = true →
      Trans s (.draw i fresh)
        ((s.goOn i (.running op
          (.saving ⟨fresh.uuid.toString, name, deviceType, fresh.now⟩))).draw fresh)
  | failed {i : Nat} {op : Op} {st : Stage} {fault : Option Fault} {order : List Row}
      {context : String} {e : Fault} :
      At s i op st → st.isQuery = true → s.state.fails (.sql i fault order) = true →
      Trans s (.sql i fault order) (s.goOn i (.running op (.failed context e)))
  | saved {i : Nat} {op : Op} {d : Device} {order : List Row} {u : Uuid} :
      At s i op (.saving d) → Uuid.parse d.id = some u → (hu : u ∉ s.table.ids) →
      Trans s (.sql i none order)
        ((s.goOn i (.running op
          (.announcing (.created d.id d.name d.createdAt) (.device d)))).commit i
            (s.table.insert ⟨u, d.name, d.type, microseconds d.createdAt⟩ hu)
            [.inserted ⟨u, d.name, d.type, microseconds d.createdAt⟩])
  | listed {i : Nat} {op : Op} {order : List Row} :
      At s i op .listing → order.Perm s.table.rows → Descending order →
      Trans s (.sql i none order)
        (s.goOn i (.running op (.done (.ok (.devices (order.map Row.device))))))
  | got {i : Nat} {op : Op} {id : String} {order : List Row} {u : Uuid} {r : Row} :
      At s i op (.getting id) → Uuid.parse id = some u → s.table.find u = some r →
      Trans s (.sql i none order) (s.goOn i (.running op (.done (.ok (.device r.device)))))
  | absent {i : Nat} {op : Op} {st : Stage} {id : String} {order : List Row} {u : Uuid} :
      At s i op st → st.lookup = some id → Uuid.parse id = some u → s.table.find u = none →
      Trans s (.sql i none order) (s.goOn i (.running op (.done (.error .notFound))))
  | refused {i : Nat} {op : Op} {id name deviceType : String} {order : List Row} {u : Uuid}
      {r : Row} {e : Err} :
      At s i op (.findingToUpdate id name deviceType) → Uuid.parse id = some u →
      s.table.find u = some r → r.device.update name deviceType = .error e →
      Trans s (.sql i none order) (s.goOn i (.running op (.done (.error e))))
  | foundToUpdate {i : Nat} {op : Op} {id name deviceType : String} {order : List Row} {u : Uuid}
      {r : Row} {d : Device} :
      At s i op (.findingToUpdate id name deviceType) → Uuid.parse id = some u →
      s.table.find u = some r → r.device.update name deviceType = .ok d →
      Trans s (.sql i none order) (s.goOn i (.running op (.updating d)))
  | updated {i : Nat} {op : Op} {d : Device} {order : List Row} {u : Uuid} {r : Row} :
      At s i op (.updating d) → Uuid.parse d.id = some u → s.table.find u = some r →
      Trans s (.sql i none order)
        ((s.goOn i (.running op (.announcing (.updated d.id d.name) (.device d)))).commit i
          (s.table.update u d.name d.type)
          [.updated r { r with name := d.name, type := d.type }])
  | foundToDelete {i : Nat} {op : Op} {id : String} {order : List Row} {u : Uuid} {r : Row} :
      At s i op (.findingToDelete id) → Uuid.parse id = some u → s.table.find u = some r →
      Trans s (.sql i none order) (s.goOn i (.running op (.deleting id r.name)))
  | deleted {i : Nat} {op : Op} {id name : String} {order : List Row} {u : Uuid} {r : Row} :
      At s i op (.deleting id name) → Uuid.parse id = some u → s.table.find u = some r →
      Trans s (.sql i none order)
        ((s.goOn i (.running op (.announcing (.deleted id name) .done))).commit i
          (s.table.delete u) [.deleted r])
  | announced {i : Nat} {op : Op} {call : PublishCall} {reply : Reply} :
      At s i op (.announcing call reply) →
      Trans s (.go i)
        ((s.goOn i (.running op (.done (.ok reply)))).spawn (Publication.start i call))
  | returned {i : Nat} {op : Op} {r : Result} :
      At s i op (.done r) → Trans s (.ret i) ((s.goOn i (.returned op r)).ret i r)
  | publisher {a : Action} {s' : Snapshot} : PublisherTrans s a s' → Trans s a s'
  | lifecycle {a : Action} {s' : Snapshot} : LifecycleTrans s a s' → Trans s a s'

/-! ## 1. Every step is one of the outcomes -/

namespace StepLemmas

variable {s : Snapshot} {s' : State} {i : Nat} {op : Op}

theorem state_goOn (i : Nat) (e : Standing) :
    (s.goOn i e).state = s.state.goOn i e.exec := by
  simp [StateOf.state, StateOf.goOn, List.map_set]

theorem state_resume (g : Nat) (p : Publication) :
    (s.resume g p).state = s.state.resume g p.goroutine := by
  simp [StateOf.state, StateOf.resume, List.map_set]

theorem state_tick (t : Instant) : (s.tick t).state = s.state.tick t := rfl

theorem state_handOver (g : Nat) : (s.handOver g).state = s.state.handOver g := rfl

theorem state_append (r : Record) : (s.append r).state = s.state.append r := rfl

theorem state_release (g : Nat) : (s.release g).state = s.state.release g := rfl

theorem state_draw (fresh : Fresh) : (s.draw fresh).state = s.state.draw fresh := rfl

theorem state_commit (i : Nat) (table : Table) (cs : List Change) :
    (s.commit i table cs).state = s.state.commit i table cs := rfl

theorem state_ret (i : Nat) (r : Result) : (s.ret i r).state = s.state.ret i r := rfl

theorem state_call (op : Op) (e : Standing) : (s.call op e).state = s.state.call op e.exec := by
  simp [StateOf.state, StateOf.call]

theorem state_spawn (p : Publication) : (s.spawn p).state = s.state.spawn p.goroutine := by
  simp [StateOf.state, StateOf.spawn]

theorem goroutine_start (i : Nat) (call : PublishCall) :
    (Publication.start i call).goroutine = Goroutine.start i call := by
  simp [Publication.start, Publication.goroutine, Goroutine.start, PublishCall.body_eq]

theorem at_of_running {p : Program Result} (h : s.state.execs[i]? = some (.running op p)) :
    ∃ st : Stage, At s i op st ∧ st.prog = p := by
  simp only [StateOf.state, List.getElem?_map, Option.map_eq_some_iff] at h
  obtain ⟨e, he, heq⟩ := h
  cases e <;> cases heq
  exact ⟨_, he, rfl⟩

theorem exec_of_at {st : Stage} (h : At s i op st) :
    s.state.execs[i]? = some (.running op st.prog) := by
  simp only [StateOf.state, List.getElem?_map, Option.map_eq_some_iff]
  exact ⟨_, h, rfl⟩

theorem publication_of_goroutine {g : Nat} {G : Goroutine} (h : s.state.goroutines[g]? = some G) :
    ∃ p, s.goroutines[g]? = some p ∧ p.goroutine = G := by
  simpa only [StateOf.state, List.getElem?_map, Option.map_eq_some_iff] using h

theorem publishing_of_goroutine {g exec : Nat} {call : PublishCall} {timestamp : Option Instant}
    {prog : Publisher (Except Err Unit)}
    (h : s.state.goroutines[g]? = some ⟨exec, call, timestamp, some prog⟩) :
    ∃ st : PublishStage, Publishing s g ⟨exec, call, timestamp, some st⟩ st ∧
      st.prog call = prog := by
  obtain ⟨⟨exec', call', timestamp', stage⟩, hp, hG⟩ := publication_of_goroutine h
  cases stage with
  | none => cases hG
  | some st =>
    cases hG
    exact ⟨st, ⟨hp, rfl⟩, rfl⟩

theorem commit_reads (i : Nat) (e : Standing) :
    (s.goOn i e).commit i s.table [] = s.goOn i e := by
  simp [StateOf.commit, StateOf.goOn]

theorem prog_draw {st : Stage} {k : Fresh → Program Result} (h : st.prog = .op .draw k) :
    ∃ name deviceType, st = .drawing name deviceType ∧
      k = fun fresh => (Stage.saving ⟨fresh.uuid.toString, name, deviceType, fresh.now⟩).prog := by
  rw [Stage.prog_eq] at h
  cases st <;> cases h
  exact ⟨_, _, rfl, rfl⟩

theorem prog_go {st : Stage} {call : PublishCall} {k : Unit → Program Result}
    (h : st.prog = .op (.go call) k) :
    ∃ reply, st = .announcing call reply ∧ k = fun _ => (Stage.done (.ok reply)).prog := by
  rw [Stage.prog_eq] at h
  cases st <;> cases h
  exact ⟨_, rfl, rfl⟩

theorem prog_pure {st : Stage} {r : Result} (h : st.prog = .pure r) : st = .done r := by
  rw [Stage.prog_eq] at h
  cases st <;> cases h
  rfl

theorem prog_now (call : PublishCall) {st : PublishStage}
    {k : Instant → Publisher (Except Err Unit)} (h : st.prog call = .op .now k) :
    st = .reading ∧ k = fun t => (PublishStage.writing t 2 none).prog call := by
  rw [PublishStage.prog_eq] at h
  cases st <;> cases h
  exact ⟨rfl, rfl⟩

theorem prog_write (call : PublishCall) {st : PublishStage} {m : Message}
    {k : Except String Unit → Publisher (Except Err Unit)} (h : st.prog call = .op (.write m) k) :
    ∃ t rounds lastErr, st = .writing t rounds lastErr ∧ m = call.message t ∧
      k = fun a => (PublishStage.written t rounds a).prog call := by
  rw [PublishStage.prog_eq] at h
  cases st <;> cases h
  exact ⟨_, _, _, rfl, rfl, rfl⟩

theorem prog_sleep (call : PublishCall) {st : PublishStage} {ms : Nat}
    {k : Unit → Publisher (Except Err Unit)} (h : st.prog call = .op (.sleep ms) k) :
    ∃ t rounds lastErr, st = .sleeping t rounds lastErr ∧
      k = fun _ => (PublishStage.slept t lastErr rounds).prog call := by
  rw [PublishStage.prog_eq] at h
  cases st <;> cases h
  exact ⟨_, _, _, rfl, rfl⟩

/-- The answer of a statement that failed leads to an error. -/
theorem failed_of_sql {st : Stage} {stmt : Stmt} {k : Except Fault stmt.Rows → Program Result}
    (h : st.prog = .op (.sql stmt) k) (f : Fault) :
    st.isQuery = true ∧ ∃ context, k (.error f) = (Stage.failed context f).prog := by
  rw [Stage.prog_eq] at h
  cases st with
  | listing =>
    cases h
    cases f <;> exact ⟨rfl, _, rfl⟩
  | saving _ | getting _ | findingToUpdate _ _ _ | updating _ | findingToDelete _ | deleting _ _ =>
    cases h
    exact ⟨rfl, _, rfl⟩
  | drawing _ _ | announcing _ _ | done _ => cases h

/-- A statement that succeeds. -/
theorem sql_trans {st : Stage} {stmt : Stmt} {k : Except Fault stmt.Rows → Program Result}
    {order : List Row} {d : Done stmt.Rows} (hat : At s i op st)
    (h : st.prog = .op (.sql stmt) k) (horder : order.Perm s.table.rows ∧ Descending order)
    (hd : s.table.exec order stmt = .ok d) :
    ∃ st' : Stage, k (.ok d.answer) = st'.prog ∧ Trans s (.sql i none order)
      ((s.goOn i (.running op st')).commit i d.table d.changes) := by
  -- the statement says which stage the call is in
  rw [Stage.prog_eq] at h
  cases st with
  | saving device =>
    cases h
    obtain ⟨u, hid, hu, rfl⟩ := exec_insert hd
    exact ⟨_, rfl, .saved hat hid hu⟩
  | listing =>
    cases h
    cases hd
    refine ⟨_, rfl, ?_⟩
    simp only [Table.reads, commit_reads]
    exact .listed hat horder.1 horder.2
  | getting id =>
    cases h
    obtain ⟨u, hid, rfl⟩ := exec_selectById hd
    refine ⟨_, rfl, ?_⟩
    simp only [Table.reads, commit_reads]
    cases hf : s.table.find u with
    | none => exact .absent hat rfl hid hf
    | some r => exact .got hat hid hf
  | findingToUpdate id name deviceType =>
    cases h
    obtain ⟨u, hid, rfl⟩ := exec_selectById hd
    refine ⟨_, rfl, ?_⟩
    simp only [Table.reads, commit_reads]
    cases hf : s.table.find u with
    | none => exact .absent hat rfl hid hf
    | some r =>
      dsimp only [Stage.foundToUpdate]
      cases hr : r.device.update name deviceType with
      | error e => exact .refused hat hid hf hr
      | ok d => exact .foundToUpdate hat hid hf hr
  | updating device =>
    cases h
    obtain ⟨u, hid, ⟨hf, rfl⟩ | ⟨r, hf, rfl⟩⟩ := exec_update hd
    · refine ⟨_, rfl, ?_⟩
      simp only [commit_reads]
      exact .absent hat rfl hid hf
    · exact ⟨_, rfl, .updated hat hid hf⟩
  | findingToDelete id =>
    cases h
    obtain ⟨u, hid, rfl⟩ := exec_selectById hd
    refine ⟨_, rfl, ?_⟩
    simp only [Table.reads, commit_reads]
    cases hf : s.table.find u with
    | none => exact .absent hat rfl hid hf
    | some r => exact .foundToDelete hat hid hf
  | deleting id name =>
    cases h
    obtain ⟨u, hid, ⟨hf, rfl⟩ | ⟨r, hf, rfl⟩⟩ := exec_delete hd
    · refine ⟨_, rfl, ?_⟩
      simp only [commit_reads]
      exact .absent hat rfl hid hf
    · exact ⟨_, rfl, .deleted hat hid hf⟩
  | drawing _ _ | announcing _ _ | done _ => cases h

end StepLemmas

open StepLemmas

namespace StepLemmas

variable {s : Snapshot} {s' : State}

/-- The actions of goroutines, and of the writer for them. -/
def IsPublisher (a : Action) (g : Nat) : Prop :=
  (∃ t, a = .clock g t) ∨ a = .handOver g ∨ a = .store g ∨ (∃ answer, a = .write g answer) ∨
    a = .wake g ∨ a = .panic g

/-- The steps of goroutines. -/
theorem publisher_step {a : Action} {g : Nat} (h : liveStep s.state a = some s')
    (ha : IsPublisher a g) : ∃ t, s' = StateOf.state t ∧ PublisherTrans s a t := by
  obtain ⟨t, rfl⟩ | rfl | rfl | ⟨answer, rfl⟩ | rfl | rfl := ha <;> simp only [liveStep] at h <;>
    split at h
  · next exec call timestamp k hg =>
    obtain ⟨st, hat, hst⟩ := publishing_of_goroutine hg
    obtain ⟨rfl, rfl⟩ := prog_now call hst
    cases h
    refine ⟨_, ?_, .clockRead hat⟩
    rw [state_tick, state_resume]
    rfl
  · cases h
  · next exec call timestamp m k hg =>
    obtain ⟨st, hat, hst⟩ := publishing_of_goroutine hg
    obtain ⟨t, rounds, lastErr, rfl, -, -⟩ := prog_write call hst
    split at h
    · next hopen =>
      cases h
      exact ⟨_, (state_handOver g).symm, .handedOver hat hopen.1 hopen.2⟩
    · cases h
  · cases h
  · next exec call timestamp m k hg =>
    obtain ⟨st, hat, hst⟩ := publishing_of_goroutine hg
    obtain ⟨t, rounds, lastErr, rfl, rfl, -⟩ := prog_write call hst
    split at h
    · next hhanded =>
      cases h
      exact ⟨_, (state_append _).symm, .stored hat hhanded⟩
    · cases h
  · cases h
  · next exec call timestamp m k hg =>
    obtain ⟨st, hat, hst⟩ := publishing_of_goroutine hg
    obtain ⟨t, rounds, lastErr, rfl, rfl, rfl⟩ := prog_write call hst
    split at h
    · next htaken =>
      cases h
      refine ⟨_, ?_, .wrote hat htaken⟩
      rw [state_release, state_resume]
      rfl
    · cases h
  · cases h
  · next exec call timestamp ms k hg =>
    obtain ⟨st, hat, hst⟩ := publishing_of_goroutine hg
    obtain ⟨t, rounds, lastErr, rfl, rfl⟩ := prog_sleep call hst
    cases h
    refine ⟨_, ?_, .woke hat⟩
    rw [state_resume]
    rfl
  · cases h
  · next exec call timestamp e k hg =>
    obtain ⟨⟨exec', call', timestamp', stage⟩, hp, hG⟩ := publication_of_goroutine hg
    split at h
    · next hhanded =>
      cases h
      refine ⟨_, ?_, .panicked hp (hG ▸ rfl) hhanded⟩
      simp only [Publication.goroutine, Goroutine.mk.injEq] at hG
      obtain ⟨rfl, rfl, rfl, -⟩ := hG
      rw [state_resume]
      rfl
    · cases h
  · cases h

/-- The steps of `main`. -/
theorem lifecycle_step {a : Action} (h : liveStep s.state a = some s')
    (ha : a = .signal ∨ (∃ b, a = .shutdown b) ∨ a = .close ∨ a = .exit) :
    ∃ t, s' = StateOf.state t ∧ LifecycleTrans s a t := by
  rcases ha with rfl | ⟨timedOut, rfl⟩ | rfl | rfl <;> simp only [liveStep] at h <;> split at h
  · next hp =>
    cases h
    exact ⟨_, rfl, .signal hp⟩
  · cases h
  · next hp =>
    cases h
    refine ⟨_, rfl, .shutdown hp.1 (hp.2.imp_right fun hall i op st hat => ?_)⟩
    have hmem : (Exec.running op st.prog) ∈ s.state.execs :=
      List.mem_of_getElem? (exec_of_at hat)
    exact absurd (List.all_eq_true.mp hall _ hmem) (by simp [Exec.isReturned])
  · cases h
  · next hp =>
    cases h
    exact ⟨_, rfl, .close hp⟩
  · cases h
  · next hp =>
    cases h
    exact ⟨_, rfl, .exit hp.1 hp.2⟩
  · cases h

end StepLemmas

/-- Every step is one of the outcomes of `Trans`. -/
theorem step_trans {s : Snapshot} {s' : State} {a : Action} (h : step s.state a = some s') :
    ∃ t, s' = StateOf.state t ∧ Trans s a t := by
  unfold step at h
  split at h
  · cases h
  cases a with
  | call op =>
    simp only [liveStep, Op.prog_eq_start] at h
    split at h
    · next haccept =>
      cases h
      exact ⟨_, (state_call op (.running op op.start)).symm, .called haccept⟩
    · cases h
  | draw i fresh =>
    simp only [liveStep] at h
    split at h
    · next op k hi =>
      obtain ⟨st, hat, hst⟩ := at_of_running hi
      obtain ⟨name, deviceType, rfl, rfl⟩ := prog_draw hst
      split at h
      · next hfresh =>
        cases h
        refine ⟨_, ?_, .drew hat hfresh.1 hfresh.2⟩
        rw [state_draw, state_goOn]
        rfl
      · cases h
    · cases h
  | sql i fault order =>
    simp only [liveStep] at h
    split at h
    · -- a statement fails because of the network, or in the database, or succeeds
      next op stmt k hi =>
      obtain ⟨st, hat, hst⟩ := at_of_running hi
      split at h
      · next horder =>
        cases h
        unfold State.execute
        split
        · next f =>
          obtain ⟨hquery, context, hk⟩ := failed_of_sql hst f
          rw [hk]
          exact ⟨_, (state_goOn i (.running op (.failed context f))).symm,
            .failed hat hquery (by simp [State.fails, hi])⟩
        · split
          · next f hf =>
            obtain ⟨hquery, context, hk⟩ := failed_of_sql hst f
            rw [hk]
            exact ⟨_, (state_goOn i (.running op (.failed context f))).symm,
              .failed hat hquery (by simp [State.fails, hi, hf, Except.toOption])⟩
          · next d hd =>
            obtain ⟨st', hk, htrans⟩ := sql_trans hat hst horder hd
            refine ⟨_, ?_, htrans⟩
            rw [hk, state_commit, state_goOn]
            rfl
      · cases h
    · cases h
  | go i =>
    simp only [liveStep] at h
    split at h
    · next op call k hi =>
      obtain ⟨st, hat, hst⟩ := at_of_running hi
      obtain ⟨reply, rfl, rfl⟩ := prog_go hst
      cases h
      refine ⟨_, ?_, .announced hat⟩
      rw [state_spawn, state_goOn, goroutine_start]
      rfl
    · cases h
  | ret i =>
    simp only [liveStep] at h
    split at h
    · next op r hi =>
      obtain ⟨st, hat, hst⟩ := at_of_running hi
      obtain rfl := prog_pure hst
      cases h
      refine ⟨_, ?_, .returned hat⟩
      rw [state_ret, state_goOn]
      rfl
    · cases h
  | clock g t =>
    obtain ⟨t, ht, htrans⟩ := publisher_step h (.inl ⟨t, rfl⟩)
    exact ⟨t, ht, .publisher htrans⟩
  | handOver g =>
    obtain ⟨t, ht, htrans⟩ := publisher_step h (.inr (.inl rfl))
    exact ⟨t, ht, .publisher htrans⟩
  | store g =>
    obtain ⟨t, ht, htrans⟩ := publisher_step h (.inr (.inr (.inl rfl)))
    exact ⟨t, ht, .publisher htrans⟩
  | write g answer =>
    obtain ⟨t, ht, htrans⟩ := publisher_step h (.inr (.inr (.inr (.inl ⟨answer, rfl⟩))))
    exact ⟨t, ht, .publisher htrans⟩
  | wake g =>
    obtain ⟨t, ht, htrans⟩ := publisher_step h (.inr (.inr (.inr (.inr (.inl rfl)))))
    exact ⟨t, ht, .publisher htrans⟩
  | panic g =>
    obtain ⟨t, ht, htrans⟩ := publisher_step h (.inr (.inr (.inr (.inr (.inr rfl)))))
    exact ⟨t, ht, .publisher htrans⟩
  | signal =>
    obtain ⟨t, ht, htrans⟩ := lifecycle_step h (.inl rfl)
    exact ⟨t, ht, .lifecycle htrans⟩
  | shutdown timedOut =>
    obtain ⟨t, ht, htrans⟩ := lifecycle_step h (.inr (.inl ⟨timedOut, rfl⟩))
    exact ⟨t, ht, .lifecycle htrans⟩
  | close =>
    obtain ⟨t, ht, htrans⟩ := lifecycle_step h (.inr (.inr (.inl rfl)))
    exact ⟨t, ht, .lifecycle htrans⟩
  | exit =>
    obtain ⟨t, ht, htrans⟩ := lifecycle_step h (.inr (.inr (.inr rfl)))
    exact ⟨t, ht, .lifecycle htrans⟩

/-! ## 2. The run rules -/

section Runs

variable {table : Table} {clock : Instant} {as : List Action} {s : State}

/-- A property of the actions taken and the snapshot reached that holds at first and is kept
by every outcome holds after every run from this snapshot. -/
theorem trans_run {P : List Action → Snapshot → Prop} {t₀ : Snapshot} (h₀ : P [] t₀)
    (hstep : ∀ as t a t', P as t → Trans t a t' → P (as ++ [a]) t')
    (h : Machine.run step t₀.state as = some s) : ∃ t, s = StateOf.state t ∧ P as t := by
  refine Machine.run_induction (P := fun as s => ∃ t, s = StateOf.state t ∧ P as t)
    ⟨_, rfl, h₀⟩ ?_ h
  rintro as _ a s' _ ⟨t, rfl, hp⟩ hs
  obtain ⟨t', rfl, htrans⟩ := step_trans hs
  exact ⟨t', rfl, hstep as t a t' hp htrans⟩

/-- The same from the start. -/
theorem trans_induction {P : List Action → Snapshot → Prop}
    (h₀ : P [] (StateOf.start table clock))
    (hstep : ∀ as t a t', P as t → Trans t a t' → P (as ++ [a]) t')
    (h : Reaches table clock as s) : ∃ t, s = StateOf.state t ∧ P as t :=
  trans_run h₀ hstep h

/-- The run rule for runs all of whose steps meet the condition `C`, from any snapshot. -/
theorem guarded_trans_run {C : State → Action → Prop} {P : List Action → Snapshot → Prop}
    {t₀ : Snapshot} (h₀ : P [] t₀)
    (hstep : ∀ as t a t', P as t → C t.state a → Trans t a t' → P (as ++ [a]) t')
    (hC : Machine.Guarded step C t₀.state as) (h : Machine.run step t₀.state as = some s) :
    ∃ t, s = StateOf.state t ∧ P as t := by
  refine Machine.guarded_induction (P := fun as s => ∃ t, s = StateOf.state t ∧ P as t)
    ⟨_, rfl, h₀⟩ ?_ hC h
  rintro as _ a s' _ ⟨t, rfl, hp⟩ hc hs
  obtain ⟨t', rfl, htrans⟩ := step_trans hs
  exact ⟨t', rfl, hstep as t a t' hp hc htrans⟩

/-- The same from the start. -/
theorem guarded_trans_induction {C : State → Action → Prop} {P : List Action → Snapshot → Prop}
    (h₀ : P [] (StateOf.start table clock))
    (hstep : ∀ as t a t', P as t → C t.state a → Trans t a t' → P (as ++ [a]) t')
    (hC : Machine.Guarded step C (StateOf.start table clock) as)
    (h : Reaches table clock as s) : ∃ t, s = StateOf.state t ∧ P as t :=
  guarded_trans_run h₀ hstep hC h

end Runs

end AssetTracker.GoService
