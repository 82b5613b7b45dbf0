import Mathlib.Data.Nat.ModEq
import AssetTracker.Lib.Partitioned
import AssetTracker.Lib.Pool
import AssetTracker.Go.Publisher

/-!
# The partitions of the topic (Go service)

The comment of `publish` says that the message is keyed by `deviceID` "to ensure
partition ordering per device". The key takes effect through the `Balancer` of the
writer only, and `main` sets none: the writer goes round the partitions and ignores
the key. Any number of closures publish at the same time; each call of
`WriteMessages`, a retry included, asks the balancer anew.

Results:
1. `step_log`: what a step does to the log.
2. `placed_reaches`: the partition of a message is the number of the call modulo
   the number of partitions.
3. `together_iff_aligned`: a device stays in one partition, and its messages are
   read in order, exactly when every message stored for it comes a multiple of the
   number of partitions after those before.
-/

namespace AssetTracker.GoService.Partitions

open Effects Encoding Partitioned

/-! ## The writer -/

/-- A `kafka.Balancer`: the partition of a message, by the number of earlier calls, the
key and the number of partitions. -/
abbrev Balancer := Nat → ByteArray → Nat → Nat

/-- The default of the library. -/
def roundRobin : Balancer := fun asked _ partitions => asked % partitions

/-- The fields of `kafka.Writer` that `main` sets, and the balancer. -/
structure Writer where
  addr : String
  topic : String
  writeTimeoutSeconds : Nat
  allowAutoTopicCreation : Bool
  balancer : Option Balancer

/-- `os.Getenv` with the default that `main` puts in for the empty string. -/
def getenv (value : Option String) (default : String) : String :=
  if value.getD "" = "" then default else value.getD ""

/-- `kafkaWriter`, with the variables `KAFKA_BROKER` and `KAFKA_TOPIC`. -/
def kafkaWriter (broker topic : Option String) : Writer where
  addr := getenv broker "kafka:9092"
  topic := getenv topic "device-events"
  writeTimeoutSeconds := 5
  allowAutoTopicCreation := true
  balancer := none

def Writer.balance (w : Writer) : Balancer := w.balancer.getD roundRobin

/-! ## The topic -/

/-- A stored message: the number of the balancer's call, and the partition it gave. -/
structure Entry where
  asked : Nat
  partition : Nat
  message : Message

def Entry.deviceID (e : Entry) : Option String := e.message.deviceID

/-- How often the balancer was asked, and the messages in the order in which they were
written. -/
structure Topic where
  asked : Nat
  log : List Entry

/-- What becomes of a call of `WriteMessages`. Without the list of partitions it fails
before the balancer is asked; after that it may fail with the message stored. -/
inductive Delivery where
  | accepted
  | failed (error : String) (stored : Bool)
  | unrouted (error : String)
deriving DecidableEq

def Delivery.answer : Delivery → Except String Unit
  | .accepted => .ok ()
  | .failed error _ => .error error
  | .unrouted error => .error error

def Delivery.stored : Delivery → Bool
  | .accepted => true
  | .failed _ stored => stored
  | .unrouted _ => false

def Delivery.routed : Delivery → Bool
  | .unrouted _ => false
  | _ => true

/-- The topic after a call of `WriteMessages`. -/
def Topic.write (w : Writer) (partitions : Nat) (t : Topic) (m : Message) (d : Delivery) : Topic where
  asked := if d.routed then t.asked + 1 else t.asked
  log := if d.stored then t.log ++ [⟨t.asked, w.balance t.asked m.key partitions, m⟩] else t.log

/-- What the outside answers: the clock, and what becomes of a write. -/
structure Input where
  now : Instant
  delivery : Delivery
deriving DecidableEq

def handle (w : Writer) (partitions : Nat) :
    (e : PublishEffect) → Input → Topic → Option (e.Answer × Topic)
  | .now, x, t => some (x.now, t)
  | .write m, x, t => some (x.delivery.answer, t.write w partitions m x.delivery)
  | .sleep _, _, t => some ((), t)

/-- The closures that publish through the writer, each started at any time. -/
def publishers (w : Writer) (partitions : Nat) :
    System PublishCall Input PublishEffect.Answer (Except Err Unit) Topic where
  enter _ t := some t
  body := PublishCall.body
  handle := handle w partitions

abbrev State := Pool PublishCall PublishEffect.Answer (Except Err Unit) Topic

abbrev Action := PoolAction PublishCall Input

/-- Reached from an empty topic by the writer of `main`. -/
def Reaches (broker topic : Option String) (partitions : Nat) (as : List Action) (s : State) : Prop :=
  (publishers (kafkaWriter broker topic) partitions).Reaches ⟨0, []⟩ as s

/-- A message is stored for a device only when the number of calls since any earlier
message of the device is a multiple of the number of partitions. The writer has no `Balancer`,
so each call goes to the next partition, whatever its key. -/
def Aligned (partitions : Nat) (s : State) : Action → Prop
  | .spawn _ => True
  | .run i x => ∀ call m k, s.threads[i]? = some ⟨call, .op (.write m) k⟩ →
      x.delivery.stored = true →
      ∀ e ∈ s.shared.log, e.deviceID = m.deviceID → partitions ∣ s.shared.asked - e.asked

/-! ## 1. Steps -/

section

variable {w : Writer} {broker topic : Option String} {partitions : Nat} {as : List Action}
  {s s' : State} {a : Action}

/-- A step leaves the log as it is, or appends the message of a write with the partition
that the balancer gives it. -/
theorem step_log (h : (publishers w partitions).step s a = some s') :
    (s'.shared.log = s.shared.log ∧ s.shared.asked ≤ s'.shared.asked) ∨
    ∃ i x call m k, a = .run i x ∧ s.threads[i]? = some ⟨call, .op (.write m) k⟩ ∧
      x.delivery.stored = true ∧
      s'.shared = ⟨s.shared.asked + 1,
        s.shared.log ++ [⟨s.shared.asked, w.balance s.shared.asked m.key partitions, m⟩]⟩ := by
  cases a with
  | spawn call =>
    cases h
    exact .inl ⟨rfl, Nat.le_refl _⟩
  | run i x =>
    rw [System.step] at h
    split at h
    · next call e k hi =>
      cases e with
      | now =>
        cases h
        exact .inl ⟨rfl, Nat.le_refl _⟩
      | sleep _ =>
        cases h
        exact .inl ⟨rfl, Nat.le_refl _⟩
      | write m =>
        cases h
        show (Topic.log (Topic.write _ _ _ _ _) = _ ∧ _ ≤ Topic.asked (Topic.write _ _ _ _ _)) ∨ _
        cases hd : x.delivery with
        | unrouted error => exact .inl ⟨rfl, Nat.le_refl _⟩
        | accepted => exact .inr ⟨i, x, call, m, k, rfl, hi, by rw [hd]; rfl, rfl⟩
        | failed error stored =>
          cases stored with
          | false => exact .inl ⟨rfl, Nat.le_succ _⟩
          | true => exact .inr ⟨i, x, call, m, k, rfl, hi, by rw [hd]; rfl, rfl⟩
    · cases h

theorem step_write {i : Nat} {x : Input} {call : PublishCall} {m : Message}
    {k : Except String Unit → Publisher (Except Err Unit)}
    (hi : s.threads[i]? = some ⟨call, .op (.write m) k⟩) (hstored : x.delivery.stored = true)
    (h : (publishers w partitions).step s (.run i x) = some s') :
    s'.shared.log =
      s.shared.log ++ [⟨s.shared.asked, w.balance s.shared.asked m.key partitions, m⟩] := by
  rw [System.step, hi] at h
  cases h
  show Topic.log (Topic.write _ _ _ _ _) = _
  rw [Topic.write, if_pos hstored]

/-- What is stored stays. -/
theorem log_grows (h : Machine.run (publishers w partitions).step s as = some s') :
    s.shared.log <+: s'.shared.log := by
  refine Machine.invariant_run (I := fun t : State => s.shared.log <+: t.shared.log) ?_ ?_ h
  · intro t a t' ht hstep
    rcases step_log hstep with ⟨heq, -⟩ | ⟨_, _, _, _, _, -, -, -, hshared⟩
    · rwa [heq]
    · rw [hshared]
      exact ht.trans (List.prefix_append _ _)
  · exact List.prefix_refl _

/-! ## 2. Places -/

/-- The calls of the balancer that stored a message are past, and each has put it in the
partition that was next. -/
def Placed (partitions : Nat) (t : Topic) : Prop :=
  ∀ e ∈ t.log, e.asked < t.asked ∧ e.partition = e.asked % partitions

theorem placed_step (hp : Placed partitions s.shared)
    (h : (publishers (kafkaWriter broker topic) partitions).step s a = some s') :
    Placed partitions s'.shared := by
  rcases step_log h with ⟨hlog, hasked⟩ | ⟨_, _, _, _, _, -, -, -, hshared⟩
  · intro e he
    rw [hlog] at he
    exact ⟨Nat.lt_of_lt_of_le (hp e he).1 hasked, (hp e he).2⟩
  · rw [hshared]
    refine forall_snoc (fun e he => ?_) ⟨Nat.lt_succ_self _, rfl⟩
    exact ⟨Nat.lt_succ_of_lt (hp e he).1, (hp e he).2⟩

theorem placed_reaches (h : Reaches broker topic partitions as s) :
    Placed partitions s.shared :=
  Machine.invariant_run (I := fun t : State => Placed partitions t.shared)
    (fun _ _ _ => placed_step) (fun _ he => by cases he) h

/-- The next message for a device goes to its partition exactly when it comes a multiple
of the number of partitions later. -/
theorem same_partition_iff {e : Entry} {asked : Nat} (hpart : e.partition = e.asked % partitions)
    (hlt : e.asked < asked) :
    e.partition = asked % partitions ↔ partitions ∣ asked - e.asked := by
  rw [hpart]
  exact Nat.modEq_iff_dvd' (Nat.le_of_lt hlt)

/-! ## 3. Devices -/

theorem together_step (hp : Placed partitions s.shared)
    (ht : Together Entry.partition Entry.deviceID s.shared.log) (hc : Aligned partitions s a)
    (h : (publishers (kafkaWriter broker topic) partitions).step s a = some s') :
    Together Entry.partition Entry.deviceID s'.shared.log := by
  rcases step_log h with ⟨hlog, -⟩ | ⟨i, x, call, m, k, rfl, hi, hstored, hshared⟩
  · rwa [hlog]
  · rw [hshared]
    refine ht.snoc fun e he hdevice => ?_
    exact (same_partition_iff (hp e he).2 (hp e he).1).mpr (hc call m k hi hstored e he hdevice)

/-- Every device stays in one partition, and every reader of the partitions sees its
messages in the order in which they were written. -/
def DeviceOrdered (log : List Entry) : Prop :=
  Together Entry.partition Entry.deviceID log ∧
    ∀ read, Agree Entry.partition log read → Agree Entry.deviceID log read

/-- The devices are in order exactly in the runs whose writes are aligned. With one partition
these are all runs; with more, it is a matter of chance where the second event of a device goes. -/
theorem together_iff_aligned (broker topic : Option String) (partitions : Nat) (as : List Action)
    (s : State) (h : Reaches broker topic partitions as s) :
    DeviceOrdered s.shared.log ↔
      Machine.Guarded (publishers (kafkaWriter broker topic) partitions).step (Aligned partitions)
        ⟨⟨0, []⟩, []⟩ as := by
  unfold DeviceOrdered
  rw [← together_iff_agree, and_self]
  constructor
  · intro hall
    refine Machine.guarded_iff.mpr fun bs a cs t has hbs => ?_
    cases a with
    | spawn _ => trivial
    | run i x =>
      intro call m k hi hstored e he hdevice
      -- the rest of the run starts with this write, which appends its message
      rw [Reaches, System.Reaches, has] at h
      obtain ⟨t₁, ht₁, hrest⟩ := Machine.run_append_some h
      cases hbs.symm.trans ht₁
      obtain ⟨t', hstep, hend⟩ := Option.bind_eq_some_iff.mp hrest
      have hlog := step_write hi hstored hstep
      have hplaced := placed_reaches hbs e he
      refine (same_partition_iff hplaced.2 hplaced.1).mp
        (hall e ?_ ⟨t.shared.asked, t.shared.asked % partitions, m⟩ ?_ hdevice)
      · exact (log_grows hend).subset (hlog ▸ List.mem_append_left _ he)
      · exact (log_grows hend).subset (hlog ▸ List.mem_append_right _ (List.mem_singleton_self _))
  · intro hguard
    exact (Machine.guarded_induction (P := fun _ (t : State) =>
        Placed partitions t.shared ∧ Together Entry.partition Entry.deviceID t.shared.log)
      ⟨fun _ he => (by cases he), fun _ he => (by cases he)⟩
      (fun _ _ _ _ _ ⟨hp, ht⟩ hc hstep => ⟨placed_step hp hstep, together_step hp ht hc hstep⟩)
      hguard h).2

end

/-! ## Two partitions -/

/-- A device is created and then renamed; both events are stored at once. -/
def createUpdate (id : String) : List Action :=
  [.spawn (.created id "Old" 0), .run 0 ⟨0, .accepted⟩, .spawn (.updated id "New"),
    .run 1 ⟨1, .accepted⟩, .run 1 ⟨1, .accepted⟩]

/-- The topic of `createUpdate`. -/
def createUpdateLog (id : String) : List Entry :=
  [⟨0, 0, (PublishCall.created id "Old" 0).message 0⟩,
    ⟨1, 1, (PublishCall.updated id "New").message 1⟩]

theorem createUpdate_reaches (id : String) : ∃ s, Reaches none none 2 (createUpdate id) s ∧
    s.shared.log = createUpdateLog id :=
  ⟨_, rfl, rfl⟩

theorem deviceID_createUpdateLog {id : String} {e : Entry} (he : e ∈ createUpdateLog id) :
    e.deviceID = some id := by
  rcases List.mem_cons.mp he with rfl | he
  · exact message_deviceID _ _
  · cases List.mem_singleton.mp he
    exact message_deviceID _ _

/-- With two partitions the two events of a device are in different ones, and a reader
may see the new name before the old one. -/
theorem createUpdate_not_ordered : ∃ s, Reaches none none 2 (createUpdate "dev-1") s ∧
    s.shared.log = createUpdateLog "dev-1" ∧
    ¬ Together Entry.partition Entry.deviceID s.shared.log ∧
    ¬ ∀ read, Agree Entry.partition s.shared.log read → Agree Entry.deviceID s.shared.log read := by
  obtain ⟨s, hs, hlog⟩ := createUpdate_reaches "dev-1"
  have hapart : ¬ Together Entry.partition Entry.deviceID s.shared.log := by
    rw [hlog]
    intro h
    have hfirst : (⟨0, 0, (PublishCall.created "dev-1" "Old" 0).message 0⟩ : Entry) ∈
        createUpdateLog "dev-1" := List.mem_cons_self
    have hsecond : (⟨1, 1, (PublishCall.updated "dev-1" "New").message 1⟩ : Entry) ∈
        createUpdateLog "dev-1" := List.mem_cons_of_mem _ List.mem_cons_self
    have hsame := h _ hfirst _ hsecond
      ((deviceID_createUpdateLog hfirst).trans (deviceID_createUpdateLog hsecond).symm)
    cases hsame
  exact ⟨s, hs, hlog, hapart, fun h => hapart (together_iff_agree.mpr h)⟩

/-- Between the two events of one device the event of another one is stored. -/
def createBetween : List Action :=
  [.spawn (.created "dev-1" "Old" 0), .run 0 ⟨0, .accepted⟩, .spawn (.created "dev-2" "Other" 0),
    .run 1 ⟨0, .accepted⟩, .spawn (.updated "dev-1" "New"), .run 2 ⟨1, .accepted⟩,
    .run 2 ⟨1, .accepted⟩]

theorem aligned_write {partitions i : Nat} {s : State} {call : PublishCall} {m : Message}
    {k : Except String Unit → Prog PublishEffect.Answer (Except Err Unit)} {x : Input}
    (hi : s.threads[i]? = some ⟨call, .op (.write m) k⟩)
    (h : ∀ e ∈ s.shared.log, e.deviceID = m.deviceID → partitions ∣ s.shared.asked - e.asked) :
    Aligned partitions s (.run i x) := by
  intro call' m' k' hi' _
  cases hi.symm.trans hi'
  exact h

theorem deviceID_ne (call call' : PublishCall) {t t' : Instant}
    (hne : call.deviceID ≠ call'.deviceID) {asked partition : Nat} (partitions asked' : Nat)
    (h : (⟨asked, partition, call.message t⟩ : Entry).deviceID = (call'.message t').deviceID) :
    partitions ∣ asked' - asked := by
  refine absurd (Option.some.inj ?_) hne
  exact (message_deviceID call t).symm.trans (h.trans (message_deviceID call' t'))

theorem createBetween_aligned : Machine.Guarded (publishers (kafkaWriter none none) 2).step
    (Aligned 2) ⟨⟨0, []⟩, []⟩ createBetween := by
  refine Machine.guarded_cons trivial rfl (Machine.guarded_cons ?_ rfl ?_)
  · exact aligned_write rfl fun e he => absurd he List.not_mem_nil
  refine Machine.guarded_cons trivial rfl (Machine.guarded_cons ?_ rfl ?_)
  · refine aligned_write (m := (PublishCall.created "dev-2" "Other" 0).message 0) rfl fun e he => ?_
    obtain rfl := List.mem_singleton.mp he
    exact deviceID_ne (.created "dev-1" "Old" 0) (.created "dev-2" "Other" 0) (by decide) 2 1
  refine Machine.guarded_cons trivial rfl (Machine.guarded_cons ?_ rfl
    (Machine.guarded_cons ?_ rfl trivial))
  · intro call m k hi
    cases hi
  · -- the other device has taken the other partition
    refine aligned_write (m := (PublishCall.updated "dev-1" "New").message 1) rfl fun e he => ?_
    rcases List.mem_cons.mp he with rfl | he
    · exact fun _ => Nat.dvd_refl 2
    · obtain rfl := List.mem_singleton.mp he
      exact deviceID_ne (.created "dev-2" "Other" 0) (.updated "dev-1" "New") (by decide) 2 2

theorem together_iff_aligned_between : ∃ s, Reaches none none 2 createBetween s ∧
    s.shared.log.map Entry.partition = [0, 1, 0] ∧ DeviceOrdered s.shared.log := by
  obtain ⟨s, hs, hpartitions⟩ : ∃ s, Reaches none none 2 createBetween s ∧
      s.shared.log.map Entry.partition = [0, 1, 0] := ⟨_, rfl, rfl⟩
  exact ⟨s, hs, hpartitions,
    (together_iff_aligned none none 2 _ s hs).mpr createBetween_aligned⟩

end AssetTracker.GoService.Partitions
