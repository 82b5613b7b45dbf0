import AssetTracker.Lib.Pool

/-!
# Starting and stopping the consumer (Node service)

`KafkaEventConsumer.start` and `stop`. The calls may overlap: each is a thread,
which has one effect for every promise that it waits for. The port says that
`start` must be idempotent.

Results:
1. `orderly_trans`: what a step of one call does to the consumers, as long as
   `start` finds nothing connected.
2. `at_most_one`: in such runs at most one consumer is connected, and none after
   a `stop` that succeeded.
3. `two_consumers`: two calls of `start` connect two consumers, and `stop` leaves one.
-/

namespace AssetTracker.ConsumerLifecycle

open Effects

/-! ## The adapter -/

/-- The field `consumer` of the adapter, and for each consumer that was made whether it is
connected. -/
structure Adapter where
  consumer : Option Nat
  connected : List Bool
deriving DecidableEq, Repr

/-- `new KafkaEventConsumer`. -/
def newAdapter : Adapter := ⟨none, []⟩

def Adapter.IsConnected (s : Adapter) (c : Nat) : Prop := s.connected[c]? = some true

inductive Effect where
  | connect (c : Nat)
  /-- `this.consumer.subscribe` and `this.consumer.run`, of whatever `this.consumer` is. -/
  | subscribe
  | run
  | disconnect (c : Nat)
deriving DecidableEq, Repr

/-- The promise is fulfilled. -/
abbrev Effect.Answer : Effect → Type := fun _ => Bool

/-- The line that a call logs before it returns. -/
inductive Log where
  | started
  | startFailed
  | disconnected
  | disconnectFailed
  | nothing
deriving DecidableEq, Repr

abbrev Program := Prog Effect.Answer Log

/-- `start`, from its first `await` on. `created` is what `this.kafka.consumer` made, if it
did not throw. -/
def start (created : Option Nat) : Program :=
  match created with
  | none => return .startFailed
  | some c => do
    if ← Prog.perform (Effect.connect c) then
      if ← Prog.perform Effect.subscribe then
        if ← Prog.perform Effect.run then
          return .started
    return .startFailed

/-- `stop`, from its first `await` on. `current` is `this.consumer`. -/
def stop (current : Option Nat) : Program :=
  match current with
  | none => return .nothing
  | some c => do
    if ← Prog.perform (Effect.disconnect c) then
      return .disconnected
    return .disconnectFailed

/-- A call, with what it finds out before it waits for the first time. -/
inductive Call where
  | start (created : Option Nat)
  | stop (current : Option Nat)
deriving DecidableEq, Repr

def Call.body : Call → Program
  | start created => ConsumerLifecycle.start created
  | stop current => ConsumerLifecycle.stop current

/-- What a call does before it waits: `start` keeps the new consumer in `this.consumer`,
whatever was there. -/
def Adapter.call (s : Adapter) : Call → Option Adapter
  | .start none => some s
  | .start (some c) =>
    if c = s.connected.length then some ⟨some c, s.connected ++ [false]⟩ else none
  | .stop current => if current = s.consumer then some s else none

/-- The library settles a promise. -/
def Adapter.settle (e : Effect) (ok : Bool) (s : Adapter) : Option (Bool × Adapter) :=
  match e with
  | .connect c => some (ok, { s with connected := s.connected.set c ok })
  | .subscribe | .run => some (ok, s)
  | .disconnect c => some (ok, if ok then { s with connected := s.connected.set c false } else s)

def system : System Call Bool Effect.Answer Log Adapter where
  enter q s := s.call q
  body := Call.body
  handle e ok s := s.settle e ok

/-- Any number of calls, under way or returned. -/
abbrev Calls := Pool Call Effect.Answer Log Adapter

abbrev Action := PoolAction Call Bool

/-! ## The rule for callers -/

/-- A call that waits for `connect`. -/
def Connecting (t : Thread Call Effect.Answer Log) : Prop := ∃ c k, t.prog = .op (Effect.connect c) k

/-- `start` is called when every other call has returned and no consumer is connected;
`stop` when no call waits for `connect`. Every `start` puts a new consumer in the place of the
one that was there, which no `stop` then finds. -/
def Alone (p : Calls) : Action → Prop
  | .spawn (.start _) =>
    (∀ t ∈ p.threads, t.returned?.isSome = true) ∧ ∀ c, ¬ p.shared.IsConnected c
  | .spawn (.stop _) => ∀ t ∈ p.threads, ¬ Connecting t
  | .run _ _ => True

/-! ## 1. One step -/

/-- How far a call is. -/
inductive Phase where
  | connecting (c : Nat)
  | connected
  | disconnecting (c : Nat)
  | stopped
  | done
deriving DecidableEq, Repr

def Call.phase : Call → Phase
  | start (some c) => .connecting c
  | stop (some c) => .disconnecting c
  | start none | stop none => .done

inductive Next : Protocol Effect.Answer Phase
  | connect (c : Nat) : Next (.connecting c) (.connect c) true .connected
  | refuse (c : Nat) : Next (.connecting c) (.connect c) false .done
  | subscribe (ok : Bool) : Next .connected .subscribe ok .connected
  | run (ok : Bool) : Next .connected .run ok .connected
  | disconnect (c : Nat) : Next (.disconnecting c) (.disconnect c) true .stopped
  | keep (c : Nat) : Next (.disconnecting c) (.disconnect c) false .done

/-- A call returns after its last promise, and says `disconnected` after a disconnect. -/
def Ended : Phase → Log → Prop
  | .connecting _, _ | .disconnecting _, _ => False
  | .connected, log | .done, log => log ≠ .disconnected
  | .stopped, log => log = .disconnected

theorem body_follows (q : Call) : q.body.Follows Next Ended q.phase := by
  cases q with
  | start created =>
    cases created with
    | none => exact Log.noConfusion
    | some c =>
      show (start (some c)).Follows Next Ended (.connecting c)
      rintro (_ | _)
      · exact ⟨_, .refuse c, Log.noConfusion⟩
      · refine ⟨_, .connect c, ?_⟩
        rintro (_ | _)
        · exact ⟨_, .subscribe false, Log.noConfusion⟩
        · refine ⟨_, .subscribe true, ?_⟩
          rintro (_ | _)
          · exact ⟨_, .run false, Log.noConfusion⟩
          · exact ⟨_, .run true, Log.noConfusion⟩
  | stop current =>
    cases current with
    | none => exact Log.noConfusion
    | some c =>
      show (stop (some c)).Follows Next Ended (.disconnecting c)
      rintro (_ | _)
      · exact ⟨_, .keep c, Log.noConfusion⟩
      · exact ⟨_, .disconnect c, rfl⟩

/-- Only the last consumer that was made is connected, or waited for; and nobody waits for
its disconnect while somebody waits for its connect. -/
structure Orderly (s : Adapter) (phases : List Phase) : Prop where
  current : ∀ c, s.consumer = some c → c + 1 = s.connected.length
  connected : ∀ c, s.IsConnected c → c + 1 = s.connected.length
  connecting : ∀ c, .connecting c ∈ phases → c + 1 = s.connected.length
  disconnecting : ∀ c, .disconnecting c ∈ phases → c + 1 = s.connected.length
  apart : ∀ c d, .connecting c ∈ phases → .disconnecting d ∉ phases

namespace LifecycleLemmas

variable {s s' : Adapter} {ts : List (Thread Call Effect.Answer Log × Phase)} {a : Action}

/-- The phases of calls that have returned. -/
theorem ended_of_returned (hf : System.Following Next (fun _ => Ended) ts)
    (h : ∀ t ∈ ts.map Prod.fst, t.returned?.isSome = true) {φ : Phase} (hφ : φ ∈ ts.map Prod.snd) :
    ∃ log, Ended φ log := by
  obtain ⟨⟨⟨q, prog⟩, φ⟩, ht, rfl⟩ := List.mem_map.mp hφ
  have hreturned := h _ (List.mem_map_of_mem ht)
  have hfollows := hf _ ht
  cases prog with
  | pure log => exact ⟨log, hfollows⟩
  | op e k => cases hreturned

/-- A call in the phase `connecting` waits for `connect`. -/
theorem connecting_of_phase (hf : System.Following Next (fun _ => Ended) ts) {c : Nat}
    (hφ : .connecting c ∈ ts.map Prod.snd) : ∃ t ∈ ts.map Prod.fst, Connecting t := by
  obtain ⟨⟨⟨q, prog⟩, φ⟩, ht, hc⟩ := List.mem_map.mp hφ
  dsimp only at hc
  subst hc
  refine ⟨_, List.mem_map_of_mem ht, ?_⟩
  have hfollows := hf _ ht
  cases prog with
  | pure log => cases hfollows
  | op e k =>
    obtain ⟨φ', hnext, -⟩ := hfollows true
    cases hnext with
    | connect => exact ⟨c, k, rfl⟩

theorem isConnected_set {consumer : Option Nat} {connected : List Bool} {c d : Nat} {ok : Bool}
    (h : Adapter.IsConnected ⟨consumer, connected.set c ok⟩ d) :
    c = d ∧ ok = true ∨ c ≠ d ∧ Adapter.IsConnected ⟨consumer, connected⟩ d := by
  unfold Adapter.IsConnected at h ⊢
  dsimp only at h ⊢
  rw [List.getElem?_set] at h
  by_cases hcd : c = d
  · subst hcd
    rw [if_pos rfl] at h
    split at h
    · exact .inl ⟨rfl, Option.some.inj h⟩
    · cases h
  · rw [if_neg hcd] at h
    exact .inr ⟨hcd, h⟩

/-- A phase in which a call waits neither for `connect` nor for `disconnect`. -/
def Settled (φ : Phase) : Prop := ∀ c, φ ≠ .connecting c ∧ φ ≠ .disconnecting c

/-- What a promise can do: it connects at most the consumer that the call waits for. -/
theorem settle_spec {e : Effect} {ok : Bool} {r : e.Answer} {φ φ' : Phase}
    (hs : s.settle e ok = some (r, s')) (hnext : Next φ e r φ') :
    Settled φ' ∧ s'.consumer = s.consumer ∧ s'.connected.length = s.connected.length ∧
      ∀ d, s'.IsConnected d → s.IsConnected d ∨ φ = .connecting d := by
  have hsettled : Settled φ' := by
    cases hnext <;> exact fun _ => ⟨Phase.noConfusion, Phase.noConfusion⟩
  cases hnext with
  | connect c =>
    cases hs
    refine ⟨hsettled, rfl, List.length_set .., fun d hd => ?_⟩
    obtain ⟨rfl, -⟩ | ⟨-, hd⟩ := isConnected_set hd
    · exact .inr rfl
    · exact .inl hd
  | refuse c | disconnect c =>
    cases hs
    refine ⟨hsettled, rfl, List.length_set .., fun d hd => ?_⟩
    obtain ⟨-, hok⟩ | ⟨-, hd⟩ := isConnected_set hd
    · cases hok
    · exact .inl hd
  | subscribe | run | keep =>
    cases hs
    exact ⟨hsettled, rfl, rfl, fun d hd => .inl hd⟩

theorem mem_of_settled {before after : List Phase} {φ φ' ψ : Phase} (hφ' : Settled φ')
    (hψ : ¬ Settled ψ) (h : ψ ∈ before ++ φ' :: after) : ψ ∈ before ++ φ :: after := by
  simp only [List.mem_append, List.mem_cons] at h ⊢
  obtain h | rfl | h := h
  · exact .inl h
  · exact absurd hφ' hψ
  · exact .inr (.inr h)

/-- A call goes on, after a promise that connects at most the last consumer. -/
theorem orderly_move {before after : List Phase} {φ φ' : Phase}
    (h : Orderly s (before ++ φ :: after)) (hφ' : Settled φ') (hcurrent : s'.consumer = s.consumer)
    (hlength : s'.connected.length = s.connected.length)
    (hconnected : ∀ c, s'.IsConnected c → c + 1 = s.connected.length) :
    Orderly s' (before ++ φ' :: after) := by
  have hcon (c : Nat) : ¬ Settled (.connecting c) := fun hs => (hs c).1 rfl
  have hdis (c : Nat) : ¬ Settled (.disconnecting c) := fun hs => (hs c).2 rfl
  refine ⟨?_, ?_, ?_, ?_, ?_⟩
  · rw [hcurrent, hlength]
    exact h.current
  · rw [hlength]
    exact hconnected
  · rw [hlength]
    exact fun c hc => h.connecting c (mem_of_settled hφ' (hcon c) hc)
  · rw [hlength]
    exact fun c hc => h.disconnecting c (mem_of_settled hφ' (hdis c) hc)
  · exact fun c d hc hd =>
      h.apart c d (mem_of_settled hφ' (hcon c) hc) (mem_of_settled hφ' (hdis d) hd)

/-- A call that returns at once. -/
theorem orderly_done {phases : List Phase} (h : Orderly s phases) : Orderly s (phases ++ [.done]) := by
  have hmem {ψ : Phase} (hψ : ψ ≠ .done) (hin : ψ ∈ phases ++ [.done]) : ψ ∈ phases := by
    obtain hin | hin := List.mem_append.mp hin
    · exact hin
    · exact absurd (List.mem_singleton.mp hin) hψ
  exact ⟨h.current, h.connected, fun c hc => h.connecting c (hmem Phase.noConfusion hc),
    fun c hc => h.disconnecting c (hmem Phase.noConfusion hc),
    fun c d hc hd => h.apart c d (hmem Phase.noConfusion hc) (hmem Phase.noConfusion hd)⟩

/-- A call of `start` that makes a consumer. -/
theorem orderly_start {phases : List Phase} (hnone : ∀ c, ¬ s.IsConnected c)
    (hended : ∀ φ ∈ phases, ∃ log, Ended φ log) :
    Orderly ⟨some s.connected.length, s.connected ++ [false]⟩
      (phases ++ [.connecting s.connected.length]) := by
  have hphases {ψ : Phase} (hψ : ¬ Settled ψ) (hin : ψ ∈ phases ++ [.connecting s.connected.length]) :
      ψ = .connecting s.connected.length := by
    obtain hin | hin := List.mem_append.mp hin
    · -- a call that has returned waits for nothing
      obtain ⟨log, hlog⟩ := hended ψ hin
      refine absurd (fun c => ⟨?_, ?_⟩) hψ
      · rintro rfl
        exact hlog
      · rintro rfl
        exact hlog
    · exact List.mem_singleton.mp hin
  refine ⟨?_, ?_, ?_, ?_, ?_⟩
  · rintro c ⟨⟩
    simp
  · intro c hc
    unfold Adapter.IsConnected at hc
    dsimp only at hc
    rw [List.getElem?_append] at hc
    split at hc
    · exact absurd hc (hnone c)
    · have hfalse := List.mem_of_getElem? hc
      simp at hfalse
  · intro c hc
    cases hphases (fun hs => (hs c).1 rfl) hc
    simp
  · intro c hc
    cases hphases (fun hs => (hs c).2 rfl) hc
  · intro c d _ hd
    cases hphases (fun hs => (hs d).2 rfl) hd

/-- A call of `stop` while nobody waits for `connect`. -/
theorem orderly_stop {phases : List Phase} {c : Nat} (h : Orderly s phases)
    (hcurrent : s.consumer = some c) (hnone : ∀ d, .connecting d ∉ phases) :
    Orderly s (phases ++ [.disconnecting c]) := by
  have hphases (d : Nat) (hin : .connecting d ∈ phases ++ [.disconnecting c]) : False := by
    obtain hin | hin := List.mem_append.mp hin
    · exact hnone d hin
    · cases List.mem_singleton.mp hin
  refine ⟨h.current, h.connected, fun d hd => (hphases d hd).elim, fun d hd => ?_,
    fun d _ hd => (hphases d hd).elim⟩
  obtain hd | hd := List.mem_append.mp hd
  · exact h.disconnecting d hd
  · cases List.mem_singleton.mp hd
    exact h.current c hcurrent

end LifecycleLemmas

open LifecycleLemmas

/-- What a step of one call keeps, when the callers keep the rule. -/
theorem orderly_trans {s s' : Adapter} {ts ts' : List (Thread Call Effect.Answer Log × Phase)}
    {a : Action} (hf : System.Following Next (fun _ => Ended) ts)
    (hrule : Alone ⟨s, ts.map Prod.fst⟩ a) (h : Orderly s (ts.map Prod.snd))
    (ht : System.Trans system Call.phase Next s ts a s' ts') : Orderly s' (ts'.map Prod.snd) := by
  cases ht with
  | spawn q hs =>
    have hcall : s.call q = some s' := hs
    rw [List.map_append, List.map_singleton]
    cases q with
    | start created =>
      obtain ⟨hreturned, hnone⟩ := hrule
      cases created with
      | none =>
        cases hcall
        exact orderly_done h
      | some c =>
        rw [Adapter.call] at hcall
        split at hcall
        · next hc =>
          subst hc
          cases hcall
          exact orderly_start hnone fun φ hφ => ended_of_returned hf hreturned hφ
        · cases hcall
    | stop current =>
      rw [Adapter.call] at hcall
      split at hcall
      · next hcurrent =>
        cases hcall
        cases current with
        | none => exact orderly_done h
        | some c =>
          -- the rule: nobody waits for `connect`
          refine orderly_stop h hcurrent.symm fun d hd => ?_
          obtain ⟨t, hmem, hconnecting⟩ := connecting_of_phase hf hd
          exact hrule t hmem hconnecting
      · cases hcall
  | @run _ e r φ φ' before after q k ok hs hnext =>
    have hsettle : s.settle e ok = some (r, s') := hs
    rw [List.map_append, List.map_cons] at h ⊢
    obtain ⟨hsettled, hconsumer, hlength, hconnected⟩ := settle_spec hsettle hnext
    refine orderly_move h hsettled hconsumer hlength fun d hd => ?_
    -- the consumer that is connected now is the one that its call made last
    obtain hd | rfl := hconnected d hd
    · exact h.connected d hd
    · exact h.connecting d (by simp)

/-- The step in which `stop` returns after its disconnect succeeded leaves nothing connected. -/
theorem disconnected_trans {s s' : Adapter} {ts ts' : List (Thread Call Effect.Answer Log × Phase)}
    {i : Nat} {ok : Bool} (h : Orderly s (ts.map Prod.snd))
    (hf' : System.Following Next (fun _ => Ended) ts')
    (ht : System.Trans system Call.phase Next s ts (.run i ok) s' ts')
    (hreturned : ((ts'.map Prod.fst)[i]?.bind Thread.returned?) = some .disconnected) (c : Nat) :
    ¬ s'.IsConnected c := by
  cases ht with
  | @run _ e r φ φ' before after q k _ hs hnext =>
    have hsettle : s.settle e ok = some (r, s') := hs
    have hthread : ((before ++ (⟨q, k r⟩, φ') :: after).map Prod.fst)[before.length]? =
        some (⟨q, k r⟩ : Thread Call Effect.Answer Log) := by simp
    rw [hthread, Option.bind_some] at hreturned
    have hended : (k r).Follows Next Ended φ' := hf' (⟨q, k r⟩, φ') (by simp)
    have hlog : Ended φ' .disconnected := by
      unfold Thread.returned? at hreturned
      split at hreturned
      · next log hprog =>
        have hprog : k r = .pure log := hprog
        cases hreturned
        rwa [hprog] at hended
      · cases hreturned
    rw [List.map_append, List.map_cons] at h
    cases hnext with
    | connect c' => exact absurd rfl hlog
    | refuse c' => exact absurd rfl hlog
    | subscribe ok' => exact absurd rfl hlog
    | run ok' => exact absurd rfl hlog
    | keep c' => exact absurd rfl hlog
    | disconnect c' =>
      cases hsettle
      intro hc
      obtain ⟨-, hfalse⟩ | ⟨hne, hc⟩ := isConnected_set hc
      · cases hfalse
      · -- both are the last consumer
        have hlast := h.disconnecting c' (by simp)
        have hlast' := h.connected c hc
        omega

/-! ## 2. Runs that keep the rule -/

theorem orderly_start_run {as : List Action} {p : Calls}
    (hrule : Machine.Guarded system.step Alone ⟨newAdapter, []⟩ as)
    (h : system.Reaches newAdapter as p) :
    ∃ ts, p.threads = ts.map Prod.fst ∧ System.Following Next (fun _ => Ended) ts ∧
      Orderly p.shared (ts.map Prod.snd) := by
  refine System.guarded_protocol_run (P := fun _ s ts => Orderly s (ts.map Prod.snd)) body_follows
    ?_ ?_ hrule h
  · exact ⟨nofun, nofun, nofun, nofun, nofun⟩
  · exact fun _ _ _ _ _ _ _ horderly hf hc ht => orderly_trans hf hc horderly ht

/-- As long as `start` is called only when all other calls have returned and no consumer is
connected, and `stop` only when no connect is under way, at most one consumer is connected,
and none once a `stop` has returned after a disconnect. -/
theorem at_most_one {as : List Action} {p : Calls}
    (hrule : Machine.Guarded system.step Alone ⟨newAdapter, []⟩ as)
    (h : system.Reaches newAdapter as p) :
    (∀ c d, p.shared.IsConnected c → p.shared.IsConnected d → c = d) ∧
    ∀ i ok p', system.step p (.run i ok) = some p' →
      (p'.threads[i]?.bind Thread.returned?) = some .disconnected →
        ∀ c, ¬ p'.shared.IsConnected c := by
  obtain ⟨ts, hts, hf, horderly⟩ := orderly_start_run hrule h
  constructor
  · intro c d hc hd
    have hlast := horderly.connected c hc
    have hlast' := horderly.connected d hd
    omega
  · intro i ok p' hstep hreturned
    obtain ⟨ts', hts', hf', ht⟩ := System.step_trans body_follows hts hf hstep
    rw [hts'] at hreturned
    exact disconnected_trans horderly hf' ht hreturned

/-- A call that fails after its connect, a `stop`, and a call whose connect fails. -/
def retryRun : List Action :=
  [.spawn (.start (some 0)), .run 0 true, .run 0 false, .spawn (.stop (some 0)), .run 1 true,
    .spawn (.start (some 1)), .run 2 false]

theorem retryRun_rule : Machine.Guarded system.step Alone ⟨newAdapter, []⟩ retryRun := by
  have hnone (consumer : Option Nat) (connected : List Bool) (h : true ∉ connected) (c : Nat) :
      ¬ Adapter.IsConnected ⟨consumer, connected⟩ c := fun hc => h (List.mem_of_getElem? hc)
  refine Machine.guarded_cons ⟨by simp, hnone _ _ (by decide)⟩ rfl ?_
  refine Machine.guarded_cons trivial rfl (Machine.guarded_cons trivial rfl ?_)
  refine Machine.guarded_cons ?_ rfl (Machine.guarded_cons trivial rfl ?_)
  · rintro t ht ⟨c, k, hprog⟩
    obtain rfl := List.mem_singleton.mp ht
    cases hprog
  refine Machine.guarded_cons ⟨by decide, hnone _ _ (by decide)⟩ rfl ?_
  exact Machine.guarded_cons trivial rfl trivial

theorem at_most_one_retry : ∃ p, system.Reaches newAdapter retryRun p ∧
    (∀ c d, p.shared.IsConnected c → p.shared.IsConnected d → c = d) ∧
    ∀ i ok p', system.step p (.run i ok) = some p' →
      (p'.threads[i]?.bind Thread.returned?) = some .disconnected →
        ∀ c, ¬ p'.shared.IsConnected c := by
  obtain ⟨p, hp⟩ : ∃ p, system.Reaches newAdapter retryRun p := ⟨_, rfl⟩
  exact ⟨p, hp, at_most_one retryRun_rule hp⟩

/-- `start` twice: two consumers are connected, and a `stop` whose disconnect succeeds leaves
the first one. -/
theorem two_consumers : ∃ p p', system.Reaches newAdapter
      [.spawn (.start (some 0)), .run 0 true, .run 0 true, .run 0 true,
        .spawn (.start (some 1)), .run 1 true, .run 1 true, .run 1 true, .spawn (.stop (some 1))] p ∧
    p.shared.IsConnected 0 ∧ p.shared.IsConnected 1 ∧
    system.step p (.run 2 true) = some p' ∧
    (p'.threads[2]?.bind Thread.returned?) = some .disconnected ∧ p'.shared.IsConnected 0 :=
  ⟨_, _, rfl, rfl, rfl, rfl, rfl, rfl⟩

end AssetTracker.ConsumerLifecycle
