import AssetTracker.DeviceApi
import AssetTracker.Go.Shutdown

/-!
# Browsers and the device store

Any number of calls of `lib/api/devices.ts` are on their way at the same time, from any number
of browsers, to the one server. A call is sent, its request arrives, the server works for it
or refuses it, and its promise is settled when the response comes back. At any moment before,
its `fetch` may fail instead: the connection breaks, or a proxy answers with a page that is no
JSON. The promise is then rejected, and the request may be lost, may have been served, or may
still arrive and be served. Any other requests may come in, also such of other clients that
call a use case. The ids in the calls of browsers are of letters, digits and hyphens.

Results:
1. `step_moves`: the outcomes of a step.
2. `linked_move`, `told_move`: what every step keeps.
3. `promises_account`: what a promise says of the table, whatever fails.
4. `api_linearizable`: the browsers see one map of devices, on which every call that is
   settled by a response was one step, between the moment it was sent and the moment it was
   settled, and every other call, also of another client, was one step since it was sent, or
   none.
-/

namespace AssetTracker.Browsers

open Encoding Text Http GoService Server WebUi DeviceApi Linearizability InvariantLemmas
open LinearizabilityLemmas LayerLemmas ShutdownLemmas

/-! ## The machine -/

/-- A call of a use case, by a browser or by another client. -/
inductive Call where
  | browser (c : ApiCall)
  | other (op : Op)

def Call.useCase : Call → Op
  | browser c => DeviceApi.useCase c
  | other op => op

/-- What the promise of a call is settled with; `null` where there is no promise. -/
def Call.promised (zone : Device → Int) : Call → Result → Promise
  | browser c, result => DeviceApi.promised zone c result
  | other _, _ => .null

/-- How far a call is. -/
inductive Journey where
  | sent (token : String)
  /-- The execution `i` works for it. -/
  | serving (i : Nat)
  | refused (response : Response)
  | settled (exec : Option Nat) (v : Promise)

def Journey.exec? : Journey → Option Nat
  | sent _ => none
  | serving i => some i
  | refused _ => none
  | settled exec _ => exec

structure Flight where
  call : Call
  journey : Journey

/-- A promise of the flight can be settled. -/
def Flight.isOpen : Flight → Bool
  | ⟨.browser _, .settled ..⟩ => false
  | ⟨.browser _, _⟩ => true
  | ⟨.other _, _⟩ => false

structure State where
  server : Server.State
  flights : List Flight
  /-- A call whose `fetch` fails returns no response: here it stays pending. So do those of other
  clients. -/
  history : History Nat Call Promise
  /-- The calls whose `fetch` failed. -/
  rejected : List Nat

def State.start (table : Table) (clock : Instant) : State := ⟨.start table clock, [], [], []⟩

inductive Action where
  | send (c : ApiCall) (token : String)
  /-- The request of the call `k` comes to the server, and is checked. -/
  | arrive (k : Nat) (proxy : Proxy) (added : List (String × String)) (t : Instant)
    (monitor : Response)
  /-- A request that is not of one of the calls. -/
  | other (r : Request) (t : Instant) (monitor : Response)
  | service (a : GoService.Action)
  /-- The response to the call `k` comes back. Times are shown in the zone `zone`. -/
  | settle (k : Nat) (zone : Device → Int)
  /-- The `fetch` of the call `k`, or the reading of its response as JSON, fails. Nothing is
  known of its request, which goes on as before. -/
  | lose (k : Nat)

/-- The flight `k` goes on. -/
def State.goOn (s : State) (k : Nat) (f : Flight) (journey : Journey) : State :=
  { s with flights := s.flights.set k { f with journey := journey } }

/-- The promise of the flight `k` is settled. -/
def State.settle (s : State) (k : Nat) (f : Flight) (exec : Option Nat) (v : Promise) : State :=
  { s.goOn k f (.settled exec v) with history := s.history ++ [.ret k v] }

/-- The promise of the flight `k`, of a browser, is neither settled nor rejected. -/
def State.waits (s : State) (k : Nat) : Bool :=
  (s.flights[k]?.any Flight.isOpen) && !s.rejected.contains k

/-- The response that the execution `i` has for its caller. -/
def response? (server : Server.State) (i : Nat) : Option Response :=
  match server.service.execs[i]?, server.callers[i]? with
  | some (.returned _ result), some caller => some (caller.answer result)
  | _, _ => none

section

variable (jwt : Jwt) (config : AuthConfig)

def step (s : State) : Action → Option State
  | .send c token =>
    some { s with
      flights := s.flights ++ [⟨.browser c, .sent token⟩]
      history := s.history ++ [.call s.flights.length (.browser c)] }
  | .arrive k proxy added t monitor =>
    match s.flights[k]? with
    | some ⟨.browser c, .sent token⟩ =>
      match c.request proxy token added with
      | some r =>
        (Server.step jwt config s.server (.request r t monitor)).map fun server =>
          match serve jwt config monitor t r with
          | .respond response =>
            { s.goOn k ⟨.browser c, .sent token⟩ (.refused response) with server := server }
          | .call _ _ =>
            { s.goOn k ⟨.browser c, .sent token⟩ (.serving s.server.service.execs.length) with
              server := server }
      | none => none
    | _ => none
  | .other r t monitor =>
    (Server.step jwt config s.server (.request r t monitor)).map fun server =>
      match serve jwt config monitor t r with
      | .respond _ => { s with server := server }
      | .call op _ =>
        ⟨server, s.flights ++ [⟨.other op, .serving s.server.service.execs.length⟩],
          s.history ++ [.call s.flights.length (.other op)], s.rejected⟩
  | .service a =>
    (Server.step jwt config s.server (.service a)).map fun server => { s with server := server }
  | .settle k zone =>
    if s.waits k then
      match s.flights[k]? with
      | some ⟨c, .serving i⟩ =>
        (response? s.server i).map fun response =>
          s.settle k ⟨c, .serving i⟩ (some i) (settled zone response).1
      | some ⟨c, .refused response⟩ =>
        some (s.settle k ⟨c, .refused response⟩ none (settled zone response).1)
      | _ => none
    else none
  | .lose k => if s.waits k then some { s with rejected := s.rejected ++ [k] } else none

def Reaches (table : Table) (clock : Instant) (as : List Action) (s : State) : Prop :=
  Machine.run (step jwt config) (.start table clock) as = some s

end

/-! ## What browsers see -/

/-- One call as a step of the map: its use case is, or it is refused and changes nothing. -/
inductive ApiSpec (m : DeviceMap) : Call → Promise → DeviceMap → Prop
  | served {call : Call} {zone : Device → Int} {result : Result} {m' : DeviceMap} :
      MapSpec Device.stored m call.useCase result m' →
      ApiSpec m call (call.promised zone result) m'
  | refused {c : ApiCall} {message : String} :
      ApiSpec m (.browser c) (.thrown 401 (errorBody message)) m

/-- The call of a flight and the execution that works, or worked, for it. -/
def State.link (s : State) (k : Nat) : Option (Call × Nat) :=
  s.flights[k]?.bind fun f => f.journey.exec?.map fun i => (f.call, i)

/-- The changes that were committed for a call. -/
def State.changes (s : State) (k : Nat) : List Change :=
  match s.link k with
  | some (_, i) => changesOf s.server.service i
  | none => []

/-- What promises say of the table. A change is made for one call, and at no moment has a call
made more than the one change that it asked for, also if its `fetch` failed. When a response has
settled its promise, the promise tells more: no change was made for a call that throws, and
exactly the change that it asked for was made for one that does not. -/
structure Account (s : State) : Prop where
  owned : ∀ i change, (i, change) ∈ s.server.service.commits →
    ∃ k call, s.link k = some (call, i) ∧ ∀ k' call', s.link k' = some (call', i) → k' = k
  attempted : ∀ k call, Event.call k call ∈ s.history → s.changes k = [] ∨
    ∃ reply change publish, s.changes k = [change] ∧ Announces call.useCase reply change publish
  rejected : ∀ k ∈ s.rejected, ∀ v, Event.ret k v ∉ s.history
  thrown : ∀ k status body, Event.ret k (.thrown status body) ∈ s.history → s.changes k = []
  kept : ∀ k c v, Event.call k (.browser c) ∈ s.history → Event.ret k v ∈ s.history →
    (∀ status body, v ≠ .thrown status body) →
    if (useCase c).mutates then
      ∃ zone reply change publish, s.changes k = [change] ∧
        Announces (useCase c) reply change publish ∧ v = promised zone c (.ok reply)
    else s.changes k = []

/-- The use case that a request is answered with. -/
def called? : Outcome → Option Op
  | .call op _ => some op
  | .respond _ => none

/-- No statement fails, and ids are given in canonical form, also by other clients. Whether a
`fetch` fails does not matter. -/
def CleanMove (jwt : Jwt) (config : AuthConfig) (s : State) : Action → Prop
  | .send c _ => c.id?.all isCanonical = true
  | .other r t monitor =>
    ((called? (serve jwt config monitor t r)).all fun op => op.id?.all isCanonical) = true
  | .service a => s.server.service.fails a = false
  | _ => True

instance (jwt : Jwt) (config : AuthConfig) (s : State) : ∀ a, Decidable (CleanMove jwt config s a)
  | .send c _ => inferInstanceAs (Decidable (c.id?.all isCanonical = true))
  | .other r t monitor => inferInstanceAs (Decidable
      (((called? (serve jwt config monitor t r)).all fun op => op.id?.all isCanonical) = true))
  | .service a => inferInstanceAs (Decidable (s.server.service.fails a = false))
  | .arrive .. | .settle .. | .lose _ => isTrue trivial

/-! ## 1. Steps -/

/-- The outcomes of an action. -/
inductive Moves (jwt : Jwt) (config : AuthConfig) (s : State) : Action → State → Prop
  | sent {c : ApiCall} {token : String} :
      Moves jwt config s (.send c token)
        ⟨s.server, s.flights ++ [⟨.browser c, .sent token⟩],
          s.history ++ [.call s.flights.length (.browser c)], s.rejected⟩
  | refused {k : Nat} {proxy : Proxy} {added : List (String × String)} {t : Instant}
      {monitor response : Response} {c : ApiCall} {token message : String} {log : List Exchange} :
      s.flights[k]? = some ⟨.browser c, .sent token⟩ →
      (∀ zone, settled zone response = (.thrown 401 (errorBody message), true)) →
      Moves jwt config s (.arrive k proxy added t monitor)
        ⟨{ s.server with log := log }, s.flights.set k ⟨.browser c, .refused response⟩, s.history,
          s.rejected⟩
  | accepted {k : Nat} {proxy : Proxy} {added : List (String × String)} {t : Instant}
      {monitor : Response} {c : ApiCall} {token : String} {service : GoService.State}
      {caller : Caller} :
      s.flights[k]? = some ⟨.browser c, .sent token⟩ →
      (∀ zone result, settled zone (caller.answer result) = (promised zone c result, false)) →
      GoService.step s.server.service (.call (useCase c)) = some service →
      Moves jwt config s (.arrive k proxy added t monitor)
        ⟨⟨service, s.server.callers ++ [caller], s.server.log⟩,
          s.flights.set k ⟨.browser c, .serving s.server.service.execs.length⟩, s.history,
          s.rejected⟩
  | logged {r : Request} {t : Instant} {monitor : Response} {log : List Exchange} :
      Moves jwt config s (.other r t monitor)
        ⟨{ s.server with log := log }, s.flights, s.history, s.rejected⟩
  | entered {r : Request} {t : Instant} {monitor : Response} {op : Op}
      {answer : Result → Response} {service : GoService.State} :
      serve jwt config monitor t r = .call op answer →
      GoService.step s.server.service (.call op) = some service →
      Moves jwt config s (.other r t monitor)
        ⟨⟨service, s.server.callers ++ [⟨r, t, answer⟩], s.server.log⟩,
          s.flights ++ [⟨.other op, .serving s.server.service.execs.length⟩],
          s.history ++ [.call s.flights.length (.other op)], s.rejected⟩
  | served {b : GoService.Action} {service : GoService.State} {log : List Exchange} :
      isCall b = false → GoService.step s.server.service b = some service →
      Moves jwt config s (.service b)
        ⟨⟨service, s.server.callers, log⟩, s.flights, s.history, s.rejected⟩
  | settled {k i : Nat} {zone : Device → Int} {c : ApiCall} {op : Op} {result : Result}
      {caller : Caller} :
      s.waits k = true → s.flights[k]? = some ⟨.browser c, .serving i⟩ →
      s.server.service.execs[i]? = some (.returned op result) →
      s.server.callers[i]? = some caller →
      Moves jwt config s (.settle k zone)
        (s.settle k ⟨.browser c, .serving i⟩ (some i) (settled zone (caller.answer result)).1)
  | thrown {k : Nat} {zone : Device → Int} {c : ApiCall} {response : Response} :
      s.waits k = true → s.flights[k]? = some ⟨.browser c, .refused response⟩ →
      Moves jwt config s (.settle k zone)
        (s.settle k ⟨.browser c, .refused response⟩ none (DeviceApi.settled zone response).1)
  | lost {k : Nat} : s.waits k = true →
      Moves jwt config s (.lose k) ⟨s.server, s.flights, s.history, s.rejected ++ [k]⟩

variable {jwt : Jwt} {config : AuthConfig} {s s' : State} {a : Action}

namespace BrowserLemmas

/-- What a step of the service lets its callers see. -/
theorem visible_step {q q' : GoService.State} {b : GoService.Action}
    (h : GoService.step q b = some q') (hb : isCall b = false) :
    (∃ i op r, b = .ret i ∧ q.execs[i]? = some (.running op (.pure r)) ∧
      q'.execs = q.execs.set i (.returned op r) ∧ q'.history = q.history ++ [.ret i r]) ∨
    q'.history = q.history ∧ (q'.execs = q.execs ∨ ∃ i op p p',
      q.execs[i]? = some (.running op p) ∧ q'.execs = q.execs.set i (.running op p')) := by
  unfold GoService.step at h
  split at h
  · cases h
  · cases b with
    | call op => cases hb
    | draw i fresh =>
      simp only [liveStep] at h
      split at h
      · next hexec =>
        split at h
        · cases h
          exact .inr ⟨rfl, .inr ⟨i, _, _, _, hexec, rfl⟩⟩
        · cases h
      · cases h
    | sql i fault order =>
      simp only [liveStep] at h
      split at h
      · next hexec =>
        split at h
        · cases h
          refine .inr ?_
          unfold State.execute
          split
          · exact ⟨rfl, .inr ⟨i, _, _, _, hexec, rfl⟩⟩
          · split
            · exact ⟨rfl, .inr ⟨i, _, _, _, hexec, rfl⟩⟩
            · exact ⟨rfl, .inr ⟨i, _, _, _, hexec, rfl⟩⟩
        · cases h
      · cases h
    | go i =>
      simp only [liveStep] at h
      split at h
      · next hexec =>
        cases h
        exact .inr ⟨rfl, .inr ⟨i, _, _, _, hexec, rfl⟩⟩
      · cases h
    | ret i =>
      simp only [liveStep] at h
      split at h
      · next op r hexec =>
        cases h
        exact .inl ⟨i, op, r, rfl, hexec, rfl, rfl⟩
      · cases h
    | clock | handOver | store | write | wake | panic =>
      simp only [liveStep] at h
      split at h
      · first
        | cases h; exact .inr ⟨rfl, .inl rfl⟩
        | (split at h; · cases h; exact .inr ⟨rfl, .inl rfl⟩
           · cases h)
      · cases h
    | signal | shutdown | close | exit =>
      simp only [liveStep] at h
      split at h
      · cases h
        exact .inr ⟨rfl, .inl rfl⟩
      · cases h

theorem history_sublist {q q' : GoService.State} {b : GoService.Action}
    (h : GoService.step q b = some q') (hb : isCall b = false) : q.history.Sublist q'.history := by
  rcases visible_step h hb with ⟨i, op, r, -, -, -, hhistory⟩ | ⟨hhistory, -⟩
  · rw [hhistory]
    exact List.sublist_append_left _ _
  · rw [hhistory]

/-- What the server makes of the request of a call. -/
theorem arrive_moves {k : Nat} {proxy : Proxy} {added : List (String × String)} {t : Instant}
    {monitor : Response} (h : step jwt config s (.arrive k proxy added t monitor) = some s') :
    Moves jwt config s (.arrive k proxy added t monitor) s' := by
  rw [step] at h
  split at h
  · next c token hflight =>
    split at h
    · next r hr =>
      obtain ⟨server, hserver, hs'⟩ := Option.map_eq_some_iff.mp h
      obtain ⟨haccept, hrefuse⟩ := @call_settles jwt config t monitor _ _ _ _ _ hr
      rcases Server.step_cases hserver with ⟨_, _, _, response, ha, hserve, rfl⟩ |
        ⟨_, _, _, op, answer, service, ha, hserve, hservice, rfl⟩ | ⟨_, _, ha, -⟩
      · cases ha
        rw [hserve] at hs'
        subst hs'
        by_cases hauth : Authenticated jwt config.jwtSecret t r
        · obtain ⟨answer, hcall, -⟩ := haccept hauth
          rw [hserve] at hcall
          cases hcall
        · obtain ⟨response', hrespond, message, hsettled⟩ := hrefuse hauth
          rw [hserve] at hrespond
          cases hrespond
          exact .refused hflight hsettled
      · cases ha
        rw [hserve] at hs'
        subst hs'
        by_cases hauth : Authenticated jwt config.jwtSecret t r
        · obtain ⟨answer', hcall, hsettled⟩ := haccept hauth
          rw [hserve] at hcall
          cases hcall
          exact .accepted hflight hsettled hservice
        · obtain ⟨response', hrespond, -⟩ := hrefuse hauth
          rw [hserve] at hrespond
          cases hrespond
      · cases ha
    · cases h
  · cases h

/-- A promise that waits is that of a call of a browser, which is under way. -/
theorem waits_iff {k : Nat} : s.waits k = true ↔ (∃ c journey,
    s.flights[k]? = some ⟨.browser c, journey⟩ ∧ ∀ exec v, journey ≠ .settled exec v) ∧
      k ∉ s.rejected := by
  rw [State.waits, Bool.and_eq_true, Bool.not_eq_true', List.contains_eq_mem, decide_eq_false_iff_not,
    Option.any_eq_true]
  refine and_congr_left fun _ => ?_
  constructor
  · rintro ⟨⟨call, journey⟩, hf, hopen⟩
    cases call with
    | other op => cases hopen
    | browser c =>
      refine ⟨c, journey, hf, ?_⟩
      rintro exec v rfl
      cases hopen
  · rintro ⟨c, journey, hf, hopen⟩
    refine ⟨_, hf, ?_⟩
    cases journey with
    | settled exec v => exact absurd rfl (hopen exec v)
    | sent | serving | refused => rfl

theorem waits_browser {k : Nat} {f : Flight} (h : s.waits k = true) (hf : s.flights[k]? = some f) :
    ∃ c, f.call = .browser c := by
  obtain ⟨⟨c, journey, hf', -⟩, -⟩ := waits_iff.mp h
  obtain rfl := Option.some.inj (hf.symm.trans hf')
  exact ⟨c, rfl⟩

theorem step_moves (h : step jwt config s a = some s') : Moves jwt config s a s' := by
  cases a with
  | send c token =>
    cases h
    exact .sent
  | arrive k proxy added t monitor => exact arrive_moves h
  | other r t monitor =>
    rw [step] at h
    obtain ⟨server, hserver, hs'⟩ := Option.map_eq_some_iff.mp h
    rcases Server.step_cases hserver with ⟨_, _, _, response, ha, hserve, rfl⟩ |
      ⟨_, _, _, op, answer, service, ha, hserve, hservice, rfl⟩ | ⟨_, _, ha, -⟩
    · cases ha
      rw [hserve] at hs'
      subst hs'
      exact .logged
    · cases ha
      rw [hserve] at hs'
      subst hs'
      exact .entered hserve hservice
    · cases ha
  | service b =>
    rw [step] at h
    obtain ⟨server, hserver, rfl⟩ := Option.map_eq_some_iff.mp h
    rcases Server.step_cases hserver with ⟨_, _, _, _, ha, -⟩ | ⟨_, _, _, _, _, _, ha, -⟩ |
      ⟨_, _, ha, hb, hservice, rfl⟩
    · cases ha
    · cases ha
    · cases ha
      exact .served hb hservice
  | settle k zone =>
    rw [step] at h
    split at h
    · next hwaits =>
      split at h
      · next call i hflight =>
        obtain ⟨c, rfl⟩ := waits_browser hwaits hflight
        obtain ⟨response, hresponse, rfl⟩ := Option.map_eq_some_iff.mp h
        unfold response? at hresponse
        split at hresponse
        · next op result caller hexec hcaller =>
          cases hresponse
          exact .settled hwaits hflight hexec hcaller
        · cases hresponse
      · next call response hflight =>
        obtain ⟨c, rfl⟩ := waits_browser hwaits hflight
        cases h
        exact .thrown hwaits hflight
      · cases h
    · cases h
  | lose k =>
    rw [step] at h
    split at h
    · next hwaits =>
      cases h
      exact .lost hwaits
    · cases h

end BrowserLemmas

/-! ## 2. Invariants -/

def Exec.op : Exec → Op
  | .running op _ => op
  | .returned op _ => op

/-- The executions of the server are those of the flights. -/
structure Linked (s : State) : Prop where
  aligned : s.server.callers.length = s.server.service.execs.length
  called : ∀ i op, Event.call i op ∈ s.server.service.history → i < s.server.service.execs.length
  returned : ∀ i result, Event.ret i result ∈ s.server.service.history ↔
    ∃ op, s.server.service.execs[i]? = some (.returned op result)
  caller : ∀ k c i, s.link k = some (.browser c, i) →
    ∃ caller, s.server.callers[i]? = some caller ∧
      ∀ zone result, settled zone (caller.answer result) = (promised zone c result, false)
  useCase : ∀ k call i, s.link k = some (call, i) →
    Event.call i call.useCase ∈ s.server.service.history
  runs : ∀ k call i, s.link k = some (call, i) →
    ∃ e, s.server.service.execs[i]? = some e ∧ Exec.op e = call.useCase
  owner : ∀ i < s.server.service.execs.length, ∃ k call, s.link k = some (call, i)
  inj : ∀ k k' call call' i, s.link k = some (call, i) → s.link k' = some (call', i) → k = k'
  realTime : ∀ k k' call call' i i', s.link k = some (call, i) → s.link k' = some (call', i') →
    RealTime s.history k k' → RealTime s.server.service.history i i'

/-- The ids in the calls of browsers are in canonical form. -/
def Canonical (s : State) : Prop :=
  ∀ (k : Nat) c journey, s.flights[k]? = some ⟨.browser c, journey⟩ → c.id?.all isCanonical = true

/-- The promise of the call comes from a result of the service, or from a refusal. -/
def Sourced (service : GoService.State) (call : Call) (exec : Option Nat) (v : Promise) : Prop :=
  (∃ i zone result, exec = some i ∧ Event.ret i result ∈ service.history ∧
    v = call.promised zone result) ∨
  exec = none ∧ ∃ c message, call = .browser c ∧ v = .thrown 401 (errorBody message)

/-- What the browsers are told comes from the server. -/
structure Told (s : State) : Prop where
  refused : ∀ (k : Nat) (f : Flight) response, s.flights[k]? = some f → f.journey = .refused response →
    ∃ message, ∀ zone, settled zone response = (.thrown 401 (errorBody message), true)
  called : ∀ k call, Event.call k call ∈ s.history ↔
    ∃ f : Flight, s.flights[k]? = some f ∧ f.call = call
  returned : ∀ k v, Event.ret k v ∈ s.history → ∃ (f : Flight) (exec : Option Nat),
    s.flights[k]? = some f ∧
    f.journey = .settled exec v ∧ Sourced s.server.service f.call exec v
  rejected : ∀ k ∈ s.rejected, ∀ v, Event.ret k v ∉ s.history
  once : ∀ k, ¬ RealTime s.history k k

namespace BrowserLemmas

theorem link_some {k i : Nat} {call : Call} : s.link k = some (call, i) ↔
    ∃ f, s.flights[k]? = some f ∧ f.journey.exec? = some i ∧ f.call = call := by
  unfold State.link
  rw [Option.bind_eq_some_iff]
  refine exists_congr fun f => and_congr_right fun _ => ?_
  rw [Option.map_eq_some_iff]
  constructor
  · rintro ⟨j, hj, heq⟩
    cases heq
    exact ⟨hj, rfl⟩
  · rintro ⟨hj, rfl⟩
    exact ⟨i, hj, rfl⟩

/-- A flight that goes on for the same execution, or still for none, keeps the links. -/
theorem link_set {k : Nat} {f : Flight} (f' : Flight) (hf : s.flights[k]? = some f)
    (hcall : f'.call = f.call) (hexec : f'.journey.exec? = f.journey.exec?)
    {server : Server.State} {history : History Nat Call Promise} {rejected : List Nat} (j : Nat) :
    State.link ⟨server, s.flights.set k f', history, rejected⟩ j = s.link j := by
  unfold State.link
  dsimp only
  by_cases hj : j = k
  · subst hj
    rw [List.getElem?_set_self (List.getElem?_eq_some_iff.mp hf).1, hf, Option.bind_some,
      Option.bind_some, hcall, hexec]
  · rw [List.getElem?_set_ne (Ne.symm hj)]

/-- A flight that begins brings its link, if it has one. -/
theorem link_snoc (f : Flight) {server : Server.State} {history : History Nat Call Promise}
    {rejected : List Nat} (j : Nat) :
    State.link ⟨server, s.flights ++ [f], history, rejected⟩ j =
      if j = s.flights.length then f.journey.exec?.map fun i => (f.call, i) else s.link j := by
  unfold State.link
  dsimp only
  rcases Nat.lt_trichotomy j s.flights.length with hj | rfl | hj
  · rw [List.getElem?_append_left hj, if_neg (Nat.ne_of_lt hj)]
  · rw [List.getElem?_concat_length, Option.bind_some, if_pos rfl]
  · rw [List.getElem?_eq_none (Nat.le_of_lt hj), List.getElem?_eq_none, if_neg (Nat.ne_of_gt hj)]
    rw [List.length_append]
    exact hj

theorem link_new : s.link s.flights.length = none := by
  rw [State.link, List.getElem?_eq_none (Nat.le_refl _), Option.bind_none]

/-- A flight that the server takes on has a link, to the execution `i`. -/
theorem link_serve {k i : Nat} {call : Call} {token : String}
    (hf : s.flights[k]? = some ⟨call, .sent token⟩) {server : Server.State}
    {history : History Nat Call Promise} {rejected : List Nat} (j : Nat) :
    State.link ⟨server, s.flights.set k ⟨call, .serving i⟩, history, rejected⟩ j =
      if j = k then some (call, i) else s.link j := by
  unfold State.link
  dsimp only
  by_cases hj : j = k
  · subst hj
    rw [List.getElem?_set_self (List.getElem?_eq_some_iff.mp hf).1, if_pos rfl]
    rfl
  · rw [List.getElem?_set_ne (Ne.symm hj), if_neg hj]

/-- An execution that goes on is one of the same call. -/
theorem op_set {execs : List Exec} {i j : Nat} {e e' e₀ : Exec} (hi : execs[i]? = some e₀)
    (hop : Exec.op e' = Exec.op e₀) (hj : execs[j]? = some e) :
    ∃ e₁, (execs.set i e')[j]? = some e₁ ∧ Exec.op e₁ = Exec.op e := by
  by_cases hji : j = i
  · subst hji
    obtain rfl := Option.some.inj (hi.symm.trans hj)
    exact ⟨e', List.getElem?_set_self (List.getElem?_eq_some_iff.mp hi).1, hop⟩
  · exact ⟨e, (List.getElem?_set_ne (Ne.symm hji)).trans hj, rfl⟩

end BrowserLemmas

open BrowserLemmas

namespace Linked

/-- Nothing that matters to the links changes, but that the history of the browsers goes on
with an event that is no call of a flight with a link. -/
theorem congr (h : Linked s) {server : Server.State} {flights : List Flight}
    {history : History Nat Call Promise} {rejected : List Nat}
    (hservice : server.service = s.server.service) (hcallers : server.callers = s.server.callers)
    (hlink : ∀ k, State.link ⟨server, flights, history, rejected⟩ k = s.link k)
    (hreal : ∀ k k' c i, s.link k' = some (c, i) → RealTime history k k' →
      RealTime s.history k k') : Linked ⟨server, flights, history, rejected⟩ where
  aligned := by rw [hservice, hcallers]; exact h.aligned
  called := by rw [hservice]; exact h.called
  returned := by rw [hservice]; exact h.returned
  caller k c i hk := by rw [hcallers]; exact h.caller k c i (hlink k ▸ hk)
  useCase k c i hk := by rw [hservice]; exact h.useCase k c i (hlink k ▸ hk)
  runs k c i hk := by rw [hservice]; exact h.runs k c i (hlink k ▸ hk)
  owner i hi := by
    rw [hservice] at hi
    obtain ⟨k, c, hk⟩ := h.owner i hi
    exact ⟨k, c, (hlink k).trans hk⟩
  inj k k' c c' i hk hk' := h.inj k k' c c' i (hlink k ▸ hk) (hlink k' ▸ hk')
  realTime k k' c c' i i' hk hk' hr := by
    rw [hservice]
    rw [hlink] at hk hk'
    exact h.realTime k k' c c' i i' hk hk' (hreal k k' c' i' hk' hr)

theorem lt (h : Linked s) {k i : Nat} {call : Call} (hk : s.link k = some (call, i)) :
    i < s.server.service.execs.length := h.called i _ (h.useCase k call i hk)

/-- A step of the service that is no call. -/
theorem served (h : Linked s) {b : GoService.Action} {service : GoService.State}
    {log : List Exchange} (hb : isCall b = false)
    (hstep : GoService.step s.server.service b = some service) :
    Linked ⟨⟨service, s.server.callers, log⟩, s.flights, s.history, s.rejected⟩ := by
  obtain ⟨hlength, hcalls, hmono, hreturned, hops⟩ :
      service.execs.length = s.server.service.execs.length ∧
      (∀ i op, Event.call i op ∈ service.history → Event.call i op ∈ s.server.service.history) ∧
      s.server.service.history.Sublist service.history ∧
      (∀ i result, Event.ret i result ∈ service.history ↔
        ∃ op, service.execs[i]? = some (.returned op result)) ∧
      ∀ (i : Nat) e, s.server.service.execs[i]? = some e →
        ∃ e', service.execs[i]? = some e' ∧ Exec.op e' = Exec.op e := by
    rcases visible_step hstep hb with ⟨i, op, r, -, hexec, hexecs, hhistory⟩ |
      ⟨hhistory, hexecs | ⟨i, op, p, p', hexec, hexecs⟩⟩
    · rw [hexecs, hhistory]
      refine ⟨List.length_set, fun j op' hj => ?_, List.sublist_append_left _ _,
        fun j result => ?_, fun j e hj => ?_⟩
      · exact (List.mem_append.mp hj).resolve_right fun hlast => by
          cases List.mem_singleton.mp hlast
      · rw [List.mem_append, h.returned, List.mem_singleton]
        by_cases hji : j = i
        · subst hji
          rw [List.getElem?_set_self (List.getElem?_eq_some_iff.mp hexec).1, hexec]
          simp [eq_comm]
        · rw [List.getElem?_set_ne (Ne.symm hji)]
          simp [hji]
      · exact op_set hexec rfl hj
    · rw [hexecs, hhistory]
      exact ⟨rfl, fun _ _ hj => hj, List.Sublist.refl _, h.returned, fun j e hj => ⟨e, hj, rfl⟩⟩
    · rw [hexecs, hhistory]
      refine ⟨List.length_set, fun _ _ hj => hj, List.Sublist.refl _, fun j result => ?_,
        fun j e hj => op_set hexec rfl hj⟩
      rw [h.returned]
      by_cases hji : j = i
      · subst hji
        rw [List.getElem?_set_self (List.getElem?_eq_some_iff.mp hexec).1, hexec]
        simp
      · rw [List.getElem?_set_ne (Ne.symm hji)]
  exact {
    aligned := h.aligned.trans hlength.symm
    called := fun i op hop => (h.called i op (hcalls i op hop)).trans_eq hlength.symm
    returned := hreturned
    caller := h.caller
    useCase := fun k c i hk => hmono.subset (h.useCase k c i hk)
    runs := fun k c i hk => by
      obtain ⟨e, he, hop⟩ := h.runs k c i hk
      obtain ⟨e', he', hop'⟩ := hops i e he
      exact ⟨e', he', hop'.trans hop⟩
    owner := fun i hi => h.owner i (hi.trans_eq hlength)
    inj := h.inj
    realTime := fun k k' c c' i i' hk hk' hr =>
      realTime_of_sublist hmono (h.realTime k k' c c' i i' hk hk' hr) }

/-- The server begins to work for the call of the flight `k`, which was sent before or begins with
this. -/
theorem entered (h : Linked s) (ht : Told s) {k : Nat} {call : Call} {caller : Caller}
    {service : GoService.State} {flights : List Flight} {history : History Nat Call Promise}
    (hcaller : ∀ c, call = .browser c → ∀ zone result,
      settled zone (caller.answer result) = (promised zone c result, false))
    (hstep : GoService.step s.server.service (.call call.useCase) = some service)
    (hnone : s.link k = none)
    (hlink : ∀ j, State.link ⟨⟨service, s.server.callers ++ [caller], s.server.log⟩, flights,
      history, s.rejected⟩ j =
        if j = k then some (call, s.server.service.execs.length) else s.link j)
    (hrets : ∀ j v, Event.ret j v ∈ history → Event.ret j v ∈ s.history ∧ j ≠ k)
    (hreal : ∀ j j', j' ≠ k → RealTime history j j' → RealTime s.history j j') :
    Linked ⟨⟨service, s.server.callers ++ [caller], s.server.log⟩, flights, history,
      s.rejected⟩ := by
  obtain rfl := service_call hstep
  have hsplit : ∀ {j : Nat} {call' : Call} {i : Nat},
      (if j = k then some (call, s.server.service.execs.length) else s.link j) =
        some (call', i) →
        (j = k ∧ call' = call ∧ i = s.server.service.execs.length) ∨
          (j ≠ k ∧ s.link j = some (call', i)) := fun {j call' i} hj => by
    split at hj
    · next heq =>
      cases hj
      exact .inl ⟨heq, rfl, rfl⟩
    · next hne => exact .inr ⟨hne, hj⟩
  have hmono : s.server.service.history.Sublist (s.server.service.call call.useCase
      (.running call.useCase call.useCase.prog)).history :=
    List.sublist_append_left _ _
  exact {
    aligned := by simp [h.aligned]
    called := fun i op hop => by
      rw [StateOf.call_execs, List.length_append]
      rcases List.mem_append.mp hop with hop | hop
      · exact (h.called i op hop).trans (Nat.lt_succ_self _)
      · cases List.mem_singleton.mp hop
        exact Nat.lt_succ_self _
    returned := fun i result => by
      rw [StateOf.call_history, List.mem_append, h.returned]
      constructor
      · rintro (⟨op, hi⟩ | hlast)
        · refine ⟨op, (List.getElem?_append_left ?_).trans hi⟩
          exact (List.getElem?_eq_some_iff.mp hi).1
        · cases List.mem_singleton.mp hlast
      · rintro ⟨op, hi⟩
        rcases getElem?_snoc_some hi with ⟨-, heq⟩ | ⟨-, hi⟩
        · cases heq
        · exact .inl ⟨op, hi⟩
    caller := fun j c i hj => by
      rw [hlink] at hj
      rcases hsplit hj with ⟨-, hcall, rfl⟩ | ⟨-, hj⟩
      · refine ⟨caller, ?_, hcaller c hcall.symm⟩
        rw [← h.aligned]
        exact List.getElem?_concat_length
      · obtain ⟨caller', hget, hsettled⟩ := h.caller j c i hj
        refine ⟨caller', ?_, hsettled⟩
        exact (List.getElem?_append_left (List.getElem?_eq_some_iff.mp hget).1).trans hget
    useCase := fun j call' i hj => by
      rw [hlink] at hj
      rcases hsplit hj with ⟨-, rfl, rfl⟩ | ⟨-, hj⟩
      · exact List.mem_append_right _ List.mem_cons_self
      · exact hmono.subset (h.useCase j call' i hj)
    runs := fun j call' i hj => by
      rw [hlink] at hj
      rcases hsplit hj with ⟨-, rfl, rfl⟩ | ⟨-, hj⟩
      · exact ⟨_, List.getElem?_concat_length, rfl⟩
      · obtain ⟨e, he, hop⟩ := h.runs j call' i hj
        refine ⟨e, (List.getElem?_append_left ?_).trans he, hop⟩
        exact (List.getElem?_eq_some_iff.mp he).1
    owner := fun i hi => by
      rw [StateOf.call_execs, List.length_append, List.length_singleton] at hi
      rcases Nat.lt_succ_iff_lt_or_eq.mp hi with hi | rfl
      · obtain ⟨j, call', hj⟩ := h.owner i hi
        refine ⟨j, call', (hlink j).trans ((if_neg ?_).trans hj)⟩
        rintro rfl
        rw [hnone] at hj
        cases hj
      · exact ⟨k, call, (hlink k).trans (if_pos rfl)⟩
    inj := fun j j' call₁ call₂ i hj hj' => by
      rw [hlink] at hj hj'
      rcases hsplit hj with ⟨rfl, -, rfl⟩ | ⟨-, hj⟩
      · rcases hsplit hj' with ⟨rfl, -, -⟩ | ⟨-, hj'⟩
        · rfl
        · exact absurd (h.lt hj') (Nat.lt_irrefl _)
      · rcases hsplit hj' with ⟨-, -, rfl⟩ | ⟨-, hj'⟩
        · exact absurd (h.lt hj) (Nat.lt_irrefl _)
        · exact h.inj j j' call₁ call₂ i hj hj'
    realTime := fun j j' call₁ call₂ i i' hj hj' hr => by
      rw [hlink] at hj hj'
      obtain ⟨v, hv⟩ := realTime_ret_mem hr
      obtain ⟨hv, hne⟩ := hrets j v hv
      obtain ⟨-, hj⟩ := (hsplit hj).resolve_left fun heq => hne heq.1
      rcases hsplit hj' with ⟨-, -, rfl⟩ | ⟨hne', hj'⟩
      · -- what returned to its browser has returned in the service
        obtain ⟨f, exec, hf, hjourney, hexec⟩ := ht.returned j v hv
        obtain ⟨f', hf', hexec', -⟩ := link_some.mp hj
        obtain rfl := Option.some.inj (hf.symm.trans hf')
        rw [hjourney] at hexec'
        rcases hexec with ⟨i₀, zone, result, rfl, hret, -⟩ | ⟨rfl, -⟩
        · cases hexec'
          exact ⟨_, [], _, rfl, result, hret⟩
        · cases hexec'
      · exact realTime_of_sublist hmono
          (h.realTime j j' call₁ call₂ i i' hj hj' (hreal j j' hne' hr)) }

end Linked

theorem linked_move (h : Linked s) (ht : Told s) (hm : Moves jwt config s a s') : Linked s' := by
  cases hm with
  | sent =>
    refine h.congr rfl rfl (fun j => ?_) fun k k' call i hk hr => ?_
    · rw [link_snoc]
      split
      · next heq => exact heq ▸ link_new.symm
      · rfl
    · rcases realTime_snoc_call hr with hr | ⟨rfl, -⟩
      · exact hr
      · rw [link_new] at hk
        cases hk
  | refused hflight _ =>
    refine h.congr rfl rfl (link_set _ hflight ?_ ?_) fun _ _ _ _ _ hr => hr
    · rfl
    · rfl
  | @accepted k _ _ _ _ c token _ _ hflight hcaller hstep =>
    have hcall : GoService.step s.server.service (.call (Call.browser c).useCase) = _ := hstep
    refine h.entered ht (fun c heq => ?_) hcall ?_ (link_serve hflight)
      (fun j v hv => ⟨hv, ?_⟩) fun _ _ _ hr => hr
    · cases heq
      exact hcaller
    · rw [State.link, hflight]
      rfl
    · -- a call that was not settled has not returned
      rintro rfl
      obtain ⟨f, exec, hf, hjourney, -⟩ := ht.returned j v hv
      obtain rfl := Option.some.inj (hflight.symm.trans hf)
      cases hjourney
  | logged => exact h.congr rfl rfl (fun _ => rfl) fun _ _ _ _ _ hr => hr
  | @entered _ _ _ op _ _ _ hstep =>
    have hcall : GoService.step s.server.service (.call (Call.other op).useCase) = _ := hstep
    refine h.entered ht (fun c heq => ?_) hcall link_new (link_snoc _)
      (fun j v hv => ?_) fun j j' hne hr => ?_
    · cases heq
    · have hold := (List.mem_append.mp hv).resolve_right fun hlast => by
        cases List.mem_singleton.mp hlast
      refine ⟨hold, ?_⟩
      rintro rfl
      obtain ⟨f, exec, hf, -⟩ := ht.returned _ v hold
      rw [List.getElem?_eq_none (Nat.le_refl _)] at hf
      cases hf
    · exact (realTime_snoc_call hr).resolve_right fun hnew => hne hnew.1
  | served hb hstep => exact h.served hb hstep
  | settled _ hflight _ _ =>
    refine h.congr rfl rfl (link_set _ hflight ?_ ?_) fun _ _ _ _ _ hr => realTime_snoc_ret hr
    · rfl
    · rfl
  | thrown _ hflight =>
    refine h.congr rfl rfl (link_set _ hflight ?_ ?_) fun _ _ _ _ _ hr => realTime_snoc_ret hr
    · rfl
    · rfl
  | lost => exact h.congr rfl rfl (fun _ => rfl) fun _ _ _ _ _ hr => hr

theorem Sourced.mono {service service' : GoService.State} {call : Call} {exec : Option Nat}
    {v : Promise} (h : Sourced service call exec v) (hmono : service.history ⊆ service'.history) :
    Sourced service' call exec v :=
  h.imp_left fun ⟨i, zone, result, hexec, hret, hv⟩ => ⟨i, zone, result, hexec, hmono hret, hv⟩

namespace Told

/-- A flight that was not settled goes on. -/
theorem goOn (h : Told s) {k : Nat} {f : Flight} {journey : Journey} {server : Server.State}
    {history : History Nat Call Promise} (hf : s.flights[k]? = some f)
    (hopen : ∀ exec v, f.journey ≠ .settled exec v)
    (hmono : s.server.service.history ⊆ server.service.history)
    (hrefused : ∀ response, journey = .refused response →
      ∃ message, ∀ zone, settled zone response = (.thrown 401 (errorBody message), true))
    (hcalls : ∀ j c, Event.call j c ∈ history ↔ Event.call j c ∈ s.history)
    (hrets : ∀ j v, Event.ret j v ∈ history → Event.ret j v ∈ s.history ∨
      j = k ∧ k ∉ s.rejected ∧
        ∃ exec, journey = .settled exec v ∧ Sourced server.service f.call exec v)
    (honce : ∀ j, ¬ RealTime history j j) :
    Told ⟨server, s.flights.set k { f with journey := journey }, history, s.rejected⟩ where
  refused j g response hg hjourney := by
    rcases getElem?_set_some hg with ⟨rfl, rfl⟩ | ⟨-, hg⟩
    · exact hrefused response hjourney
    · exact h.refused j g response hg hjourney
  called j c := by
    rw [hcalls, h.called]
    constructor
    · rintro ⟨g, hg, rfl⟩
      by_cases hj : j = k
      · subst hj
        obtain rfl := Option.some.inj (hf.symm.trans hg)
        exact ⟨_, List.getElem?_set_self (List.getElem?_eq_some_iff.mp hf).1, rfl⟩
      · exact ⟨g, (List.getElem?_set_ne (Ne.symm hj)).trans hg, rfl⟩
    · rintro ⟨g, hg, rfl⟩
      rcases getElem?_set_some hg with ⟨rfl, rfl⟩ | ⟨-, hg⟩
      · exact ⟨f, hf, rfl⟩
      · exact ⟨g, hg, rfl⟩
  returned j v hv := by
    rcases hrets j v hv with hv | ⟨rfl, -, exec, hjourney, hsourced⟩
    · obtain ⟨g, exec, hg, hjourney, hsourced⟩ := h.returned j v hv
      have hj : j ≠ k := by
        rintro rfl
        obtain rfl := Option.some.inj (hf.symm.trans hg)
        exact hopen exec v hjourney
      exact ⟨g, exec, (List.getElem?_set_ne (Ne.symm hj)).trans hg, hjourney, hsourced.mono hmono⟩
    · exact ⟨_, exec, List.getElem?_set_self (List.getElem?_eq_some_iff.mp hf).1, hjourney, hsourced⟩
  rejected j hj v hv := by
    rcases hrets j v hv with hv | ⟨rfl, hnot, -⟩
    · exact h.rejected j hj v hv
    · exact hnot hj
  once := honce

/-- A promise is settled. -/
theorem settle (h : Told s) {k : Nat} {f : Flight} {exec : Option Nat} {v : Promise}
    (hwaits : s.waits k = true) (hf : s.flights[k]? = some f)
    (hsourced : Sourced s.server.service f.call exec v) : Told (s.settle k f exec v) := by
  obtain ⟨⟨c, journey, hf', hopen⟩, hnot⟩ := waits_iff.mp hwaits
  obtain rfl := Option.some.inj (hf.symm.trans hf')
  refine h.goOn hf hopen (fun _ hmem => hmem) ?_ ?_ ?_ ?_
  · rintro response ⟨⟩
  · intro j c
    rw [List.mem_append, or_iff_left]
    exact fun hlast => by cases List.mem_singleton.mp hlast
  · intro j v' hv
    rcases List.mem_append.mp hv with hv | hv
    · exact .inl hv
    · cases List.mem_singleton.mp hv
      exact .inr ⟨rfl, hnot, exec, rfl, hsourced⟩
  · exact fun j hself => h.once j (realTime_snoc_ret hself)

/-- A flight begins. -/
theorem begin (h : Told s) (f : Flight) {server : Server.State}
    (hmono : s.server.service.history ⊆ server.service.history)
    (hnew : ∀ response, f.journey ≠ .refused response) :
    Told ⟨server, s.flights ++ [f], s.history ++ [.call s.flights.length f.call],
      s.rejected⟩ where
  refused j g response hg hjourney := by
    rcases getElem?_snoc_some hg with ⟨-, rfl⟩ | ⟨-, hg⟩
    · exact absurd hjourney (hnew response)
    · exact h.refused j g response hg hjourney
  called j call := by
    rw [List.mem_append, h.called, List.mem_singleton, Event.call.injEq]
    constructor
    · rintro (⟨g, hg, rfl⟩ | ⟨rfl, rfl⟩)
      · exact ⟨g, (List.getElem?_append_left (List.getElem?_eq_some_iff.mp hg).1).trans hg, rfl⟩
      · exact ⟨_, List.getElem?_concat_length, rfl⟩
    · rintro ⟨g, hg, rfl⟩
      rcases getElem?_snoc_some hg with ⟨rfl, rfl⟩ | ⟨-, hg⟩
      · exact .inr ⟨rfl, rfl⟩
      · exact .inl ⟨g, hg, rfl⟩
  returned j v hv := by
    have hold := (List.mem_append.mp hv).resolve_right fun hlast => by
      cases List.mem_singleton.mp hlast
    obtain ⟨g, exec, hg, hjourney, hsourced⟩ := h.returned j v hold
    refine ⟨g, exec, ?_, hjourney, hsourced.mono hmono⟩
    exact (List.getElem?_append_left (List.getElem?_eq_some_iff.mp hg).1).trans hg
  rejected j hj v hv := by
    refine h.rejected j hj v ((List.mem_append.mp hv).resolve_right fun hlast => ?_)
    cases List.mem_singleton.mp hlast
  once j hself := by
    rcases realTime_snoc_call hself with hself | ⟨rfl, v, hv⟩
    · exact h.once j hself
    · obtain ⟨f, exec, hf, -⟩ := h.returned _ v hv
      rw [List.getElem?_eq_none (Nat.le_refl _)] at hf
      cases hf

/-- The server goes on. -/
theorem congr (h : Told s) {server : Server.State}
    (hmono : s.server.service.history ⊆ server.service.history) :
    Told ⟨server, s.flights, s.history, s.rejected⟩ where
  refused := h.refused
  called := h.called
  returned j v hv := by
    obtain ⟨f, exec, hf, hjourney, hsourced⟩ := h.returned j v hv
    exact ⟨f, exec, hf, hjourney, hsourced.mono hmono⟩
  rejected := h.rejected
  once := h.once

/-- A promise is rejected. -/
theorem lose (h : Told s) {k : Nat} (hwaits : s.waits k = true) :
    Told ⟨s.server, s.flights, s.history, s.rejected ++ [k]⟩ where
  refused := h.refused
  called := h.called
  returned := h.returned
  rejected j hj v hv := by
    rcases List.mem_append.mp hj with hj | hj
    · exact h.rejected j hj v hv
    · obtain rfl := List.mem_singleton.mp hj
      obtain ⟨⟨c, journey, hf, hopen⟩, -⟩ := waits_iff.mp hwaits
      obtain ⟨f', exec, hf', hjourney, -⟩ := h.returned j v hv
      obtain rfl := Option.some.inj (hf.symm.trans hf')
      exact hopen exec v hjourney
  once := h.once

end Told

theorem told_move (h : Told s) (hl : Linked s) (hm : Moves jwt config s a s') : Told s' := by
  cases hm with
  | @sent c token =>
    exact h.begin ⟨.browser c, .sent token⟩ (fun _ hmem => hmem) fun _ => Journey.noConfusion
  | refused hflight hsettled =>
    refine h.goOn hflight (fun _ _ => Journey.noConfusion) (fun _ hmem => hmem) ?_
      (fun _ _ => Iff.rfl) (fun _ _ => .inl) h.once
    rintro response ⟨⟩
    exact ⟨_, hsettled⟩
  | accepted hflight hcaller hstep =>
    obtain rfl := service_call hstep
    refine h.goOn hflight (fun _ _ => Journey.noConfusion) (List.subset_append_left _ _) ?_
      (fun _ _ => Iff.rfl) (fun _ _ => .inl) h.once
    rintro response ⟨⟩
  | logged => exact h.congr fun _ hmem => hmem
  | @entered _ _ _ op _ _ _ hstep =>
    obtain rfl := service_call hstep
    exact h.begin ⟨.other op, .serving s.server.service.execs.length⟩
      (List.subset_append_left _ _) fun _ => Journey.noConfusion
  | served hb hstep => exact h.congr (history_sublist hstep hb).subset
  | @settled k i zone c op result caller hwaits hflight hexec hcaller =>
    have hlink : s.link k = some (.browser c, i) := link_some.mpr ⟨_, hflight, rfl, rfl⟩
    obtain ⟨caller', hget, hsettled⟩ := hl.caller k c i hlink
    obtain rfl := Option.some.inj (hcaller.symm.trans hget)
    exact h.settle hwaits hflight <| .inl ⟨i, zone, result, rfl,
      (hl.returned i result).mpr ⟨op, hexec⟩, congrArg Prod.fst (hsettled zone result)⟩
  | @thrown k zone c response hwaits hflight =>
    obtain ⟨message, hsettled⟩ := h.refused k _ response hflight rfl
    exact h.settle hwaits hflight
      (.inr ⟨rfl, c, message, rfl, congrArg Prod.fst (hsettled zone)⟩)
  | lost hwaits => exact h.lose hwaits

/-! ## 3. Runs -/

variable {table : Table} {clock : Instant} {as : List Action}

theorem linked_start (table : Table) (clock : Instant) : Linked (.start table clock) where
  aligned := rfl
  called _ _ hop := absurd hop List.not_mem_nil
  returned _ _ := iff_of_false List.not_mem_nil fun hi => by
    obtain ⟨op, hi⟩ := hi
    cases hi
  caller _ _ _ hk := by cases hk
  useCase _ _ _ hk := by cases hk
  runs _ _ _ hk := by cases hk
  owner _ hi := absurd hi (Nat.not_lt_zero _)
  inj _ _ _ _ _ hk := by cases hk
  realTime _ _ _ _ _ _ hk := by cases hk

theorem told_start (table : Table) (clock : Instant) : Told (.start table clock) where
  refused _ _ _ hf := by cases hf
  called _ _ := iff_of_false List.not_mem_nil fun hf => by
    obtain ⟨f, hf, -⟩ := hf
    cases hf
  returned _ _ hv := absurd hv List.not_mem_nil
  rejected _ hk := absurd hk List.not_mem_nil
  once _ hself := by
    obtain ⟨v, hv⟩ := realTime_ret_mem hself
    exact absurd hv List.not_mem_nil

/-- A step leaves the service as it is, or is a step of the service, which is clean when the
step is. -/
theorem service_move (hm : Moves jwt config s a s') :
    s'.server.service = s.server.service ∨
      ∃ b, GoService.step s.server.service b = some s'.server.service ∧
        (Canonical s → CleanMove jwt config s a → Clean s.server.service b) := by
  cases hm with
  | sent => exact .inl rfl
  | refused => exact .inl rfl
  | @accepted k _ _ _ _ c token _ _ hflight _ hstep =>
    refine .inr ⟨_, hstep, fun hcanonical _ => ⟨rfl, ?_⟩⟩
    have hc := hcanonical k c _ hflight
    cases c <;> exact hc
  | logged => exact .inl rfl
  | entered hserve hstep =>
    refine .inr ⟨_, hstep, fun _ hc => ⟨rfl, ?_⟩⟩
    rw [CleanMove, hserve, called?, Option.all_some] at hc
    exact hc
  | @served b _ _ hb hstep =>
    refine .inr ⟨b, hstep, fun _ hc => ⟨hc, ?_⟩⟩
    cases b with
    | call op => cases hb
    | _ => trivial
  | settled | thrown | lost => exact .inl rfl

theorem canonical_start (table : Table) (clock : Instant) : Canonical (.start table clock) := by
  intro _ _ _ hf
  cases hf

theorem canonical_move (h : Canonical s) (hc : CleanMove jwt config s a)
    (hm : Moves jwt config s a s') : Canonical s' := by
  have hset : ∀ {k : Nat} {c : ApiCall} {journey : Journey} (journey' : Journey),
      s.flights[k]? = some ⟨.browser c, journey⟩ → ∀ (j : Nat) c' journey'',
        (s.flights.set k ⟨.browser c, journey'⟩)[j]? = some ⟨.browser c', journey''⟩ →
          c'.id?.all isCanonical = true := by
    intro k c journey journey' hf j c' journey'' hg
    rcases getElem?_set_some hg with ⟨rfl, heq⟩ | ⟨-, hg⟩
    · cases heq
      exact h j c journey hf
    · exact h j c' journey'' hg
  cases hm with
  | sent =>
    intro j c journey hf
    rcases getElem?_snoc_some hf with ⟨-, heq⟩ | ⟨-, hf⟩
    · cases heq
      exact hc
    · exact h j c journey hf
  | refused hflight => exact hset _ hflight
  | accepted hflight => exact hset _ hflight
  | logged => exact h
  | entered =>
    intro j c journey hf
    rcases getElem?_snoc_some hf with ⟨-, heq⟩ | ⟨-, hf⟩
    · cases heq
    · exact h j c journey hf
  | served => exact h
  | settled _ hflight | thrown _ hflight => exact hset _ hflight
  | lost => exact h

/-- The invariants of every run. -/
theorem linked_run (h : Reaches jwt config table clock as s) :
    Linked s ∧ Told s ∧ ∃ t : Snapshot, s.server.service = t.state ∧ Ledger t := by
  refine Machine.invariant_run (I := fun s : State => Linked s ∧ Told s ∧
    ∃ t : Snapshot, s.server.service = t.state ∧ Ledger t) ?_ ?_ h
  · rintro s a s' ⟨hl, ht, t, heq, hledger⟩ hs
    have hm := step_moves hs
    refine ⟨linked_move hl ht hm, told_move ht hl hm, ?_⟩
    rcases service_move hm with hsame | ⟨b, hstep, -⟩
    · exact ⟨t, hsame.trans heq, hledger⟩
    · rw [heq] at hstep
      obtain ⟨t', heq', htrans⟩ := step_trans hstep
      exact ⟨t', heq', ledger_trans hledger htrans⟩
  · exact ⟨linked_start table clock, told_start table clock, _, rfl, ledger_start table clock⟩

namespace BrowserLemmas

/-- The result behind a promise that was settled, if the call was not refused. -/
theorem settled_result (hl : Linked s) (ht : Told s) {t : Snapshot}
    (heq : s.server.service = t.state) (hledger : Ledger t) {k : Nat} {v : Promise}
    (hv : Event.ret k v ∈ s.history) :
    (s.changes k = [] ∧ ∃ message, v = .thrown 401 (errorBody message)) ∨
      ∃ call zone result ps, Event.call k call ∈ s.history ∧ v = call.promised zone result ∧
        Settled call.useCase result (s.changes k) ps := by
  obtain ⟨f, exec, hf, hjourney, hsourced⟩ := ht.returned k v hv
  rcases hsourced with ⟨i, zone, result, rfl, hret, rfl⟩ | ⟨rfl, c, message, -, rfl⟩
  · have hlink : s.link k = some (f.call, i) :=
      link_some.mpr ⟨f, hf, by rw [hjourney]; rfl, rfl⟩
    obtain ⟨op, hexec⟩ := (hl.returned i result).mp hret
    obtain ⟨e, he, hop⟩ := hl.runs k f.call i hlink
    rw [hexec] at he
    cases he
    rw [heq] at hexec
    have haccount := hledger i
    rw [returned_of_state hexec] at haccount
    refine .inr ⟨f.call, zone, result, publishesOf t.state i, (ht.called k _).mpr ⟨f, hf, rfl⟩,
      rfl, ?_⟩
    unfold State.changes
    rw [hlink, heq, ← hop]
    exact haccount
  · refine .inl ⟨?_, message, rfl⟩
    have hlink : s.link k = none := by
      unfold State.link
      rw [hf, Option.bind_some, hjourney]
      rfl
    unfold State.changes
    rw [hlink]

theorem settled_changes {op : Op} {result : Result} {cs : List Change} {ps : List PublishCall}
    (h : Settled op result cs ps) :
    cs = [] ∨ ∃ reply change call, cs = [change] ∧ Announces op reply change call := by
  cases result with
  | error err => exact .inl h.1
  | ok reply =>
    rw [Settled] at h
    split at h
    · obtain ⟨change, call, hcs, -, hann⟩ := h
      exact .inr ⟨reply, change, call, hcs, hann⟩
    · exact .inl h.1

/-- At every moment an execution has changed nothing, or what its call asks for. -/
theorem accounted_changes {e : Standing} {cs : List Change} {ps : List PublishCall}
    (h : Accounted (some e) cs ps) :
    cs = [] ∨ ∃ reply change call, cs = [change] ∧ Announces (Exec.op e.exec) reply change call := by
  cases e with
  | returned op result => exact settled_changes h
  | running op st =>
    cases st with
    | done result => exact settled_changes h
    | announcing call reply =>
      obtain ⟨-, -, change, hcs, hann⟩ := h
      exact .inr ⟨reply, change, call, hcs, hann⟩
    | drawing | saving | listing | getting | findingToUpdate | updating | findingToDelete
    | deleting => exact .inl h.2.1

theorem attempted_changes (hl : Linked s) (ht : Told s) {t : Snapshot}
    (heq : s.server.service = t.state) (hledger : Ledger t) {k : Nat} {call : Call}
    (hc : Event.call k call ∈ s.history) : s.changes k = [] ∨ ∃ reply change publish,
      s.changes k = [change] ∧ Announces call.useCase reply change publish := by
  obtain ⟨f, hf, rfl⟩ := (ht.called k call).mp hc
  unfold State.changes
  cases hlink : s.link k with
  | none => exact .inl rfl
  | some p =>
    obtain ⟨f', hf', -, hcall⟩ := link_some.mp hlink
    obtain rfl := Option.some.inj (hf.symm.trans hf')
    obtain ⟨e, he, hop⟩ := hl.runs k p.1 p.2 hlink
    rw [heq, StateOf.state, List.getElem?_map] at he
    obtain ⟨standing, hstanding, rfl⟩ := Option.map_eq_some_iff.mp he
    have haccount := hledger p.2
    rw [hstanding] at haccount
    rw [hcall, ← hop, heq]
    exact accounted_changes haccount

theorem promised_ok {zone : Device → Int} {call : Call} {reply : Reply} {status : Nat}
    {body : Json} : call.promised zone (.ok reply) ≠ .thrown status body := by
  cases call with
  | other op => exact Promise.noConfusion
  | browser c =>
    unfold Call.promised promised
    dsimp only
    split
    · exact Promise.noConfusion
    · cases reply.body.value zone with
      | none => exact Promise.noConfusion
      | some v => exact Promise.noConfusion

theorem promised_error (zone : Device → Int) (c : ApiCall) (err : Err) :
    ∃ status body, promised zone c (.error err) = .thrown status body := by
  unfold promised
  dsimp only
  split
  · exact ⟨_, _, rfl⟩
  · split
    · exact ⟨_, _, rfl⟩
    · exact ⟨_, _, rfl⟩

end BrowserLemmas

/-- In a clean run, the order that the service takes its calls in. -/
theorem refines_run
    (hclean : Machine.Guarded (step jwt config) (CleanMove jwt config) (.start table clock) as)
    (h : Reaches jwt config table clock as s) :
    ∃ (t : Snapshot) (lin : List (Entry Nat Op Result)),
      s.server.service = t.state ∧ Refines table t lin := by
  suffices hall : Canonical s ∧ ∃ (t : Snapshot) (lin : List (Entry Nat Op Result)),
      s.server.service = t.state ∧ Refines table t lin ∧ Ids table t ∧ Ledger t by
    obtain ⟨-, t, lin, heq, hrefines, -⟩ := hall
    exact ⟨t, lin, heq, hrefines⟩
  refine Machine.guarded_induction (P := fun _ s => Canonical s ∧
      ∃ (t : Snapshot) (lin : List (Entry Nat Op Result)),
        s.server.service = t.state ∧ Refines table t lin ∧ Ids table t ∧ Ledger t)
    ⟨canonical_start table clock, _, [], rfl, refines_start table clock, ids_start table clock,
      ledger_start table clock⟩ ?_ hclean h
  rintro as s a s' - ⟨hcanonical, t, lin, heq, hrefines, hids, hledger⟩ hc hs
  have hm := step_moves hs
  refine ⟨canonical_move hcanonical hc hm, ?_⟩
  rcases service_move hm with hsame | ⟨b, hstep, hclean⟩
  · exact ⟨t, lin, hsame.trans heq, hrefines, hids, hledger⟩
  · have hb := hclean hcanonical hc
    rw [heq] at hb hstep
    obtain ⟨t', heq', htrans⟩ := step_trans hstep
    obtain ⟨lin', hrefines'⟩ := refines_trans hrefines hids hledger hb htrans
    exact ⟨t', lin', heq', hrefines', ids_trans hids htrans, ledger_trans hledger htrans⟩

/-- The flights that no execution works for. -/
def State.unlinked (s : State) : List Nat :=
  (List.range s.flights.length).filter fun k => (s.link k).isNone

namespace BrowserLemmas

theorem settled_unique (ht : Told s) {k : Nat} {v v' : Promise} (hv : Event.ret k v ∈ s.history)
    (hv' : Event.ret k v' ∈ s.history) : v = v' := by
  obtain ⟨f, exec, hf, hjourney, -⟩ := ht.returned k v hv
  obtain ⟨f', exec', hf', hjourney', -⟩ := ht.returned k v' hv'
  obtain rfl := Option.some.inj (hf.symm.trans hf')
  rw [hjourney] at hjourney'
  cases hjourney'
  rfl

/-- A call that no execution works for is refused, if it is settled at all. -/
theorem idle_of_unlinked (ht : Told s) {k : Nat} (hk : s.link k = none) :
    Idle ApiSpec s.history k := by
  refine ⟨fun v hv => ?_, fun v v' => settled_unique ht, ht.once k⟩
  obtain ⟨f, exec, hf, hjourney, hsourced⟩ := ht.returned k v hv
  refine ⟨f.call, (ht.called k f.call).mpr ⟨f, hf, rfl⟩, ?_⟩
  rcases hsourced with ⟨i, zone, result, rfl, -⟩ | ⟨-, c, message, hcall, rfl⟩
  · have hlink := link_some.mpr ⟨f, hf, by rw [hjourney]; rfl, rfl⟩
    rw [hk] at hlink
    cases hlink
  · rw [hcall]
    exact fun m => .refused

theorem mem_unlinked {k : Nat} :
    k ∈ s.unlinked ↔ k < s.flights.length ∧ s.link k = none := by
  rw [State.unlinked, List.mem_filter, List.mem_range, Option.isNone_iff_eq_none]

end BrowserLemmas

/-- The entry of the order of the service, as a browser sees it. -/
structure Shows (s : State) (e : Entry Nat Op Result) (b : Entry Nat Call Promise) : Prop where
  link : s.link b.id = some (b.op, e.id)
  source : ∃ zone, b.ret = b.op.promised zone e.ret
  settled : ∀ v, Event.ret b.id v ∈ s.history → v = b.ret

theorem exists_shows (hl : Linked s) (ht : Told s) {lin : List (Entry Nat Op Result)}
    (hlin : Linearization (MapSpec Device.stored) table.view s.server.service.history lin)
    {e : Entry Nat Op Result} (he : e ∈ lin) : ∃ b, Shows s e b := by
  obtain ⟨k, call, hk⟩ := hl.owner e.id (hl.called e.id e.op (hlin.called e he))
  by_cases hret : ∃ v, Event.ret k v ∈ s.history
  · obtain ⟨v, hv⟩ := hret
    refine ⟨⟨k, call, v⟩, hk, ?_, fun v' hv' => settled_unique ht hv' hv⟩
    obtain ⟨f, exec, hf, hjourney, hsourced⟩ := ht.returned k v hv
    obtain ⟨f', hf', hexec, rfl⟩ := link_some.mp hk
    obtain rfl := Option.some.inj (hf.symm.trans hf')
    rw [hjourney] at hexec
    rcases hsourced with ⟨i, zone, result, rfl, hresult, rfl⟩ | ⟨rfl, -⟩
    · cases hexec
      -- the entry has the result that the execution returned
      obtain ⟨op, hmem⟩ := hlin.returned e.id result hresult
      have hentry : e = ⟨e.id, op, result⟩ := List.inj_on_of_nodup_map hlin.nodup he hmem rfl
      exact ⟨zone, congrArg (fun x => f.call.promised zone x.ret) hentry.symm⟩
    · cases hexec
  · exact ⟨⟨k, call, call.promised (fun _ => 0) e.ret⟩, hk, ⟨_, rfl⟩,
      fun v hv => absurd ⟨v, hv⟩ hret⟩

/-- In every run whose statements do not fail and whose ids are canonical, the calls of all
browsers and of other clients are linearizable: what the promises are settled with by responses
is what one map of devices answers. A statement that fails is excluded since its call answers with
an error that no map gives, an id in another form since the map has the devices by the ids that
were answered. A `fetch` may fail at any time: the order may then have its call or leave it out. -/
theorem api_linearizable
    (hclean : Machine.Guarded (step jwt config) (CleanMove jwt config) (.start table clock) as)
    (h : Reaches jwt config table clock as s) : Linearizable ApiSpec table.view s.history := by
  obtain ⟨hl, ht, -⟩ := linked_run h
  obtain ⟨t, lin, heq, hrefines⟩ := refines_run hclean h
  have hhistory : t.history = s.server.service.history := congrArg StateOf.history heq.symm
  have htracked := hrefines.tracked
  rw [hhistory] at htracked
  have hlin := htracked.linearization.1
  have hshows : ∀ e, ∃ b, e ∈ lin → Shows s e b := fun e => by
    by_cases he : e ∈ lin
    · obtain ⟨b, hb⟩ := exists_shows hl ht hlin he
      exact ⟨b, fun _ => hb⟩
    · exact ⟨⟨0, .other .list, .null⟩, fun hmem => absurd hmem he⟩
  choose φ hφ using hshows
  have hidle : ∀ k ∈ s.unlinked, Idle ApiSpec s.history k := fun k hk =>
    idle_of_unlinked ht (mem_unlinked.mp hk).2
  refine Linearizable.insertAll hidle ⟨lin.map φ, ?_⟩
  refine hlin.relabel ?_ ?_ ?_ ?_ ?_
  · intro e he e' he' hid
    have hlink := (hφ e he).link
    rw [hid, (hφ e' he').link] at hlink
    exact (Prod.mk.inj (Option.some.inj hlink)).2.symm
  · intro e he
    have hlink := (hφ e he).link
    obtain ⟨f, hf, -, hcall⟩ := link_some.mp hlink
    refine mem_without.mpr ⟨(ht.called _ _).mpr ⟨f, hf, hcall⟩, fun hmem => ?_⟩
    have hnone := (mem_unlinked.mp hmem).2
    rw [Event.id, hlink] at hnone
    cases hnone
  · intro k v hv
    obtain ⟨hmem, hnot⟩ := mem_without.mp hv
    obtain ⟨f, exec, hf, hjourney, hsourced⟩ := ht.returned k v hmem
    rcases hsourced with ⟨i, zone, result, rfl, hresult, -⟩ | ⟨rfl, -⟩
    · obtain ⟨op, he⟩ := hlin.returned i result hresult
      have hlink : s.link k = some (f.call, i) :=
        link_some.mpr ⟨f, hf, by rw [hjourney]; rfl, rfl⟩
      have hid := hl.inj _ _ _ _ _ (hφ _ he).link hlink
      refine ⟨_, he, hid, ((hφ _ he).settled v ?_).symm⟩
      rw [hid]
      exact hmem
    · refine absurd (mem_unlinked.mpr ⟨(List.getElem?_eq_some_iff.mp hf).1, ?_⟩) hnot
      unfold State.link
      rw [hf, Option.bind_some, hjourney]
      rfl
  · intro e he e' he' hr
    exact hl.realTime _ _ _ _ _ _ (hφ e he).link (hφ e' he').link
      (realTime_of_sublist (without_sublist _ _) hr)
  · intro e he m m' hspec
    obtain ⟨zone, hret⟩ := (hφ e he).source
    have hop := htracked.call_unique (hlin.called e he) (hl.useCase _ _ _ (hφ e he).link)
    rw [hret]
    rw [hop] at hspec
    exact .served hspec

/-! One call, from its sending to its end, and one of another client in between. -/

def laptop : ApiCall := .createDevice (utf16 "laptop") (utf16 "computer")

/-- A device is created, over the proxy of the development server, while another client asks for
the list. -/
def createLaptop : List Action :=
  [.send laptop adminToken, .arrive 0 .vite [] 1 (writeError 404 ""),
    .other listRequest 1 (writeError 404 ""), .service (.draw 0 ⟨uuid₁, 1⟩),
    .service (.sql 0 none []), .service (.go 0), .service (.ret 0), .settle 0 fun _ => 0]

/-- The call has been sent. -/
def laptopSent : State :=
  ⟨.start Table.empty 0, [⟨.browser laptop, .sent adminToken⟩], [.call 0 (.browser laptop)], []⟩

/-- The server works for it. -/
def laptopServing (r : Request) (answer : Result → Response) : State :=
  let op : Op := .create "laptop" "computer"
  ⟨⟨(StateOf.start Table.empty 0).call op (.running op op.prog), [⟨r, 1, answer⟩], []⟩,
    [⟨.browser laptop, .serving 0⟩], [.call 0 (.browser laptop)], []⟩

/-- It works for the other client, too. -/
def listServing (r : Request) (answer answer' : Result → Response) : State :=
  let s := laptopServing r answer
  ⟨⟨s.server.service.call .list (.running .list Op.list.prog),
    s.server.callers ++ [⟨listRequest, 1, answer'⟩], []⟩,
    s.flights ++ [⟨.other .list, .serving 1⟩], s.history ++ [.call 1 (.other .list)], []⟩

/-- The request of a call comes in and calls its use case. -/
theorem step_arrive {k : Nat} {c : ApiCall} {token : String} {proxy : Proxy}
    {added : List (String × String)} {t : Instant} {monitor : Response} {r : Request} {op : Op}
    {answer : Result → Response} {server : Server.State}
    (hflight : s.flights[k]? = some ⟨.browser c, .sent token⟩)
    (hr : c.request proxy token added = some r)
    (hserve : serve jwt config monitor t r = .call op answer)
    (hserver : Server.step jwt config s.server (.request r t monitor) = some server) :
    step jwt config s (.arrive k proxy added t monitor) =
      some { s.goOn k ⟨.browser c, .sent token⟩ (.serving s.server.service.execs.length) with
        server := server } := by
  rw [step, hflight]
  dsimp only
  rw [hr]
  dsimp only
  rw [hserver, Option.map_some, hserve]

/-- The request of another client comes in and calls a use case. -/
theorem step_other {t : Instant} {monitor : Response} {r : Request} {op : Op}
    {answer : Result → Response} {server : Server.State}
    (hserve : serve jwt config monitor t r = .call op answer)
    (hserver : Server.step jwt config s.server (.request r t monitor) = some server) :
    step jwt config s (.other r t monitor) =
      some ⟨server, s.flights ++ [⟨.other op, .serving s.server.service.execs.length⟩],
        s.history ++ [.call s.flights.length (.other op)], s.rejected⟩ := by
  rw [step, hserver, Option.map_some, hserve]

theorem laptop_arrives : ∃ r answer,
    step clearJwt adminConfig laptopSent (.arrive 0 .vite [] 1 (writeError 404 "")) =
      some (laptopServing r answer) ∧
    ∀ zone result, settled zone (answer result) = (promised zone laptop result, false) := by
  obtain ⟨r, hr⟩ : ∃ r, laptop.request .vite adminToken [] = some r := ⟨_, rfl⟩
  have hheader : headerValue ("Bearer " ++ adminToken) = some ("Bearer " ++ adminToken) := by decide
  have hbearer : Bearer r adminToken := by
    obtain ⟨-, -, -, -, hauth⟩ := request_path hr
    rw [hheader] at hauth
    exact ⟨"Bearer", Option.some.inj hauth, by decide⟩
  obtain ⟨answer, hserve, hsettled⟩ := (@call_settles clearJwt adminConfig 1 (writeError 404 "")
    _ _ _ _ _ hr).1 (adminToken_authenticated hbearer)
  refine ⟨r, answer, ?_, hsettled⟩
  rw [laptop, useCase, ofUtf16_utf16, ofUtf16_utf16] at hserve
  have hserver : Server.step clearJwt adminConfig laptopSent.server
      (.request r 1 (writeError 404 "")) = some (laptopServing r answer).server := by
    rw [Server.step, if_pos ⟨Phase.noConfusion, rfl⟩, hserve]
    rfl
  exact step_arrive rfl hr hserve hserver

theorem list_enters (r : Request) (answer : Result → Response) : ∃ answer',
    serve clearJwt adminConfig (writeError 404 "") 1 listRequest = .call .list answer' ∧
    step clearJwt adminConfig (laptopServing r answer) (.other listRequest 1 (writeError 404 "")) =
      some (listServing r answer answer') := by
  have hasks : Asks listRequest .list := .list ⟨.inr (.inl rfl), .inl (by decide), by decide⟩
  have hbearer : Bearer listRequest adminToken := ⟨"bearer", rfl, by decide⟩
  obtain ⟨answer', hserve⟩ := serve_call_iff.mpr ⟨hasks, adminToken_authenticated hbearer⟩
  have hserver : Server.step clearJwt adminConfig (laptopServing r answer).server
      (.request listRequest 1 (writeError 404 "")) =
        some (listServing r answer answer').server := by
    have hserving : (laptopServing r answer).server.service.phase ≠ .exited := Phase.noConfusion
    rw [Server.step, if_pos ⟨hserving, rfl⟩, hserve]
    rfl
  exact ⟨answer', hserve, step_other hserve hserver⟩

theorem createLaptop_run : ∃ s, Reaches clearJwt adminConfig Table.empty 0 createLaptop s ∧
    Machine.Guarded (step clearJwt adminConfig) (CleanMove clearJwt adminConfig)
      (.start Table.empty 0) createLaptop ∧
    s.history = [.call 0 (.browser laptop), .call 1 (.other .list), .ret 0 (promised (fun _ => 0)
      laptop (.ok (.device ⟨uuid₁.toString, "laptop", "computer", 1⟩)))] := by
  obtain ⟨r, answer, harrive, hsettled⟩ := laptop_arrives
  obtain ⟨answer', hserve, henter⟩ := list_enters r answer
  have hsend : step clearJwt adminConfig (.start Table.empty 0) (.send laptop adminToken) =
      some laptopSent := rfl
  obtain ⟨s, hs, hhistory⟩ : ∃ s, Machine.run (step clearJwt adminConfig)
      (listServing r answer answer') (createLaptop.drop 3) = some s ∧
      s.history = [.call 0 (.browser laptop), .call 1 (.other .list), .ret 0 (settled (fun _ => 0)
        (answer (.ok (.device ⟨uuid₁.toString, "laptop", "computer", 1⟩)))).1] := ⟨_, rfl, rfl⟩
  rw [hsettled] at hhistory
  have hclean : Machine.Guarded (step clearJwt adminConfig) (CleanMove clearJwt adminConfig)
      (listServing r answer answer') (createLaptop.drop 3) :=
    Machine.guarded_cons rfl rfl (Machine.guarded_cons rfl rfl (Machine.guarded_cons rfl rfl
      (Machine.guarded_cons rfl rfl (Machine.guarded_cons trivial rfl trivial))))
  refine ⟨s, (Machine.run_cons hsend).trans ((Machine.run_cons harrive).trans
    ((Machine.run_cons henter).trans hs)), ?_, hhistory⟩
  refine Machine.guarded_cons ?_ hsend (Machine.guarded_cons ?_ harrive
    (Machine.guarded_cons ?_ henter hclean))
  · exact rfl
  · exact trivial
  · rw [CleanMove, hserve]
    rfl

theorem api_linearizable_laptop : ∃ s, Reaches clearJwt adminConfig Table.empty 0 createLaptop s ∧
    s.history = [.call 0 (.browser laptop), .call 1 (.other .list), .ret 0 (promised (fun _ => 0)
      laptop (.ok (.device ⟨uuid₁.toString, "laptop", "computer", 1⟩)))] ∧
    Linearizable ApiSpec Table.empty.view s.history := by
  obtain ⟨s, hrun, hclean, hhistory⟩ := createLaptop_run
  exact ⟨s, hrun, hhistory, api_linearizable hclean hrun⟩

/-- The device is created, and the connection breaks before the response is back. -/
def loseLaptop : List Action := createLaptop.dropLast ++ [.lose 0]

end AssetTracker.Browsers
