import Mathlib.Data.List.Basic
import AssetTracker.Lib.Pool
import AssetTracker.Lib.Scan
import AssetTracker.Lib.Time
import AssetTracker.Metrics

/-!
# Metrics (Go service)

`MetricsHandler` and `MetricsMiddleware`, with the middleware chain around the
mux. Every request is a thread; an atomic add, an atomic load and a section
under the mutex are one effect each.

Results:
1. `getTraces_eq`: the loop of `GetTraces` stays in bounds and reads the newest
   traces first.
2. `tally_reaches`: at any point between the effects of any number of requests,
   each counter counts threads by how far they have come.
3. `consistent`: what follows for the counters, the traces and the responses.
-/

namespace AssetTracker.GoMetrics

open Effects Encoding Metrics

/-! ## `MetricsHandler` -/

structure MetricsHandler where
  requestsTotal : Nat
  errorsTotal : Nat
  traces : List RequestTrace

def newMetricsHandler : MetricsHandler := ⟨0, 0, []⟩

def MetricsHandler.incrementRequests (m : MetricsHandler) : MetricsHandler :=
  { m with requestsTotal := m.requestsTotal + 1 }

def MetricsHandler.incrementErrors (m : MetricsHandler) : MetricsHandler :=
  { m with errorsTotal := m.errorsTotal + 1 }

def MetricsHandler.pushTrace (m : MetricsHandler) (trace : RequestTrace) : MetricsHandler :=
  { m with traces := m.traces ++ [trace] }

/-- `GetTraces`; `none` if an index were out of range. -/
def MetricsHandler.getTraces (m : MetricsHandler) (limit : Int) : Option (List RequestTrace) :=
  let n : Int := m.traces.length
  if n = 0 then some []
  else
    let limit := if limit > n then n else limit
    let limit := if limit < 0 then 0 else limit
    (List.range limit.toNat).mapM fun (i : Nat) => elementAt m.traces (n - 1 - i)

/-- `parseLimit`, of the value of the parameter `limit`. `Query().Get` gives `""` for none. -/
def parseLimit (value : Option String) (defaultLimit : Int) : Int :=
  let limitStr := value.getD ""
  if limitStr = "" then defaultLimit
  else
    match sscanfInt limitStr with
    | none => defaultLimit
    | some limit => if limit < 1 then 1 else if limit > 10000 then 10000 else limit

/-! ## Effects -/

/-- What the metrics code reads of a request: its method, `URL.Path`, and the
value of `limit` in the query. -/
structure Request where
  method : String
  path : String
  limit : Option String
deriving DecidableEq, Repr

inductive Effect where
  | now
  | addRequests
  | addErrors
  | push (trace : RequestTrace)
  | getTraces (limit : Int)
  | loadRequests
  | loadErrors
  /-- A handler that has nothing to do with metrics, from its call to its return. -/
  | serve (r : Request)
deriving DecidableEq

abbrev Effect.Answer : Effect → Type
  | now => Instant
  | addRequests => Unit
  | addErrors => Unit
  | push _ => Unit
  | getTraces _ => List RequestTrace
  | loadRequests => Nat
  | loadErrors => Nat
  | serve _ => Nat

abbrev Program (α : Type) := Prog Effect.Answer α

def now : Program Instant := Prog.perform Effect.now
def addRequests : Program Unit := Prog.perform Effect.addRequests
def addErrors : Program Unit := Prog.perform Effect.addErrors
def pushTrace (trace : RequestTrace) : Program Unit := Prog.perform (Effect.push trace)
def getTraces (limit : Int) : Program (List RequestTrace) := Prog.perform (Effect.getTraces limit)
def loadRequests : Program Nat := Prog.perform Effect.loadRequests
def loadErrors : Program Nat := Prog.perform Effect.loadErrors

/-! ## Handlers -/

inductive Body where
  | detail (d : Detail)
  | counts (requestsTotal errorsTotal : Nat)
  | other
deriving DecidableEq, Repr

def Body.detail? : Body → Option Detail
  | detail d => some d
  | _ => none

/-- The response, with the status that the innermost `responseWriter` captures. -/
structure Response where
  status : Nat
  body : Body
deriving DecidableEq, Repr

abbrev Handler := Request → Program Response

/-- `HandleRequests`. The elements of the map literal are evaluated in order. -/
def handleRequests : Handler := fun r => do
  let limit := parseLimit r.limit 50
  let traces ← getTraces limit
  let requestsTotal ← loadRequests
  let errorsTotal ← loadErrors
  return ⟨200, .detail ⟨requestsTotal, errorsTotal, traces⟩⟩

/-- `ServeHTTP` of the metrics handler. -/
def serveHTTP : Handler := fun _ => do
  let requestsTotal ← loadRequests
  let errorsTotal ← loadErrors
  return ⟨200, .counts requestsTotal errorsTotal⟩

/-- Where the mux sends a request. -/
inductive Route where
  | metrics
  | metricsRequests
  | other

def mux (route : Request → Route) : Handler := fun r =>
  match route r with
  | .metrics => serveHTTP r
  | .metricsRequests => handleRequests r
  | .other => do
    let status ← Prog.perform (Effect.serve r)
    return ⟨status, .other⟩

/-- `MetricsMiddleware`. `millis` is `Seconds() * 1000` of a duration, in floating point. -/
def metricsMiddleware (millis : Int → Decimal) (next : Handler) : Handler := fun r =>
  if isInfraPath r.path then next r
  else do
    let start ← now
    addRequests
    let response ← next r
    if response.status ≥ 400 then addErrors
    let finish ← now
    let stamp ← now
    pushTrace
      { method := r.method
        path := r.path
        status := response.status
        durationMs := millis (finish - start)
        timestamp := formatRFC3339 (.utc stamp) }
    return response

/-- `LoggingMiddleware`: it reads the clock before and after. -/
def loggingMiddleware (next : Handler) : Handler := fun r => do
  let _start ← now
  let response ← next r
  let _finish ← now
  return response

def corsMiddleware (next : Handler) : Handler := fun r => do
  if r.method = "OPTIONS" then return ⟨204, .other⟩
  next r

/-- The wrapped mux of `main`. -/
def serve (millis : Int → Decimal) (route : Request → Route) : Handler :=
  corsMiddleware (loggingMiddleware (metricsMiddleware millis (mux route)))

/-! ## The server -/

/-- What the outside answers: the clock, and the status that a handler leaves. -/
structure Input where
  now : Instant
  status : Nat
deriving DecidableEq, Repr

def handle : (e : Effect) → Input → MetricsHandler → Option (e.Answer × MetricsHandler)
  | .now, x, m => some (x.now, m)
  | .addRequests, _, m => some ((), m.incrementRequests)
  | .addErrors, _, m => some ((), m.incrementErrors)
  | .push trace, _, m => some ((), m.pushTrace trace)
  | .getTraces limit, _, m => (m.getTraces limit).map fun traces => (traces, m)
  | .loadRequests, _, m => some (m.requestsTotal, m)
  | .loadErrors, _, m => some (m.errorsTotal, m)
  | .serve _, x, m => some (x.status, m)

/-- The server: a thread for each request, at any time. -/
def server (millis : Int → Decimal) (route : Request → Route) :
    System Request Input Effect.Answer Response MetricsHandler where
  enter _ m := some m
  body := serve millis route
  handle := handle

abbrev State := Pool Request Effect.Answer Response MetricsHandler

abbrev Action := PoolAction Request Input

def Reaches (millis : Int → Decimal) (route : Request → Route) (as : List Action) (s : State) :
    Prop :=
  (server millis route).Reaches newMetricsHandler as s

/-- The request reaches the middleware, and it is none of those that the middleware skips. -/
def Request.counted (r : Request) : Bool := r.method != "OPTIONS" && !isInfraPath r.path

def State.inFlight (s : State) : Nat :=
  s.threads.countP fun t => t.label.counted && t.returned?.isNone

def completed (t : Thread Request Effect.Answer Response) : Option Completed :=
  if t.label.counted then t.returned?.map fun a => ⟨t.label.method, t.label.path, a.status⟩ else none

def State.completed (s : State) : List Completed := s.threads.filterMap GoMetrics.completed

/-- The responses of `HandleRequests`. -/
def State.responses (s : State) : List Detail :=
  s.threads.filterMap fun t => t.returned?.bind fun a => a.body.detail?

/-! ## The handler -/

/-- What `GetTraces` makes of its limit when there are `n` traces. -/
def clampTo (n limit : Int) : Int :=
  let limit := if limit > n then n else limit
  if limit < 0 then 0 else limit

theorem clampTo_le {n : Int} (hn : 0 ≤ n) (limit : Int) : clampTo n limit ≤ n := by
  unfold clampTo
  dsimp only
  split <;> split <;> omega

/-- The clamped limit takes what the limit takes. -/
theorem take_clampTo {α : Type} (xs : List α) (limit : Int) :
    xs.take (clampTo xs.length limit).toNat = xs.take limit.toNat := by
  unfold clampTo
  dsimp only
  by_cases hlimit : limit > xs.length
  · rw [if_pos hlimit, if_neg (by omega), Int.toNat_natCast, List.take_of_length_le (Nat.le_refl _),
      List.take_of_length_le (by omega)]
  · rw [if_neg hlimit]
    split
    · next hneg => rw [Int.toNat_of_nonpos (Int.le_of_lt hneg), Int.toNat_zero]
    · rfl

/-- The indices of the loop are in bounds, and they read the list from its end. -/
theorem getTraces_eq (m : MetricsHandler) (limit : Int) :
    m.getTraces limit = some (m.traces.reverse.take limit.toNat) := by
  unfold MetricsHandler.getTraces
  dsimp only
  split
  · next hn =>
    have hnil : m.traces = [] := List.eq_nil_of_length_eq_zero (by omega)
    simp [hnil]
  · have hle : (clampTo m.traces.length limit).toNat ≤ m.traces.length := by
      have := clampTo_le (Int.natCast_nonneg m.traces.length) limit
      omega
    refine (mapM_backwards hle).trans ?_
    rw [← List.length_reverse, take_clampTo]

/-! ## How far a request has come -/

/-- The phases of a request, as far as counters and traces are concerned. -/
inductive Phase where
  | skipped
  | fresh
  | counted
  | failed
  | traced (trace : RequestTrace)

@[simp] def Phase.isCounted : Phase → Bool
  | skipped => false
  | fresh => false
  | counted => true
  | failed => true
  | traced _ => true

@[simp] def Phase.isFailed : Phase → Bool
  | failed => true
  | traced trace => trace.isError
  | _ => false

@[simp] def Phase.trace? : Phase → Option RequestTrace
  | traced trace => some trace
  | _ => none

def Effect.reads : Effect → Bool
  | addRequests => false
  | addErrors => false
  | push _ => false
  | _ => true

/-- A request is counted first; its trace is pushed last, after the error has been counted
if it is one. -/
inductive Counting : Protocol Effect.Answer Phase
  | read {φ : Phase} {e : Effect} {r : e.Answer} (h : e.reads = true) : Counting φ e r φ
  | count : Counting .fresh .addRequests () .counted
  | fail : Counting .counted .addErrors () .failed
  | push {trace : RequestTrace} (h : trace.isError = false) :
      Counting .counted (.push trace) () (.traced trace)
  | pushError {trace : RequestTrace} (h : trace.isError = true) :
      Counting .failed (.push trace) () (.traced trace)

def Phase.first (r : Request) : Phase := if r.counted then fresh else skipped

/-- A counted request returns when there is a trace of it with the status of its response. -/
def Traced (r : Request) (φ : Phase) (a : Response) : Prop :=
  if r.counted then ∃ trace, φ = .traced trace ∧ trace.completed = ⟨r.method, r.path, a.status⟩
  else φ = .skipped

/-- No route of the mux counts or traces anything. -/
theorem mux_follows (route : Request → Route) (r : Request) (φ : Phase) :
    (mux route r).Follows Counting (fun φ' _ => φ' = φ) φ := by
  have hread {e : Effect} {k : e.Answer → Program Response} (he : e.reads = true)
      (hk : ∀ x, (k x).Follows Counting (fun φ' _ => φ' = φ) φ) :
      (Prog.op e k).Follows Counting (fun φ' _ => φ' = φ) φ := fun x => ⟨φ, .read he, hk x⟩
  unfold mux
  cases route r with
  | metrics => exact hread rfl fun _ => hread rfl fun _ => rfl
  | metricsRequests => exact hread rfl fun _ => hread rfl fun _ => hread rfl fun _ => rfl
  | other => exact hread rfl fun _ => rfl

/-- The middleware takes a request that it does not skip from `fresh` to `traced`. -/
theorem metricsMiddleware_follows (millis : Int → Decimal) (route : Request → Route) (r : Request)
    (h : r.method ≠ "OPTIONS") :
    (metricsMiddleware millis (mux route) r).Follows Counting (Traced r) (.first r) := by
  unfold metricsMiddleware
  by_cases hinfra : isInfraPath r.path = true
  · have hc : r.counted = false := by simp [Request.counted, hinfra]
    rw [if_pos hinfra, Phase.first, if_neg (by simp [hc])]
    refine (mux_follows route r .skipped).mono fun φ a hφ => ?_
    rwa [Traced, if_neg (by simp [hc])]
  · have hc : r.counted = true := by simp [Request.counted, hinfra, h]
    rw [if_neg hinfra, Phase.first, if_pos hc]
    intro start
    refine ⟨.fresh, .read rfl, fun _ => ⟨.counted, .count, ?_⟩⟩
    refine (mux_follows route r .counted).bind ?_
    rintro _ response rfl
    have hdone (trace : RequestTrace) (ht : trace.completed = ⟨r.method, r.path, response.status⟩) :
        Traced r (.traced trace) response := by
      rw [Traced, if_pos hc]
      exact ⟨trace, rfl, ht⟩
    by_cases herr : response.status ≥ 400
    · rw [if_pos herr]
      exact fun _ => ⟨.failed, .fail, fun _ => ⟨_, .read rfl, fun _ => ⟨_, .read rfl, fun _ =>
        ⟨_, .pushError (decide_eq_true herr), hdone _ rfl⟩⟩⟩⟩
    · rw [if_neg herr]
      exact fun _ => ⟨_, .read rfl, fun _ => ⟨_, .read rfl, fun _ =>
        ⟨_, .push (decide_eq_false herr), hdone _ rfl⟩⟩⟩

theorem serve_follows (millis : Int → Decimal) (route : Request → Route) (r : Request) :
    (serve millis route r).Follows Counting (Traced r) (.first r) := by
  unfold serve corsMiddleware
  by_cases h : r.method = "OPTIONS"
  · have hc : r.counted = false := by simp [Request.counted, h]
    rw [if_pos h, Phase.first, if_neg (by simp [hc])]
    show Traced r .skipped _
    rw [Traced, if_neg (by simp [hc])]
  · rw [if_neg h]
    intro _
    refine ⟨_, .read rfl, (metricsMiddleware_follows millis route r h).bind ?_⟩
    exact fun φ response hφ _ => ⟨φ, .read rfl, hφ⟩

/-- Each counter counts the requests that have come far enough. -/
structure Tally (m : MetricsHandler) (phases : List Phase) : Prop where
  requests : m.requestsTotal = phases.countP Phase.isCounted
  errors : m.errorsTotal = phases.countP Phase.isFailed
  traces : m.traces.Perm (phases.filterMap Phase.trace?)

theorem handle_reads {e : Effect} {x : Input} {m m' : MetricsHandler} {r : e.Answer}
    (he : e.reads = true) (h : handle e x m = some (r, m')) : m' = m := by
  cases e <;> simp_all [Effect.reads, handle]

/-- The tally, with one request looked at apart. -/
theorem tally_middle {m : MetricsHandler} {before after : List Phase} {φ : Phase} :
    Tally m (before ++ φ :: after) ↔
      m.requestsTotal = (before ++ after).countP Phase.isCounted + φ.isCounted.toNat ∧
      m.errorsTotal = (before ++ after).countP Phase.isFailed + φ.isFailed.toNat ∧
      m.traces.Perm ((before ++ after).filterMap Phase.trace? ++ φ.trace?.toList) := by
  have hperm : (before ++ φ :: after).Perm ((before ++ after) ++ [φ]) :=
    List.perm_middle.trans (List.perm_append_singleton _ _).symm
  have hcount (p : Phase → Bool) : (before ++ φ :: after).countP p =
      (before ++ after).countP p + (p φ).toNat := by
    rw [hperm.countP_eq, List.countP_append, List.countP_singleton]
    cases p φ <;> rfl
  have htraces : ((before ++ φ :: after).filterMap Phase.trace?).Perm
      ((before ++ after).filterMap Phase.trace? ++ φ.trace?.toList) := by
    have hsingle : [φ].filterMap Phase.trace? = φ.trace?.toList := by cases φ <;> rfl
    rw [← hsingle, ← List.filterMap_append]
    exact hperm.filterMap _
  exact ⟨fun h => ⟨h.requests.trans (hcount _), h.errors.trans (hcount _), h.traces.trans htraces⟩,
    fun ⟨h₁, h₂, h₃⟩ => ⟨h₁.trans (hcount _).symm, h₂.trans (hcount _).symm,
      h₃.trans htraces.symm⟩⟩

theorem Tally.spawn {m : MetricsHandler} {phases : List Phase} (h : Tally m phases) (r : Request) :
    Tally m (phases ++ [.first r]) := by
  refine tally_middle.mpr ?_
  rw [List.append_nil]
  unfold Phase.first
  split
  · exact ⟨h.requests, h.errors, by simpa using h.traces⟩
  · exact ⟨h.requests, h.errors, by simpa using h.traces⟩

/-- An effect keeps the tally: it moves its request on and changes the counter that
counts that phase. -/
theorem Tally.effect {m m' : MetricsHandler} {before after : List Phase} {φ φ' : Phase}
    {e : Effect} {x : Input} {r : e.Answer} (h : Tally m (before ++ φ :: after))
    (hs : handle e x m = some (r, m')) (hnext : Counting φ e r φ') :
    Tally m' (before ++ φ' :: after) := by
  rw [tally_middle] at h ⊢
  obtain ⟨hrequests, herrors, htraces⟩ := h
  cases hnext with
  | read he =>
    cases handle_reads he hs
    exact ⟨hrequests, herrors, htraces⟩
  | count =>
    cases hs
    exact ⟨congrArg (· + 1) hrequests, herrors, htraces⟩
  | fail =>
    cases hs
    exact ⟨hrequests, congrArg (· + 1) herrors, htraces⟩
  | push herr =>
    cases hs
    refine ⟨hrequests, ?_, ?_⟩
    · rw [Phase.isFailed, herr]
      exact herrors
    · show (m.traces ++ [_]).Perm _
      exact (by simpa using htraces : m.traces.Perm _).append_right _
  | pushError herr =>
    cases hs
    refine ⟨hrequests, ?_, ?_⟩
    · rw [Phase.isFailed, herr]
      exact herrors
    · show (m.traces ++ [_]).Perm _
      exact (by simpa using htraces : m.traces.Perm _).append_right _

/-! ## All interleavings -/

variable {millis : Int → Decimal} {route : Request → Route} {as : List Action} {s : State}

/-- Requests with their phases. Only those that the middleware skips are `skipped`. -/
structure Tracked (m : MetricsHandler) (ts : List (Thread Request Effect.Answer Response × Phase)) :
    Prop where
  tally : Tally m (ts.map Prod.snd)
  labels : ∀ t ∈ ts, t.1.label.counted = true ∨ t.2 = .skipped

theorem counting_skipped {e : Effect} {r : e.Answer} {φ φ' : Phase} (h : Counting φ e r φ')
    (hφ : φ = .skipped) : φ' = .skipped := by
  cases h with
  | read _ => exact hφ
  | count => cases hφ
  | fail => cases hφ
  | push _ => cases hφ
  | pushError _ => cases hφ

theorem tally_reaches (h : Reaches millis route as s) :
    ∃ ts, s.threads = ts.map Prod.fst ∧ System.Following Counting Traced ts ∧
      Tracked s.shared ts := by
  refine System.protocol_run (P := fun _ m ts => Tracked m ts) (serve_follows millis route)
    ⟨⟨rfl, rfl, .rfl⟩, by simp⟩ ?_ h
  rintro as m ts a m' ts' - ⟨htally, hlabels⟩ - ht
  cases ht with
  | spawn r hs =>
    cases hs
    refine ⟨by simpa using htally.spawn r, fun t hmem => ?_⟩
    obtain hmem | hmem := List.mem_append.mp hmem
    · exact hlabels t hmem
    · obtain rfl := List.mem_singleton.mp hmem
      show r.counted = true ∨ Phase.first r = .skipped
      unfold Phase.first
      split
      · next hc => exact .inl hc
      · exact .inr rfl
  | run before after r k x hs hnext =>
    simp only [List.map_append, List.map_cons] at htally
    refine ⟨by simpa using htally.effect hs hnext, fun t hmem => ?_⟩
    simp only [List.mem_append, List.mem_cons] at hmem hlabels
    obtain hmem | rfl | hmem := hmem
    · exact hlabels t (.inl hmem)
    · exact (hlabels _ (.inr (.inl rfl))).imp_right (counting_skipped hnext)
    · exact hlabels t (.inr (.inr hmem))

/-- A request whose error is counted but not traced is in flight. -/
theorem inFlight_of_failed {t : Thread Request Effect.Answer Response × Phase}
    (hlabel : t.1.label.counted = true ∨ t.2 = .skipped)
    (hf : t.1.prog.Follows Counting (Traced t.1.label) t.2) (h : t.2 = .failed) :
    (t.1.label.counted && t.1.returned?.isNone) = true := by
  obtain ⟨⟨r, prog⟩, φ⟩ := t
  cases h
  have hc : r.counted = true := by simpa using hlabel
  cases prog with
  | op e k => simp [Thread.returned?, hc]
  | pure a =>
    -- it has no trace, so it has not returned
    have hf : Traced r .failed a := hf
    simp [Traced, hc] at hf

/-- A request that is not in flight has been traced, or it is skipped. -/
theorem phase_of_returned {t : Thread Request Effect.Answer Response × Phase}
    (hlabel : t.1.label.counted = true ∨ t.2 = .skipped)
    (hf : t.1.prog.Follows Counting (Traced t.1.label) t.2)
    (h : (t.1.label.counted && t.1.returned?.isNone) = false) :
    t.2.isCounted = t.2.trace?.isSome ∧ t.2.isFailed = t.2.trace?.any RequestTrace.isError ∧
      t.2.trace?.map RequestTrace.completed = GoMetrics.completed t.1 := by
  obtain ⟨⟨r, prog⟩, φ⟩ := t
  cases hc : r.counted with
  | false =>
    obtain rfl : φ = .skipped := by simpa [hc] using hlabel
    exact ⟨rfl, rfl, by simp [GoMetrics.completed, hc]⟩
  | true =>
    cases prog with
    | op e k => simp [hc, Thread.returned?] at h
    | pure a =>
      have hf : Traced r φ a := hf
      rw [Traced, if_pos hc] at hf
      obtain ⟨trace, rfl, htrace⟩ := hf
      exact ⟨rfl, rfl, by simp [GoMetrics.completed, hc, Thread.returned?, htrace]⟩

theorem errorTraces_eq {m : MetricsHandler} {phases : List Phase} (h : Tally m phases) :
    errorTraces m.traces = phases.countP fun φ => φ.trace?.any RequestTrace.isError := by
  rw [errorTraces, h.traces.countP_eq, List.countP_filterMap]
  congr 1
  funext φ
  cases φ <;> rfl

/-- The counters and the traces, with requests in flight and without. -/
theorem consistent_counters (h : Reaches millis route as s) :
    s.shared.traces.length ≤ s.shared.requestsTotal ∧
    errorTraces s.shared.traces ≤ s.shared.errorsTotal ∧
    s.shared.errorsTotal ≤ errorTraces s.shared.traces + s.inFlight ∧
    (s.inFlight = 0 → s.shared.requestsTotal = s.shared.traces.length ∧
      s.shared.errorsTotal = errorTraces s.shared.traces ∧
      (s.shared.traces.map RequestTrace.completed).Perm s.completed) := by
  obtain ⟨ts, hthreads, hf, htally, hlabels⟩ := tally_reaches h
  have hlength : s.shared.traces.length = (ts.map Prod.snd).countP fun φ => φ.trace?.isSome := by
    rw [htally.traces.length_eq, List.length_filterMap_eq_countP]
  have hinFlight : s.inFlight =
      ts.countP fun t => t.1.label.counted && t.1.returned?.isNone := by
    rw [State.inFlight, hthreads, List.countP_map]
    rfl
  rw [hlength, errorTraces_eq htally, htally.requests, htally.errors]
  refine ⟨?_, ?_, ?_, fun hzero => ?_⟩
  · exact List.countP_mono_left fun φ _ hφ => by cases φ <;> first | rfl | cases hφ
  · exact List.countP_mono_left fun φ _ hφ => by
      cases φ with
      | traced trace => exact hφ
      | _ => cases hφ
  · rw [hinFlight, List.countP_map, List.countP_map]
    -- an error is counted before it is traced; in between its request is in flight
    refine countP_le_add fun t ht hfailed => ?_
    cases hφ : t.2 with
    | failed => exact .inr (inFlight_of_failed (hlabels t ht) (hf t ht) hφ)
    | traced trace => exact .inl (by simpa [hφ] using hfailed)
    | _ => simp [hφ] at hfailed
  · have hdone (t) (ht : t ∈ ts) := phase_of_returned (hlabels t ht) (hf t ht)
      (Bool.eq_false_iff.mpr (List.countP_eq_zero.mp (hinFlight ▸ hzero) t ht))
    simp only [List.countP_map]
    refine ⟨List.countP_congr fun t ht => ?_, List.countP_congr fun t ht => ?_, ?_⟩
    · exact Bool.eq_iff_iff.mp (hdone t ht).1
    · exact Bool.eq_iff_iff.mp (hdone t ht).2.1
    · calc (s.shared.traces.map RequestTrace.completed).Perm
            (((ts.map Prod.snd).filterMap Phase.trace?).map RequestTrace.completed) :=
              htally.traces.map _
        _ = ts.filterMap fun t => t.2.trace?.map RequestTrace.completed := by
              rw [List.filterMap_map, List.map_filterMap]
              rfl
        _ = ts.filterMap fun t => GoMetrics.completed t.1 :=
              List.filterMap_congr fun t ht => (hdone t ht).2.2
        _ = s.completed := by
              rw [State.completed, hthreads, List.filterMap_map]
              rfl

/-! ## Responses -/

/-- The phases of a request, as far as the response of `HandleRequests` is concerned. -/
inductive Reading where
  | idle
  | copied (recent : List RequestTrace)
  | loaded (recent : List RequestTrace) (requestsTotal : Nat)
  | answered (d : Detail)

def Effect.loads : Effect → Bool
  | getTraces _ => true
  | loadRequests => true
  | loadErrors => true
  | _ => false

/-- First the traces are copied, then the requests are loaded, then the errors. Other
loads, without traces before them, do not count. -/
inductive Snapshot : Protocol Effect.Answer Reading
  | other {φ : Reading} {e : Effect} {r : e.Answer} (h : e.loads = false) : Snapshot φ e r φ
  | alone {e : Effect} {r : e.Answer} : Snapshot .idle e r .idle
  | copy {limit : Int} {recent : List RequestTrace} :
      Snapshot .idle (.getTraces limit) recent (.copied recent)
  | requests {recent : List RequestTrace} {n : Nat} :
      Snapshot (.copied recent) .loadRequests n (.loaded recent n)
  | errors {recent : List RequestTrace} {n k : Nat} :
      Snapshot (.loaded recent n) .loadErrors k (.answered ⟨n, k, recent⟩)

def Answers (φ : Reading) (a : Response) : Prop := ∀ d, a.body.detail? = some d → φ = .answered d

theorem mux_answers (route : Request → Route) (r : Request) :
    (mux route r).Follows Snapshot Answers .idle := by
  unfold mux
  cases route r with
  | metrics => exact fun _ => ⟨_, .alone, fun _ => ⟨.idle, .alone, fun _ hd => by cases hd⟩⟩
  | metricsRequests =>
    exact fun _ => ⟨_, .copy, fun _ => ⟨_, .requests, fun _ => ⟨_, .errors, fun _ hd => by
      cases hd
      rfl⟩⟩⟩
  | other => exact fun _ => ⟨.idle, .other rfl, fun _ hd => by cases hd⟩

theorem metricsMiddleware_answers (millis : Int → Decimal) (route : Request → Route) (r : Request) :
    (metricsMiddleware millis (mux route) r).Follows Snapshot Answers .idle := by
  unfold metricsMiddleware
  split
  · exact mux_answers route r
  · refine fun _ => ⟨_, .other rfl, fun _ => ⟨_, .other rfl, (mux_answers route r).bind ?_⟩⟩
    intro φ response hφ
    split
    · exact fun _ => ⟨_, .other rfl, fun _ => ⟨_, .other rfl, fun _ => ⟨_, .other rfl,
        fun _ => ⟨φ, .other rfl, hφ⟩⟩⟩⟩
    · exact fun _ => ⟨_, .other rfl, fun _ => ⟨_, .other rfl, fun _ => ⟨φ, .other rfl, hφ⟩⟩⟩

theorem serve_answers (millis : Int → Decimal) (route : Request → Route) (r : Request) :
    (serve millis route r).Follows Snapshot Answers .idle := by
  unfold serve corsMiddleware
  split
  · exact fun d hd => by cases hd
  · refine fun _ => ⟨_, .other rfl, (metricsMiddleware_answers millis route r).bind ?_⟩
    exact fun φ response hφ _ => ⟨φ, .other rfl, hφ⟩

/-- What a request has read is within the counters, as they were read or as they are. -/
def Within (m : MetricsHandler) : Reading → Prop
  | .idle => True
  | .copied recent => recent.length ≤ m.requestsTotal ∧ errorTraces recent ≤ m.errorsTotal
  | .loaded recent n => recent.length ≤ n ∧ errorTraces recent ≤ m.errorsTotal
  | .answered d => d.Bounded

/-- The counters never decrease. -/
theorem handle_mono {e : Effect} {x : Input} {m m' : MetricsHandler} {r : e.Answer}
    (h : handle e x m = some (r, m')) :
    m.requestsTotal ≤ m'.requestsTotal ∧ m.errorsTotal ≤ m'.errorsTotal := by
  cases e with
  | getTraces limit =>
    obtain ⟨_, -, heq⟩ := Option.map_eq_some_iff.mp h
    cases heq
    exact ⟨Nat.le_refl _, Nat.le_refl _⟩
  | addRequests =>
    cases h
    exact ⟨Nat.le_succ _, Nat.le_refl _⟩
  | addErrors =>
    cases h
    exact ⟨Nat.le_refl _, Nat.le_succ _⟩
  | _ =>
    cases h
    exact ⟨Nat.le_refl _, Nat.le_refl _⟩

theorem Within.mono {m m' : MetricsHandler} {φ : Reading} (h : Within m φ)
    (hr : m.requestsTotal ≤ m'.requestsTotal) (he : m.errorsTotal ≤ m'.errorsTotal) :
    Within m' φ := by
  cases φ with
  | idle => trivial
  | copied recent => exact ⟨h.1.trans hr, h.2.trans he⟩
  | loaded recent n => exact ⟨h.1, h.2.trans he⟩
  | answered d => exact h

/-- An effect keeps what its own request has read within the counters. -/
theorem Within.effect {m m' : MetricsHandler} {φ φ' : Reading} {e : Effect} {x : Input}
    {r : e.Answer} (htraces : m.traces.length ≤ m.requestsTotal)
    (herrors : errorTraces m.traces ≤ m.errorsTotal) (h : Within m φ)
    (hs : handle e x m = some (r, m')) (hnext : Snapshot φ e r φ') : Within m' φ' := by
  obtain ⟨hr, he⟩ := handle_mono hs
  cases hnext with
  | other _ => exact h.mono hr he
  | alone => trivial
  | copy =>
    obtain ⟨recent, hget, heq⟩ := Option.map_eq_some_iff.mp hs
    cases heq
    rw [getTraces_eq] at hget
    cases hget
    refine ⟨le_trans ?_ htraces, (errorTraces_take_reverse _ _).trans herrors⟩
    exact (List.length_take_le' _ _).trans_eq List.length_reverse
  | requests =>
    cases hs
    exact h
  | errors =>
    cases hs
    exact ⟨h.1, h.2⟩

theorem within_reaches (h : Reaches millis route as s) :
    ∃ ts, s.threads = ts.map Prod.fst ∧
      System.Following Snapshot (fun _ => Answers) ts ∧ ∀ t ∈ ts, Within s.shared t.2 := by
  refine System.protocol_run (P := fun _ m ts => ∀ t ∈ ts, Within m t.2)
    (serve_answers millis route) (by simp) ?_ h
  rintro as m ts a m' ts' hreach hin - ht
  obtain ⟨htraces, herrors, -⟩ := consistent_counters hreach
  cases ht with
  | spawn r hs =>
    cases hs
    intro t hmem
    obtain hmem | hmem := List.mem_append.mp hmem
    · exact hin t hmem
    · obtain rfl := List.mem_singleton.mp hmem
      trivial
  | run before after r k x hs hnext =>
    obtain ⟨hr, he⟩ := handle_mono hs
    intro t hmem
    simp only [List.mem_append, List.mem_cons] at hmem hin
    obtain hmem | rfl | hmem := hmem
    · exact (hin t (.inl hmem)).mono hr he
    · exact (hin _ (.inr (.inl rfl))).effect htraces herrors hs hnext
    · exact (hin t (.inr (.inr hmem))).mono hr he

theorem responses_bounded (h : Reaches millis route as s) : ∀ d ∈ s.responses, d.Bounded := by
  obtain ⟨ts, hthreads, hf, hin⟩ := within_reaches h
  intro d hd
  rw [State.responses, hthreads] at hd
  obtain ⟨t, ht, hd⟩ := List.mem_filterMap.mp hd
  obtain ⟨⟨⟨r, prog⟩, φ⟩, hmem, rfl⟩ := List.mem_map.mp ht
  cases prog with
  | op e k => cases hd
  | pure a =>
    obtain rfl : φ = .answered d := hf _ hmem d hd
    exact hin _ hmem

/-- Every reachable state of the server has consistent metrics. -/
theorem consistent (h : Reaches millis route as s) :
    Consistent s.shared.requestsTotal s.shared.errorsTotal s.shared.traces s.inFlight s.completed
      s.responses := by
  obtain ⟨htraces, herrors, hle, hquiet⟩ := consistent_counters h
  exact ⟨htraces, herrors, hle, responses_bounded h, fun hz => (hquiet hz).1,
    fun hz => (hquiet hz).2.1, fun hz => (hquiet hz).2.2⟩

end AssetTracker.GoMetrics
