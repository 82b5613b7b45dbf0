import AssetTracker.Lib.Throws
import AssetTracker.Lib.Pool
import AssetTracker.Node.Metrics

/-!
# The HTTP server (Node service)

The callback of `createServer` in `main`, with the logging middleware and the
listeners for the `finish` event of the response. A callback and an emitted
event run to their end before anything else runs. An exception that leaves the
callback ends the process.

Results:
1. `callback_ok`, `callback_error`: what the callback does with a target that
   `new URL` reads, and with one that it does not.
2. `handled_iff`: for which requests the callback completes and dispatches once;
   `running_iff`: which runs the process survives.
3. `consistent`: counters, traces and responses over any run.
-/

namespace AssetTracker.NodeServer

open Encoding Metrics NodeService

/-! ## The callback -/

/-- `req.method` and `req.url`, the target of the request line. -/
structure Incoming where
  method : String
  url : String
deriving DecidableEq, Repr

/-- A branch that answers the request. `getEvents` has the parameters `deviceId` and `type`. -/
inductive Branch where
  | options
  | health
  | live
  | ready
  | metrics (requests errors : Nat)
  | metricsRequests (d : Detail)
  | getEvents (deviceId type : Option String)
  | postEvents
  | notFound
deriving DecidableEq, Repr

def Branch.detail? : Branch → Option Detail
  | metricsRequests d => some d
  | _ => none

/-- A listener for the `finish` event of a response. -/
inductive Listener where
  | metrics (isInfraPath : Bool) (method path : String) (start : Instant)
  | log (start : Instant)
deriving DecidableEq, Repr

/-- What a callback has done so far. `rejections` are the errors of promises that nobody awaits. -/
structure Work where
  metrics : MetricsHandler
  listeners : List Listener
  dispatched : List Branch
  rejections : List JsError

def Work.start (m : MetricsHandler) : Work := ⟨m, [], [], []⟩

/-- Code that may throw. -/
abbrev Callback := ExceptT JsError (StateM Work)

def parseUrl (parser : UrlParser) (target : String) : Callback Url :=
  ExceptT.mk (pure (newUrl parser target))

def onFinish (l : Listener) : Callback Unit :=
  modify fun w => { w with listeners := w.listeners ++ [l] }

def dispatch (b : Branch) : Callback Unit :=
  modify fun w => { w with dispatched := w.dispatched ++ [b] }

/-- A call of an `async` function that is not awaited: what it throws rejects its promise. -/
def async (x : Callback Unit) : Callback Unit :=
  tryCatch x fun err => modify fun w => { w with rejections := w.rejections ++ [err] }

/-- `EventHandler.handleGet`, up to the choice of the query. -/
def handleGet (parser : UrlParser) (req : Incoming) : Callback Unit := async do
  let url ← parseUrl parser req.url
  dispatch (.getEvents (url.get "deviceId") (url.get "type"))

def handleMetrics : Callback Unit := do
  let w ← get
  dispatch (.metrics w.metrics.requests w.metrics.errors)

def handleMetricsRequests (parser : UrlParser) (req : Incoming) : Callback Unit := do
  let w ← get
  let d ← ExceptT.mk (pure (handleRequests parser req.url w.metrics))
  dispatch (.metricsRequests d)

/-- `createLoggingMiddleware`. -/
def loggingMiddleware (now : Instant) (next : Callback Unit) : Callback Unit := do
  onFinish (.log now)
  next

/-- The chain of conditions, after the CORS headers. -/
def routes (parser : UrlParser) (req : Incoming) : Callback Unit := do
  if req.method = "OPTIONS" then
    dispatch .options
    return
  if req.url = "/health" ∧ req.method = "GET" then
    dispatch .health
    return
  if req.url = "/health/live" ∧ req.method = "GET" then
    dispatch .live
    return
  if req.url = "/health/ready" ∧ req.method = "GET" then
    dispatch .ready
    return
  if req.url = "/metrics" ∧ req.method = "GET" then
    handleMetrics
    return
  let url ← parseUrl parser req.url
  if url.pathname = "/metrics/requests" ∧ req.method = "GET" then
    handleMetricsRequests parser req
    return
  if url.pathname = "/events" ∧ req.method = "GET" then
    handleGet parser req
    return
  if req.url = "/events" ∧ req.method = "POST" then
    dispatch .postEvents
    return
  dispatch .notFound

/-- The callback of `createServer`, at the time `now`. -/
def callback (parser : UrlParser) (now : Instant) (req : Incoming) : Callback Unit := do
  let parsedUrl ← parseUrl parser req.url
  let isInfraPath := isInfraPath parsedUrl.pathname
  if !isInfraPath then
    modify fun w => { w with metrics := w.metrics.incrementRequest }
  onFinish (.metrics isInfraPath req.method parsedUrl.pathname now)
  loggingMiddleware now (routes parser req)

/-- What a call of the callback comes to. -/
def handleRequest (parser : UrlParser) (now : Instant) (req : Incoming) (m : MetricsHandler) :
    Except JsError Unit × Work :=
  Throws.run (callback parser now req) (Work.start m)

/-- Milliseconds between two times, each read to the millisecond. -/
def durationMs (start now : Instant) : Decimal :=
  let d := now / 1000000 - start / 1000000
  ⟨d < 0, d.natAbs, 0⟩

/-- A listener, called when a response with the status `statusCode` is finished. -/
def Listener.call (statusCode : Nat) (now : Instant) (m : MetricsHandler) : Listener → MetricsHandler
  | log _ => m
  | metrics isInfraPath method path start =>
    if isInfraPath then m
    else
      let m := m.pushTrace
        { method, path, status := statusCode, durationMs := durationMs start now,
          timestamp := toISOString now }
      if statusCode ≥ 400 then m.incrementError else m

/-! ## The server -/

/-- A request whose callback has completed; the status of its response once that is finished. -/
structure Exchange where
  req : Incoming
  listeners : List Listener
  dispatched : List Branch
  finished : Option Nat

structure State where
  metrics : MetricsHandler
  exchanges : List Exchange
  running : Bool

def State.start : State := ⟨newMetricsHandler, [], true⟩

inductive Action where
  | request (req : Incoming) (now : Instant)
  /-- The response of exchange `i` emits `finish`. -/
  | finish (i : Nat) (statusCode : Nat) (now : Instant)
deriving DecidableEq, Repr

def step (parser : UrlParser) (s : State) : Action → Option State
  | .request req now =>
    if s.running then
      match handleRequest parser now req s.metrics with
      | (.ok _, w) => some { s with
          metrics := w.metrics
          exchanges := s.exchanges ++ [⟨req, w.listeners, w.dispatched, none⟩] }
      | (.error _, w) => some { s with metrics := w.metrics, running := false }
    else none
  | .finish i statusCode now =>
    if s.running then
      match s.exchanges[i]? with
      | some ⟨req, listeners, dispatched, none⟩ => some { s with
          metrics := listeners.foldl (Listener.call statusCode now) s.metrics
          exchanges := s.exchanges.set i ⟨req, listeners, dispatched, some statusCode⟩ }
      | _ => none
    else none

def Reaches (parser : UrlParser) (as : List Action) (s : State) : Prop :=
  Machine.run (step parser) State.start as = some s

/-! ## What the callback does -/

variable {parser : UrlParser} {req : Incoming} {url : Url} {now : Instant} {m : MetricsHandler}

theorem parseUrl_run (h : parser req.url = some url) (w : Work) :
    Throws.run (parseUrl parser req.url) w = (.ok url, w) := by
  rw [parseUrl, Throws.run_lift, newUrl, h]

/-- One branch more, and nothing else. What `/metrics/requests` answers are the metrics
as they are, with some of the newest traces. -/
structure Dispatches (w w' : Work) (b : Branch) : Prop where
  once : w' = { w with dispatched := w.dispatched ++ [b] }
  detail : ∀ d, b.detail? = some d → ∃ n,
    d = ⟨w.metrics.requests, w.metrics.errors, w.metrics.traces.reverse.take n⟩

theorem Dispatches.plain {w : Work} {b : Branch} (h : b.detail? = none) :
    Dispatches w { w with dispatched := w.dispatched ++ [b] } b :=
  ⟨rfl, fun d hd => by rw [h] at hd; cases hd⟩

theorem handleMetricsRequests_run (h : parser req.url = some url) (w : Work) :
    ∃ b w', Throws.run (handleMetricsRequests parser req) w = (.ok (), w') ∧ Dispatches w w' b := by
  have hd := handleRequests_ok h w.metrics
  refine ⟨.metricsRequests (detailFor url w.metrics), _, ?_, rfl, fun d hd => ?_⟩
  · unfold handleMetricsRequests
    rw [Throws.run_bind_ok (Throws.run_get w), hd, Throws.run_bind_ok (Throws.run_lift _ _)]
    rfl
  · cases hd
    exact ⟨_, rfl⟩

/-- The second parse of the target succeeds where the first one has. -/
theorem handleGet_run (h : parser req.url = some url) (w : Work) :
    ∃ b w', Throws.run (handleGet parser req) w = (.ok (), w') ∧ Dispatches w w' b := by
  refine ⟨_, _, ?_, .plain (b := .getEvents (url.get "deviceId") (url.get "type")) rfl⟩
  unfold handleGet async
  rw [Throws.run_tryCatch, Throws.run_bind_ok (parseUrl_run h w)]
  rfl

/-- Every way through the chain of conditions ends in one branch. -/
theorem routes_run (h : parser req.url = some url) (w : Work) :
    ∃ b w', Throws.run (routes parser req) w = (.ok (), w') ∧ Dispatches w w' b := by
  have hreturn {x : Callback Unit} {w : Work}
      (hx : ∃ b w', Throws.run x w = (.ok (), w') ∧ Dispatches w w' b) :
      ∃ b w', Throws.run (do x; pure ()) w = (.ok (), w') ∧ Dispatches w w' b := by
    obtain ⟨b, w', hrun, hd⟩ := hx
    exact ⟨b, w', by rw [Throws.run_bind_ok hrun, Throws.run_pure], hd⟩
  unfold routes
  split
  · exact ⟨_, _, rfl, .plain (b := .options) rfl⟩
  split
  · exact ⟨_, _, rfl, .plain (b := .health) rfl⟩
  split
  · exact ⟨_, _, rfl, .plain (b := .live) rfl⟩
  split
  · exact ⟨_, _, rfl, .plain (b := .ready) rfl⟩
  split
  · exact ⟨_, _, rfl, .plain (b := .metrics _ _) rfl⟩
  rw [Throws.run_bind_ok (parseUrl_run h w)]
  split
  · exact hreturn (handleMetricsRequests_run h w)
  split
  · exact hreturn (handleGet_run h w)
  split
  · exact ⟨_, _, rfl, .plain (b := .postEvents) rfl⟩
  · exact ⟨_, _, rfl, .plain (b := .notFound) rfl⟩

/-- The metrics after the first part of the callback. -/
def countRequest (url : Url) (m : MetricsHandler) : MetricsHandler :=
  if isInfraPath url.pathname then m else m.incrementRequest

/-- The listeners that a callback registers. -/
def listenersFor (req : Incoming) (url : Url) (now : Instant) : List Listener :=
  [.metrics (isInfraPath url.pathname) req.method url.pathname now, .log now]

theorem callback_ok (h : parser req.url = some url) (now : Instant) (m : MetricsHandler) :
    ∃ b, handleRequest parser now req m =
        (.ok (), ⟨countRequest url m, listenersFor req url now, [b], []⟩) ∧
      ∀ d, b.detail? = some d → ∃ n, d = ⟨(countRequest url m).requests,
        (countRequest url m).errors, (countRequest url m).traces.reverse.take n⟩ := by
  obtain ⟨b, w', hrun, rfl, hdetail⟩ :=
    routes_run h ⟨countRequest url m, listenersFor req url now, [], []⟩
  refine ⟨b, ?_, hdetail⟩
  unfold handleRequest callback
  rw [Throws.run_bind_ok (parseUrl_run h _)]
  refine Eq.trans ?_ hrun
  unfold countRequest listenersFor
  cases isInfraPath url.pathname <;> rfl

theorem callback_error (h : parser req.url = none) (now : Instant) (m : MetricsHandler) :
    handleRequest parser now req m = (.error (.typeError "Invalid URL"), Work.start m) := by
  unfold handleRequest callback
  refine Throws.run_bind_error ?_
  rw [parseUrl, Throws.run_lift, newUrl, h]

/-! ## Which requests are answered -/

/-- The callback completes, one branch has the request, and no promise is rejected. -/
structure Handled (result : Except JsError Unit × Work) : Prop where
  completes : result.1 = .ok ()
  once : ∃ b, result.2.dispatched = [b]
  quiet : result.2.rejections = []

/-- The callback handles a request of any method exactly when `new URL` reads its target. It
parses the target before anything else, and nothing catches what that throws. -/
theorem handled_iff (parser : UrlParser) (now : Instant) (req : Incoming) (m : MetricsHandler) :
    Handled (handleRequest parser now req m) ↔ (parser req.url).isSome = true := by
  cases h : parser req.url with
  | none =>
    rw [callback_error h]
    exact iff_of_false (fun hh => nomatch hh.completes) (by simp)
  | some url =>
    obtain ⟨b, hrun, -⟩ := callback_ok h now m
    rw [hrun]
    exact ⟨fun _ => rfl, fun _ => ⟨rfl, ⟨b, rfl⟩, rfl⟩⟩

/-- `new URL` for a target that is a path, perhaps with a query. Two slashes name a host, and
after `//` that is empty. -/
def pathUrl : UrlParser := fun target =>
  match target.toList with
  | '/' :: '/' :: _ => none
  | '/' :: cs => some ⟨String.ofList ('/' :: cs.takeWhile (· != '?')), []⟩
  | _ => none

theorem not_handled_slashes :
    ¬ Handled (handleRequest pathUrl 0 ⟨"GET", "//"⟩ newMetricsHandler) := by
  intro h
  have hthrows : (handleRequest pathUrl 0 ⟨"GET", "//"⟩ newMetricsHandler).1 =
      .error (.typeError "Invalid URL") := rfl
  cases hthrows.symm.trans h.completes

example : Handled (handleRequest pathUrl 0 ⟨"PUT", "/devices"⟩ newMetricsHandler) :=
  ⟨rfl, ⟨.notFound, rfl⟩, rfl⟩

/-! ## Counters and traces -/

variable {as : List Action} {s s' : State}

/-- The request is none of those that only probe the service. -/
def Exchange.counted (parser : UrlParser) (x : Exchange) : Bool :=
  (parser x.req.url).any fun url => !isInfraPath url.pathname

def Exchange.completed (parser : UrlParser) (x : Exchange) : Option Completed :=
  (parser x.req.url).bind fun url =>
    if isInfraPath url.pathname then none
    else x.finished.map fun status => ⟨x.req.method, url.pathname, status⟩

def State.inFlight (parser : UrlParser) (s : State) : Nat :=
  s.exchanges.countP fun x => x.counted parser && x.finished.isNone

def State.completed (parser : UrlParser) (s : State) : List Completed :=
  s.exchanges.filterMap (Exchange.completed parser)

/-- The responses of `handleRequests`. -/
def State.responses (s : State) : List Detail :=
  s.exchanges.flatMap fun x => x.dispatched.filterMap Branch.detail?

/-- Every exchange has its listeners, and the metrics agree with the exchanges. -/
structure Inv (parser : UrlParser) (s : State) : Prop where
  listeners : ∀ x ∈ s.exchanges, ∃ url start, parser x.req.url = some url ∧
    x.listeners = listenersFor x.req url start
  requests : s.metrics.requests = s.exchanges.countP (Exchange.counted parser)
  errors : s.metrics.errors = errorTraces s.metrics.traces
  traces : (s.metrics.traces.map RequestTrace.completed).Perm (s.completed parser)
  bounded : ∀ d ∈ s.responses, d.Bounded

/-- A finished exchange has been counted. -/
theorem counted_of_completed {x : Exchange} (h : (x.completed parser).isSome = true) :
    x.counted parser = true := by
  unfold Exchange.completed at h
  unfold Exchange.counted
  cases hurl : parser x.req.url with
  | none => simp [hurl] at h
  | some url =>
    cases hinfra : isInfraPath url.pathname with
    | true => simp [hurl, hinfra] at h
    | false => simp [hinfra]

/-- A counted exchange has been traced, or it is in flight. -/
theorem completed_or_open {x : Exchange} (h : x.counted parser = true) :
    (x.completed parser).isSome = true ∨ (x.counted parser && x.finished.isNone) = true := by
  cases hf : x.finished with
  | none => exact .inr (by simp [h])
  | some status =>
    unfold Exchange.counted at h
    unfold Exchange.completed
    cases hurl : parser x.req.url with
    | none => simp [hurl] at h
    | some url =>
      have hinfra : isInfraPath url.pathname = false := by simpa [hurl] using h
      exact .inl (by simp [hinfra, hf])

theorem Inv.traces_le (h : Inv parser s) : s.metrics.traces.length ≤ s.metrics.requests := by
  calc s.metrics.traces.length
      = (s.completed parser).length := by rw [← h.traces.length_eq, List.length_map]
    _ = s.exchanges.countP fun x => (x.completed parser).isSome :=
        List.length_filterMap_eq_countP
    _ ≤ s.exchanges.countP (Exchange.counted parser) :=
        List.countP_mono_left fun x _ hx => counted_of_completed hx
    _ = s.metrics.requests := h.requests.symm

/-- What the listeners of an exchange do to the metrics. -/
theorem listeners_call (req : Incoming) (url : Url) (start now : Instant) (status : Nat)
    (m : MetricsHandler) :
    (listenersFor req url start).foldl (Listener.call status now) m =
      if isInfraPath url.pathname then m
      else
        { requests := m.requests
          errors := m.errors + (decide (400 ≤ status)).toNat
          traces := m.traces ++ [⟨req.method, url.pathname, status, durationMs start now,
            toISOString now⟩] } := by
  simp only [listenersFor, List.foldl_cons, List.foldl_nil, Listener.call]
  split
  · rfl
  · by_cases h : 400 ≤ status
    · simp [h, MetricsHandler.pushTrace, MetricsHandler.incrementError]
    · simp [h, MetricsHandler.pushTrace]

/-- What a callback and a `finish` event do to the server. -/
theorem step_cases {a : Action} (h : step parser s a = some s') :
    s.running = true ∧ ((∃ req now, a = .request req now ∧ parser req.url = none ∧
      s' = { s with running := false }) ∨
    (∃ req now url b, a = .request req now ∧ parser req.url = some url ∧
      (∀ d, b.detail? = some d → ∃ n, d = ⟨(countRequest url s.metrics).requests,
        (countRequest url s.metrics).errors, (countRequest url s.metrics).traces.reverse.take n⟩) ∧
      s' = { s with
        metrics := countRequest url s.metrics
        exchanges := s.exchanges ++ [⟨req, listenersFor req url now, [b], none⟩] }) ∨
    (∃ before after req listeners dispatched status now, a = .finish before.length status now ∧
      s.exchanges = before ++ ⟨req, listeners, dispatched, none⟩ :: after ∧
      s' = { s with
        metrics := listeners.foldl (Listener.call status now) s.metrics
        exchanges := before ++ ⟨req, listeners, dispatched, some status⟩ :: after })) := by
  cases a with
  | request req now =>
    rw [step] at h
    split at h
    · next hr =>
      refine ⟨hr, ?_⟩
      cases hurl : parser req.url with
      | none =>
        rw [callback_error hurl] at h
        cases h
        exact .inl ⟨req, now, rfl, hurl, rfl⟩
      | some url =>
        obtain ⟨b, hrun, hb⟩ := callback_ok hurl now s.metrics
        rw [hrun] at h
        cases h
        exact .inr (.inl ⟨req, now, url, b, rfl, hurl, hb, rfl⟩)
    · cases h
  | finish i status now =>
    rw [step] at h
    split at h
    · next hr =>
      refine ⟨hr, ?_⟩
      split at h
      · next req listeners dispatched hi =>
        cases h
        obtain ⟨before, after, hsplit, rfl⟩ := Effects.split_at hi
        exact .inr (.inr ⟨before, after, req, listeners, dispatched, status, now, rfl, hsplit,
          by simp [hsplit]⟩)
      · cases h
    · cases h

/-- The process ends with the first request whose target `new URL` does not read. -/
theorem running_iff (h : Reaches parser as s) : s.running = true ↔
    ∀ req now, .request req now ∈ as → (parser req.url).isSome = true := by
  refine Machine.run_induction (P := fun as s => s.running = true ↔
    ∀ req now, .request req now ∈ as → (parser req.url).isSome = true)
    (iff_of_true rfl (by simp)) ?_ h
  intro as s a s' _ hi hs
  obtain ⟨hr, hcases⟩ := step_cases hs
  have hall := hi.mp hr
  obtain ⟨req, now, rfl, hurl, rfl⟩ | ⟨req, now, url, b, rfl, hurl, -, rfl⟩ |
    ⟨before, after, req, listeners, dispatched, status, now, rfl, -, rfl⟩ := hcases
  · refine iff_of_false (by simp) fun hn => ?_
    simpa [hurl] using hn req now (by simp)
  · refine iff_of_true hr fun req' now' hmem => ?_
    simp only [List.mem_append, List.mem_singleton, Action.request.injEq] at hmem
    obtain hmem | ⟨rfl, -⟩ := hmem
    · exact hall req' now' hmem
    · rw [hurl]
      rfl
  · refine iff_of_true hr fun req' now' hmem => hall req' now' (by simpa using hmem)

theorem countRequest_requests (url : Url) (m : MetricsHandler) :
    (countRequest url m).requests = m.requests + (!isInfraPath url.pathname).toNat := by
  unfold countRequest
  cases isInfraPath url.pathname <;> rfl

theorem countRequest_traces (url : Url) (m : MetricsHandler) :
    (countRequest url m).traces = m.traces := by
  unfold countRequest
  split <;> rfl

theorem countRequest_errors (url : Url) (m : MetricsHandler) :
    (countRequest url m).errors = m.errors := by
  unfold countRequest
  split <;> rfl

/-- A callback keeps the invariant: the exchange is counted, and not finished. -/
theorem Inv.request (h : Inv parser s) (hurl : parser req.url = some url) {b : Branch}
    (hb : ∀ d, b.detail? = some d → ∃ n, d = ⟨(countRequest url s.metrics).requests,
      (countRequest url s.metrics).errors, (countRequest url s.metrics).traces.reverse.take n⟩) :
    Inv parser { s with
      metrics := countRequest url s.metrics
      exchanges := s.exchanges ++ [⟨req, listenersFor req url now, [b], none⟩] } where
  listeners := Effects.forall_snoc h.listeners ⟨url, now, hurl, rfl⟩
  requests := by
    have hcounted : Exchange.counted parser ⟨req, listenersFor req url now, [b], none⟩ =
        !isInfraPath url.pathname := by simp [Exchange.counted, hurl]
    dsimp only
    rw [countRequest_requests, h.requests, List.countP_append, List.countP_singleton, hcounted]
    cases isInfraPath url.pathname <;> rfl
  errors := by
    dsimp only
    rw [countRequest_errors, countRequest_traces, h.errors]
  traces := by
    have hnone : Exchange.completed parser ⟨req, listenersFor req url now, [b], none⟩ = none := by
      simp [Exchange.completed, hurl]
    rw [State.completed, countRequest_traces, List.filterMap_append,
      List.filterMap_cons_none hnone, List.filterMap_nil, List.append_nil]
    exact h.traces
  bounded d hd := by
    rw [State.responses, List.flatMap_append] at hd
    obtain hd | hd := List.mem_append.mp hd
    · exact h.bounded d hd
    · obtain ⟨n, rfl⟩ := hb d (by simpa using hd)
      refine ⟨?_, ?_⟩
      · -- the request itself is counted already, its trace comes with `finish`
        calc ((countRequest url s.metrics).traces.reverse.take n).length
            ≤ s.metrics.traces.length := by
              rw [countRequest_traces]
              exact (List.length_take_le' _ _).trans_eq List.length_reverse
          _ ≤ s.metrics.requests := h.traces_le
          _ ≤ (countRequest url s.metrics).requests := by
              rw [countRequest_requests]
              exact Nat.le_add_right _ _
      · dsimp only
        rw [countRequest_errors, h.errors, countRequest_traces]
        exact errorTraces_take_reverse _ _

/-- A `finish` event keeps the invariant: it traces its exchange, and counts the error. -/
theorem Inv.finish {before after : List Exchange} {listeners : List Listener}
    {dispatched : List Branch} {status : Nat} (h : Inv parser s)
    (hsplit : s.exchanges = before ++ ⟨req, listeners, dispatched, none⟩ :: after) :
    Inv parser { s with
      metrics := listeners.foldl (Listener.call status now) s.metrics
      exchanges := before ++ ⟨req, listeners, dispatched, some status⟩ :: after } := by
  obtain ⟨url, start, hurl, hl⟩ : ∃ url start, parser req.url = some url ∧
      listeners = listenersFor req url start :=
    h.listeners ⟨req, listeners, dispatched, none⟩ (by simp [hsplit])
  subst hl
  obtain ⟨hlisteners, hrequests, herrors, htraces, hbounded⟩ := h
  rw [State.responses, hsplit] at hbounded
  rw [State.completed, hsplit] at htraces
  rw [hsplit] at hrequests hlisteners
  rw [listeners_call]
  refine ⟨Effects.forall_replace hlisteners ⟨url, start, hurl, rfl⟩, ?_, ?_, ?_, ?_⟩
  · -- an exchange is counted, finished or not
    have hcounted (finished : Option Nat) : Exchange.counted parser
        ⟨req, listenersFor req url start, dispatched, finished⟩ = !isInfraPath url.pathname := by
      simp [Exchange.counted, hurl]
    simp only [List.countP_append, List.countP_cons, hcounted] at hrequests ⊢
    split
    · exact hrequests
    · exact hrequests
  · split
    · exact herrors
    · by_cases herr : 400 ≤ status
      · simp [errorTraces, RequestTrace.isError, herrors, List.countP_append, herr]
      · simp [errorTraces, RequestTrace.isError, herrors, List.countP_append, herr]
  · have hcompleted (finished : Option Nat) : Exchange.completed parser
        ⟨req, listenersFor req url start, dispatched, finished⟩ =
          if isInfraPath url.pathname then none
          else finished.map fun status => ⟨req.method, url.pathname, status⟩ := by
      simp [Exchange.completed, hurl]
    rw [State.completed]
    simp only [List.filterMap_append, List.filterMap_cons, hcompleted] at htraces ⊢
    split
    · next hinfra => simpa [hinfra] using htraces
    · next hinfra =>
      have happend := htraces.append_right [⟨req.method, url.pathname, status⟩]
      simp only [hinfra, Bool.false_eq_true, if_false, Option.map_none, Option.map_some,
        List.map_append, List.map_cons, List.map_nil] at happend ⊢
      exact happend.trans ((List.perm_append_singleton _ _).trans List.perm_middle.symm)
  · rw [State.responses]
    simpa using hbounded

theorem inv_step {a : Action} (h : Inv parser s) (hs : step parser s a = some s') :
    Inv parser s' := by
  obtain ⟨req, now, -, hurl, rfl⟩ | ⟨req, now, url, b, -, hurl, hb, rfl⟩ |
    ⟨before, after, req, listeners, dispatched, status, now, -, hsplit, rfl⟩ := (step_cases hs).2
  · exact ⟨h.listeners, h.requests, h.errors, h.traces, h.bounded⟩
  · exact h.request hurl hb
  · exact h.finish hsplit

theorem inv_reaches (h : Reaches parser as s) : Inv parser s :=
  Machine.invariant_run (fun _ _ _ hi hs => inv_step hi hs)
    ⟨by simp [State.start], rfl, rfl, .rfl, by simp [State.responses, State.start]⟩ h

/-- Every reachable state of the server has consistent metrics. -/
theorem consistent (h : Reaches parser as s) :
    Consistent s.metrics.requests s.metrics.errors s.metrics.traces (s.inFlight parser)
      (s.completed parser) s.responses := by
  have hi := inv_reaches h
  refine ⟨hi.traces_le, hi.errors.ge, by rw [hi.errors]; exact Nat.le_add_right _ _, hi.bounded,
    fun hz => ?_, fun _ => hi.errors, fun _ => hi.traces⟩
  -- the requests that are not traced are in flight
  have hle : s.metrics.requests ≤ (s.completed parser).length + s.inFlight parser := by
    rw [hi.requests, State.completed, List.length_filterMap_eq_countP]
    exact countP_le_add fun x _ hcounted => completed_or_open hcounted
  rw [← hi.traces.length_eq, List.length_map] at hle
  exact Nat.le_antisymm (by omega) hi.traces_le

end AssetTracker.NodeServer
