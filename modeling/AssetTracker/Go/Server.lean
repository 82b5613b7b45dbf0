import Std.Data.String.ToInt
import AssetTracker.Go.Auth
import AssetTracker.Go.Service

/-!
# The server (Go service)

The muxes of `NewDeviceHandler` and of `cmd/main.go` with their middleware, and
the service behind them as one machine: a request is routed, checked and either
answered or handed to a use case, whose execution goes on as in `Service`. The
log holds what clients saw. The logging and metrics middleware pass everything
through; the health and metrics handlers read no device and answer anything.

Results:
1. `serve_route`, `serve_call_iff`: what a request comes to.
2. `service_reaches`: behind the server runs the service.
3. `device_routes_guarded`: who reaches a device use case.
-/

namespace AssetTracker.Server

open Text Encoding Http GoService

/-! ## Wiring -/

/-- `ServeMux.ServeHTTP`. -/
def serveMux (m : Mux Handler) : Handler := fun t r _ =>
  match m.route r with
  | .found h values => h t r values
  | .redirect location =>
    .respond ⟨301, [("Location", location), ("Content-Type", "text/html; charset=utf-8")],
      .text "Moved Permanently"⟩
  | .badRequest => .respond ⟨400, [("Connection", "close")], .empty⟩
  | .notAllowed methods =>
    .respond ⟨405, [("Allow", ", ".intercalate methods),
      ("Content-Type", "text/plain; charset=utf-8")], .text "Method Not Allowed\n"⟩
  | .notFound =>
    .respond ⟨404, [("Content-Type", "text/plain; charset=utf-8")], .text "404 page not found\n"⟩

def registerWithAuth (auth : Option (Handler → Handler)) (route : Route) : Pattern × Handler :=
  (route.pattern,
    match auth with
    | some auth => auth route.handler
    | none => route.handler)

/-- The mux of `NewDeviceHandler`. -/
def deviceMux (auth : Option (Handler → Handler)) : Mux Handler :=
  [registerWithAuth auth .create,
    registerWithAuth auth .update,
    registerWithAuth auth .delete,
    registerWithAuth auth .list,
    registerWithAuth auth .get]

def corsHeaders : List (String × String) :=
  [("Access-Control-Allow-Origin", "*"),
    ("Access-Control-Allow-Headers", "Authorization, Content-Type"),
    ("Access-Control-Allow-Methods", "GET, POST, PUT, DELETE, OPTIONS")]

def withCors (response : Response) : Response :=
  { response with headers := corsHeaders ++ response.headers }

def corsMiddleware (next : Handler) : Handler := fun t r values =>
  if r.method = "OPTIONS" then .respond (withCors ⟨204, [], .empty⟩)
  else (next t r values).map withCors

section

variable (jwt : Jwt) (config : AuthConfig)

def deviceHandler : Handler := serveMux (deviceMux (some (authMiddleware jwt config.jwtSecret)))

def loginPattern : Pattern :=
  { method := some "POST", segments := [.literal "auth", .literal "login"] }

/-- The mux of `main`. `monitor` is the answer of a health or metrics handler. -/
def topMux (monitor : Response) : Mux Handler :=
  let monitorHandler : Handler := fun _ _ _ => .respond monitor
  [(loginPattern, handleLogin jwt config),
    ({ method := some "GET", segments := [.literal "health"] }, monitorHandler),
    ({ method := some "GET", segments := [.literal "health", .literal "live"] }, monitorHandler),
    ({ method := some "GET", segments := [.literal "health", .literal "ready"] }, monitorHandler),
    ({ method := some "GET", segments := [.literal "metrics"] }, monitorHandler),
    ({ method := some "GET", segments := [.literal "metrics", .literal "requests"] },
      monitorHandler),
    ({ method := none, segments := [], subtree := true }, deviceHandler jwt config)]

/-- What the server makes of a request. `OPTIONS *` never reaches the handler of `main`. -/
def serve (monitor : Response) (t : Instant) (r : Request) : Outcome :=
  if r.method = "OPTIONS" ∧ r.path = "*" then .respond ⟨200, [("Content-Length", "0")], .empty⟩
  else corsMiddleware (serveMux (topMux jwt config monitor)) t r []

end

/-! ## The machine -/

/-- The handler that called an execution waits to answer. -/
structure Caller where
  request : Request
  time : Instant
  answer : Result → Response

/-- A request that was answered. `time` is when it was checked. -/
structure Exchange where
  request : Request
  time : Instant
  response : Response

/-- `callers` are those of the executions, in the same order. -/
structure State where
  service : GoService.State
  callers : List Caller
  log : List Exchange

def State.start (table : Table) (clock : Instant) : State := ⟨StateOf.start table clock, [], []⟩

inductive Action where
  /-- A request is checked. -/
  | request (r : Request) (t : Instant) (monitor : Response)
  /-- Anything else that happens in the service. -/
  | service (a : GoService.Action)

/-- What an action of the service lets the clients see. -/
def State.answered (s : State) : GoService.Action → List Exchange
  | .ret i =>
    match s.service.execs[i]?, s.callers[i]? with
    | some (.running _ (.pure result)), some caller =>
      [⟨caller.request, caller.time, caller.answer result⟩]
    | _, _ => []
  | _ => []

/-- Only a handler calls a use case. -/
def isCall : GoService.Action → Bool
  | .call _ => true
  | _ => false

section

variable (jwt : Jwt) (config : AuthConfig)

def step (s : State) : Action → Option State
  | .request r t monitor =>
    if s.service.phase ≠ .exited ∧ s.service.acceptsCalls = true then
      match serve jwt config monitor t r with
      | .respond response => some { s with log := s.log ++ [⟨r, t, response⟩] }
      | .call op answer =>
        (GoService.step s.service (.call op)).map fun service =>
          { s with service := service, callers := s.callers ++ [⟨r, t, answer⟩] }
    else none
  | .service a =>
    if isCall a then none
    else
      (GoService.step s.service a).map fun service =>
        { s with service := service, log := s.log ++ s.answered a }

/-- A state that the server reaches over an initial table. -/
def Reaches (table : Table) (clock : Instant) (as : List Action) (s : State) : Prop :=
  Machine.run (step jwt config) (.start table clock) as = some s

/-- What an action does to the service. -/
def serviceActions : Action → List GoService.Action
  | .request r t monitor =>
    match serve jwt config monitor t r with
    | .respond _ => []
    | .call op _ => [.call op]
  | .service a => [a]

end

/-! ## 1. What a request comes to -/

variable {jwt : Jwt} {config : AuthConfig} {t : Instant} {r : Request} {monitor : Response}
  {values : List String}

namespace ServerLemmas

theorem route_method {route : Route} (h : route.pattern.Matches r values) :
    route.pattern.method = some (if r.method = "HEAD" then "GET" else r.method) := by
  rcases h.method with hm | hm | ⟨hm, hhead⟩
  · cases route <;> cases hm
  · rw [hm, if_neg]
    intro hhead
    rw [hhead] at hm
    cases route <;> exact absurd hm (by decide)
  · rw [hm, if_pos hhead]

theorem route_length {route : Route} (h : route.pattern.Matches r values) :
    route.pattern.segments.length = (pathSegments r.path).length := by
  have hpath : matchSegments false route.pattern.segments (pathSegments r.path) = some values := by
    cases route <;> exact h.path
  exact matchSegments_length hpath

/-- No request matches two routes. -/
theorem route_unique {route route' : Route} {values' : List String}
    (h : route.pattern.Matches r values) (h' : route'.pattern.Matches r values') :
    route' = route ∧ values' = values := by
  have hmethod := (route_method h').trans (route_method h).symm
  have hlength := (route_length h').trans (route_length h).symm
  have hroute : route' = route := by
    revert hmethod hlength
    cases route <;> cases route' <;> decide
  subst hroute
  exact ⟨rfl, Option.some.inj (h'.path.symm.trans h.path)⟩

theorem route_device {route : Route} (h : route.pattern.Matches r values) :
    ∃ segs, pathSegments r.path = "devices" :: segs := by
  have hpath := h.path
  cases route <;> obtain ⟨segs, hsegs, -⟩ := matchSegments_literal hpath <;> exact ⟨segs, hsegs⟩

theorem route_clean {route : Route} (h : route.pattern.Matches r values) :
    cleanPath r.path = r.path := by
  cases route <;> exact h.clean rfl (by decide)

theorem mem_deviceMux {auth : Handler → Handler} {p : Pattern} {h : Handler} :
    (p, h) ∈ deviceMux (some auth) ↔ ∃ route : Route, p = route.pattern ∧ h = auth route.handler := by
  unfold deviceMux registerWithAuth
  simp only [List.mem_cons, List.not_mem_nil, or_false, Prod.mk.injEq]
  constructor
  · rintro (h | h | h | h | h) <;> exact ⟨_, h⟩
  · rintro ⟨route, hp⟩
    cases route <;> simp [hp]

/-- The mux of the devices sends a request to the handler of its route. -/
theorem deviceMux_route {route : Route} (h : route.pattern.Matches r values)
    (auth : Handler → Handler) :
    (deviceMux (some auth)).route r = .found (auth route.handler) values := by
  refine Mux.route_eq_found (mem_deviceMux.mpr ⟨route, rfl, rfl⟩) h (route_clean h) ?_
  rintro p' h' values' hmem hp -
  obtain ⟨route', rfl, rfl⟩ := mem_deviceMux.mp hmem
  obtain ⟨rfl, rfl⟩ := route_unique h hp
  exact ⟨rfl, rfl⟩

/-- Below `/devices` only the pattern without a method matches. -/
theorem topMux_device {route : Route} (h : route.pattern.Matches r values) :
    (topMux jwt config monitor).route r = .found (deviceHandler jwt config) [] := by
  obtain ⟨segs, hsegs⟩ := route_device h
  have hrest : Pattern.Matches ⟨none, [], true⟩ r [] :=
    ⟨.inl rfl, .inl (route_clean h), by rw [hsegs]; rfl⟩
  refine Mux.route_eq_found (p := ⟨none, [], true⟩) (by simp [topMux]) hrest (route_clean h) ?_
  rintro p' h' values' hmem hp -
  have hpath := hp.path
  rw [hsegs] at hpath
  simp only [topMux, List.mem_cons, List.not_mem_nil, or_false, Prod.mk.injEq] at hmem
  rcases hmem with ⟨rfl, -⟩ | ⟨rfl, -⟩ | ⟨rfl, -⟩ | ⟨rfl, -⟩ | ⟨rfl, -⟩ | ⟨rfl, -⟩ | ⟨rfl, rfl⟩
  · exact absurd (matchSegments_first hpath) (by decide)
  · exact absurd (matchSegments_first hpath) (by decide)
  · exact absurd (matchSegments_first hpath) (by decide)
  · exact absurd (matchSegments_first hpath) (by decide)
  · exact absurd (matchSegments_first hpath) (by decide)
  · exact absurd (matchSegments_first hpath) (by decide)
  · cases hpath
    exact ⟨rfl, rfl⟩

/-- On the login route no other pattern with a method matches. -/
theorem topMux_login (h : loginPattern.Matches r values) :
    (topMux jwt config monitor).route r = .found (handleLogin jwt config) values := by
  obtain ⟨segs, hsegs, -⟩ := matchSegments_literal h.path
  refine Mux.route_eq_found (p := loginPattern) (by simp [topMux]) h (h.clean rfl (by decide)) ?_
  rintro p' h' values' hmem hp hprior
  have hpath := hp.path
  rw [hsegs] at hpath
  simp only [topMux, List.mem_cons, List.not_mem_nil, or_false, Prod.mk.injEq] at hmem
  rcases hmem with ⟨rfl, rfl⟩ | ⟨rfl, -⟩ | ⟨rfl, -⟩ | ⟨rfl, -⟩ | ⟨rfl, -⟩ | ⟨rfl, -⟩ | ⟨rfl, -⟩
  · exact ⟨rfl, Option.some.inj (hp.path.symm.trans h.path)⟩
  · exact absurd (matchSegments_first hpath) (by decide)
  · exact absurd (matchSegments_first hpath) (by decide)
  · exact absurd (matchSegments_first hpath) (by decide)
  · exact absurd (matchSegments_first hpath) (by decide)
  · exact absurd (matchSegments_first hpath) (by decide)
  · cases hprior rfl

end ServerLemmas

open ServerLemmas

/-- A request on a device route goes to the handler of the route, behind the middleware. -/
theorem serve_route {route : Route} (h : route.pattern.Matches r values) :
    serve jwt config monitor t r =
      (authMiddleware jwt config.jwtSecret route.handler t r values).map withCors := by
  have hmethod : r.method ≠ "OPTIONS" := fun hoptions => by
    have hm := route_method h
    rw [hoptions] at hm
    cases route <;> exact absurd hm (by decide)
  unfold serve corsMiddleware
  rw [if_neg (fun hboth => hmethod hboth.1), if_neg hmethod]
  unfold serveMux
  rw [topMux_device h]
  show (serveMux _ t r []).map withCors = _
  unfold serveMux
  rw [deviceMux_route h]

/-- A login goes to `HandleLogin`. -/
theorem serve_login (h : loginPattern.Matches r values) :
    serve jwt config monitor t r = (handleLogin jwt config t r values).map withCors := by
  have hmethod : r.method ≠ "OPTIONS" := fun hoptions => by
    rcases h.method with hm | hm | ⟨hm, -⟩
    · cases hm
    · rw [hoptions] at hm
      exact absurd hm (by decide)
    · exact absurd hm (by decide)
  unfold serve corsMiddleware
  rw [if_neg (fun hboth => hmethod hboth.1), if_neg hmethod]
  unfold serveMux
  rw [topMux_login h]

theorem map_call {outcome : Outcome} {f : Response → Response} {op : Op}
    {answer : Result → Response} (h : outcome.map f = .call op answer) :
    ∃ answer', outcome = .call op answer' := by
  cases outcome with
  | respond response => cases h
  | call op' answer' =>
    cases h
    exact ⟨answer', rfl⟩

/-- A mux calls a use case only through one of its handlers. -/
theorem serveMux_call {m : Mux Handler} {op : Op} {answer : Result → Response}
    {values' : List String} (h : serveMux m t r values' = .call op answer) :
    ∃ p handler values, (p, handler) ∈ m ∧ Pattern.Matches p r values ∧
      handler t r values = .call op answer := by
  unfold serveMux at h
  split at h
  · next handler values hroute =>
    obtain ⟨p, hmem, hp⟩ := Mux.route_found hroute
    exact ⟨p, handler, values, hmem, hp, h⟩
  · cases h
  · cases h
  · cases h
  · cases h

/-- Whatever calls a use case comes through a device route, behind the middleware. -/
theorem serve_call {op : Op} {answer : Result → Response}
    (h : serve jwt config monitor t r = .call op answer) :
    ∃ (route : Route) (values : List String) (answer' : Result → Response),
      route.pattern.Matches r values ∧
      authMiddleware jwt config.jwtSecret route.handler t r values = .call op answer' := by
  unfold serve corsMiddleware at h
  split at h
  · cases h
  · split at h
    · cases h
    · obtain ⟨answer₁, h₁⟩ := map_call h
      obtain ⟨p, handler, values, hmem, -, h₂⟩ := serveMux_call h₁
      simp only [topMux, List.mem_cons, List.not_mem_nil, or_false, Prod.mk.injEq] at hmem
      rcases hmem with ⟨-, rfl⟩ | ⟨-, rfl⟩ | ⟨-, rfl⟩ | ⟨-, rfl⟩ | ⟨-, rfl⟩ | ⟨-, rfl⟩ | ⟨-, rfl⟩
      · obtain ⟨response, hlogin⟩ := handleLogin_respond jwt config t r values
        rw [hlogin] at h₂
        cases h₂
      · cases h₂
      · cases h₂
      · cases h₂
      · cases h₂
      · cases h₂
      · obtain ⟨p', handler', values', hmem', hp', h₃⟩ := serveMux_call h₂
        obtain ⟨route, rfl, rfl⟩ := mem_deviceMux.mp hmem'
        exact ⟨route, values', answer₁, hp', h₃⟩

/-- A use case is called exactly for an authenticated request that asks for it. -/
theorem serve_call_iff {op : Op} :
    (∃ answer, serve jwt config monitor t r = .call op answer) ↔
      Asks r op ∧ Authenticated jwt config.jwtSecret t r := by
  constructor
  · rintro ⟨answer, h⟩
    obtain ⟨route, values, answer', hroute, hcall⟩ := serve_call h
    have hauth : Authenticated jwt config.jwtSecret t r := by
      by_contra hnot
      obtain ⟨message, hrefuse⟩ := authMiddleware_refuse hnot
      rw [hrefuse] at hcall
      cases hcall
    rw [authMiddleware_pass hauth] at hcall
    exact ⟨Route.handler_call hroute hcall, hauth⟩
  · rintro ⟨hasks, hauth⟩
    obtain ⟨route, values, answer, hroute, hcall⟩ := Route.call_handler hasks t
    rw [serve_route hroute, authMiddleware_pass hauth, hcall]
    exact ⟨_, rfl⟩

/-! ## 2. The service behind the server -/

variable {table : Table} {clock : Instant} {as : List Action} {s s' : State} {a : Action}

/-- What a step can do: a request is answered, a request calls a use case, or the service
goes on. -/
theorem step_cases (h : step jwt config s a = some s') :
    (∃ r t monitor response, a = .request r t monitor ∧
      serve jwt config monitor t r = .respond response ∧
      s' = { s with log := s.log ++ [⟨r, t, response⟩] }) ∨
    (∃ r t monitor op answer service, a = .request r t monitor ∧
      serve jwt config monitor t r = .call op answer ∧
      GoService.step s.service (.call op) = some service ∧
      s' = { s with service := service, callers := s.callers ++ [⟨r, t, answer⟩] }) ∨
    ∃ b service, a = .service b ∧ isCall b = false ∧ GoService.step s.service b = some service ∧
      s' = { s with service := service, log := s.log ++ s.answered b } := by
  cases a with
  | request r t monitor =>
    simp only [step] at h
    split at h
    · split at h
      · next response hserve =>
        cases h
        exact .inl ⟨r, t, monitor, response, rfl, hserve, rfl⟩
      · next op answer hserve =>
        obtain ⟨service, hservice, rfl⟩ := Option.map_eq_some_iff.mp h
        exact .inr (.inl ⟨r, t, monitor, op, answer, service, rfl, hserve, hservice, rfl⟩)
    · cases h
  | service b =>
    simp only [step] at h
    split at h
    · cases h
    · next hb =>
      obtain ⟨service, hservice, rfl⟩ := Option.map_eq_some_iff.mp h
      exact .inr (.inr ⟨b, service, rfl, Bool.not_eq_true _ ▸ hb, hservice, rfl⟩)

theorem step_respond {response : Response} (haccepts : s.service.acceptsCalls = true)
    (hphase : s.service.phase ≠ .exited)
    (h : serve jwt config monitor t r = .respond response) :
    step jwt config s (.request r t monitor) =
      some { s with log := s.log ++ [⟨r, t, response⟩] } := by
  simp only [step, hphase, haccepts, h, ne_eq, not_false_eq_true, and_self, if_true]

/-- Until the shutdown every request is served. -/
theorem step_request (haccepts : s.service.acceptsCalls = true)
    (hphase : s.service.phase ≠ .exited) (r : Request) (t : Instant) (monitor : Response) :
    ∃ s', step jwt config s (.request r t monitor) = some s' := by
  cases h : serve jwt config monitor t r with
  | respond response => exact ⟨_, step_respond haccepts hphase h⟩
  | call op answer =>
    refine ⟨⟨s.service.call op (.running op op.prog), s.callers ++ [⟨r, t, answer⟩], s.log⟩, ?_⟩
    simp only [step, GoService.step, liveStep, hphase, haccepts, h, ne_eq, not_false_eq_true,
      and_self, if_true, if_false, Option.map_some]

/-- The server refines the service: what it does behind the handlers is a run of the
service, in which each call was made by a request. -/
theorem service_reaches (h : Reaches jwt config table clock as s) :
    GoService.Reaches table clock (as.flatMap (serviceActions jwt config)) s.service := by
  have hstart : GoService.Reaches table clock [] (State.start table clock).service := rfl
  refine Machine.run_induction (P := fun (as : List Action) (s : State) =>
    GoService.Reaches table clock (as.flatMap (serviceActions jwt config)) s.service)
    hstart (fun as s a s' _ ih ha => ?_) h
  unfold GoService.Reaches at ih ⊢
  rw [List.flatMap_append, Machine.run_append, ih]
  rcases step_cases ha with ⟨r, t, monitor, response, rfl, hserve, rfl⟩ |
    ⟨r, t, monitor, op, answer, service, rfl, hserve, hservice, rfl⟩ |
    ⟨b, service, rfl, -, hservice, rfl⟩
  · simp [serviceActions, hserve]
  · simp [serviceActions, hserve, Machine.run, hservice]
  · simp [serviceActions, Machine.run, hservice]

/-! ## 3. Who reaches a device use case -/

/-- The exchange is what the server makes of its request. -/
def Answered (jwt : Jwt) (config : AuthConfig) (e : Exchange) : Prop :=
  ∃ monitor, serve jwt config monitor e.time e.request = .respond e.response ∨
    ∃ op answer result, serve jwt config monitor e.time e.request = .call op answer ∧
      e.response = answer result

/-- Where the callers and the responses come from. -/
structure Inv (jwt : Jwt) (config : AuthConfig) (s : State) : Prop where
  callers : ∀ c ∈ s.callers, ∃ monitor op,
    serve jwt config monitor c.time c.request = .call op c.answer
  log : ∀ e ∈ s.log, Answered jwt config e

theorem answered_caller {b : GoService.Action} {e : Exchange} (h : e ∈ s.answered b) :
    ∃ c ∈ s.callers, ∃ result, e = ⟨c.request, c.time, c.answer result⟩ := by
  unfold State.answered at h
  split at h
  · split at h
    · next result caller _ hcaller =>
      exact ⟨caller, List.mem_of_getElem? hcaller, result, List.mem_singleton.mp h⟩
    · cases h
  · cases h

theorem inv_step (hi : Inv jwt config s) (h : step jwt config s a = some s') :
    Inv jwt config s' := by
  rcases step_cases h with ⟨r, t, monitor, response, -, hserve, rfl⟩ |
    ⟨r, t, monitor, op, answer, service, -, hserve, -, rfl⟩ | ⟨b, service, -, -, -, rfl⟩
  · refine ⟨hi.callers, fun e he => ?_⟩
    rcases List.mem_append.mp he with he | he
    · exact hi.log e he
    · cases List.mem_singleton.mp he
      exact ⟨monitor, .inl hserve⟩
  · refine ⟨fun c hc => ?_, hi.log⟩
    rcases List.mem_append.mp hc with hc | hc
    · exact hi.callers c hc
    · cases List.mem_singleton.mp hc
      exact ⟨monitor, op, hserve⟩
  · refine ⟨hi.callers, fun e he => ?_⟩
    rcases List.mem_append.mp he with he | he
    · exact hi.log e he
    · obtain ⟨c, hc, result, rfl⟩ := answered_caller he
      obtain ⟨monitor, op, hserve⟩ := hi.callers c hc
      exact ⟨monitor, .inr ⟨op, c.answer, result, hserve, rfl⟩⟩

theorem inv_reaches (h : Reaches jwt config table clock as s) : Inv jwt config s :=
  Machine.invariant_run (fun _ _ _ => inv_step) ⟨by simp [State.start], by simp [State.start]⟩ h

/-- `HandleLogin` returned the token in an exchange of the log. -/
structure Issued (s : State) (e : Exchange) (token : String) : Prop where
  mem : e ∈ s.log
  login : loginPattern.Matches e.request []
  token : e.response.body = .object [("token", token)]

/-- Without the secret nobody makes a MAC: a token that verifies under the secret is, as
golang-jwt decodes it, one that `HandleLogin` returned before. -/
def Unforged (jwt : Jwt) (config : AuthConfig) (s : State) : Action → Prop
  | .request r _ _ => ∀ tokenStr token, Bearer r tokenStr → jwt.decode tokenStr = some token →
      jwt.isHmac token = true → jwt.verify config.jwtSecret token = true →
      ∃ e issued, Issued s e issued ∧ jwt.decode issued = some token
  | .service _ => True

/-- The step calls a use case. -/
def Invokes (s s' : State) (op : Op) : Prop :=
  s'.service.history = s.service.history ++ [.call s.service.execs.length op]

/-- The header carries a token that a login with the configured credentials returned at
some time `t₀`, and the time `t` is before `t₀` plus the expiration, in whole seconds. -/
def LoggedIn (jwt : Jwt) (config : AuthConfig) (s : State) (r : Request) (t : Instant) : Prop :=
  ∃ tokenStr e issued, Bearer r tokenStr ∧ Issued s e issued ∧ Credentials config e.request ∧
    jwt.decode tokenStr = jwt.decode issued ∧
    t < unixSeconds (e.time + config.expiration) * nanosPerSecond

/-- The tokens that `HandleLogin` returned were signed for the configured credentials. -/
theorem issued_signed (hi : Inv jwt config s) {e : Exchange} {token : String}
    (h : Issued s e token) : Credentials config e.request ∧
      jwt.signedString config.jwtSecret (config.claims config.username e.time) = .ok token := by
  obtain ⟨response, hlogin⟩ := handleLogin_respond jwt config e.time e.request []
  obtain ⟨monitor, hserve⟩ := hi.log e h.mem
  rw [serve_login h.login, hlogin] at hserve
  rcases hserve with hserve | ⟨op, answer, result, hserve, -⟩
  · have hbody : e.response = withCors response := (Outcome.respond.inj hserve).symm
    refine handleLogin_token.mp ⟨response, hlogin, ?_⟩
    rw [← h.token, hbody]
    rfl
  · cases hserve

/-- What the middleware accepts are the tokens of logins, as long as they are valid. -/
theorem authenticated_iff (hjwt : jwt.Signs) (hi : Inv jwt config s)
    (hunforged : Unforged jwt config s (.request r t monitor)) :
    Authenticated jwt config.jwtSecret t r ↔ LoggedIn jwt config s r t := by
  constructor
  · rintro ⟨tokenStr, token, sub, hbearer, hdecode, hhmac, hverify, hvalid, -⟩
    obtain ⟨e, issued, hissued, hsame⟩ := hunforged tokenStr token hbearer hdecode hhmac hverify
    obtain ⟨hcred, hsigned⟩ := issued_signed hi hissued
    obtain ⟨token', hdecode', -, -, -, hvalid'⟩ := hjwt _ _ _ hsigned
    obtain rfl : token = token' := Option.some.inj (hsame.symm.trans hdecode')
    rw [hvalid'] at hvalid
    exact ⟨tokenStr, e, issued, hbearer, hissued, hcred, hdecode.trans hsame.symm,
      of_decide_eq_true hvalid⟩
  · rintro ⟨tokenStr, e, issued, hbearer, hissued, -, hsame, hlt⟩
    obtain ⟨hcred, hsigned⟩ := issued_signed hi hissued
    obtain ⟨token, hdecode, hhmac, hverify, hsub, hvalid⟩ := hjwt _ _ _ hsigned
    exact ⟨tokenStr, token, _, hbearer, hsame.trans hdecode, hhmac, hverify,
      (hvalid t).trans (decide_eq_true hlt), hsub, config.username_ne⟩

/-- A call of the service is recorded as such. -/
theorem service_call {service service' : GoService.State} {op : Op}
    (h : GoService.step service (.call op) = some service') :
    service' = service.call op (.running op op.prog) := by
  unfold GoService.step liveStep at h
  split at h
  · cases h
  · dsimp only at h
    split at h
    · exact (Option.some.inj h).symm
    · cases h

theorem invokes_iff (h : step jwt config s (.request r t monitor) = some s') {op : Op} :
    Invokes s s' op ↔ ∃ answer, serve jwt config monitor t r = .call op answer := by
  unfold Invokes
  rcases step_cases h with ⟨_, _, _, response, ha, hserve, rfl⟩ |
    ⟨_, _, _, op', answer, service, ha, hserve, hservice, rfl⟩ | ⟨_, _, ha, -⟩
  · cases ha
    rw [hserve]
    simp
  · cases ha
    rw [hserve, service_call hservice]
    simp
  · cases ha

/-- A device use case is invoked for a request exactly when the request asks for it with a
live token from a login. Any other request to a device route leaves the service as it is,
and its response is the same whatever state the server is in. -/
theorem device_routes_guarded (hjwt : jwt.Signs) (hs : Reaches jwt config table clock as s)
    (hunforged : Machine.Guarded (step jwt config) (Unforged jwt config) (.start table clock)
      (as ++ [.request r t monitor]))
    (h : step jwt config s (.request r t monitor) = some s') :
    (∀ op, Invokes s s' op ↔ Asks r op ∧ LoggedIn jwt config s r t) ∧
    ((∃ (route : Route) (values : List String), route.pattern.Matches r values) →
      (∀ op, ¬ Invokes s s' op) →
      s'.service = s.service ∧
      ∃ response, s'.log = s.log ++ [⟨r, t, response⟩] ∧
        ∀ q monitor' q', step jwt config q (.request r t monitor') = some q' →
          q'.log = q.log ++ [⟨r, t, response⟩]) := by
  have hauth := authenticated_iff hjwt (inv_reaches hs) (Machine.guarded_append hunforged hs).2.1
  refine ⟨fun op => ?_, fun ⟨route, values, hroute⟩ hnot => ?_⟩
  · rw [invokes_iff h, serve_call_iff, hauth]
  · rcases step_cases h with ⟨_, _, _, response, ha, hserve, rfl⟩ |
      ⟨_, _, _, op, answer, _, ha, hserve, -, -⟩ | ⟨_, _, ha, -⟩
    · cases ha
      refine ⟨rfl, response, rfl, fun q monitor' q' hq => ?_⟩
      have hserve' : serve jwt config monitor' t r = .respond response :=
        (serve_route hroute).trans ((serve_route hroute).symm.trans hserve)
      rcases step_cases hq with ⟨_, _, _, response', ha', hq', rfl⟩ |
        ⟨_, _, _, op, answer, _, ha', hq', -, -⟩ | ⟨_, _, ha', -⟩
      · cases ha'
        rw [hserve'] at hq'
        cases hq'
        rfl
      · cases ha'
        rw [hserve'] at hq'
        cases hq'
      · cases ha'
    · cases ha
      exact absurd ((invokes_iff h).mpr ⟨answer, hserve⟩) (hnot op)
    · cases ha

/-! A login at time 0 and a list of the devices at time 1, with a library that does
everything in the clear. -/

/-- The parts of a token are the key, the subject and the expiry. -/
def clearJwt : Jwt where
  Token := String × String × Int
  decode s :=
    match parse s with
    | some (.obj [(_, .str key), (_, .str sub), (_, .str exp)]) =>
      (ofUtf16 exp).toInt?.map fun exp => (ofUtf16 key, ofUtf16 sub, exp)
    | _ => none
  isHmac _ := true
  verify key token := token.1 == key
  validAt t token := t < token.2.2 * nanosPerSecond
  sub token := some token.2.1
  signedString key claims :=
    .ok (writeObject [("key", key), ("sub", claims.sub), ("exp", claims.exp.repr)])

theorem clearJwt_signs : clearJwt.Signs := by
  intro key claims s h
  rw [← Except.ok.inj h]
  refine ⟨(key, claims.sub, claims.exp), ?_, rfl, beq_self_eq_true key, rfl, fun t => rfl⟩
  dsimp only [clearJwt]
  rw [parse_writeObject]
  dsimp only [List.map]
  simp

def adminConfig : AuthConfig := ⟨"admin", "admin", "secret", 3600000000000, by decide, by decide⟩

example : AuthConfig.fromEnv "" "" "secret" 3600000000000 = some adminConfig := rfl

def loginRequest : Request :=
  ⟨"POST", "/auth/login", "", [],
    (writeObject [("username", "admin"), ("password", "admin")]).toUTF8, by decide⟩

def adminToken : String :=
  writeObject [("key", "secret"), ("sub", "admin"), ("exp", (3600 : Int).repr)]

theorem adminToken_authenticated {r : Request} (h : Bearer r adminToken) :
    Authenticated clearJwt adminConfig.jwtSecret 1 r := by
  obtain ⟨token, hdecode, hhmac, hverify, hsub, hvalid⟩ :=
    clearJwt_signs adminConfig.jwtSecret (adminConfig.claims "admin" 0) adminToken rfl
  exact ⟨adminToken, token, "admin", h, hdecode, hhmac, hverify, (hvalid 1).trans (by decide),
    hsub, by decide⟩

def listRequest : Request :=
  ⟨"GET", "/devices", "", [("Authorization", "bearer " ++ adminToken)], ⟨#[]⟩, devices_decodes⟩

/-- The login was answered. -/
def afterLogin (response : Response) : State :=
  ⟨StateOf.start Table.empty 0, [], [⟨loginRequest, 0, response⟩]⟩

/-- The list is asked for with the token of the login. -/
theorem device_routes_guarded_list : ∃ s s',
    Reaches clearJwt adminConfig Table.empty 0 [.request loginRequest 0 (writeError 404 "")] s ∧
    step clearJwt adminConfig s (.request listRequest 1 (writeError 404 "")) = some s' ∧
    Invokes s s' .list := by
  have hlogin : loginPattern.Matches loginRequest [] := ⟨.inr (.inl rfl), .inl (by decide), by decide⟩
  have hcred : Credentials adminConfig loginRequest :=
    decodeStrings_writeObject (x := "admin") (y := "admin") (by decide)
  obtain ⟨response, hresponse, htoken⟩ : ∃ response,
      handleLogin clearJwt adminConfig 0 loginRequest [] = .respond response ∧
        response.body = .object [("token", adminToken)] := handleLogin_token.mpr ⟨hcred, rfl⟩
  have hserve : serve clearJwt adminConfig (writeError 404 "") 0 loginRequest =
      .respond (withCors response) := by rw [serve_login hlogin, hresponse]; rfl
  have hstep : step clearJwt adminConfig (.start Table.empty 0)
      (.request loginRequest 0 (writeError 404 "")) = some (afterLogin (withCors response)) :=
    step_respond rfl (by decide) hserve
  have hs : Reaches clearJwt adminConfig Table.empty 0
      [.request loginRequest 0 (writeError 404 "")] (afterLogin (withCors response)) := by
    unfold Reaches Machine.run
    rw [hstep]
    rfl
  have hissued : Issued (afterLogin (withCors response)) ⟨loginRequest, 0, withCors response⟩
      adminToken := ⟨List.mem_singleton_self _, hlogin, htoken⟩
  have hbearer : Bearer listRequest adminToken := ⟨"bearer", rfl, by decide⟩
  have hfirst : Unforged clearJwt adminConfig (.start Table.empty 0)
      (.request loginRequest 0 (writeError 404 "")) := by
    -- the login has no Authorization header
    intro tokenStr token h
    have hmissing : extractBearerToken loginRequest = .error errMissingAuthHeader := rfl
    rw [← extractBearerToken_ok, hmissing] at h
    cases h
  have hsecond : Unforged clearJwt adminConfig (afterLogin (withCors response))
      (.request listRequest 1 (writeError 404 "")) := by
    intro tokenStr token h hdecode _ _
    have hsame := (extractBearerToken_ok.mpr h).symm.trans (extractBearerToken_ok.mpr hbearer)
    rw [Except.ok.inj hsame] at hdecode
    exact ⟨_, adminToken, hissued, hdecode⟩
  have hunforged : Machine.Guarded (step clearJwt adminConfig) (Unforged clearJwt adminConfig)
      (.start Table.empty 0) ([.request loginRequest 0 (writeError 404 "")] ++
        [.request listRequest 1 (writeError 404 "")]) := by
    refine ⟨hfirst, fun s₁ h₁ => ?_⟩
    rw [hstep, Option.some.injEq] at h₁
    subst h₁
    exact ⟨hsecond, fun _ _ => trivial⟩
  have hserving : Phase.serving ≠ .exited := by decide
  obtain ⟨s', hs'⟩ := step_request (s := afterLogin (withCors response)) rfl hserving listRequest 1
    (writeError 404 "")
  have hlist : Asks listRequest .list := .list ⟨.inr (.inl rfl), .inl (by decide), by decide⟩
  have hlive : (1 : Instant) < unixSeconds (0 + adminConfig.expiration) * nanosPerSecond := by decide
  have hlogged : LoggedIn clearJwt adminConfig (afterLogin (withCors response)) listRequest 1 :=
    ⟨adminToken, _, adminToken, hbearer, hissued, hcred, rfl, hlive⟩
  exact ⟨_, s', hs, hs',
    ((device_routes_guarded clearJwt_signs hs hunforged hs').1 .list).mpr ⟨hlist, hlogged⟩⟩

end AssetTracker.Server
