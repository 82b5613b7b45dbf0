import AssetTracker.EventsApi
import AssetTracker.Go.Responses
import AssetTracker.Go.Server
import AssetTracker.Web.Health

/-!
# The health dots, from the databases to the browser

The polls of `getHealth` over either proxy against `HandleReady` and `handleReady`. A service
that is down does not answer; a proxy then sends a page of its own, or nobody answers.

Results:
1. `getHealth_up`, `getHealth_noDatabase`, `getHealth_down`: how a poll ends.
2. `dot_condition`: the dot tells the condition in which the last poll found the service.
-/

namespace AssetTracker.HealthApi

open Encoding Text WebUi WebUi.Health EventsApi
open GoService (Jwt AuthConfig writeJSON)
open Http hiding Request
open NodeServer (UrlParser)

/-! ## Handlers -/

/-- `HandleReady`. The encoder sorts the keys of a map. -/
def goHandleReady (ping : Bool) : GoService.Response :=
  if ping then writeJSON 200 (.object [("database", "connected"), ("status", "ok")])
  else writeJSON 503 (.object [("database", "disconnected"), ("status", "degraded")])

def goHandleHealth (ping : Bool) : GoService.Response := goHandleReady ping

def goHandleLive : GoService.Response := writeJSON 200 (.object [("status", "ok")])

def readyPattern : Pattern :=
  { method := some "GET", segments := [.literal "health", .literal "ready"] }

/-- The mux of `NewHealthHandler`. -/
def healthMux (ping : Bool) : Mux GoService.Handler :=
  [({ method := some "GET", segments := [.literal "health"] },
      fun _ _ _ => .respond (goHandleHealth ping)),
    ({ method := some "GET", segments := [.literal "health", .literal "live"] },
      fun _ _ _ => .respond goHandleLive),
    (readyPattern, fun _ _ _ => .respond (goHandleReady ping))]

/-- `handleReady`: the status, and what is written. The ping fails when it takes too long. -/
def nodeHandleReady (ping : Bool) : Nat × String :=
  if ping then
    (200, objectLine [jsMember (utf16 "status") (utf16 "ok"),
      jsMember (utf16 "database") (utf16 "connected")])
  else
    (503, objectLine [jsMember (utf16 "status") (utf16 "degraded"),
      jsMember (utf16 "database") (utf16 "disconnected")])

/-! ## Polls -/

inductive Condition where
  | up
  | noDatabase
  /-- The status of the page that the proxy sends, if it does. -/
  | down (page : Option Nat)
deriving DecidableEq

def Condition.ping : Condition → Bool
  | up => true
  | _ => false

/-- A poll, with what else the request and the services have. -/
structure Poll where
  proxy : Proxy
  condition : Condition
  header : List (String × String)
  time : Instant
  zone : GoService.Device → Int

section

variable (jwt : Jwt) (config : AuthConfig) (parser : UrlParser)

/-- What the Go service answers. Where the path does not decode, that is a text. -/
def goAnswer (p : Poll) (path : String) : Option HealthResponse :=
  if h : Decodes path then
    let r : Http.Request := ⟨"GET", path, "", p.header, ByteArray.empty, h⟩
    match Server.serveMux (healthMux p.condition.ping) p.time r [] with
    | .respond monitor =>
      match Server.serve jwt config monitor p.time r with
      | .respond response => some ⟨response.status, parse (response.body.encode p.zone)⟩
      | .call _ _ => none
    | .call _ _ => none
  else some ⟨400, none⟩

/-- What the Node service answers, on the route of `handleReady`. -/
def nodeAnswer (p : Poll) (target : String) : Option HealthResponse :=
  match arrival parser ⟨"GET", target⟩ with
  | some .ready => some ⟨(nodeHandleReady p.condition.ping).1, parse (nodeHandleReady p.condition.ping).2⟩
  | _ => none

/-- What `fetch` makes of a poll. -/
def network (service : ServiceName) (p : Poll) : Network := fun url =>
  match p.condition, service with
  | .down page, _ => page.map fun status => ⟨status, none⟩
  | _, .go => (p.proxy.path apiBase url).bind (goAnswer jwt config p)
  | _, .node => (p.proxy.path nodeBase url).bind (nodeAnswer parser p)

end

/-- The dot for a condition, given whether some earlier poll found the service up. -/
def dotFor (before : Bool) : Condition → HealthStatus
  | .up => .healthy
  | .noDatabase => if before then .stale else .unhealthy
  | .down _ => .offline

variable {jwt : Jwt} {config : AuthConfig} {parser : UrlParser} {service : ServiceName} {p : Poll}

/-! ## 1. Polls -/

namespace HealthApiLemmas

theorem go_path (proxy : Proxy) : proxy.path apiBase (serviceMap .go) = some "/health/ready" := by
  cases proxy <;> decide

theorem node_path (proxy : Proxy) : proxy.path nodeBase (serviceMap .node) = some "/health/ready" := by
  cases proxy <;> decide

variable {t : Instant} {header : List (String × String)}

theorem ready_decodes : Decodes "/health/ready" := by decide

def ready (header : List (String × String)) : Http.Request :=
  ⟨"GET", "/health/ready", "", header, ByteArray.empty, ready_decodes⟩

theorem ready_segments : pathSegments (ready header).path = ["health", "ready"] := by
  have hpath : plainPath ["health", "ready"] = "/health/ready" := by decide
  exact (congrArg pathSegments hpath.symm).trans
    (pathSegments_plainPath (by decide) (List.cons_ne_nil _ _))

theorem ready_clean : cleanPath (ready header).path = (ready header).path := by
  have hpath : plainPath ["health", "ready"] = "/health/ready" := by decide
  have hclean : cleanPath (plainPath ["health", "ready"]) = plainPath ["health", "ready"] :=
    cleanPath_plainPath (by decide) (List.cons_ne_nil _ _)
  rwa [hpath] at hclean

theorem ready_matches : readyPattern.Matches (ready header) [] := by
  refine ⟨.inr (.inl rfl), .inl ready_clean, ?_⟩
  rw [ready_segments]
  rfl

/-- The mux of the health handler has one pattern for the polls. -/
theorem healthMux_ready (ping : Bool) :
    Server.serveMux (healthMux ping) t (ready header) [] = .respond (goHandleReady ping) := by
  have hroute : (healthMux ping).route (ready header) =
      .found (fun _ _ _ => .respond (goHandleReady ping)) [] := by
    refine Mux.route_eq_found (p := readyPattern) (by simp [healthMux]) ready_matches ready_clean ?_
    rintro p' h' values' hmem hp -
    have hpath := hp.path
    rw [ready_segments] at hpath
    simp only [healthMux, List.mem_cons, List.not_mem_nil, or_false, Prod.mk.injEq] at hmem
    rcases hmem with ⟨rfl, rfl⟩ | ⟨rfl, rfl⟩ | ⟨rfl, rfl⟩
    · cases hpath
    · cases hpath
    · cases hpath
      exact ⟨rfl, rfl⟩
  unfold Server.serveMux
  rw [hroute]

/-- A poll of the Go service comes to the health handler. -/
theorem serve_ready (monitor : GoService.Response) :
    Server.serve jwt config monitor t (ready header) = .respond (Server.withCors monitor) := by
  have hroute : (Server.topMux jwt config monitor).route (ready header) =
      .found (fun _ _ _ => .respond monitor) [] := by
    refine Mux.route_eq_found (p := readyPattern) (by simp [Server.topMux, readyPattern])
      ready_matches ready_clean ?_
    rintro p' h' values' hmem hp hprior
    have hpath := hp.path
    rw [ready_segments] at hpath
    simp only [Server.topMux, List.mem_cons, List.not_mem_nil, or_false, Prod.mk.injEq] at hmem
    rcases hmem with ⟨rfl, rfl⟩ | ⟨rfl, rfl⟩ | ⟨rfl, rfl⟩ | ⟨rfl, rfl⟩ | ⟨rfl, rfl⟩ | ⟨rfl, rfl⟩ |
      ⟨rfl, rfl⟩
    · exact absurd (matchSegments_first hpath) (by decide)
    · cases hpath
    · cases hpath
    · cases hpath
      exact ⟨rfl, rfl⟩
    · cases hpath
    · cases hpath
    · cases hprior rfl
  have hmethod : (ready header).method ≠ "OPTIONS" := (by decide : "GET" ≠ "OPTIONS")
  unfold Server.serve Server.corsMiddleware
  rw [if_neg (fun hboth => hmethod hboth.1), if_neg hmethod]
  unfold Server.serveMux
  rw [hroute]
  rfl

theorem goAnswer_ready (p : Poll) : goAnswer jwt config p "/health/ready" =
    some ⟨(goHandleReady p.condition.ping).status,
      (goHandleReady p.condition.ping).body.value p.zone⟩ := by
  have hmux := @healthMux_ready p.time p.header p.condition.ping
  have hserve := @serve_ready jwt config p.time p.header (goHandleReady p.condition.ping)
  unfold ready at hmux hserve
  unfold goAnswer
  rw [dif_pos ready_decodes]
  dsimp only
  rw [hmux]
  dsimp only
  rw [hserve, ← GoService.parse_encode]
  rfl

/-- The callback compares the whole target of a poll. -/
theorem arrival_ready (hparser : ReadsTargets parser) :
    arrival parser ⟨"GET", "/health/ready"⟩ = some .ready := by
  have hpath : plainPath ["health", "ready"] = "/health/ready" := by decide
  have hurl : parser (NodeServer.Incoming.mk "GET" "/health/ready").url =
      some ⟨"/health/ready", []⟩ := by
    have hread : parser (plainPath ["health", "ready"]) = some ⟨plainPath ["health", "ready"], []⟩ :=
      hparser.path (List.cons_ne_nil _ _) (by decide)
    rwa [hpath] at hread
  rw [arrival]
  unfold NodeServer.handleRequest NodeServer.callback
  rw [Throws.run_bind_ok (NodeServer.parseUrl_run hurl _)]
  cases Metrics.isInfraPath "/health/ready" <;> rfl

/-- The members in the order in which they are written. -/
def nodeMembers (status database : String) : Json :=
  objectOf [jsMember (utf16 "status") (utf16 status), jsMember (utf16 "database") (utf16 database)]

theorem nodeAnswer_ready (hparser : ReadsTargets parser) (p : Poll) :
    nodeAnswer parser p "/health/ready" =
      if p.condition.ping then some ⟨200, some (nodeMembers "ok" "connected")⟩
      else some ⟨503, some (nodeMembers "degraded" "disconnected")⟩ := by
  unfold nodeAnswer nodeHandleReady nodeMembers
  rw [arrival_ready hparser]
  cases p.condition.ping with
  | true =>
    rw [if_pos rfl, if_pos rfl]
    dsimp only
    rw [parse_objectLine]
  | false =>
    rw [if_neg Bool.false_ne_true, if_neg Bool.false_ne_true]
    dsimp only
    rw [parse_objectLine]

theorem network_go (hdown : ∀ page, p.condition ≠ .down page) :
    network jwt config parser .go p (serviceMap .go) = goAnswer jwt config p "/health/ready" := by
  have hpath := go_path p.proxy
  obtain ⟨proxy, condition, header, time, zone⟩ := p
  cases condition with
  | down page => exact absurd rfl (hdown page)
  | up | noDatabase =>
    show (proxy.path apiBase (serviceMap .go)).bind _ = _
    rw [hpath, Option.bind_some]

theorem network_node (hdown : ∀ page, p.condition ≠ .down page) :
    network jwt config parser .node p (serviceMap .node) =
      nodeAnswer parser p "/health/ready" := by
  have hpath := node_path p.proxy
  obtain ⟨proxy, condition, header, time, zone⟩ := p
  cases condition with
  | down page => exact absurd rfl (hdown page)
  | up | noDatabase =>
    show (proxy.path nodeBase (serviceMap .node)).bind _ = _
    rw [hpath, Option.bind_some]

end HealthApiLemmas

open HealthApiLemmas

/-- The order of the two members differs between the services. -/
theorem ends_up (hparser : ReadsTargets parser) (hc : p.condition = .up) :
    Ends service (network jwt config parser service p) .ok := by
  have hdown : ∀ page, p.condition ≠ .down page := by simp [hc]
  cases service with
  | go =>
    refine ⟨[(utf16 "database", .str (utf16 "connected")), (utf16 "status", .str (utf16 "ok"))],
      (network_go hdown).trans ((goAnswer_ready p).trans ?_), ?_⟩
    · rw [hc]
      rfl
    · rfl
  | node =>
    refine ⟨[(utf16 "status", .str (utf16 "ok")), (utf16 "database", .str (utf16 "connected"))],
      (network_node hdown).trans ((nodeAnswer_ready hparser p).trans ?_), ?_⟩
    · rw [hc]
      rfl
    · rfl

theorem ends_noDatabase (hparser : ReadsTargets parser) (hc : p.condition = .noDatabase) :
    Ends service (network jwt config parser service p) .httpError := by
  have hdown : ∀ page, p.condition ≠ .down page := by simp [hc]
  cases service with
  | go =>
    have hfetch := (@network_go jwt config parser p hdown).trans (goAnswer_ready p)
    rw [hc] at hfetch
    exact ⟨_, _, hfetch, rfl, rfl⟩
  | node =>
    have hfetch := (@network_node jwt config parser p hdown).trans (nodeAnswer_ready hparser p)
    rw [hc] at hfetch
    exact ⟨_, _, hfetch, rfl, rfl⟩

/-- Without an answer of the service there is no JSON. -/
theorem getHealth_down {page : Option Nat} (hc : p.condition = .down page) :
    getHealth service (network jwt config parser service p) = .error (failedToFetch service) := by
  obtain ⟨proxy, condition, header, time, zone⟩ := p
  cases hc
  cases page <;> rfl

/-! ## 2. The dot -/

/-- A poll leaves data when it finds the service up, and only then. -/
theorem resolves_iff (hparser : ReadsTargets parser) :
    Resolves service (network jwt config parser service p) ↔ p.condition = .up := by
  constructor
  · rintro ⟨body, hget⟩
    cases hc : p.condition with
    | up => rfl
    | noDatabase =>
      obtain ⟨e, herror, -⟩ := getHealth_httpError (ends_noDatabase hparser hc)
      cases hget.symm.trans herror
    | down page => cases hget.symm.trans (getHealth_down hc)
  · intro hc
    obtain ⟨body, hget, -⟩ := getHealth_ok (ends_up hparser hc)
    exact ⟨body, hget⟩

/-- Over any history of polls, through either proxy, the dot tells the condition in which the
last poll found the service. Without a database it also tells whether some earlier poll found
the service up. -/
theorem dot_condition {jwt : Jwt} {config : AuthConfig} {parser : UrlParser}
    (hparser : ReadsTargets parser) (service : ServiceName) (earlier : List Poll) (last : Poll) :
    dot service ((earlier ++ [last]).map (network jwt config parser service)) =
      dotFor (earlier.any fun p => p.condition = .up) last.condition := by
  rw [List.map_append, List.map_singleton]
  cases hc : last.condition with
  | up => exact dot_ok (ends_up hparser hc)
  | down page =>
    unfold dot
    rw [useHealth_snoc, getHealth_down hc]
    rfl
  | noDatabase =>
    rw [dot_httpError (ends_noDatabase hparser hc), dotFor]
    have hdata : (useHealth service (earlier.map (network jwt config parser service))).data.isSome =
        earlier.any fun p => p.condition = .up := by
      rw [Bool.eq_iff_iff, useHealth_data, List.any_eq_true]
      simp only [List.mem_map, exists_exists_and_eq_and, resolves_iff hparser, decide_eq_true_eq]
    rw [hdata]

/-- A service that comes up, and loses its database. -/
theorem dot_condition_lost :
    dot .node (List.map (network Server.clearJwt Server.adminConfig originUrl .node)
      [⟨.vite, .down (some 502), [], 0, fun _ => 0⟩, ⟨.vite, .up, [], 1, fun _ => 0⟩,
        ⟨.nginx, .noDatabase, [], 2, fun _ => 0⟩]) = .stale :=
  dot_condition originUrl_reads .node
    [⟨.vite, .down (some 502), [], 0, fun _ => 0⟩, ⟨.vite, .up, [], 1, fun _ => 0⟩]
    ⟨.nginx, .noDatabase, [], 2, fun _ => 0⟩

end AssetTracker.HealthApi
