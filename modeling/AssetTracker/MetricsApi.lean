import AssetTracker.Go.Metrics
import AssetTracker.Node.Server

/-!
# One metrics API, served twice

The web client reads `/metrics` and `/metrics/requests` of both services as one
API.

1. `metrics_consistent`: both services keep their counters and traces consistent
   over all runs.
2. `recent_eq_iff`: for which values of `limit` the two services return the same
   traces.
-/

namespace AssetTracker.Metrics

open Encoding

/-! ## 1. Counters and traces -/

/-- In every reachable state of either service, at any point between the atomic steps of
any number of requests, counters, traces and responses are consistent. -/
theorem metrics_consistent :
    (∀ (millis : Int → Decimal) (route : GoMetrics.Request → GoMetrics.Route)
      (as : List GoMetrics.Action) (s : GoMetrics.State), GoMetrics.Reaches millis route as s →
        Consistent s.shared.requestsTotal s.shared.errorsTotal s.shared.traces s.inFlight
          s.completed s.responses) ∧
    ∀ (parser : NodeServer.UrlParser) (as : List NodeServer.Action) (s : NodeServer.State),
      NodeServer.Reaches parser as s →
        Consistent s.metrics.requests s.metrics.errors s.metrics.traces (s.inFlight parser)
          (s.completed parser) s.responses :=
  ⟨fun _ _ _ _ h => GoMetrics.consistent h, fun _ _ _ h => NodeServer.consistent h⟩

/-- A device request that fails while the metrics are read. -/
def goRun : List GoMetrics.Action :=
  [.spawn ⟨"GET", "/devices", none⟩, .spawn ⟨"GET", "/metrics/requests", none⟩,
    .run 0 ⟨0, 0⟩, .run 0 ⟨0, 0⟩, .run 0 ⟨0, 0⟩, .run 0 ⟨0, 500⟩, .run 1 ⟨0, 0⟩, .run 1 ⟨0, 0⟩,
    .run 0 ⟨0, 0⟩, .run 1 ⟨0, 0⟩, .run 1 ⟨0, 0⟩, .run 1 ⟨0, 0⟩]

def goRoute (r : GoMetrics.Request) : GoMetrics.Route :=
  if r.path = "/metrics/requests" then .metricsRequests else .other

def nodeRun : List NodeServer.Action :=
  [.request ⟨"GET", "/devices"⟩ 0, .finish 0 404 1000000, .request ⟨"GET", "/metrics/requests"⟩ 0]

theorem metrics_consistent_failed :
    (∃ s, GoMetrics.Reaches (fun _ => ⟨false, 0, 0⟩) goRoute goRun s ∧
      s.inFlight = 1 ∧ s.responses = [⟨1, 1, []⟩] ∧
      Consistent s.shared.requestsTotal s.shared.errorsTotal s.shared.traces s.inFlight
        s.completed s.responses) ∧
    ∃ s, NodeServer.Reaches NodeServer.pathUrl nodeRun s ∧ s.inFlight NodeServer.pathUrl = 0 ∧
      s.metrics.errors = 1 ∧
      Consistent s.metrics.requests s.metrics.errors s.metrics.traces
        (s.inFlight NodeServer.pathUrl) (s.completed NodeServer.pathUrl) s.responses := by
  constructor
  · obtain ⟨s, hs, hf, hr⟩ : ∃ s, GoMetrics.Reaches (fun _ => ⟨false, 0, 0⟩) goRoute goRun s ∧
      s.inFlight = 1 ∧ s.responses = [⟨1, 1, []⟩] := ⟨_, rfl, rfl, rfl⟩
    exact ⟨s, hs, hf, hr, metrics_consistent.1 _ _ _ s hs⟩
  · obtain ⟨s, hs, hf, he⟩ : ∃ s, NodeServer.Reaches NodeServer.pathUrl nodeRun s ∧
      s.inFlight NodeServer.pathUrl = 0 ∧ s.metrics.errors = 1 := ⟨_, rfl, rfl, rfl⟩
    exact ⟨s, hs, hf, he, metrics_consistent.2 _ _ s hs⟩

/-! ## 2. Recent traces -/

/-- What Go returns as `recent` after the traces `ts`, for a value of `limit`. -/
def goRecent (ts : List RequestTrace) (limit : Option String) : Option (List RequestTrace) :=
  (ts.foldl GoMetrics.MetricsHandler.pushTrace GoMetrics.newMetricsHandler).getTraces
    (GoMetrics.parseLimit limit 50)

/-- What Node returns as `recent`. -/
def nodeRecent (ts : List RequestTrace) (limit : Option String) : Option (List RequestTrace) :=
  (ts.foldl NodeServer.MetricsHandler.pushTrace NodeServer.newMetricsHandler).getTraces
    (NodeServer.limitOf limit)

/-- The value is absent, or both languages read a number from it, or the number that one of
them reads and the default of the other make no difference to `n` traces. -/
def SameLimit (limit : Option String) (n : Nat) : Prop :=
  match limit with
  | none => True
  | some s =>
    match sscanfInt s, parseInt s with
    | some _, some _ => True
    | some a, none => a ≤ 1 ∨ n ≤ 1
    | none, some b => b = 50 ∨ (n ≤ 50 ∧ (n ≤ b ∨ n ≤ 1))
    | none, none => n ≤ 1

theorem go_traces (ts : List RequestTrace) (m : GoMetrics.MetricsHandler) :
    (ts.foldl GoMetrics.MetricsHandler.pushTrace m).traces = m.traces ++ ts := by
  induction ts generalizing m with
  | nil => exact (List.append_nil _).symm
  | cons t ts ih =>
    rw [List.foldl_cons, ih]
    simp [GoMetrics.MetricsHandler.pushTrace]

theorem node_traces (ts : List RequestTrace) (m : NodeServer.MetricsHandler) :
    (ts.foldl NodeServer.MetricsHandler.pushTrace m).traces = m.traces ++ ts := by
  induction ts generalizing m with
  | nil => exact (List.append_nil _).symm
  | cons t ts ih =>
    rw [List.foldl_cons, ih]
    simp [NodeServer.MetricsHandler.pushTrace]

theorem goRecent_eq (ts : List RequestTrace) (limit : Option String) :
    goRecent ts limit = some (ts.reverse.take (GoMetrics.parseLimit limit 50).toNat) := by
  rw [goRecent, GoMetrics.getTraces_eq, go_traces]
  rfl

theorem nodeRecent_eq (ts : List RequestTrace) (limit : Option String) :
    nodeRecent ts limit = some (ts.reverse.take (max 1 (NodeServer.limitOf limit)).toNat) := by
  rw [nodeRecent, NodeServer.getTraces_eq, node_traces]
  rfl

/-- Two prefixes of a list are the same when their lengths are, as far as the list goes. -/
theorem recent_eq_min {ts : List RequestTrace} {limit : Option String} :
    goRecent ts limit = nodeRecent ts limit ↔
      min (GoMetrics.parseLimit limit 50).toNat ts.length =
        min (max 1 (NodeServer.limitOf limit)).toNat ts.length := by
  rw [goRecent_eq, nodeRecent_eq, Option.some_inj, List.take_eq_take_iff, List.length_reverse]

/-- A number between 1 and the safety cap. -/
def clamp (limit : Int) : Int := max 1 (min limit 10000)

theorem parseLimit_some (s : String) :
    GoMetrics.parseLimit (some s) 50 = ((sscanfInt s).map clamp).getD 50 := by
  have hclamp (a : Int) : (if a < 1 then 1 else if a > 10000 then 10000 else a) = clamp a := by
    unfold clamp
    split <;> [skip; split] <;> omega
  by_cases h : s = ""
  · subst h
    rfl
  · refine (if_neg h).trans ?_
    dsimp only [Option.getD_some]
    cases sscanfInt s with
    | none => rfl
    | some a => exact hclamp a

theorem limitOf_some (s : String) :
    max 1 (NodeServer.limitOf (some s)) = ((parseInt s).map clamp).getD 1 := by
  unfold NodeServer.limitOf
  dsimp only
  cases parseInt s with
  | none => rfl
  | some b =>
    show max 1 (if b < 1 then 1 else min b 10000) = max 1 (min b 10000)
    split <;> omega

/-- Both services return the same recent traces exactly when they read the same limit, or
a difference makes none for the traces there are. -/
theorem recent_eq_iff (ts : List RequestTrace) (limit : Option String) :
    goRecent ts limit = nodeRecent ts limit ↔ SameLimit limit ts.length := by
  rw [recent_eq_min]
  cases limit with
  | none => exact ⟨fun _ => trivial, fun _ => rfl⟩
  | some s =>
    rw [parseLimit_some, limitOf_some, SameLimit]
    cases ha : sscanfInt s with
    | none =>
      cases hb : parseInt s with
      | none => dsimp only [Option.map_none, Option.getD_none]; omega
      | some b => dsimp only [Option.map_none, Option.map_some, Option.getD, clamp]; omega
    | some a =>
      cases hb : parseInt s with
      | none => dsimp only [Option.map_none, Option.map_some, Option.getD, clamp]; omega
      | some b =>
        obtain rfl := sscanfInt_parseInt ha hb
        exact iff_of_true rfl trivial

/-- Text that is no number: Go answers with its default of 50 traces, Node with one. -/
theorem recent_differs :
    goRecent [⟨"GET", "/a", 200, ⟨false, 1, 0⟩, ""⟩, ⟨"GET", "/b", 200, ⟨false, 1, 0⟩, ""⟩]
        (some "abc") ≠
      nodeRecent [⟨"GET", "/a", 200, ⟨false, 1, 0⟩, ""⟩, ⟨"GET", "/b", 200, ⟨false, 1, 0⟩, ""⟩]
        (some "abc") := by
  decide

end AssetTracker.Metrics
