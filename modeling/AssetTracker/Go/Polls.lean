import AssetTracker.Lib.Reads
import AssetTracker.Go.Reports

/-!
# Reports, one after the other (Go service)

A response of the metrics endpoints is put together by several reads, between which other
requests are counted and traced. Whoever polls the endpoints asks again when there is an answer.

Results:
1. `server_grows`: requests only add to the metrics.
2. `serve_copies`: what a response shows of the traces was read at once.
3. `reports_continue`: a report never falls back behind one that was answered before it was
   asked for.
-/

namespace AssetTracker.GoMetrics

open Effects Encoding Metrics

/-! ## Reports -/

/-- The newest traces, as many as the request asks for. -/
def window (history : List RequestTrace) (r : Request) : List RequestTrace :=
  history.reverse.take (parseLimit r.limit 50).toNat

/-- The counters of the second response are at least those of the first one, and the traces of
both are the newest ones of the same history, of the second response at no earlier point. -/
structure Continues (history : List RequestTrace) (r r' : Request) (a b : Response) : Prop where
  counters : ∀ {n k n' k'}, a.body.counters = some (n, k) → b.body.counters = some (n', k') →
    n ≤ n' ∧ k ≤ k'
  traces : ∀ {d d'}, a.body.detail? = some d → b.body.detail? = some d' →
    ∃ m m', m ≤ m' ∧ m' ≤ history.length ∧ d.recent = window (history.take m) r ∧
      d'.recent = window (history.take m') r'

/-! ## 1. Growth -/

/-- The metrics of one moment and of a later one. -/
instance : Preorder MetricsHandler where
  le m m' := m.requestsTotal ≤ m'.requestsTotal ∧ m.errorsTotal ≤ m'.errorsTotal ∧
    m.traces <+: m'.traces
  le_refl m := ⟨le_rfl, le_rfl, List.prefix_rfl⟩
  le_trans _ _ _ h h' := ⟨h.1.trans h'.1, h.2.1.trans h'.2.1, h.2.2.trans h'.2.2⟩

variable {millis : Int → Decimal} {route : Request → Route} {as bs : List Action} {s₁ s : State}

theorem server_grows (millis : Int → Decimal) (route : Request → Route) :
    (server millis route).Grows where
  enter h := by
    cases h
    exact le_rfl
  handle {e x m r m'} h := by
    have hmono := handle_mono h
    refine ⟨hmono.1, hmono.2, ?_⟩
    cases e with
    | push trace =>
      cases h
      exact List.prefix_append _ _
    | getTraces limit =>
      obtain ⟨_, -, heq⟩ := Option.map_eq_some_iff.mp h
      cases heq
      exact List.prefix_rfl
    | _ =>
      cases h
      exact List.prefix_rfl

/-- What was loaded of the counters, between two moments. -/
def LoadedBetween (lo hi : MetricsHandler) : Loads → Prop
  | .nothing => True
  | .requests n => lo.requestsTotal ≤ n ∧ n ≤ hi.requestsTotal
  | .both n k => (lo.requestsTotal ≤ n ∧ n ≤ hi.requestsTotal) ∧
      lo.errorsTotal ≤ k ∧ k ≤ hi.errorsTotal

theorem loading_reads (millis : Int → Decimal) (route : Request → Route) :
    (server millis route).Reads (fun _ => .nothing) Loading LoadedBetween where
  start _ _ := trivial
  mono {lo hi hi' φ} hle h := by
    cases φ with
    | nothing => trivial
    | requests n => exact ⟨h.1, h.2.trans hle.1⟩
    | both n k => exact ⟨⟨h.1.1, h.1.2.trans hle.1⟩, h.2.1, h.2.2.trans hle.2.1⟩
  effect {lo m m' φ φ' e x r} hle h hs hnext := by
    have hup := (server_grows millis route).handle hs
    cases hnext with
    | quiet hφ =>
      cases φ with
      | nothing => trivial
      | requests n => cases hφ
      | both n k => exact ⟨⟨h.1.1, h.1.2.trans hup.1⟩, h.2.1, h.2.2.trans hup.2.1⟩
    | loadRequests =>
      cases hs
      exact ⟨hle.1, le_rfl⟩
    | loadErrors =>
      cases hs
      exact ⟨h, hle.2.1, le_rfl⟩

/-! ## 2. Traces -/

/-- Whether a request has read the traces, with its limit. -/
inductive Copied where
  | nothing
  | traces (limit : Int) (recent : List RequestTrace)

def Effect.copies : Effect → Bool
  | getTraces _ => true
  | _ => false

/-- The traces are read once. -/
inductive Copying : Protocol Effect.Answer Copied
  | other {φ : Copied} {e : Effect} {r : e.Answer} (h : e.copies = false) : Copying φ e r φ
  | copy {limit : Int} {recent : List RequestTrace} :
      Copying .nothing (.getTraces limit) recent (.traces limit recent)

/-- A response shows the traces that were read for it, with the limit of the request. -/
def Shows (r : Request) (φ : Copied) (a : Response) : Prop :=
  ∀ d, a.body.detail? = some d → φ = .traces (parseLimit r.limit 50) d.recent

theorem mux_copies (route : Request → Route) (r : Request) :
    (mux route r).Follows Copying (Shows r) .nothing := by
  unfold mux
  cases route r with
  | metrics => exact fun _ => ⟨_, .other rfl, fun _ => ⟨_, .other rfl, fun _ hd => by cases hd⟩⟩
  | metricsRequests =>
    exact fun _ => ⟨_, .copy, fun _ => ⟨_, .other rfl, fun _ => ⟨_, .other rfl, fun _ hd => by
      cases hd
      rfl⟩⟩⟩
  | other => exact fun _ => ⟨_, .other rfl, fun _ hd => by cases hd⟩

theorem metricsMiddleware_copies (millis : Int → Decimal) (route : Request → Route) (r : Request) :
    (metricsMiddleware millis (mux route) r).Follows Copying (Shows r) .nothing := by
  unfold metricsMiddleware
  split
  · exact mux_copies route r
  · refine fun _ => ⟨_, .other rfl, fun _ => ⟨_, .other rfl, (mux_copies route r).bind ?_⟩⟩
    intro φ response hφ
    split
    · exact fun _ => ⟨φ, .other rfl, fun _ => ⟨φ, .other rfl, fun _ => ⟨φ, .other rfl,
        fun _ => ⟨φ, .other rfl, hφ⟩⟩⟩⟩
    · exact fun _ => ⟨φ, .other rfl, fun _ => ⟨φ, .other rfl, fun _ => ⟨φ, .other rfl, hφ⟩⟩⟩

theorem serve_copies (millis : Int → Decimal) (route : Request → Route) (r : Request) :
    (serve millis route r).Follows Copying (Shows r) .nothing := by
  unfold serve corsMiddleware
  split
  · exact fun d hd => by cases hd
  · refine fun _ => ⟨_, .other rfl, (metricsMiddleware_copies millis route r).bind ?_⟩
    exact fun φ response hφ _ => ⟨φ, .other rfl, hφ⟩

/-- What was read of the traces, between two moments. -/
def CopiedBetween (lo hi : MetricsHandler) : Copied → Prop
  | .nothing => True
  | .traces limit recent => ∃ m, lo.traces.length ≤ m ∧ m ≤ hi.traces.length ∧
      recent = (hi.traces.take m).reverse.take limit.toNat

/-- A later moment has the traces of an earlier one first. -/
theorem take_earlier {m m' : MetricsHandler} (hle : m ≤ m') {n : Nat} (hn : n ≤ m.traces.length) :
    m'.traces.take n = m.traces.take n := by
  obtain ⟨newer, hnewer⟩ := hle.2.2
  rw [← hnewer, List.take_append_of_le_length hn]

theorem CopiedBetween.mono {lo hi hi' : MetricsHandler} {φ : Copied} (hle : hi ≤ hi')
    (h : CopiedBetween lo hi φ) : CopiedBetween lo hi' φ := by
  cases φ with
  | nothing => trivial
  | traces limit recent =>
    obtain ⟨m, hlo, hm, rfl⟩ := h
    exact ⟨m, hlo, hm.trans hle.2.2.length_le, by rw [take_earlier hle hm]⟩

theorem copying_reads (millis : Int → Decimal) (route : Request → Route) :
    (server millis route).Reads (fun _ => .nothing) Copying CopiedBetween where
  start _ _ := trivial
  mono hle h := h.mono hle
  effect {lo m m' φ φ' e x r} hle h hs hnext := by
    cases hnext with
    | other => exact h.mono ((server_grows millis route).handle hs)
    | copy =>
      obtain ⟨recent, hget, heq⟩ := Option.map_eq_some_iff.mp hs
      cases heq
      rw [getTraces_eq] at hget
      refine ⟨m.traces.length, hle.2.2.length_le, le_rfl, ?_⟩
      rw [List.take_length]
      exact (Option.some.inj hget).symm

/-! ## 3. Two reports -/

/-- In every interleaving, a response that was asked for after another one was answered
continues it. Two responses that overlap may be in either order, so the second request must be a
thread that is not there yet when the first one has returned (`ha`, `hj`). -/
theorem reports_continue (h₁ : Reaches millis route as s₁)
    (h : Machine.run (server millis route).step s₁ bs = some s) {i j : Nat}
    {t t' : Thread Request Effect.Answer Response} {a b : Response}
    (ht : s₁.threads[i]? = some t) (ha : t.returned? = some a) (hj : s₁.threads.length ≤ j)
    (ht' : s.threads[j]? = some t') (hb : t'.returned? = some b) :
    Continues s.shared.traces t.label t'.label a b := by
  have hgrows := server_grows millis route
  constructor
  · intro n k n' k' hcounters hcounters'
    obtain ⟨-, φ, φ', hpost, hpost', hφ, hφ'⟩ := System.reads_ordered hgrows
      (loading_reads millis route) (serve_loads millis route) h₁ h ht ha hj ht' hb
    rw [hpost.2] at hcounters
    rw [hpost'.2] at hcounters'
    cases φ with
    | nothing | requests n => cases hcounters
    | both n k =>
      cases φ' with
      | nothing | requests n => cases hcounters'
      | both n' k' =>
        cases hcounters
        cases hcounters'
        exact ⟨hφ.1.2.trans hφ'.1.1, hφ.2.2.trans hφ'.2.1⟩
  · intro d d' hd hd'
    obtain ⟨hle, φ, φ', hpost, hpost', hφ, hφ'⟩ := System.reads_ordered hgrows
      (copying_reads millis route) (serve_copies millis route) h₁ h ht ha hj ht' hb
    obtain rfl := hpost d hd
    obtain rfl := hpost' d' hd'
    obtain ⟨m, -, hm, hrecent⟩ := hφ
    obtain ⟨m', hm', hend, hrecent'⟩ := hφ'
    exact ⟨m, m', hm.trans hm', hend, hrecent.trans (by rw [← take_earlier hle hm]; rfl), hrecent'⟩

/-! A device is listed, then the endpoint is polled twice, with a refused request in between. -/

def firstPoll : List Action :=
  [.spawn ⟨"GET", "/devices", none⟩] ++ List.replicate 8 (.run 0 ⟨0, 200⟩) ++
    [.spawn ⟨"GET", "/metrics/requests", none⟩] ++ List.replicate 5 (.run 1 ⟨0, 200⟩)

def secondPoll : List Action :=
  [.spawn ⟨"GET", "/devices", none⟩] ++ List.replicate 9 (.run 2 ⟨0, 401⟩) ++
    [.spawn ⟨"GET", "/metrics/requests", some "1"⟩] ++ List.replicate 5 (.run 3 ⟨0, 200⟩)

/-- Where the two paths go. -/
def byDetail (r : Request) : Route := if r.path = "/metrics/requests" then .metricsRequests else .other

theorem reports_continue_polls : ∃ s₁ s t t' a b,
    Reaches (fun _ => ⟨false, 0, 0⟩) byDetail firstPoll s₁ ∧
    Machine.run (server (fun _ => ⟨false, 0, 0⟩) byDetail).step s₁ secondPoll = some s ∧
    s₁.threads[1]? = some t ∧ t.returned? = some a ∧ s.threads[3]? = some t' ∧
    t'.returned? = some b ∧ a.body.counters = some (1, 0) ∧ b.body.counters = some (2, 1) ∧
    Continues s.shared.traces t.label t'.label a b := by
  obtain ⟨s₁, s, t, t', a, b, h₁, h, ht, ha, ht', hb, hcounters, hcounters', hlength⟩ :
      ∃ s₁ s t t' a b, Reaches (fun _ => ⟨false, 0, 0⟩) byDetail firstPoll s₁ ∧
        Machine.run (server (fun _ => ⟨false, 0, 0⟩) byDetail).step s₁ secondPoll = some s ∧
        s₁.threads[1]? = some t ∧ t.returned? = some a ∧ s.threads[3]? = some t' ∧
        t'.returned? = some b ∧ a.body.counters = some (1, 0) ∧ b.body.counters = some (2, 1) ∧
        s₁.threads.length = 2 :=
    ⟨_, _, _, _, _, _, rfl, rfl, rfl, rfl, rfl, rfl, rfl, rfl, rfl⟩
  have hlater : s₁.threads.length ≤ 3 := hlength ▸ by decide
  exact ⟨s₁, s, t, t', a, b, h₁, h, ht, ha, ht', hb, hcounters, hcounters',
    reports_continue h₁ h ht ha hlater ht' hb⟩

end AssetTracker.GoMetrics
