import Mathlib.Data.List.Nodup
import Mathlib.Data.List.Perm.Subperm
import AssetTracker.Go.Metrics

/-!
# Errors and requests in one response (Go service)

At every moment `errors_total` is at most `requests_total`. A response takes the two
from two loads, first the requests and then the errors, and other requests go on in
between: what is loaded second may be more than what was loaded first.

Results:
1. `serve_loads`: every response reports what was loaded, in this order.
2. `recorded_reaches`: the counters are the numbers of two kinds of effects in the run, and
   no error is counted twice, or of a request that is not. `errors_le_requests` follows.
3. `reports_bounded`: no response has more errors than requests, as long as an error that is
   counted between its two loads is one of a request counted before them.
-/

namespace AssetTracker.GoMetrics

open Effects Encoding Metrics

/-! ## Responses -/

/-- The counters in a body: `requests_total` and `errors_total`. -/
def Body.counters : Body → Option (Nat × Nat)
  | detail d => some (d.requestsTotal, d.errorsTotal)
  | counts requestsTotal errorsTotal => some (requestsTotal, errorsTotal)
  | other => none

/-- No response has more errors than requests. -/
def ReportsBounded (s : State) : Prop :=
  ∀ t ∈ s.threads, ∀ a requestsTotal errorsTotal, t.returned? = some a →
    a.body.counters = some (requestsTotal, errorsTotal) → errorsTotal ≤ requestsTotal

/-- The threads that perform `e`, in the order in which they do. -/
def performers (e : Effect) (effects : List (Nat × Effect)) : List Nat :=
  (effects.filter fun x => x.2 = e).map Prod.fst

/-- Between the two loads of a response, only errors of requests that were counted before the
first load are counted. In other words: if effect `k` counts an error and effect `m < k` is the
first load of a response, then its second load comes before `k`, or the request of the error
was counted before `m`. It is about the order of the effects alone, not about values loaded. -/
def InTime (effects : List (Nat × Effect)) : Prop :=
  ∀ k, ∀ hk : k < effects.length, ∀ m, ∀ hm : m < k,
    effects[k].2 = .addErrors → effects[m].2 = .loadRequests →
      (effects[m].1, .loadErrors) ∈ (effects.take k).drop m ∨
        (effects[k].1, .addRequests) ∈ effects.take m

instance (effects : List (Nat × Effect)) : Decidable (InTime effects) :=
  inferInstanceAs (Decidable (∀ k, ∀ hk : k < effects.length, ∀ m, ∀ hm : m < k,
    effects[k].2 = .addErrors → effects[m].2 = .loadRequests →
      (effects[m].1, .loadErrors) ∈ (effects.take k).drop m ∨
        (effects[k].1, .addRequests) ∈ effects.take m))

/-! ## 1. The loads of a response -/

/-- How far a response is. -/
inductive Loads where
  | nothing
  | requests (n : Nat)
  | both (n k : Nat)

def Loads.counters : Loads → Option (Nat × Nat)
  | both n k => some (n, k)
  | _ => none

/-- Between the two loads. -/
def Loads.halfway : Loads → Bool
  | requests _ => true
  | _ => false

def Effect.loadsCounter : Effect → Bool
  | loadRequests => true
  | loadErrors => true
  | _ => false

/-- The errors are loaded right after the requests, and nothing is loaded after them. -/
inductive Loading : Protocol Effect.Answer Loads
  | quiet {φ : Loads} {e : Effect} {r : e.Answer} (hφ : φ.halfway = false)
      (he : e.loadsCounter = false) : Loading φ e r φ
  | loadRequests {n : Nat} : Loading .nothing .loadRequests n (.requests n)
  | loadErrors {n k : Nat} : Loading (.requests n) .loadErrors k (.both n k)

/-- A response reports what was loaded for it. -/
def Reports (φ : Loads) (a : Response) : Prop :=
  φ.halfway = false ∧ a.body.counters = φ.counters

theorem mux_loads (route : Request → Route) (r : Request) :
    (mux route r).Follows Loading Reports .nothing := by
  unfold mux
  cases route r with
  | metrics => exact fun n => ⟨_, .loadRequests, fun k => ⟨_, .loadErrors, rfl, rfl⟩⟩
  | metricsRequests =>
    exact fun _ => ⟨_, .quiet rfl rfl, fun n => ⟨_, .loadRequests, fun k => ⟨_, .loadErrors,
      rfl, rfl⟩⟩⟩
  | other => exact fun _ => ⟨_, .quiet rfl rfl, rfl, rfl⟩

theorem metricsMiddleware_loads (millis : Int → Decimal) (route : Request → Route) (r : Request) :
    (metricsMiddleware millis (mux route) r).Follows Loading Reports .nothing := by
  unfold metricsMiddleware
  split
  · exact mux_loads route r
  · refine fun _ => ⟨_, .quiet rfl rfl, fun _ => ⟨_, .quiet rfl rfl, (mux_loads route r).bind ?_⟩⟩
    intro φ response hφ
    have quiet {e : Effect} {a : e.Answer} (he : e.loadsCounter = false) : Loading φ e a φ :=
      .quiet hφ.1 he
    split
    · exact fun _ => ⟨φ, quiet rfl, fun _ => ⟨φ, quiet rfl, fun _ => ⟨φ, quiet rfl, fun _ =>
        ⟨φ, quiet rfl, hφ⟩⟩⟩⟩
    · exact fun _ => ⟨φ, quiet rfl, fun _ => ⟨φ, quiet rfl, fun _ => ⟨φ, quiet rfl, hφ⟩⟩⟩

theorem serve_loads (millis : Int → Decimal) (route : Request → Route) (r : Request) :
    (serve millis route r).Follows Loading Reports .nothing := by
  unfold serve corsMiddleware
  split
  · exact ⟨rfl, rfl⟩
  · refine fun _ => ⟨_, .quiet rfl rfl, (metricsMiddleware_loads millis route r).bind ?_⟩
    exact fun φ response hφ _ => ⟨φ, .quiet hφ.1 rfl, hφ⟩

/-! ## 2. The effects of a run -/

section

variable {h : List (Nat × Effect)} {e e' : Effect} {i j m : Nat}

theorem performers_snoc :
    performers e (h ++ [(i, e')]) = performers e h ++ if e' = e then [i] else [] := by
  unfold performers
  rw [List.filter_append, List.map_append]
  by_cases he : e' = e <;> simp [he]

theorem performers_snoc_ne (he : e' ≠ e) : performers e (h ++ [(i, e')]) = performers e h := by
  rw [performers_snoc, if_neg he, List.append_nil]

theorem performers_snoc_self : performers e (h ++ [(i, e)]) = performers e h ++ [i] := by
  rw [performers_snoc, if_pos rfl]

theorem mem_performers : i ∈ performers e h ↔ (i, e) ∈ h := by
  unfold performers
  simp [and_comm]

theorem InTime.earlier {x : Nat × Effect} (hin : InTime (h ++ [x])) : InTime h := by
  intro k hk m hm herrors hloads
  have hk' := hin k (by rw [List.length_append]; omega) m hm
  simp only [List.getElem_append_left hk, List.getElem_append_left (hm.trans hk),
    List.take_append_of_le_length hk.le, List.take_append_of_le_length (hm.trans hk).le] at hk'
  exact hk' herrors hloads

/-- The error that is counted last. -/
theorem InTime.last (hin : InTime (h ++ [(j, .addErrors)])) (hm : h[m]? = some (i, .loadRequests))
    (hopen : (i, .loadErrors) ∉ h.drop m) : j ∈ performers .addRequests (h.take m) := by
  obtain ⟨hlt, hget⟩ := List.getElem?_eq_some_iff.mp hm
  have hlast := hin h.length (by simp) m hlt
  simp only [List.getElem_append_left hlt, hget, List.getElem_concat_length, List.take_left,
    List.take_append_of_le_length hlt.le] at hlast
  exact mem_performers.mpr ((hlast trivial trivial).resolve_left hopen)

end

/-- The counters are the numbers of effects, and no error is counted twice, or of a request
that is not counted. -/
structure Counters (m : MetricsHandler) (h : List (Nat × Effect)) : Prop where
  requests : m.requestsTotal = (performers .addRequests h).length
  errors : m.errorsTotal = (performers .addErrors h).length
  once : (performers .addErrors h).Nodup
  subset : performers .addErrors h ⊆ performers .addRequests h

namespace Counters

variable {m m' : MetricsHandler} {h : List (Nat × Effect)} {e : Effect} {i : Nat}

theorem addRequest (hc : Counters m h) :
    Counters m.incrementRequests (h ++ [(i, .addRequests)]) where
  requests := by
    rw [performers_snoc_self, List.length_append, ← hc.requests]
    rfl
  errors := by
    rw [performers_snoc_ne (by decide)]
    exact hc.errors
  once := by
    rw [performers_snoc_ne (by decide)]
    exact hc.once
  subset := by
    rw [performers_snoc_ne (by decide), performers_snoc_self]
    exact List.Subset.trans hc.subset (List.subset_append_left _ _)

theorem addError (hc : Counters m h) (hcounted : (i, .addRequests) ∈ h)
    (hnew : (i, .addErrors) ∉ h) : Counters m.incrementErrors (h ++ [(i, .addErrors)]) where
  requests := by
    rw [performers_snoc_ne (by decide)]
    exact hc.requests
  errors := by
    rw [performers_snoc_self, List.length_append, ← hc.errors]
    rfl
  once := by
    rw [performers_snoc_self]
    exact List.Nodup.append hc.once (List.nodup_singleton i)
      (List.disjoint_singleton.mpr fun hmem => hnew (mem_performers.mp hmem))
  subset := by
    rw [performers_snoc_self, performers_snoc_ne (by decide)]
    exact List.append_subset.mpr ⟨hc.subset,
      List.cons_subset.mpr ⟨mem_performers.mpr hcounted, List.nil_subset _⟩⟩

theorem other (hc : Counters m h) (hrequests : e ≠ .addRequests) (herrors : e ≠ .addErrors)
    (hm : m'.requestsTotal = m.requestsTotal ∧ m'.errorsTotal = m.errorsTotal) :
    Counters m' (h ++ [(i, e)]) where
  requests := by
    rw [performers_snoc_ne hrequests, hm.1]
    exact hc.requests
  errors := by
    rw [performers_snoc_ne herrors, hm.2]
    exact hc.errors
  once := by
    rw [performers_snoc_ne herrors]
    exact hc.once
  subset := by
    rw [performers_snoc_ne herrors, performers_snoc_ne hrequests]
    exact hc.subset

/-- Fewer errors than requests are counted, among any counted requests with all errors. -/
theorem errors_le (hc : Counters m h) {counted : List Nat}
    (hsub : performers .addErrors h ⊆ counted) : m.errorsTotal ≤ counted.length :=
  hc.errors ▸ (List.Nodup.subperm hc.once hsub).length_le

end Counters

/-- The phase of a request says what has been counted of it. -/
structure Counted (h : List (Nat × Effect)) (i : Nat) (φ : Phase) : Prop where
  request : φ.isCounted = true → (i, .addRequests) ∈ h
  error : (i, .addErrors) ∈ h → φ.isFailed = true

theorem Counted.other {h : List (Nat × Effect)} {i j : Nat} {φ : Phase} {e : Effect}
    (hc : Counted h i φ) (hij : i ≠ j) : Counted (h ++ [(j, e)]) i φ := by
  refine ⟨fun hφ => List.mem_append_left _ (hc.request hφ), fun hmem => hc.error ?_⟩
  refine (List.mem_append.mp hmem).resolve_right fun hlast => hij ?_
  exact congrArg Prod.fst (List.mem_singleton.mp hlast)

/-- One effect of a request. -/
theorem Counted.effect {m m' : MetricsHandler} {h : List (Nat × Effect)} {i : Nat} {e : Effect}
    {x : Input} {r : e.Answer} {φ φ' : Phase} (hm : Counters m h) (hc : Counted h i φ)
    (hs : handle e x m = some (r, m')) (hnext : Counting φ e r φ') :
    Counters m' (h ++ [(i, e)]) ∧ Counted (h ++ [(i, e)]) i φ' := by
  have hold {e' : Effect} (hmem : (i, .addErrors) ∈ h ++ [(i, e')]) (he : e' ≠ .addErrors) :
      φ.isFailed = true := by
    refine hc.error ((List.mem_append.mp hmem).resolve_right fun hlast => he ?_)
    exact (congrArg Prod.snd (List.mem_singleton.mp hlast)).symm
  cases hnext with
  | read he =>
    cases handle_reads he hs
    have hrequests : e ≠ .addRequests := fun heq => by cases heq ▸ he
    have herrors : e ≠ .addErrors := fun heq => by cases heq ▸ he
    exact ⟨hm.other hrequests herrors ⟨rfl, rfl⟩,
      fun hφ => List.mem_append_left _ (hc.request hφ), fun hmem => hold hmem herrors⟩
  | count =>
    cases hs
    exact ⟨hm.addRequest, fun _ => List.mem_append_right _ List.mem_cons_self,
      fun hmem => hold hmem (by decide)⟩
  | fail =>
    cases hs
    have hcounted := hc.request rfl
    have hnew : (i, .addErrors) ∉ h := fun hmem => by cases hc.error hmem
    exact ⟨hm.addError hcounted hnew, fun _ => List.mem_append_left _ hcounted,
      fun _ => rfl⟩
  | push herr =>
    cases hs
    exact ⟨hm.other (by simp) (by simp) ⟨rfl, rfl⟩,
      fun _ => List.mem_append_left _ (hc.request rfl), fun hmem => by cases hold hmem (by simp)⟩
  | pushError herr =>
    cases hs
    exact ⟨hm.other (by simp) (by simp) ⟨rfl, rfl⟩,
      fun _ => List.mem_append_left _ (hc.request rfl), fun _ => herr⟩

variable {millis : Int → Decimal} {route : Request → Route} {as : List Action} {s : State}

/-- The effects of a run, with the requests that perform them. -/
abbrev effects (millis : Int → Decimal) (route : Request → Route) (as : List Action) :
    List (Nat × Effect) :=
  (server millis route).effects newMetricsHandler as

/-- What the effects of a run say of the counters and of the phases of all requests. -/
structure Recorded (m : MetricsHandler) (h : List (Nat × Effect))
    (ts : List (Thread Request Effect.Answer Response × Phase)) : Prop where
  counters : Counters m h
  spawned : ∀ x ∈ h, x.1 < ts.length
  phases : ∀ i t, ts[i]? = some t → Counted h i t.2

theorem recorded_reaches (h : Reaches millis route as s) :
    ∃ ts, s.threads = ts.map Prod.fst ∧ System.Following Counting Traced ts ∧
      Recorded s.shared (effects millis route as) ts := by
  refine System.protocol_run (P := fun as m ts => Recorded m (effects millis route as) ts)
    (serve_follows millis route)
    ⟨⟨rfl, rfl, List.nodup_nil, List.Subset.refl _⟩, by rintro x ⟨⟩, by simp⟩ ?_ h
  rintro as m ts a m' ts' hreach ⟨hm, hspawned, hc⟩ - ht
  cases ht with
  | spawn r hs =>
    cases hs
    rw [effects, System.effects_spawn hreach]
    refine ⟨hm, fun x hx => (hspawned x hx).trans_le (by simp), fun i t hi => ?_⟩
    rcases getElem?_snoc hi with ⟨rfl, rfl⟩ | hi
    · refine ⟨fun (hφ : (Phase.first r).isCounted = true) => ?_,
        fun hmem => absurd (hspawned _ hmem) (Nat.lt_irrefl _)⟩
      unfold Phase.first at hφ
      split at hφ <;> cases hφ
    · exact hc i t hi
  | @run _ e r φ φ' before after q k x hs hnext =>
    rw [effects, System.effects_run hreach]
    have hself : Counted _ before.length φ := hc before.length (⟨q, .op e k⟩, φ) (by simp)
    obtain ⟨hm', hself'⟩ := hself.effect hm hs hnext
    refine ⟨hm', forall_snoc (by simpa using hspawned) (by simp), fun i t hi => ?_⟩
    rcases getElem?_replace (c := (⟨q, .op e k⟩, φ)) hi with ⟨rfl, rfl⟩ | ⟨hne, hi⟩
    · exact hself'
    · exact (hc i t hi).other hne

theorem counters_reaches (h : Reaches millis route as s) :
    Counters s.shared (effects millis route as) := by
  obtain ⟨ts, -, -, hrecorded⟩ := recorded_reaches h
  exact hrecorded.counters

/-- At every moment, a request whose error is counted is counted. -/
theorem errors_le_requests (h : Reaches millis route as s) :
    s.shared.errorsTotal ≤ s.shared.requestsTotal := by
  have hc := counters_reaches h
  rw [hc.requests]
  exact hc.errors_le hc.subset

/-! ## 3. All interleavings -/

/-- What a request has loaded. Between its loads, all errors are of requests that were counted
before the first one. -/
def LoadsBounded (h : List (Nat × Effect)) (i : Nat) : Loads → Prop
  | .nothing => True
  | .requests n => ∃ m, h[m]? = some (i, .loadRequests) ∧ (i, .loadErrors) ∉ h.drop m ∧
      n = (performers .addRequests (h.take m)).length ∧
      performers .addErrors h ⊆ performers .addRequests (h.take m)
  | .both n k => k ≤ n

/-- An effect of another request. -/
theorem LoadsBounded.other {h : List (Nat × Effect)} {i j : Nat} {e : Effect} {φ : Loads}
    (hin : InTime (h ++ [(j, e)])) (hij : i ≠ j) (hφ : LoadsBounded h i φ) :
    LoadsBounded (h ++ [(j, e)]) i φ := by
  cases φ with
  | nothing => trivial
  | both n k => exact hφ
  | requests n =>
    obtain ⟨m, hm, hopen, hn, hsub⟩ := hφ
    have hlt : m < h.length := (List.getElem?_eq_some_iff.mp hm).1
    refine ⟨m, by rwa [List.getElem?_append_left hlt], ?_, ?_, ?_⟩
    · rw [List.drop_append_of_le_length hlt.le, List.mem_append]
      rintro (hmem | hmem)
      · exact hopen hmem
      · exact hij (congrArg Prod.fst (List.mem_singleton.mp hmem))
    · rw [List.take_append_of_le_length hlt.le]
      exact hn
    · rw [List.take_append_of_le_length hlt.le]
      by_cases he : e = .addErrors
      · subst he
        rw [performers_snoc_self]
        exact List.append_subset.mpr ⟨hsub,
          List.cons_subset.mpr ⟨hin.last hm hopen, List.nil_subset _⟩⟩
      · rw [performers_snoc_ne he]
        exact hsub

/-- An effect of the request itself. -/
theorem LoadsBounded.effect {m m' : MetricsHandler} {h : List (Nat × Effect)} {i : Nat}
    {e : Effect} {x : Input} {r : e.Answer} {φ φ' : Loads} (hc : Counters m h)
    (hφ : LoadsBounded h i φ) (hs : handle e x m = some (r, m')) (hnext : Loading φ e r φ') :
    LoadsBounded (h ++ [(i, e)]) i φ' := by
  cases hnext with
  | quiet hquiet =>
    cases φ with
    | nothing => trivial
    | requests n => cases hquiet
    | both n k => exact hφ
  | loadRequests =>
    cases hs
    refine ⟨h.length, List.getElem?_concat_length, ?_, ?_, ?_⟩
    · rw [List.drop_left]
      simp
    · rw [List.take_left]
      exact hc.requests
    · rw [List.take_left, performers_snoc_ne (by decide)]
      exact hc.subset
  | loadErrors =>
    cases hs
    obtain ⟨_, -, -, rfl, hsub⟩ := hφ
    exact hc.errors_le hsub

/-- In every run whose errors are counted in time, what a request has loaded bounds the
errors. -/
theorem loadsBounded_reaches (h : Reaches millis route as s) :
    ∃ ts, s.threads = ts.map Prod.fst ∧ System.Following Loading (fun _ => Reports) ts ∧
      (InTime (effects millis route as) →
        ∀ i t, ts[i]? = some t → LoadsBounded (effects millis route as) i t.2) := by
  refine System.protocol_run (P := fun as _ ts => InTime (effects millis route as) →
    ∀ i t, ts[i]? = some t → LoadsBounded (effects millis route as) i t.2)
    (serve_loads millis route) (by simp) ?_ h
  rintro as m ts a m' ts' hreach hprev - ht
  cases ht with
  | spawn r hs =>
    rw [effects, System.effects_spawn hreach]
    intro hin i t hi
    rcases getElem?_snoc hi with ⟨-, rfl⟩ | hi
    · trivial
    · exact hprev hin i t hi
  | @run _ e r φ φ' before after q k x hs hnext =>
    rw [effects, System.effects_run hreach]
    intro hin i t hi
    have hbefore := hprev hin.earlier
    rcases getElem?_replace (c := (⟨q, .op e k⟩, φ)) hi with ⟨rfl, rfl⟩ | ⟨hne, hi⟩
    · exact LoadsBounded.effect (counters_reaches hreach)
        (hbefore before.length (⟨q, .op e k⟩, φ) (by simp)) hs hnext
    · exact (hbefore i t hi).other hin hne

/-- In every run in which only errors of requests counted before a response are counted between
its two loads, no response has more errors than requests. The condition is on the schedule, the
order in which the requests perform their effects: without it, `overtaken_reports`. -/
theorem reports_bounded (millis : Int → Decimal) (route : Request → Route) (as : List Action)
    (s : State) (hin : InTime (effects millis route as)) (h : Reaches millis route as s) :
    ReportsBounded s := by
  obtain ⟨ts, hthreads, hf, hbounded⟩ := loadsBounded_reaches h
  intro t ht a n k hret hcounters
  rw [hthreads] at ht
  obtain ⟨⟨⟨q, prog⟩, φ⟩, hmem, rfl⟩ := List.mem_map.mp ht
  obtain ⟨i, hi⟩ := List.mem_iff_getElem?.mp hmem
  cases prog with
  | op e k' => cases hret
  | pure a' =>
    obtain rfl : a' = a := Option.some.inj hret
    have hreports : Reports φ a' := hf _ hmem
    have hφ := hbounded hin i _ hi
    rw [hreports.2] at hcounters
    cases φ with
    | nothing | requests n => cases hcounters
    | both n' k'' =>
      cases hcounters
      exact hφ

/-! ## An error between the loads -/

/-- The routes of two paths. -/
def byPath (r : Request) : Route := if r.path = "/metrics" then .metrics else .other

/-- Two requests have come; `GET /metrics` loads the requests; then one of the two fails, and
the errors are loaded. -/
def inTime : List Action :=
  [.spawn ⟨"GET", "/devices", none⟩, .run 0 ⟨0, 200⟩, .run 0 ⟨0, 200⟩, .run 0 ⟨0, 200⟩,
    .spawn ⟨"GET", "/devices", none⟩, .run 1 ⟨0, 200⟩, .run 1 ⟨0, 200⟩, .run 1 ⟨0, 200⟩,
    .spawn ⟨"GET", "/metrics", none⟩, .run 2 ⟨0, 200⟩, .run 2 ⟨0, 200⟩,
    .run 1 ⟨0, 500⟩, .run 1 ⟨0, 200⟩, .run 2 ⟨0, 200⟩, .run 2 ⟨0, 200⟩]

/-- The response reports two requests and one error, which was counted between its loads. -/
theorem reports_bounded_inTime : ∃ s, Reaches (fun _ => ⟨false, 0, 0⟩) byPath inTime s ∧
    (s.threads[2]?.bind Thread.returned?) = some ⟨200, .counts 2 1⟩ ∧ ReportsBounded s := by
  have hin : InTime (effects (fun _ => ⟨false, 0, 0⟩) byPath inTime) := by decide
  obtain ⟨s, hs, hret⟩ : ∃ s, Reaches (fun _ => ⟨false, 0, 0⟩) byPath inTime s ∧
      (s.threads[2]?.bind Thread.returned?) = some ⟨200, .counts 2 1⟩ := ⟨_, rfl, rfl⟩
  exact ⟨s, hs, hret, reports_bounded _ _ _ s hin hs⟩

/-- `GET /metrics` loads the requests; then a request comes and fails; then the errors are
loaded. -/
def overtaken : List Action :=
  [.spawn ⟨"GET", "/metrics", none⟩, .run 0 ⟨0, 200⟩, .run 0 ⟨0, 200⟩,
    .spawn ⟨"GET", "/devices", none⟩, .run 1 ⟨0, 200⟩, .run 1 ⟨0, 200⟩, .run 1 ⟨0, 200⟩,
    .run 1 ⟨0, 500⟩, .run 1 ⟨0, 200⟩, .run 0 ⟨0, 200⟩, .run 0 ⟨0, 200⟩]

/-- The response reports no request and one error. -/
theorem overtaken_reports : ∃ s, Reaches (fun _ => ⟨false, 0, 0⟩) byPath overtaken s ∧
    (s.threads[0]?.bind Thread.returned?) = some ⟨200, .counts 0 1⟩ ∧ ¬ ReportsBounded s := by
  obtain ⟨s, hs, hret⟩ : ∃ s, Reaches (fun _ => ⟨false, 0, 0⟩) byPath overtaken s ∧
      (s.threads[0]?.bind Thread.returned?) = some ⟨200, .counts 0 1⟩ := ⟨_, rfl, rfl⟩
  refine ⟨s, hs, hret, fun hbounded => ?_⟩
  obtain ⟨t, ht, hreturned⟩ := Option.bind_eq_some_iff.mp hret
  exact absurd (hbounded t (List.mem_of_getElem? ht) _ 0 1 hreturned rfl) (by decide)

end AssetTracker.GoMetrics
