import AssetTracker.Lib.Json

/-!
# Metrics

What both services keep about their requests and answer under `/metrics` and
`/metrics/requests`: a counter of requests, a counter of errors, and a list of
traces. Probes of health and of the metrics themselves are not counted.

`Consistent` is what the counters and the traces are to each other while
requests are in flight.
-/

namespace AssetTracker.Metrics

open Encoding

/-- `RequestTrace`, an entry of the list of traces. -/
structure RequestTrace where
  method : String
  path : String
  status : Nat
  durationMs : Decimal
  timestamp : String
deriving DecidableEq, Repr

/-- A request that has been answered. -/
structure Completed where
  method : String
  path : String
  status : Nat
deriving DecidableEq, Repr

def RequestTrace.completed (t : RequestTrace) : Completed := ⟨t.method, t.path, t.status⟩

/-- The body of `GET /metrics/requests`. -/
structure Detail where
  requestsTotal : Nat
  errorsTotal : Nat
  recent : List RequestTrace
deriving DecidableEq, Repr

def RequestTrace.isError (t : RequestTrace) : Bool := 400 ≤ t.status

def errorTraces (traces : List RequestTrace) : Nat := traces.countP RequestTrace.isError

/-- `s.startsWith(start)`. -/
def startsWith (s start : String) : Bool := start.toList.isPrefixOf s.toList

/-- Health and metrics endpoints: infrastructure noise, not business traffic. -/
def isInfraPath (path : String) : Bool := startsWith path "/health" || startsWith path "/metrics"

/-- Element `i` of a list; `none` out of bounds, on either side. -/
def elementAt {α : Type} (xs : List α) (i : Int) : Option α := if i < 0 then none else xs[i.toNat]?

/-- No more in a response than its own counters say. -/
structure Detail.Bounded (d : Detail) : Prop where
  requests : d.recent.length ≤ d.requestsTotal
  errors : errorTraces d.recent ≤ d.errorsTotal

/-- The counters and the traces agree up to the requests in flight, in every response so
far the traces were within the counters, and when no request is in flight there is one trace
for each request completed. -/
structure Consistent (requests errors : Nat) (traces : List RequestTrace) (inFlight : Nat)
    (completed : List Completed) (responses : List Detail) : Prop where
  traces_le : traces.length ≤ requests
  errorTraces_le : errorTraces traces ≤ errors
  errors_le : errors ≤ errorTraces traces + inFlight
  bounded : ∀ d ∈ responses, d.Bounded
  requests_eq : inFlight = 0 → requests = traces.length
  errors_eq : inFlight = 0 → errors = errorTraces traces
  one_trace : inFlight = 0 → (traces.map RequestTrace.completed).Perm completed

/-! ## Newest first -/

/-- Reading from the last element backwards reads the reversed list. -/
theorem elementAt_backwards {α : Type} {xs : List α} {i : Nat} (h : i < xs.length) :
    elementAt xs ((xs.length : Int) - 1 - i) = xs.reverse[i]? := by
  have hnat : ((xs.length : Int) - 1 - i).toNat = xs.length - 1 - i := by omega
  rw [elementAt, if_neg (by omega), hnat, List.getElem?_reverse h]

theorem mapM_backwards {α : Type} {xs : List α} {m : Nat} (h : m ≤ xs.length) :
    ((List.range m).mapM fun (i : Nat) => elementAt xs ((xs.length : Int) - 1 - i)) =
      some (xs.reverse.take m) := by
  induction m with
  | zero => rfl
  | succ m ih =>
    rw [List.range_succ, List.mapM_append, ih (by omega), List.mapM_cons, List.mapM_nil,
      elementAt_backwards (by omega), List.getElem?_eq_getElem (by simpa using by omega),
      List.take_add_one, List.getElem?_eq_getElem (by simpa using by omega)]
    rfl

/-- What is counted on the left is counted on the right, once or twice. -/
theorem countP_le_add {α : Type} {p q r : α → Bool} {xs : List α}
    (h : ∀ x ∈ xs, p x = true → q x = true ∨ r x = true) :
    xs.countP p ≤ xs.countP q + xs.countP r := by
  induction xs with
  | nil => rfl
  | cons x xs ih =>
    have hx := h x List.mem_cons_self
    have hxs := ih fun y hy => h y (List.mem_cons_of_mem x hy)
    have hone : (if p x then 1 else 0) ≤ (if q x then 1 else 0) + (if r x then 1 else 0) := by
      split
      · next hp => obtain hq | hr := hx hp <;> simp [*]
      · exact Nat.zero_le _
    simp only [List.countP_cons]
    omega

theorem errorTraces_take_reverse (traces : List RequestTrace) (m : Nat) :
    errorTraces (traces.reverse.take m) ≤ errorTraces traces := by
  calc errorTraces (traces.reverse.take m)
      ≤ errorTraces traces.reverse := (List.take_sublist m _).countP_le
    _ = errorTraces traces := List.countP_reverse

end AssetTracker.Metrics
