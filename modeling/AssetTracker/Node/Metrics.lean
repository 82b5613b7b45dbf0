import AssetTracker.Lib.Scan
import AssetTracker.Lib.Time
import AssetTracker.Metrics
import AssetTracker.Node.Event

/-!
# Metrics (Node service)

`MetricsHandler` of the Node service. JavaScript runs one callback at a time, so
a method is a function of the handler's fields.

`getTraces_eq`: the loop of `getTraces` stays in bounds and reads the newest
traces first. `handleRequests_ok`: what `/metrics/requests` answers.
-/

namespace AssetTracker.NodeServer

open Encoding Metrics NodeService

/-! ## URLs -/

/-- What the service reads of a URL: its path, and its query parameters in order. -/
structure Url where
  pathname : String
  searchParams : List (String × String)

def Url.get (url : Url) (name : String) : Option String := url.searchParams.lookup name

/-- `new URL(target, 'http://localhost')`; `none` when it throws. -/
abbrev UrlParser := String → Option Url

/-- The same as a call that may throw. -/
def newUrl (parser : UrlParser) (target : String) : Except JsError Url :=
  match parser target with
  | some url => .ok url
  | none => .error (.typeError "Invalid URL")

/-! ## `MetricsHandler` -/

structure MetricsHandler where
  requests : Nat
  errors : Nat
  traces : List RequestTrace

def newMetricsHandler : MetricsHandler := ⟨0, 0, []⟩

namespace MetricsHandler

def pushTrace (m : MetricsHandler) (trace : RequestTrace) : MetricsHandler :=
  { m with traces := m.traces ++ [trace] }

/-- `getTraces`; `none` if an index were out of bounds. -/
def getTraces (m : MetricsHandler) (limit : Int) : Option (List RequestTrace) :=
  let n : Int := m.traces.length
  if n = 0 then some []
  else
    let clamped := max 1 (min limit n)
    (List.range clamped.toNat).mapM fun (i : Nat) => elementAt m.traces (n - 1 - i)

def incrementRequest (m : MetricsHandler) : MetricsHandler := { m with requests := m.requests + 1 }

def incrementError (m : MetricsHandler) : MetricsHandler := { m with errors := m.errors + 1 }

end MetricsHandler

/-- The limit that a value of the parameter stands for. -/
def limitOf (raw : Option String) : Int :=
  let limit :=
    match raw with
    | some raw => parseInt raw
    | none => some 50
  match limit with
  | none => 1
  | some limit => if limit < 1 then 1 else min limit 10000

/-- `_parseLimit`. -/
def parseLimit (parser : UrlParser) (urlStr : String) : Except JsError Int := do
  let url ← newUrl parser urlStr
  return limitOf (url.get "limit")

/-- The body that `handleRequests` answers. -/
def handleRequests (parser : UrlParser) (url : String) (m : MetricsHandler) :
    Except JsError Detail := do
  let limit ← parseLimit parser url
  let traces := (m.getTraces limit).getD []
  return ⟨m.requests, m.errors, traces⟩

/-- The clamped limit takes what the limit takes, and one element at least. -/
theorem take_clamped {α : Type} (xs : List α) (limit : Int) :
    xs.take (max 1 (min limit xs.length)).toNat = xs.take (max 1 limit).toNat := by
  by_cases hlimit : limit ≤ xs.length
  · rw [Int.min_eq_left hlimit]
  · -- both take the whole list
    rw [List.take_of_length_le (by omega), List.take_of_length_le (by omega)]

/-- The indices of the loop are in bounds, and they read the list from its end. -/
theorem getTraces_eq (m : MetricsHandler) (limit : Int) :
    m.getTraces limit = some (m.traces.reverse.take (max 1 limit).toNat) := by
  unfold MetricsHandler.getTraces
  dsimp only
  split
  · next hn =>
    have hnil : m.traces = [] := List.eq_nil_of_length_eq_zero (by omega)
    simp [hnil]
  · rw [mapM_backwards (by omega), ← List.length_reverse, take_clamped]

/-- What `handleRequests` answers when the target is a URL. -/
def detailFor (url : Url) (m : MetricsHandler) : Detail :=
  ⟨m.requests, m.errors, m.traces.reverse.take (max 1 (limitOf (url.get "limit"))).toNat⟩

theorem handleRequests_ok {parser : UrlParser} {target : String} {url : Url}
    (h : parser target = some url) (m : MetricsHandler) :
    handleRequests parser target m = .ok (detailFor url m) := by
  rw [handleRequests, parseLimit, newUrl, h, detailFor]
  dsimp only [bind, Except.bind, pure, Except.pure]
  rw [getTraces_eq, Option.getD_some]

end AssetTracker.NodeServer
