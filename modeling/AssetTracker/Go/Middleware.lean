import AssetTracker.Lib.Machine
import AssetTracker.Metrics

/-!
# The status of a response (Go service)

The chain of `main` around a handler: `CORSMiddleware`, `LoggingMiddleware` and
`MetricsMiddleware` of `internal/interfaces`. The last two hand the handler a
`responseWriter` of their own, which keeps the code of each `WriteHeader` and does
not look at `Write`. What the client receives is decided by net/http.

A handler that has returned is the list of its calls. `http.ResponseWriter` is an
interface, so it is a record of operations over a state; wrapping adds to the state.

Results:
1. `run_responseWriter`: a wrapper changes nothing below it, and has the last code.
2. `run_netHttp`: the status that net/http sends.
3. `recorded_iff`: when the log line, the trace and the counter of errors have it.
-/

namespace AssetTracker.GoMiddleware

open Metrics

/-! ## `http.ResponseWriter` -/

/-- A call of a handler on its `ResponseWriter`. -/
inductive Call where
  | writeHeader (code : Int)
  | write (data : ByteArray)

/-- The methods of `http.ResponseWriter`, but for `Header`; `none` is a panic. -/
structure ResponseWriter (σ : Type) where
  writeHeader : Int → σ → Option σ
  write : ByteArray → σ → Option σ

def ResponseWriter.step {σ : Type} (w : ResponseWriter σ) (s : σ) : Call → Option σ
  | .writeHeader code => w.writeHeader code s
  | .write data => w.write data s

/-- A status that net/http sends ahead of the response. 101 ends the exchange. -/
def informational (code : Int) : Bool := 100 ≤ code && code ≤ 199 && code != 101

/-- The response of net/http: its status, once the header is written. -/
structure Response where
  status : Option Int
deriving DecidableEq, Repr

/-- The `ResponseWriter` of net/http. A superfluous `WriteHeader` is logged and ignored; a
code that has not three digits is a panic. -/
def netHttp : ResponseWriter Response where
  writeHeader code r :=
    match r.status with
    | some _ => some r
    | none =>
      if code < 100 ∨ 999 < code then none
      else if informational code then some r
      else some ⟨some code⟩
  write _ r :=
    match r.status with
    | some _ => some r
    | none => some ⟨some 200⟩

/-- The status that the client receives, after the handler has returned. -/
def Response.sent (r : Response) : Int := r.status.getD 200

/-! ## Middleware -/

/-- The struct `responseWriter`. -/
structure Recorder (σ : Type) where
  inner : σ
  statusCode : Int

def responseWriter {σ : Type} (w : ResponseWriter σ) : ResponseWriter (Recorder σ) where
  writeHeader code rw := (w.writeHeader code rw.inner).map fun inner => ⟨inner, code⟩
  write data rw := (w.write data rw.inner).map fun inner => { rw with inner := inner }

structure Request where
  method : String
  path : String
deriving DecidableEq, Repr

/-- What the middleware leaves of a request: the status in the log line, the one in the
trace, and what is added to the counter of errors. -/
structure Report where
  logged : Option Int
  traced : Option Int
  errors : Nat
deriving DecidableEq, Repr

/-- A handler works on any writer. -/
abbrev Handler := Request → {σ : Type} → ResponseWriter σ → σ → Option (σ × Report)

/-- A handler by its calls. -/
def handler (calls : Request → List Call) : Handler := fun r _ w s =>
  (Machine.run w.step s (calls r)).map fun s' => (s', ⟨none, none, 0⟩)

def metricsMiddleware (next : Handler) : Handler := fun r σ w s =>
  if isInfraPath r.path then next r w s
  else do
    let (rw, report) ← next r (responseWriter w) (⟨s, 200⟩ : Recorder σ)
    return (rw.inner, { report with
      traced := some rw.statusCode
      errors := report.errors + if rw.statusCode ≥ 400 then 1 else 0 })

def loggingMiddleware (next : Handler) : Handler := fun r σ w s => do
  let (rw, report) ← next r (responseWriter w) (⟨s, 200⟩ : Recorder σ)
  return (rw.inner, { report with logged := some rw.statusCode })

def corsMiddleware (next : Handler) : Handler := fun r _ w s =>
  if r.method = "OPTIONS" then (w.writeHeader 204 s).map fun s' => (s', ⟨none, none, 0⟩)
  else next r w s

/-- A request that the chain of `main` has served: the status sent, and the report. -/
def serve (calls : Request → List Call) (r : Request) : Option (Int × Report) :=
  (corsMiddleware (loggingMiddleware (metricsMiddleware (handler calls))) r netHttp ⟨none⟩).map
    fun (response, report) => (response.sent, report)

/-- Whatever was recorded is the status that was sent. -/
structure Truthful (sent : Int) (report : Report) : Prop where
  logged : ∀ status ∈ report.logged, status = sent
  traced : ∀ status ∈ report.traced, status = sent
  errors : report.traced.isSome = true → report.errors = if sent ≥ 400 then 1 else 0

/-! ## Handlers -/

/-- The codes of the calls of `WriteHeader`. -/
def codes (calls : List Call) : List Int :=
  calls.filterMap fun
    | .writeHeader code => some code
    | .write _ => none

/-- Once the status is settled, by the first final code or the first `Write`, the handler calls
`WriteHeader` no more, or its last code is the settled one again. Only in the latter case may
a `Write`, or the return, settle the status after the client was `informed` of another one. -/
def Steady : Bool → List Call → Prop
  | informed, [] => informed = false
  | informed, .write _ :: later =>
    match (codes later).getLast? with
    | none => informed = false
    | some last => last = 200
  | _, .writeHeader code :: later =>
    if informational code then Steady true later
    else ∀ last ∈ (codes later).getLast?, last = code

/-- What `writeJSON`, `HandleDelete` and the answers of the mux do with a writer. -/
def written (status : Int) (chunks : List ByteArray) : List Call :=
  .writeHeader status :: chunks.map .write

theorem written_steady {status : Int} (h : informational status = false)
    (chunks : List ByteArray) : Steady false (written status chunks) := by
  have hcodes : codes (chunks.map .write) = [] := by
    induction chunks with
    | nil => rfl
    | cons _ _ ih => exact ih
  rw [written, Steady, h, hcodes]
  nofun

/-! ## 1. Wrappers -/

/-- The code that a wrapper has in the end. -/
def lastCode (code : Int) (calls : List Call) : Int := (codes calls).getLast?.getD code

theorem lastCode_writeHeader (code code' : Int) (calls : List Call) :
    lastCode code (.writeHeader code' :: calls) = lastCode code' calls := by
  show (code' :: codes calls).getLast?.getD code = _
  rw [List.getLast?_cons, Option.getD_some, lastCode]

/-- A wrapper passes every call on, and has the last code. -/
theorem run_responseWriter {σ : Type} (w : ResponseWriter σ) (calls : List Call) (s : σ)
    (code : Int) : Machine.run (responseWriter w).step ⟨s, code⟩ calls =
      (Machine.run w.step s calls).map fun s' => ⟨s', lastCode code calls⟩ := by
  induction calls generalizing s code with
  | nil => rfl
  | cons call calls ih =>
    rw [Machine.run, Machine.run]
    cases call with
    | writeHeader code' =>
      rw [lastCode_writeHeader]
      show ((w.writeHeader code' s).map _).bind _ = ((w.writeHeader code' s).bind _).map _
      cases w.writeHeader code' s with
      | none => rfl
      | some s' => exact ih s' code'
    | write data =>
      show ((w.write data s).map _).bind _ = ((w.write data s).bind _).map _
      cases w.write data s with
      | none => rfl
      | some s' => exact ih s' code

/-! ## 2. net/http -/

/-- The first final code before any `Write`, or 200. -/
def firstFinal : List Call → Int
  | [] => 200
  | .write _ :: _ => 200
  | .writeHeader code :: later => if informational code then firstFinal later else code

/-- A status that is settled stays. -/
theorem run_settled (status : Int) (calls : List Call) :
    Machine.run netHttp.step ⟨some status⟩ calls = some ⟨some status⟩ := by
  induction calls with
  | nil => rfl
  | cons call calls ih =>
    cases call <;> exact ih

/-- What net/http sends when the handler returns. -/
theorem run_netHttp {calls : List Call} {response : Response}
    (h : Machine.run netHttp.step ⟨none⟩ calls = some response) :
    response.sent = firstFinal calls := by
  induction calls with
  | nil =>
    cases h
    rfl
  | cons call calls ih =>
    cases call with
    | write data =>
      replace h : Machine.run netHttp.step ⟨some 200⟩ calls = some response := h
      rw [run_settled] at h
      cases h
      rfl
    | writeHeader code =>
      obtain ⟨r, hr, hrest⟩ := Option.bind_eq_some_iff.mp h
      replace hr : (if code < 100 ∨ 999 < code then none
        else if informational code then some ⟨none⟩ else some ⟨some code⟩) = some r := hr
      split at hr
      · cases hr
      · rw [firstFinal]
        split at hr
        · next hinfo =>
          cases hr
          rw [if_pos hinfo]
          exact ih hrest
        · next hfinal =>
          cases hr
          rw [run_settled] at hrest
          cases hrest
          rw [if_neg hfinal]
          rfl

/-! ## 3. What is recorded -/

/-- Before any call, and after informational ones, the steady handlers are those whose last
code is the one that is sent. -/
theorem steady_iff (calls : List Call) :
    (Steady false calls ↔ lastCode 200 calls = firstFinal calls) ∧
      ∀ code, informational code = true →
        (Steady true calls ↔ lastCode code calls = firstFinal calls) := by
  have hlast (code : Int) (later : List Call) : lastCode code later = code ↔
      ∀ last ∈ (codes later).getLast?, last = code := by
    unfold lastCode
    cases (codes later).getLast? with
    | none => exact iff_of_true rfl nofun
    | some last => simp
  have hsmall {code : Int} (h : informational code = true) : code ≠ 200 := by
    rintro rfl
    exact absurd h (by decide)
  induction calls with
  | nil => exact ⟨iff_of_true rfl rfl, fun code h => iff_of_false Bool.noConfusion (hsmall h)⟩
  | cons call later ih =>
    cases call with
    | write data =>
      show (Steady false (.write data :: later) ↔ lastCode 200 later = 200) ∧ ∀ code, _ →
        (Steady true (.write data :: later) ↔ lastCode code later = 200)
      unfold Steady lastCode
      cases (codes later).getLast? with
      | none => exact ⟨iff_of_true rfl rfl, fun code h => iff_of_false Bool.noConfusion (hsmall h)⟩
      | some last => exact ⟨Iff.rfl, fun _ _ => Iff.rfl⟩
    | writeHeader code =>
      simp only [lastCode_writeHeader, Steady, firstFinal]
      split
      · next hinfo => exact ⟨ih.2 code hinfo, fun _ _ => ih.2 code hinfo⟩
      · exact ⟨(hlast code later).symm, fun _ _ => (hlast code later).symm⟩

/-- The chain around the calls of a handler. -/
theorem serve_eq (calls : Request → List Call) (r : Request) (h : r.method ≠ "OPTIONS") :
    serve calls r = (Machine.run netHttp.step ⟨none⟩ (calls r)).map fun response =>
      (response.sent,
        let last := lastCode 200 (calls r)
        if isInfraPath r.path then ⟨some last, none, 0⟩
        else ⟨some last, some last, if last ≥ 400 then 1 else 0⟩) := by
  unfold serve corsMiddleware loggingMiddleware metricsMiddleware handler
  dsimp only
  rw [if_neg h]
  split
  · rw [run_responseWriter]
    cases Machine.run netHttp.step ⟨none⟩ (calls r) <;> rfl
  · rw [run_responseWriter, run_responseWriter]
    cases Machine.run netHttp.step ⟨none⟩ (calls r) with
    | none => rfl
    | some response => simp

/-- For a handler that returns, what is recorded is the status that is sent if and only if the
handler is steady. A preflight never comes to the handler. -/
theorem recorded_iff {calls : Request → List Call} {r : Request} {sent : Int} {report : Report}
    (h : serve calls r = some (sent, report)) :
    Truthful sent report ↔ r.method = "OPTIONS" ∨ Steady false (calls r) := by
  by_cases hoptions : r.method = "OPTIONS"
  · refine iff_of_true ?_ (.inl hoptions)
    unfold serve corsMiddleware at h
    rw [if_pos hoptions] at h
    cases h
    exact ⟨nofun, nofun, nofun⟩
  · rw [serve_eq calls r hoptions, Option.map_eq_some_iff] at h
    obtain ⟨response, hrun, heq⟩ := h
    obtain ⟨hsent, hreport⟩ := Prod.mk.inj heq
    rw [or_iff_right hoptions, (steady_iff _).1, ← run_netHttp hrun, hsent, ← hreport]
    dsimp only
    split
    · refine ⟨fun htruth => htruth.logged _ rfl, fun hlast => ?_⟩
      rw [hlast]
      exact ⟨fun status hs => (Option.some.inj hs).symm, nofun, nofun⟩
    · refine ⟨fun htruth => htruth.logged _ rfl, fun hlast => ?_⟩
      rw [hlast]
      exact ⟨fun status hs => (Option.some.inj hs).symm, fun status hs => (Option.some.inj hs).symm,
        fun _ => rfl⟩

/-- A lookup that finds nothing is recorded as it is sent. -/
theorem recorded_notFound : ∃ sent report,
    serve (fun _ => written 404 [⟨#[]⟩]) ⟨"GET", "/devices/1"⟩ = some (sent, report) ∧
      Truthful sent report := by
  have hserve : serve (fun _ => written 404 [⟨#[]⟩]) ⟨"GET", "/devices/1"⟩ =
    some (404, ⟨some 404, some 404, 1⟩) := rfl
  exact ⟨_, _, hserve, (recorded_iff hserve).mpr (.inr (written_steady rfl _))⟩

/-- A handler that writes and then reports a failure: the client has received 200. -/
def failAfterWrite : List Call := [.write ⟨#[]⟩, .writeHeader 500]

theorem failure_not_sent : ∃ report,
    serve (fun _ => failAfterWrite) ⟨"GET", "/devices"⟩ = some (200, report) ∧
      report = ⟨some 500, some 500, 1⟩ ∧ ¬ Truthful 200 report := by
  refine ⟨_, rfl, rfl, fun h => ?_⟩
  exact absurd (h.logged 500 rfl) (by decide)

end AssetTracker.GoMiddleware
