import AssetTracker.Lib.Journal
import AssetTracker.Lib.Memory
import AssetTracker.Go.Metrics

/-!
# The slice of traces (Go service)

`PushTrace` and `GetTraces` with the memory that their slices lie in. `append` may write
into the backing array of `m.traces`, and `GetTraces` returns a slice while pushes go on:
the mutex is held inside the two functions only.

Results:
1. `getTraces_steps`: what the loop of `GetTraces` has written after some steps.
2. `journal_implements`: the slices are the lists of `MetricsHandler`, and no push
   reaches a slice that was returned.
-/

namespace AssetTracker.GoTraces

open Encoding Memory Metrics
open GoMetrics (MetricsHandler clampTo clampTo_le take_clampTo)

/-! ## Definitions -/

/-- The slice in `traces`, and the memory. -/
structure Traces where
  slice : Slice
  mem : Blocks RequestTrace

/-- The zero value of `RequestTrace`. -/
def zero : RequestTrace := ⟨"", "", 0, ⟨false, 0, 0⟩, ""⟩

/-- `NewMetricsHandler`. -/
def newMetricsHandler : Traces :=
  let (slice, mem) := Slice.make 0 zero []
  ⟨slice, mem⟩

/-- `PushTrace`. `room` is the policy of `append`. -/
def pushTrace (room : Nat → Nat) (trace : RequestTrace) (m : Traces) : Option Traces := do
  let (slice, mem) ← m.slice.append room zero trace m.mem
  return ⟨slice, mem⟩

/-- `traces[i]`; `none` out of bounds. -/
def index (s : Slice) (i : Int) (mem : Blocks RequestTrace) : Option RequestTrace :=
  (s.read mem).bind fun traces => elementAt traces i

/-- The body of the loop. -/
def copyTrace (traces result : Slice) (mem : Blocks RequestTrace) (i : Nat) :
    Option (Blocks RequestTrace) := do
  let trace ← index traces ((traces.len : Int) - 1 - i) mem
  result.set i trace mem

/-- `GetTraces`; `none` if an index were out of range. -/
def getTraces (limit : Int) (m : Traces) : Option (Slice × Traces) :=
  let n : Int := m.slice.len
  if n = 0 then
    let (result, mem) := Slice.make 0 zero m.mem
    some (result, { m with mem })
  else
    let limit := clampTo n limit
    let (result, mem) := Slice.make limit.toNat zero m.mem
    do
      let mem ← (List.range limit.toNat).foldlM (copyTrace m.slice result) mem
      return (result, { m with mem })

def journal (room : Nat → Nat) : Journal RequestTrace Traces Slice where
  start := newMetricsHandler
  push := pushTrace room
  get := getTraces
  read r m := r.read m.mem

/-! ## 1. The loop -/

/-- The traces are read from their slice. -/
def Holds (m : Traces) (ts : List RequestTrace) : Prop := m.slice.read m.mem = some ts

/-- A slice that has been returned does not share the backing array of `m.traces`. -/
structure Kept (r : Slice) (ts : List RequestTrace) (m : Traces) : Prop where
  read : r.read m.mem = some ts
  apart : r.block ≠ m.slice.block

section

variable {m : Traces} {ts xs : List RequestTrace} {traces result : Slice}
  {mem mem' : Blocks RequestTrace}

theorem length_of_holds (h : Holds m ts) : m.slice.len = ts.length := (Slice.read_eq_some.mp h).1

/-- After `i` steps the first `i` elements of the result are the newest traces, and nothing
but the result has changed. -/
theorem getTraces_steps {k i : Nat} (h : traces.read mem = some ts)
    (hresult : result.read mem = some (List.replicate k zero))
    (hapart : result.block ≠ traces.block) (hi : i ≤ k) (hk : k ≤ ts.length) :
    ∃ mem', (List.range i).foldlM (copyTrace traces result) mem = some mem' ∧
      result.read mem' = some (ts.reverse.take i ++ List.replicate (k - i) zero) ∧
      ∀ r : Slice, r.block ≠ result.block → r.read mem' = r.read mem := by
  induction i with
  | zero => exact ⟨mem, rfl, hresult, fun _ _ => rfl⟩
  | succ i ih =>
    obtain ⟨mem₁, hsteps, hread, hframe⟩ := ih (Nat.le_of_succ_le hi)
    have hlt : i < ts.reverse.length := by
      rw [List.length_reverse]
      omega
    have htaken : (ts.reverse.take i).length = i := List.length_take_of_le (Nat.le_of_lt hlt)
    have hlen : traces.len = ts.length := (Slice.read_eq_some.mp h).1
    have hindex : index traces ((traces.len : Int) - 1 - i) mem₁ = some ts.reverse[i] := by
      rw [index, hframe traces hapart.symm, h, hlen, Option.bind_some,
        elementAt_backwards (by simpa using hlt), List.getElem?_eq_getElem hlt]
    obtain ⟨mem₂, hset, hread₂⟩ := Slice.read_set hread (i := i)
      (by rw [List.length_append, htaken, List.length_replicate]; omega) ts.reverse[i]
    refine ⟨mem₂, ?_, ?_, fun r hr => (Slice.set_frame hset hr).trans (hframe r hr)⟩
    · rw [List.range_succ, List.foldlM_append, hsteps]
      show (copyTrace traces result mem₁ i).bind some = _
      rw [copyTrace, hindex]
      exact congrArg (Option.bind · some) hset
    · rw [hread₂, List.set_append_right _ _ (Nat.le_of_eq htaken), htaken, Nat.sub_self,
        show k - i = (k - (i + 1)) + 1 by omega, List.replicate_succ, List.set_cons_zero,
        List.take_add_one, List.getElem?_eq_getElem hlt, List.append_assoc]
      rfl

/-! ## 2. Slices as lists -/

/-- The lists of the handler without memory. -/
def view (limit : Int) (ts : List RequestTrace) : List RequestTrace := ts.reverse.take limit.toNat

theorem pushTrace_holds (room : Nat → Nat) (trace : RequestTrace) (h : Holds m ts) :
    ∃ m', pushTrace room trace m = some m' ∧ Holds m' (ts ++ [trace]) ∧
      ∀ r xs, Kept r xs m → Kept r xs m' := by
  obtain ⟨slice, mem, happend, hread⟩ := Slice.read_append room zero trace h
  refine ⟨⟨slice, mem⟩, by rw [pushTrace, happend]; rfl, hread, fun r xs hr => ⟨?_, ?_⟩⟩
  · exact Slice.append_frame happend hr.read fun hshared => absurd hshared hr.apart
  · obtain hsame | hnew := Slice.append_block happend
    · exact hsame.symm ▸ hr.apart
    · -- the block is new, and the slice was there before
      exact hnew.symm ▸ Nat.ne_of_lt (Slice.block_lt hr.read)

/-- A slice that has just been made is apart from those that were there. -/
theorem make_apart {r : Slice} (h : r.read mem = some xs) (n : Nat) :
    r.read (Slice.make n zero mem).2 = some xs ∧ (Slice.make n zero mem).1.block ≠ r.block :=
  ⟨Slice.read_alloc h _, Nat.ne_of_gt (Slice.block_lt h)⟩

theorem getTraces_holds (limit : Int) (h : Holds m ts) :
    ∃ r m', getTraces limit m = some (r, m') ∧ Holds m' ts ∧ Kept r (view limit ts) m' ∧
      ∀ r xs, Kept r xs m → Kept r xs m' := by
  have hlen : (m.slice.len : Int) = ts.reverse.length := by
    rw [List.length_reverse, length_of_holds h]
  unfold getTraces
  dsimp only
  split
  · next hzero =>
    have hnil : ts = [] := List.eq_nil_of_length_eq_zero (by simpa [hlen] using hzero)
    obtain ⟨hholds, hapart⟩ := make_apart h 0
    refine ⟨_, _, rfl, hholds, ⟨?_, hapart⟩, fun r xs hr => ⟨(make_apart hr.read 0).1, hr.apart⟩⟩
    rw [Slice.read_make, hnil, view, List.reverse_nil, List.take_nil]
    rfl
  · have hview := take_clampTo ts.reverse limit
    have hle : (clampTo ts.reverse.length limit).toNat ≤ ts.length := by
      have := clampTo_le (Int.natCast_nonneg ts.reverse.length) limit
      rw [List.length_reverse] at this ⊢
      omega
    rw [hlen]
    generalize (clampTo ts.reverse.length limit).toNat = k at hview hle ⊢
    obtain ⟨hholds, hapart⟩ := make_apart h k
    obtain ⟨mem', hloop, hread, hframe⟩ :=
      getTraces_steps hholds (Slice.read_make k zero m.mem) hapart (Nat.le_refl k) hle
    rw [Nat.sub_self, List.replicate_zero, List.append_nil, hview] at hread
    refine ⟨_, ⟨m.slice, mem'⟩, by rw [hloop]; rfl, ?_, ⟨hread, hapart⟩,
      fun r xs hr => ⟨?_, hr.apart⟩⟩
    · exact (hframe _ hapart.symm).trans hholds
    · obtain ⟨hold, hapart'⟩ := make_apart hr.read k
      exact (hframe _ hapart'.symm).trans hold

/-- The slices and the lists of `MetricsHandler` stay the same traces, and a call returns
the same ones. -/
theorem metricsHandler_refined (room : Nat → Nat) (handler : MetricsHandler)
    (h : Holds m handler.traces) :
    (∀ trace, ∃ m', pushTrace room trace m = some m' ∧ Holds m' (handler.pushTrace trace).traces) ∧
    ∀ limit, ∃ r m', getTraces limit m = some (r, m') ∧ Holds m' handler.traces ∧
      r.read m'.mem = handler.getTraces limit := by
  constructor
  · intro trace
    obtain ⟨m', hpush, h', -⟩ := pushTrace_holds room trace h
    exact ⟨m', hpush, h'⟩
  · intro limit
    obtain ⟨r, m', hget, h', hr, -⟩ := getTraces_holds limit h
    exact ⟨r, m', hget, h', hr.read.trans (GoMetrics.getTraces_eq handler limit).symm⟩

theorem journal_implements (room : Nat → Nat) : (journal room).Implements view Holds Kept where
  start := Slice.read_make 0 zero []
  push trace h := pushTrace_holds room trace h
  get limit h := getTraces_holds limit h
  read h := h.read

end

end AssetTracker.GoTraces
