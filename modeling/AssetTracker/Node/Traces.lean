import AssetTracker.Lib.Journal
import AssetTracker.Lib.Memory
import AssetTracker.Node.Metrics

/-!
# The array of traces (Node service)

`pushTrace` and `getTraces` with the objects and the arrays that they create. An array
holds references; `push` grows it in place, and a spread copies an object.

Results:
1. `pushCopy_read`, `pushCopy_frame`: a push of a new object onto one array.
2. `journal_implements`: the arrays are the lists of `MetricsHandler`, and no push
   reaches an array that was returned.
-/

namespace AssetTracker.NodeTraces

open Encoding Memory Metrics
open NodeServer (MetricsHandler take_clamped)

/-! ## Definitions -/

/-- The objects and the arrays, each known by its number, and the array in `traces`. -/
structure Traces where
  objects : List RequestTrace
  arrays : Blocks Nat
  traces : Nat

/-- The elements of an array, looked up. -/
def read (array : Nat) (m : Traces) : Option (List RequestTrace) :=
  m.arrays[array]?.bind fun refs => refs.mapM fun (ref : Nat) => m.objects[ref]?

/-- The constructor. -/
def newMetricsHandler : Traces :=
  let (traces, arrays) := alloc [] []
  ⟨[], arrays, traces⟩

/-- `array.push({ … })`, of a new object with the given fields. -/
def pushCopy (array : Nat) (fields : RequestTrace) (m : Traces) : Traces :=
  { m with
    objects := m.objects ++ [fields]
    arrays := m.arrays.modify array fun refs => refs ++ [m.objects.length] }

/-- `pushTrace`, of the destructured parameter. -/
def pushTrace (trace : RequestTrace) (m : Traces) : Traces := pushCopy m.traces trace m

/-- The body of the loop: `result.push({ ...this.traces[n - 1 - i] })`. -/
def copyTrace (n : Int) (result : Nat) (m : Traces) (i : Nat) : Option Traces := do
  let refs ← m.arrays[m.traces]?
  let ref ← elementAt refs (n - 1 - i)
  let fields ← m.objects[ref]?
  return pushCopy result fields m

/-- `getTraces`; `none` if an index were out of bounds. -/
def getTraces (limit : Int) (m : Traces) : Option (Nat × Traces) := do
  let n : Int := (← m.arrays[m.traces]?).length
  let (result, arrays) := alloc [] m.arrays
  if n = 0 then
    return (result, { m with arrays })
  else
    let clamped := max 1 (min limit n)
    let m ← (List.range clamped.toNat).foldlM (copyTrace n result) { m with arrays }
    return (result, m)

def journal : Journal RequestTrace Traces Nat where
  start := newMetricsHandler
  push trace m := some (pushTrace trace m)
  get := getTraces
  read := read

/-! ## 1. Pushing -/

section

variable {m : Traces} {ts xs : List RequestTrace} {array r : Nat}

theorem mapM_eq_some {α β : Type} {f : α → Option β} {as : List α} {bs : List β} :
    as.mapM f = some bs ↔ as.map f = bs.map some := by
  induction as generalizing bs with
  | nil => cases bs <;> simp
  | cons a as ih =>
    rw [List.mapM_cons, List.map_cons]
    cases bs with
    | nil => cases h : f a <;> cases hm : as.mapM f <;> simp
    | cons b bs => cases h : f a <;> cases hm : as.mapM f <;> simp [← ih, hm]

theorem read_iff : read array m = some xs ↔ ∃ refs, m.arrays[array]? = some refs ∧
    (refs.map fun (ref : Nat) => m.objects[ref]?) = xs.map some := by
  rw [read, Option.bind_eq_some_iff]
  exact exists_congr fun refs => and_congr_right fun _ => mapM_eq_some

theorem array_lt (h : read array m = some xs) : array < m.arrays.length := by
  obtain ⟨refs, hrefs, -⟩ := read_iff.mp h
  exact lt_of_getElem? hrefs

/-- Objects stay as they are when another one is created. -/
theorem map_objects {refs : List Nat} {objects : List RequestTrace} (fields : RequestTrace)
    (h : (refs.map fun (ref : Nat) => objects[ref]?) = xs.map some) :
    (refs.map fun (ref : Nat) => (objects ++ [fields])[ref]?) = xs.map some := by
  rw [← h]
  refine List.map_congr_left fun ref href => ?_
  have hsome : objects[ref]? ∈ xs.map some := h ▸ List.mem_map_of_mem href
  obtain ⟨trace, -, htrace⟩ := List.mem_map.mp hsome
  rw [← htrace]
  exact List.getElem?_append_left (List.getElem?_eq_some_iff.mp htrace.symm).1 |>.trans htrace.symm

theorem pushCopy_read (h : read array m = some xs) (fields : RequestTrace) :
    read array (pushCopy array fields m) = some (xs ++ [fields]) := by
  obtain ⟨refs, hrefs, hmap⟩ := read_iff.mp h
  refine read_iff.mpr ⟨refs ++ [m.objects.length], ?_, ?_⟩
  · rw [pushCopy, List.getElem?_modify_eq, hrefs]
    rfl
  · rw [List.map_append, List.map_append, pushCopy, map_objects fields hmap]
    simp

theorem pushCopy_frame (h : read r m = some xs) (hne : r ≠ array) (fields : RequestTrace) :
    read r (pushCopy array fields m) = some xs := by
  obtain ⟨refs, hrefs, hmap⟩ := read_iff.mp h
  refine read_iff.mpr ⟨refs, ?_, map_objects fields hmap⟩
  rw [pushCopy, List.getElem?_modify_ne _ _ hne.symm, hrefs]

/-- A new array is apart from those that were there, and they read the same. -/
theorem alloc_frame (h : read r m = some xs) :
    read r { m with arrays := (alloc [] m.arrays).2 } = some xs ∧ (alloc [] m.arrays).1 ≠ r := by
  obtain ⟨refs, hrefs, hmap⟩ := read_iff.mp h
  refine ⟨read_iff.mpr ⟨refs, ?_, hmap⟩, Nat.ne_of_gt (array_lt h)⟩
  rw [alloc_old (array_lt h), hrefs]

/-! ## 2. Arrays as lists -/

def Holds (m : Traces) (ts : List RequestTrace) : Prop := read m.traces m = some ts

/-- An array that has been returned is another one than `this.traces`. -/
structure Kept (r : Nat) (ts : List RequestTrace) (m : Traces) : Prop where
  read : read r m = some ts
  apart : r ≠ m.traces

/-- The lists of the handler without memory. -/
def view (limit : Int) (ts : List RequestTrace) : List RequestTrace :=
  ts.reverse.take (max 1 limit).toNat

/-- One step of the loop pushes a copy of the trace at its index. -/
theorem copyTrace_eq {result i : Nat} (h : Holds m ts) (hi : i < ts.reverse.length) :
    copyTrace ts.length result m i = some (pushCopy result ts.reverse[i] m) := by
  obtain ⟨refs, hrefs, hmap⟩ := read_iff.mp h
  have hlen : refs.length = ts.length := by simpa using congrArg List.length hmap
  have hlt : i < refs.reverse.length := by simpa [hlen] using hi
  have hindex : elementAt refs ((ts.length : Int) - 1 - i) = some refs.reverse[i] := by
    rw [← hlen, elementAt_backwards (by simpa using hlt), List.getElem?_eq_getElem hlt]
  have hobject : m.objects[refs.reverse[i]]? = some ts.reverse[i] := by
    have hreversed := congrArg (fun found => found.reverse[i]?) hmap
    rw [← List.map_reverse, ← List.map_reverse, List.getElem?_map, List.getElem?_map,
      List.getElem?_eq_getElem hlt, List.getElem?_eq_getElem hi] at hreversed
    exact Option.some_inj.mp hreversed
  rw [copyTrace, hrefs]
  show ((elementAt refs ((ts.length : Int) - 1 - i)).bind fun ref => _) = _
  rw [hindex, Option.bind_some]
  show (m.objects[refs.reverse[i]]?.bind fun fields => _) = _
  rw [hobject]
  rfl

/-- After `i` steps the result has the first `i` of the newest traces, and nothing but the
result has changed. -/
theorem getTraces_steps {result i : Nat} (h : Holds m ts) (hresult : read result m = some [])
    (hapart : result ≠ m.traces) (hi : i ≤ ts.length) :
    ∃ m', (List.range i).foldlM (copyTrace ts.length result) m = some m' ∧
      m'.traces = m.traces ∧ read result m' = some (ts.reverse.take i) ∧
      ∀ r xs, r ≠ result → read r m = some xs → read r m' = some xs := by
  induction i with
  | zero => exact ⟨m, rfl, rfl, hresult, fun _ _ _ hr => hr⟩
  | succ i ih =>
    obtain ⟨m₁, hsteps, htraces, hread, hframe⟩ := ih (Nat.le_of_succ_le hi)
    have hlt : i < ts.reverse.length := by rwa [List.length_reverse]
    have h₁ : Holds m₁ ts := by
      rw [Holds, htraces]
      exact hframe _ _ hapart.symm h
    refine ⟨pushCopy result ts.reverse[i] m₁, ?_, htraces, ?_, fun r xs hr hxs => ?_⟩
    · rw [List.range_succ, List.foldlM_append, hsteps]
      show (copyTrace ts.length result m₁ i).bind some = _
      rw [copyTrace_eq h₁ hlt]
      rfl
    · rw [pushCopy_read hread, List.take_add_one, List.getElem?_eq_getElem hlt]
      rfl
    · exact pushCopy_frame (hframe r xs hr hxs) hr _

theorem pushTrace_holds (trace : RequestTrace) (h : Holds m ts) :
    Holds (pushTrace trace m) (ts ++ [trace]) ∧
      ∀ r xs, Kept r xs m → Kept r xs (pushTrace trace m) :=
  ⟨pushCopy_read h trace, fun _ _ hr => ⟨pushCopy_frame hr.read hr.apart trace, hr.apart⟩⟩

theorem getTraces_holds (limit : Int) (h : Holds m ts) :
    ∃ r m', getTraces limit m = some (r, m') ∧ Holds m' ts ∧ Kept r (view limit ts) m' ∧
      ∀ r xs, Kept r xs m → Kept r xs m' := by
  obtain ⟨refs, hrefs, hmap⟩ := read_iff.mp h
  have hlen : refs.length = ts.length := by simpa using congrArg List.length hmap
  obtain ⟨hholds, hapart⟩ := alloc_frame h
  have hempty : read (alloc [] m.arrays).1 { m with arrays := (alloc [] m.arrays).2 } = some [] :=
    read_iff.mpr ⟨[], alloc_new _ _, rfl⟩
  have hold : ∀ r xs, Kept r xs m → Kept r xs { m with arrays := (alloc [] m.arrays).2 } :=
    fun r xs hr => ⟨(alloc_frame hr.read).1, hr.apart⟩
  unfold getTraces
  rw [hrefs]
  show ∃ r m', (if (refs.length : Int) = 0 then _ else _) = some (r, m') ∧ _
  rw [hlen]
  split
  · next hzero =>
    have hnil : ts = [] := List.eq_nil_of_length_eq_zero (by omega)
    refine ⟨_, _, rfl, hholds, ⟨?_, hapart⟩, hold⟩
    refine hempty.trans ?_
    rw [hnil, view, List.reverse_nil, List.take_nil]
  · obtain ⟨m', hloop, htraces, hread, hframe⟩ :=
      getTraces_steps (i := (max 1 (min limit ts.length)).toNat) hholds hempty hapart (by omega)
    refine ⟨_, m', congrArg (Option.bind · fun m' => some ((alloc [] m.arrays).1, m')) hloop, ?_,
      ⟨?_, htraces ▸ hapart⟩, fun r xs hr => ⟨?_, ?_⟩⟩
    · rw [Holds, htraces]
      exact hframe _ _ hapart.symm hholds
    · rw [hread, ← List.length_reverse, take_clamped, view]
    · exact hframe _ _ (alloc_frame hr.read).2.symm (hold r xs hr).read
    · exact htraces ▸ hr.apart

/-- The arrays and the lists of `MetricsHandler` stay the same traces, and a call returns
the same ones. -/
theorem metricsHandler_refined (handler : MetricsHandler) (h : Holds m handler.traces) :
    (∀ trace, Holds (pushTrace trace m) (handler.pushTrace trace).traces) ∧
    ∀ limit, ∃ r m', getTraces limit m = some (r, m') ∧ Holds m' handler.traces ∧
      read r m' = handler.getTraces limit := by
  refine ⟨fun trace => (pushTrace_holds trace h).1, fun limit => ?_⟩
  obtain ⟨r, m', hget, h', hr, -⟩ := getTraces_holds limit h
  exact ⟨r, m', hget, h', hr.read.trans (NodeServer.getTraces_eq handler limit).symm⟩

theorem journal_implements : journal.Implements view Holds Kept where
  start := rfl
  push trace h := ⟨_, rfl, pushTrace_holds trace h⟩
  get limit h := getTraces_holds limit h
  read h := h.read

end

end AssetTracker.NodeTraces
