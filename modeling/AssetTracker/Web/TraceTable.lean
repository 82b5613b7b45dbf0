import Mathlib.Data.List.Infix
import AssetTracker.Web.Health

/-!
# The filters of the trace table (web UI)

`components/layout/TraceTable.tsx`. `toLowerCase` is any mapping of single
characters: nothing depends on what a letter is mapped to.

The three filters are also defined each on its own, on the field it is about
(`methodFilter`, `errorsFilter`, `pathFilter`), without `applyFilters`, so that
the results say what `applyFilters` keeps and not only how it relates to itself.

Results:
1. `keeps_iff`: the callback is a conjunction of three conditions, one a field.
2. `foldl_filters`: filters applied one after another, in any order.
3. `filters_compose`: what follows for the rows and for the badge.
-/

namespace AssetTracker.WebUi.TraceTable

open Encoding Text

/-! ## Definitions -/

/-- `RequestTrace` of `lib/api/metrics.ts`. The services write whole numbers as status. -/
structure RequestTrace where
  method : JsString
  path : JsString
  status : Int
  durationMs : Decimal
  timestamp : JsString
deriving DecidableEq, Repr

/-- `METHODS`. -/
inductive MethodFilter where
  | all
  | get
  | post
  | put
  | delete
deriving DecidableEq, Repr

def MethodFilter.text : MethodFilter → JsString
  | all => utf16 "ALL"
  | get => utf16 "GET"
  | post => utf16 "POST"
  | put => utf16 "PUT"
  | delete => utf16 "DELETE"

structure FilterState where
  method : MethodFilter
  errorsOnly : Bool
  pathSearch : JsString
deriving DecidableEq, Repr

/-- `toLowerCase`, for a mapping of single characters. -/
def toLowerCase (lower : UInt16 → JsString) (s : JsString) : JsString := s.flatMap lower

/-- The callback of `applyFilters`. -/
def keeps (lower : UInt16 → JsString) (filters : FilterState) (trace : RequestTrace) : Bool :=
  if filters.method ≠ .all ∧ trace.method ≠ filters.method.text then false
  else if filters.errorsOnly = true ∧ trace.status < 400 then false
  else if filters.pathSearch ≠ [] ∧
      Health.includes (toLowerCase lower trace.path) (toLowerCase lower filters.pathSearch) = false
    then false
  else true

def applyFilters (lower : UInt16 → JsString) (traces : List RequestTrace) (filters : FilterState) :
    List RequestTrace :=
  traces.filter (keeps lower filters)

def countActiveFilters (filters : FilterState) : Nat :=
  let count := 0
  let count := if filters.method ≠ .all then count + 1 else count
  let count := if filters.errorsOnly then count + 1 else count
  if filters.pathSearch.length > 0 then count + 1 else count

/-- The handler of the search field. -/
def FilterState.search (prev : FilterState) (text : JsString) : FilterState :=
  { prev with pathSearch := text }

/-- "Clear all", and the state in which the table starts. -/
def clearAll : FilterState := ⟨.all, false, []⟩

/-! The three filters, each alone and on its own field. An inactive one passes every row. -/

/-- The method filter: the rows of the chosen method, every row for `ALL`. -/
def methodFilter (filters : FilterState) (traces : List RequestTrace) : List RequestTrace :=
  if filters.method = .all then traces
  else traces.filter fun trace => trace.method = filters.method.text

/-- The errors-only filter: the rows whose status is an HTTP error. -/
def errorsFilter (filters : FilterState) (traces : List RequestTrace) : List RequestTrace :=
  if filters.errorsOnly then traces.filter fun trace => 400 ≤ trace.status else traces

/-- The path filter: the rows whose path has the search text in it, up to case. -/
def pathFilter (lower : UInt16 → JsString) (filters : FilterState) (traces : List RequestTrace) :
    List RequestTrace :=
  if filters.pathSearch = [] then traces
  else traces.filter fun trace =>
    toLowerCase lower filters.pathSearch <:+: toLowerCase lower trace.path

/-- What the filters of the table are to each other. `anyOrder` is the one field that says
which rows are kept: the others hold of any filter that looks at its own row only. -/
structure Compose (lower : UInt16 → JsString) (traces : List RequestTrace)
    (filters : FilterState) : Prop where
  sublist : (applyFilters lower traces filters).Sublist traces
  anyOrder : ∀ order : List (List RequestTrace → List RequestTrace),
    order.Perm [methodFilter filters, errorsFilter filters, pathFilter lower filters] →
    order.foldl (fun rows keepOnly => keepOnly rows) traces = applyFilters lower traces filters
  twice : applyFilters lower (applyFilters lower traces filters) filters =
    applyFilters lower traces filters
  caseless : ∀ text, toLowerCase lower text = toLowerCase lower filters.pathSearch →
    applyFilters lower traces (filters.search text) = applyFilters lower traces filters
  narrows : ∀ before after,
    (applyFilters lower traces (filters.search (before ++ filters.pathSearch ++ after))).Sublist
      (applyFilters lower traces filters)
  inactive : countActiveFilters filters = 0 ↔ filters = clearAll
  cleared : applyFilters lower traces clearAll = traces

/-! ## 1. One predicate -/

section

variable {lower : UInt16 → JsString} {filters : FilterState} {trace : RequestTrace}

theorem includes_iff {s word : JsString} : Health.includes s word = true ↔ word <:+: s := by
  unfold Health.includes
  rw [List.any_eq_true, List.infix_iff_prefix_suffix]
  simp only [List.mem_tails, List.isPrefixOf_iff_prefix, and_comm]

/-- The search text is in the path, up to case. The empty text is in every path. -/
def Finds (lower : UInt16 → JsString) (text path : JsString) : Prop :=
  toLowerCase lower text <:+: toLowerCase lower path

instance (text path : JsString) : Decidable (Finds lower text path) :=
  inferInstanceAs (Decidable (_ <:+: _))

theorem keeps_iff : keeps lower filters trace = true ↔
    (filters.method = .all ∨ trace.method = filters.method.text) ∧
      (filters.errorsOnly = true → 400 ≤ trace.status) ∧
      Finds lower filters.pathSearch trace.path := by
  have hfinds : Finds lower filters.pathSearch trace.path ↔ ¬ (filters.pathSearch ≠ [] ∧
      Health.includes (toLowerCase lower trace.path) (toLowerCase lower filters.pathSearch) =
        false) := by
    rw [not_and, Bool.not_eq_false, includes_iff]
    refine ⟨fun h _ => h, fun h => ?_⟩
    by_cases hempty : filters.pathSearch = []
    · rw [Finds, hempty]
      exact List.nil_infix
    · exact h hempty
  unfold keeps
  rw [hfinds]
  split
  · next hmethod => exact iff_of_false Bool.false_ne_true fun h => not_or.mpr hmethod h.1
  · next hmethod =>
    split
    · next hstatus =>
      exact iff_of_false Bool.false_ne_true fun h => absurd (h.2.1 hstatus.1) (Int.not_le.mpr hstatus.2)
    · next hstatus =>
      split
      · next hpath => exact iff_of_false Bool.false_ne_true fun h => h.2.2 hpath
      · next hpath =>
        refine iff_of_true rfl ⟨?_, fun herrors => ?_, hpath⟩
        · rwa [not_and_or, not_not, not_not] at hmethod
        · exact Int.not_lt.mp fun hlt => hstatus ⟨herrors, hlt⟩

end

/-! ## 2. One after another -/

/-- `keepOnly` is a filter: it decides on each row alone. -/
def IsFilter (keepOnly : List RequestTrace → List RequestTrace) : Prop :=
  ∃ keep : RequestTrace → Bool, ∀ rows, keepOnly rows = rows.filter keep

section

variable {lower : UInt16 → JsString} {filters : FilterState}

theorem methodFilter_eq (rows : List RequestTrace) : methodFilter filters rows =
    rows.filter fun trace => filters.method = .all ∨ trace.method = filters.method.text := by
  unfold methodFilter
  split
  · next hall => simp [hall]
  · next hall => simp [hall]

theorem errorsFilter_eq (rows : List RequestTrace) : errorsFilter filters rows =
    rows.filter fun trace => filters.errorsOnly = true → 400 ≤ trace.status := by
  unfold errorsFilter
  split
  · next herrors => simp [herrors]
  · next herrors => simp [herrors]

theorem pathFilter_eq (rows : List RequestTrace) : pathFilter lower filters rows =
    rows.filter fun trace => Finds lower filters.pathSearch trace.path := by
  unfold pathFilter
  split
  · next hempty =>
    refine (List.filter_eq_self.mpr fun trace _ => decide_eq_true ?_).symm
    rw [Finds, hempty]
    exact List.nil_infix
  · rfl

theorem isFilter_of_mem {keepOnly : List RequestTrace → List RequestTrace}
    (h : keepOnly ∈ [methodFilter filters, errorsFilter filters, pathFilter lower filters]) :
    IsFilter keepOnly := by
  simp only [List.mem_cons, List.not_mem_nil, or_false] at h
  obtain rfl | rfl | rfl := h
  · exact ⟨_, methodFilter_eq⟩
  · exact ⟨_, errorsFilter_eq⟩
  · exact ⟨_, pathFilter_eq⟩

end

/-- Filters commute, so applied one after another they may come in any order. -/
theorem foldl_filters {order order' : List (List RequestTrace → List RequestTrace)}
    (h : order.Perm order') (hfilters : ∀ keepOnly ∈ order', IsFilter keepOnly)
    (rows : List RequestTrace) :
    order.foldl (fun rows keepOnly => keepOnly rows) rows =
      order'.foldl (fun rows keepOnly => keepOnly rows) rows := by
  refine h.foldl_eq' (fun f hf g hg rows => ?_) rows
  obtain ⟨keep, hkeep⟩ := hfilters f (h.mem_iff.mp hf)
  obtain ⟨keep', hkeep'⟩ := hfilters g (h.mem_iff.mp hg)
  rw [hkeep, hkeep', hkeep', hkeep, List.filter_comm]

/-! ## 3. The table -/

/-- A text that contains the search text is in fewer paths. -/
theorem Finds.of_longer {lower : UInt16 → JsString} {before text after path : JsString}
    (h : Finds lower (before ++ text ++ after) path) : Finds lower text path := by
  unfold Finds toLowerCase at h ⊢
  rw [List.flatMap_append, List.flatMap_append] at h
  exact (List.infix_append _ _ _).trans h

theorem countActiveFilters_eq_zero {filters : FilterState} :
    countActiveFilters filters = 0 ↔ filters = clearAll := by
  obtain ⟨method, errorsOnly, pathSearch⟩ := filters
  unfold countActiveFilters clearAll
  rw [FilterState.mk.injEq]
  cases errorsOnly <;> cases pathSearch <;> by_cases hmethod : method = .all <;> simp [hmethod]

/-- The filters of the trace table compose, for any traces, any state of the filters and any table
of lower-case letters. -/
theorem filters_compose (lower : UInt16 → JsString) (traces : List RequestTrace)
    (filters : FilterState) : Compose lower traces filters where
  sublist := List.filter_sublist
  anyOrder order horder := by
    rw [foldl_filters horder fun keepOnly => isFilter_of_mem]
    simp only [List.foldl_cons, List.foldl_nil, methodFilter_eq, errorsFilter_eq, pathFilter_eq,
      List.filter_filter]
    refine List.filter_congr fun trace _ => ?_
    rw [Bool.eq_iff_iff, keeps_iff]
    simp only [Bool.and_eq_true, decide_eq_true_eq]
    tauto
  twice := by
    unfold applyFilters
    rw [List.filter_filter]
    exact List.filter_congr fun trace _ => Bool.and_self _
  caseless text htext := by
    refine List.filter_congr fun trace _ => ?_
    rw [Bool.eq_iff_iff, keeps_iff, keeps_iff]
    unfold Finds FilterState.search
    rw [htext]
  narrows before after := by
    refine List.monotone_filter_right traces fun trace htrace => ?_
    rw [keeps_iff] at htrace ⊢
    exact ⟨htrace.1, htrace.2.1, htrace.2.2.of_longer⟩
  inactive := countActiveFilters_eq_zero
  cleared := by
    refine List.filter_eq_self.mpr fun trace _ => ?_
    rw [keeps_iff]
    exact ⟨.inl rfl, nofun, List.nil_infix⟩

end AssetTracker.WebUi.TraceTable
