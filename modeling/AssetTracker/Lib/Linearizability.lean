import Mathlib.Data.List.Nodup
import Mathlib.Data.List.Perm.Subperm

/-!
# Linearizability of finite histories

A history is the list of calls and returns that the clients of a shared object
see. It is linearizable when the operations that returned, and possibly some
that are still pending, can be put in one order that a sequential specification
explains and that respects real time (`Linearization`).

Results:
1. `Tracked.linearization`, the linearization-point rule: append an operation to
   the order at one moment between its call and its return, at which the
   specification allows its answer.
2. `Linearization.pair`: two operations, one after the other, have one order.
3. `Linearization.split`, `Legal.related`: what lies between two operations.
-/

namespace Linearizability

variable {ι Op Ret St : Type}

/-! ## Histories and linearizations -/

/-- What clients see: calls and returns, in the order in which they happen. -/
inductive Event (ι Op Ret : Type) where
  | call (i : ι) (op : Op) : Event ι Op Ret
  | ret (i : ι) (r : Ret) : Event ι Op Ret

abbrev History (ι Op Ret : Type) := List (Event ι Op Ret)

/-- An operation with its answer, as it stands in a sequential order. -/
structure Entry (ι Op Ret : Type) where
  id : ι
  op : Op
  ret : Ret

/-- The sequential specification allows the entries, in this order, from `m`
to `m'`. -/
inductive Legal (spec : St → Op → Ret → St → Prop) (m : St) : List (Entry ι Op Ret) → St → Prop
  | nil : Legal spec m [] m
  | snoc {lin : List (Entry ι Op Ret)} {m' m'' : St} {e : Entry ι Op Ret} :
      Legal spec m lin m' → spec m' e.op e.ret m'' → Legal spec m (lin ++ [e]) m''

theorem Legal.snoc_inv {spec : St → Op → Ret → St → Prop} {m m'' : St}
    {lin : List (Entry ι Op Ret)} {e : Entry ι Op Ret} (h : Legal spec m (lin ++ [e]) m'') :
    ∃ m', Legal spec m lin m' ∧ spec m' e.op e.ret m'' := by
  generalize hl : lin ++ [e] = l at h
  cases h with
  | nil => exact absurd hl (List.concat_ne_nil _ _)
  | @snoc lin' m' _ e' hlegal hspec =>
    obtain rfl := List.append_inj_left' hl rfl
    cases List.append_inj_right' hl rfl
    exact ⟨m', hlegal, hspec⟩

/-- The operation `i` returned before `j` was called. -/
def RealTime (h : History ι Op Ret) (i j : ι) : Prop :=
  ∃ h₁ h₂ op, h = h₁ ++ Event.call j op :: h₂ ∧ ∃ r, Event.ret i r ∈ h₁

/-- `lin` is a linearization of the history `h` of an object whose initial value
is `m`: every operation stands at most once in it and was called, every
operation that returned stands in it with the answer it returned, the order
respects real time, and the specification explains it. -/
structure Linearization (spec : St → Op → Ret → St → Prop) (m : St) (h : History ι Op Ret)
    (lin : List (Entry ι Op Ret)) : Prop where
  nodup : (lin.map Entry.id).Nodup
  called : ∀ e ∈ lin, Event.call e.id e.op ∈ h
  returned : ∀ i r, Event.ret i r ∈ h → ∃ op, ⟨i, op, r⟩ ∈ lin
  realTime : ∀ i j, RealTime h i j → j ∈ lin.map Entry.id →
    List.Sublist [i, j] (lin.map Entry.id)
  legal : ∃ m', Legal spec m lin m'

/-- Some total order of the operations explains the history. -/
def Linearizable (spec : St → Op → Ret → St → Prop) (m : St) (h : History ι Op Ret) : Prop :=
  ∃ lin, Linearization spec m h lin

/-! ## The linearization-point rule -/

/-- `Tracked spec m h lin m'`: the history `h` was produced with one
linearization point for every operation in `lin`, in this order, and the
specification leads from `m` to `m'`. An operation is called once, is given its
point after its call, and returns the answer it was given there. -/
inductive Tracked (spec : St → Op → Ret → St → Prop) (m : St) :
    History ι Op Ret → List (Entry ι Op Ret) → St → Prop
  | init : Tracked spec m [] [] m
  | call {h : History ι Op Ret} {lin : List (Entry ι Op Ret)} {m' : St} (i : ι) (op : Op) :
      Tracked spec m h lin m' → (∀ op', Event.call i op' ∉ h) →
      Tracked spec m (h ++ [.call i op]) lin m'
  | point {h : History ι Op Ret} {lin : List (Entry ι Op Ret)} {m' m'' : St}
      (i : ι) (op : Op) (r : Ret) :
      Tracked spec m h lin m' → Event.call i op ∈ h → i ∉ lin.map Entry.id →
      spec m' op r m'' → Tracked spec m h (lin ++ [⟨i, op, r⟩]) m''
  | ret {h : History ι Op Ret} {lin : List (Entry ι Op Ret)} {m' : St} (i : ι) (op : Op) (r : Ret) :
      Tracked spec m h lin m' → ⟨i, op, r⟩ ∈ lin → Tracked spec m (h ++ [.ret i r]) lin m'

variable {spec : St → Op → Ret → St → Prop} {m m' : St} {h : History ι Op Ret}
  {lin : List (Entry ι Op Ret)}

namespace LinearizabilityLemmas

theorem realTime_snoc_ret {i j k : ι} {r : Ret} (h₀ : RealTime (h ++ [.ret k r]) i j) :
    RealTime h i j := by
  obtain ⟨h₁, h₂, op, heq, hr⟩ := h₀
  rcases List.eq_nil_or_concat h₂ with rfl | ⟨h₃, e, rfl⟩
  · have := List.append_inj_right' heq rfl
    simp at this
  · refine ⟨h₁, h₃, op, ?_, hr⟩
    have heq' : h ++ [Event.ret k r] = (h₁ ++ Event.call j op :: h₃) ++ [e] := by
      rw [heq]
      simp
    exact List.append_inj_left' heq' rfl

theorem realTime_snoc_call {i j k : ι} {op : Op} (h₀ : RealTime (h ++ [.call k op]) i j) :
    RealTime h i j ∨ (j = k ∧ ∃ r, Event.ret i r ∈ h) := by
  obtain ⟨h₁, h₂, op', heq, hr⟩ := h₀
  rcases List.eq_nil_or_concat h₂ with rfl | ⟨h₃, e, rfl⟩
  · have hlast := List.append_inj_right' heq rfl
    have hinit := List.append_inj_left' heq rfl
    simp only [List.cons.injEq, Event.call.injEq, and_true] at hlast
    exact Or.inr ⟨hlast.1.symm, hinit ▸ hr⟩
  · refine Or.inl ⟨h₁, h₃, op', ?_, hr⟩
    have heq' : h ++ [Event.call k op] = (h₁ ++ Event.call j op' :: h₃) ++ [e] := by
      rw [heq]
      simp
    exact List.append_inj_left' heq' rfl

theorem realTime_ret_mem {i j : ι} (h₀ : RealTime h i j) : ∃ r, Event.ret i r ∈ h := by
  obtain ⟨h₁, h₂, op, rfl, r, hr⟩ := h₀
  exact ⟨r, List.mem_append_left _ hr⟩

theorem ids_snoc (lin : List (Entry ι Op Ret)) (e : Entry ι Op Ret) :
    (lin ++ [e]).map Entry.id = lin.map Entry.id ++ [e.id] := by
  simp

end LinearizabilityLemmas

open LinearizabilityLemmas

/-- The order in which the linearization points were taken is a linearization. -/
theorem Tracked.linearization (h₀ : Tracked spec m h lin m') : Linearization spec m h lin ∧
    Legal spec m lin m' := by
  induction h₀ with
  | init =>
    refine ⟨⟨List.nodup_nil, ?_, ?_, ?_, m, .nil⟩, .nil⟩
    · intro e he
      cases he
    · intro i r hr
      cases hr
    · intro i j _ hj
      cases hj
  | @call h lin m' i op _ hnew ih =>
    obtain ⟨hlin, hlegal⟩ := ih
    refine ⟨⟨hlin.nodup, ?_, ?_, ?_, m', hlegal⟩, hlegal⟩
    · exact fun e he => List.mem_append_left _ (hlin.called e he)
    · intro k r hr
      simp only [List.mem_append, List.mem_singleton, reduceCtorEq, or_false] at hr
      exact hlin.returned k r hr
    · intro a b hab hb
      rcases realTime_snoc_call hab with hab | ⟨rfl, _⟩
      · exact hlin.realTime a b hab hb
      · -- an operation that is called now has no entry yet
        obtain ⟨e, he, rfl⟩ := List.mem_map.mp hb
        exact absurd (hlin.called e he) (hnew e.op)
  | @point h lin m' m'' i op r _ hcall hnew hspec ih =>
    obtain ⟨hlin, hlegal⟩ := ih
    have hlegal' := hlegal.snoc (e := ⟨i, op, r⟩) hspec
    refine ⟨⟨?_, ?_, ?_, ?_, m'', hlegal'⟩, hlegal'⟩
    · rw [ids_snoc, List.nodup_append]
      refine ⟨hlin.nodup, List.nodup_singleton _, ?_⟩
      intro a ha b hb hab
      rw [List.mem_singleton] at hb
      rw [hab, hb] at ha
      exact hnew ha
    · intro e he
      rcases List.mem_append.mp he with he | he
      · exact hlin.called e he
      · rw [List.mem_singleton] at he
        subst he
        exact hcall
    · intro k r' hr
      obtain ⟨op', hop⟩ := hlin.returned k r' hr
      exact ⟨op', List.mem_append_left _ hop⟩
    · intro a b hab hb
      rw [ids_snoc] at hb ⊢
      rcases List.mem_append.mp hb with hb | hb
      · exact (hlin.realTime a b hab hb).trans (List.sublist_append_left _ _)
      · -- `b` is the new entry; `a` returned, so it stands in the old ones
        obtain ⟨r', hr'⟩ := realTime_ret_mem hab
        obtain ⟨op', hop⟩ := hlin.returned a r' hr'
        rw [List.mem_singleton] at hb
        subst hb
        have ha : List.Sublist [a] (lin.map Entry.id) :=
          List.singleton_sublist.mpr (List.mem_map_of_mem hop)
        exact ha.append (List.Sublist.refl [_])
  | @ret h lin m' i op r _ hmem ih =>
    obtain ⟨hlin, hlegal⟩ := ih
    refine ⟨⟨hlin.nodup, ?_, ?_, ?_, m', hlegal⟩, hlegal⟩
    · exact fun e he => List.mem_append_left _ (hlin.called e he)
    · intro k r' hr
      rcases List.mem_append.mp hr with hr | hr
      · exact hlin.returned k r' hr
      · simp only [List.mem_singleton, Event.ret.injEq] at hr
        obtain ⟨rfl, rfl⟩ := hr
        exact ⟨op, hmem⟩
    · exact fun a b hab hb => hlin.realTime a b (realTime_snoc_ret hab) hb

theorem Tracked.linearizable (h₀ : Tracked spec m h lin m') : Linearizable spec m h :=
  ⟨lin, h₀.linearization.1⟩

/-- An operation that returned before the only other one was called comes first. -/
theorem Linearization.pair {i j : ι} (h₀ : Linearization spec m h lin) (hij : RealTime h i j)
    (hj : j ∈ lin.map Entry.id) (honly : ∀ k op, Event.call k op ∈ h → k = i ∨ k = j) :
    ∃ a b, lin = [a, b] ∧ a.id = i ∧ b.id = j := by
  have hsub := h₀.realTime i j hij hj
  have hlen : (lin.map Entry.id).length ≤ [i, j].length := by
    refine (h₀.nodup.subperm fun k hk => ?_).length_le
    obtain ⟨e, he, rfl⟩ := List.mem_map.mp hk
    rcases honly _ _ (h₀.called e he) with hk | hk <;> simp [hk]
  have hids := hsub.eq_of_length_le hlen
  rcases lin with _ | ⟨a, _ | ⟨b, _ | ⟨c, lin⟩⟩⟩ <;> simp at hids
  exact ⟨a, b, rfl, hids.1.symm, hids.2.symm⟩

/-- An operation that returned before another was called stands before it. -/
theorem Linearization.split {a b : Entry ι Op Ret} (h₀ : Linearization spec m h lin)
    (hab : RealTime h a.id b.id) (ha : a ∈ lin) (hb : b ∈ lin) :
    ∃ pre mid post, lin = pre ++ a :: (mid ++ b :: post) := by
  have hsub := h₀.realTime _ _ hab (List.mem_map_of_mem hb)
  obtain ⟨l, hl, hids⟩ := List.sublist_map_iff.mp hsub
  rcases l with _ | ⟨a', _ | ⟨b', l⟩⟩
  · exact absurd (congrArg List.length hids) (by simp)
  · exact absurd (congrArg List.length hids) (by simp)
  rw [List.map_cons, List.map_cons, List.cons.injEq, List.cons.injEq] at hids
  obtain rfl := List.inj_on_of_nodup_map h₀.nodup ha (hl.subset (by simp)) hids.1
  obtain rfl := List.inj_on_of_nodup_map h₀.nodup hb (hl.subset (by simp)) hids.2.1
  obtain ⟨r₁, r₂, rfl, ha', hl'⟩ := List.cons_sublist_iff.mp hl
  obtain ⟨pre, mid, rfl⟩ := List.append_of_mem ha'
  obtain ⟨mid', post, rfl⟩ := List.append_of_mem (hl'.subset List.mem_cons_self)
  exact ⟨pre, mid ++ mid', post, by simp⟩

/-- No operation stands before one that returned before it was called. -/
theorem Linearization.not_realTime {a b : Entry ι Op Ret} {pre post : List (Entry ι Op Ret)}
    (h₀ : Linearization spec m h (pre ++ b :: post)) (ha : a ∈ pre) : ¬ RealTime h b.id a.id := by
  intro hba
  have hsub := h₀.realTime _ _ hba (List.mem_map_of_mem (List.mem_append_left _ ha))
  have hnodup := h₀.nodup
  rw [List.map_append, List.map_cons] at hsub hnodup
  have hnot : a.id ∉ b.id :: post.map Entry.id := fun hmem =>
    (List.nodup_append.mp hnodup).2.2 _ (List.mem_map_of_mem ha) _ hmem rfl
  have hnot' : b.id ∉ pre.map Entry.id := fun hmem =>
    (List.nodup_append.mp hnodup).2.2 _ hmem _ List.mem_cons_self rfl
  obtain ⟨l₁, l₂, hl, h₁, h₂⟩ := List.sublist_append_iff.mp hsub
  rcases l₁ with _ | ⟨x, l₁⟩
  · rw [List.nil_append] at hl
    subst hl
    exact hnot (h₂.subset (by simp))
  · rw [List.cons_append, List.cons.injEq] at hl
    exact hnot' (hl.1 ▸ h₁.subset List.mem_cons_self)

/-- What every operation keeps, all of them keep. -/
theorem Legal.related {R : St → St → Prop} (hrefl : ∀ m, R m m)
    (htrans : ∀ {m₁ m₂ m₃}, R m₁ m₂ → R m₂ m₃ → R m₁ m₃)
    (hstep : ∀ {m op r m'}, spec m op r m' → R m m') (h₀ : Legal spec m lin m') : R m m' := by
  induction h₀ with
  | nil => exact hrefl m
  | snoc _ hspec ih => exact htrans ih (hstep hspec)

theorem Tracked.called (h₀ : Tracked spec m h lin m') {e : Entry ι Op Ret} (he : e ∈ lin) :
    Event.call e.id e.op ∈ h :=
  h₀.linearization.1.called e he

end Linearizability
