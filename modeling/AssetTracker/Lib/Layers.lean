import Mathlib.Data.List.Induction
import AssetTracker.Lib.Linearizability

/-!
# Linearizability through a layer

Clients often use an object through a layer. It forwards their operations under names of
its own, turns the answers into others, and answers some operations by itself.

Results:
1. `Linearization.relabel`: the operations that are forwarded are linearizable where those
   of the object are, provided that each is called before the object's and returns after it.
2. `Linearizable.insertAll`: operations that change nothing can be left out.
-/

namespace Linearizability

variable {κ ι Op Ret Op' Ret' St : Type}

/-! ## Definitions -/

def Event.id : Event ι Op Ret → ι
  | .call i _ => i
  | .ret i _ => i

/-- The layer may give the operation `k` all its answers without asking the object, and it
is not called again after it has returned. -/
structure Idle (spec : St → Op → Ret → St → Prop) (h : History ι Op Ret) (k : ι) : Prop where
  answers : ∀ r, Event.ret k r ∈ h → ∃ op, Event.call k op ∈ h ∧ ∀ m, spec m op r m
  unique : ∀ r r', Event.ret k r ∈ h → Event.ret k r' ∈ h → r = r'
  once : ¬ RealTime h k k

variable {spec : St → Op → Ret → St → Prop} {spec' : St → Op' → Ret' → St → Prop} {m m' m'' : St}
  {h h' : History ι Op Ret} {lin lin' : List (Entry ι Op Ret)}

namespace LayerLemmas

theorem legal_append (h₁ : Legal spec m lin m') (h₂ : Legal spec m' lin' m'') :
    Legal spec m (lin ++ lin') m'' := by
  induction h₂ with
  | nil => rwa [List.append_nil]
  | snoc _ hspec ih =>
    rw [← List.append_assoc]
    exact ih.snoc hspec

theorem legal_split (h₁ : Legal spec m (lin ++ lin') m'') :
    ∃ m', Legal spec m lin m' ∧ Legal spec m' lin' m'' := by
  induction lin' using List.reverseRecOn generalizing m'' with
  | nil => exact ⟨m'', by rwa [List.append_nil] at h₁, .nil⟩
  | append_singleton lin' e ih =>
    rw [← List.append_assoc] at h₁
    obtain ⟨m₁, hlegal, hspec⟩ := Legal.snoc_inv h₁
    obtain ⟨m₂, hfirst, hsecond⟩ := ih hlegal
    exact ⟨m₂, hfirst, hsecond.snoc hspec⟩

/-- The states around an entry. -/
theorem legal_entry {e : Entry ι Op Ret} (h₁ : Legal spec m (lin ++ e :: lin') m'') :
    ∃ m₁ m₂, Legal spec m lin m₁ ∧ spec m₁ e.op e.ret m₂ ∧ Legal spec m₂ lin' m'' := by
  rw [← List.singleton_append, ← List.append_assoc] at h₁
  obtain ⟨m₂, hfirst, hsecond⟩ := legal_split h₁
  obtain ⟨m₁, hlegal, hspec⟩ := hfirst.snoc_inv
  exact ⟨m₁, m₂, hlegal, hspec, hsecond⟩

theorem legal_map {φ : Entry ι Op Ret → Entry κ Op' Ret'} (h₁ : Legal spec m lin m')
    (hspec : ∀ e ∈ lin, ∀ m m', spec m e.op e.ret m' → spec' m (φ e).op (φ e).ret m') :
    Legal spec' m (lin.map φ) m' := by
  induction h₁ with
  | nil => exact .nil
  | @snoc lin m' m'' e _ hlast ih =>
    rw [List.map_append]
    refine (ih fun x hx => hspec x (List.mem_append_left _ hx)).snoc ?_
    exact hspec e (List.mem_append_right _ List.mem_cons_self) _ _ hlast

/-- Real time is kept when events are left out. -/
theorem realTime_of_sublist {i j : ι} (hsub : h'.Sublist h) (hr : RealTime h' i j) :
    RealTime h i j := by
  obtain ⟨h₁, h₂, op, rfl, r, hmem⟩ := hr
  obtain ⟨g₁, g₂, rfl, hg₁, hg₂⟩ := List.append_sublist_iff.mp hsub
  obtain ⟨f₁, f₂, rfl, hf, -⟩ := List.cons_sublist_iff.mp hg₂
  obtain ⟨f₃, f₄, rfl⟩ := List.append_of_mem hf
  refine ⟨g₁ ++ f₃, f₄ ++ f₂, op, by simp, r, ?_⟩
  exact List.mem_append_left _ (hg₁.subset hmem)

theorem realTime_filter {i j : ι} {keep : Event ι Op Ret → Bool} (hr : RealTime h i j)
    (hi : ∀ r, keep (.ret i r) = true) (hj : ∀ op, keep (.call j op) = true) :
    RealTime (h.filter keep) i j := by
  obtain ⟨h₁, h₂, op, rfl, r, hmem⟩ := hr
  refine ⟨h₁.filter keep, h₂.filter keep, op, ?_, r, List.mem_filter.mpr ⟨hmem, hi r⟩⟩
  rw [List.filter_append, List.filter_cons_of_pos (hj op)]

theorem realTime_trans {i j k : ι} (hij : RealTime h i j) (hjk : RealTime h j k)
    (hself : ¬ RealTime h j j) : RealTime h i k := by
  obtain ⟨g₁, g₂, op, heq, hi⟩ := hij
  obtain ⟨h₁, h₂, op', heq', r, hj⟩ := hjk
  rcases List.append_eq_append_iff.mp (heq.symm.trans heq') with ⟨as, rfl, -⟩ | ⟨as, rfl, -⟩
  · obtain ⟨r', hi⟩ := hi
    exact ⟨_, h₂, op', heq', r', List.mem_append_left _ hi⟩
  · exact absurd ⟨_, g₂, op, heq, r, List.mem_append_left _ hj⟩ hself

/-- In a list without repetitions, what comes after `x` does not come before it. -/
theorem after_of_sublist {α : Type} {x y : α} {xs ys : List α} (hnodup : (xs ++ x :: ys).Nodup)
    (hsub : [x, y].Sublist (xs ++ x :: ys)) : y ∉ xs ++ [x] := by
  obtain ⟨r₁, r₂, heq, hx, hy⟩ := List.cons_sublist_iff.mp hsub
  have hys : y ∈ ys := by
    have hdisjoint := (List.nodup_append.mp hnodup).2.2
    rcases List.append_eq_append_iff.mp heq with ⟨as, rfl, has⟩ | ⟨bs, rfl, -⟩
    · cases as with
      | nil =>
        rw [List.append_nil] at hx
        exact absurd rfl (hdisjoint x hx x List.mem_cons_self)
      | cons a as =>
        rw [(List.cons.inj has).2]
        exact List.mem_append_right _ (List.singleton_sublist.mp hy)
    · exact absurd rfl (hdisjoint x (List.mem_append_left _ hx) x List.mem_cons_self)
  rw [List.append_cons] at hnodup
  exact fun hmem => (List.nodup_append.mp hnodup).2.2 y hmem y hys rfl

/-- The place after all operations of `S`. -/
theorem exists_cut (S : ι → Prop) (lin : List (Entry ι Op Ret)) :
    ∃ A B, lin = A ++ B ∧ (∀ e ∈ B, ¬ S e.id) ∧ (A = [] ∨ ∃ A' e, A = A' ++ [e] ∧ S e.id) := by
  induction lin using List.reverseRecOn with
  | nil => exact ⟨[], [], rfl, nofun, .inl rfl⟩
  | append_singleton lin e ih =>
    by_cases he : S e.id
    · exact ⟨lin ++ [e], [], (List.append_nil _).symm, nofun, .inr ⟨lin, e, rfl, he⟩⟩
    · obtain ⟨A, B, rfl, hB, hA⟩ := ih
      refine ⟨A, B ++ [e], List.append_assoc _ _ _, fun x hx => ?_, hA⟩
      rcases List.mem_append.mp hx with hx | hx
      · exact hB x hx
      · exact List.mem_singleton.mp hx ▸ he

end LayerLemmas

open LinearizabilityLemmas LayerLemmas

/-- An operation is called once. -/
theorem Tracked.call_unique (h₀ : Tracked spec m h lin m') {i : ι} {op op' : Op}
    (hop : Event.call i op ∈ h) (hop' : Event.call i op' ∈ h) : op = op' := by
  induction h₀ with
  | init => cases hop
  | call j op₀ _ hnew ih =>
    rcases List.mem_append.mp hop with hold | hlast
    · rcases List.mem_append.mp hop' with hold' | hlast'
      · exact ih hold hold'
      · cases List.mem_singleton.mp hlast'
        exact absurd hold (hnew op)
    · cases List.mem_singleton.mp hlast
      rcases List.mem_append.mp hop' with hold' | hlast'
      · exact absurd hold' (hnew op')
      · cases List.mem_singleton.mp hlast'
        rfl
  | point _ _ _ _ _ _ _ ih => exact ih hop hop'
  | ret j op₀ r _ _ ih =>
    have hcall : ∀ {op₁ : Op} {h : History ι Op Ret}, Event.call i op₁ ∈ h ++ [.ret j r] →
        Event.call i op₁ ∈ h := fun hmem =>
      (List.mem_append.mp hmem).resolve_right fun hlast => by cases List.mem_singleton.mp hlast
    exact ih (hcall hop) (hcall hop')

/-! ## 1. Operations that are forwarded -/

/-- `φ` says what an operation of the object is for the clients. -/
theorem Linearization.relabel {H : History κ Op' Ret'} {φ : Entry ι Op Ret → Entry κ Op' Ret'}
    (hlin : Linearization spec m h lin)
    (hinj : ∀ e ∈ lin, ∀ e' ∈ lin, (φ e).id = (φ e').id → e.id = e'.id)
    (hcalled : ∀ e ∈ lin, Event.call (φ e).id (φ e).op ∈ H)
    (hreturned : ∀ k r, Event.ret k r ∈ H → ∃ e ∈ lin, (φ e).id = k ∧ (φ e).ret = r)
    (hreal : ∀ e ∈ lin, ∀ e' ∈ lin, RealTime H (φ e).id (φ e').id → RealTime h e.id e'.id)
    (hspec : ∀ e ∈ lin, ∀ m m', spec m e.op e.ret m' → spec' m (φ e).op (φ e).ret m') :
    Linearization spec' m H (lin.map φ) := by
  have hentry : ∀ e ∈ lin, ∀ e' ∈ lin, e.id = e'.id → e = e' := fun e he e' he' =>
    List.inj_on_of_nodup_map hlin.nodup he he'
  refine ⟨?_, ?_, ?_, ?_, ?_⟩
  · rw [List.map_map]
    refine List.Nodup.map_on (fun e he e' he' heq => ?_) hlin.nodup.of_map
    exact hentry e he e' he' (hinj e he e' he' heq)
  · intro e he
    obtain ⟨e', he', rfl⟩ := List.mem_map.mp he
    exact hcalled e' he'
  · intro k r hr
    obtain ⟨e, he, rfl, rfl⟩ := hreturned k r hr
    exact ⟨(φ e).op, List.mem_map_of_mem he⟩
  · intro i j hij hj
    obtain ⟨r, hr⟩ := realTime_ret_mem hij
    obtain ⟨e, he, rfl, -⟩ := hreturned i r hr
    rw [List.map_map] at hj ⊢
    obtain ⟨e', he', rfl⟩ := List.mem_map.mp hj
    have hsub := hlin.realTime _ _ (hreal e he e' he' hij) (List.mem_map_of_mem he')
    obtain ⟨l, hl, heq⟩ := List.sublist_map_iff.mp hsub
    -- the two entries stand in this order
    obtain ⟨a, l, rfl, ha, heq⟩ := List.map_eq_cons_iff.mp heq.symm
    obtain ⟨b, l, rfl, hb, heq⟩ := List.map_eq_cons_iff.mp heq
    obtain rfl := List.map_eq_nil_iff.mp heq
    obtain rfl := hentry a (hl.subset List.mem_cons_self) e he ha
    obtain rfl := hentry b (hl.subset (List.mem_cons_of_mem _ List.mem_cons_self)) e' he' hb
    exact hl.map (Entry.id ∘ φ)
  · obtain ⟨m', hlegal⟩ := hlin.legal
    exact ⟨m', legal_map hlegal hspec⟩

/-! ## 2. Operations that the layer answers -/

section

variable [DecidableEq ι] {k : ι}

/-- The history without the operations of `ks`. -/
def without (ks : List ι) (h : History ι Op Ret) : History ι Op Ret :=
  h.filter fun e => decide (e.id ∉ ks)

theorem without_sublist (ks : List ι) (h : History ι Op Ret) : (without ks h).Sublist h :=
  List.filter_sublist

theorem mem_without {ks : List ι} {e : Event ι Op Ret} :
    e ∈ without ks h ↔ e ∈ h ∧ e.id ∉ ks := by
  rw [without, List.mem_filter, decide_eq_true_iff]

theorem Idle.without (hk : Idle spec h k) (ks : List ι) : Idle spec (without ks h) k := by
  refine ⟨fun r hr => ?_, fun r r' hr hr' => ?_, fun hself => ?_⟩
  · obtain ⟨hmem, hnot⟩ := mem_without.mp hr
    obtain ⟨op, hop, hspec⟩ := hk.answers r hmem
    exact ⟨op, mem_without.mpr ⟨hop, hnot⟩, hspec⟩
  · exact hk.unique r r' (mem_without.mp hr).1 (mem_without.mp hr').1
  · exact hk.once (realTime_of_sublist (without_sublist ks h) hself)

/-- One operation that changes nothing. It goes behind everything that returned before it
was called. -/
theorem Linearizable.insert (hk : Idle spec h k) (hlin : Linearizable spec m (without [k] h)) :
    Linearizable spec m h := by
  obtain ⟨lin, hlin⟩ := hlin
  have hother : ∀ e ∈ lin, e.id ≠ k := fun e he heq =>
    (mem_without.mp (hlin.called e he)).2 (List.mem_singleton.mpr heq)
  have hreturned : ∀ i r, i ≠ k → Event.ret i r ∈ h → ∃ op, ⟨i, op, r⟩ ∈ lin := fun i r hne hr =>
    hlin.returned i r (mem_without.mpr ⟨hr, fun hmem => hne (List.mem_singleton.mp hmem)⟩)
  have hreal : ∀ i j, i ≠ k → j ≠ k → RealTime h i j → RealTime (without [k] h) i j := by
    intro i j hi hj hij
    refine realTime_filter hij (fun r => ?_) fun op => ?_
    · exact decide_eq_true fun hmem => hi (List.mem_singleton.mp hmem)
    · exact decide_eq_true fun hmem => hj (List.mem_singleton.mp hmem)
  by_cases hret : ∃ r, Event.ret k r ∈ h
  · obtain ⟨r, hr⟩ := hret
    obtain ⟨op, hop, hspec⟩ := hk.answers r hr
    obtain ⟨A, B, rfl, hB, hA⟩ := exists_cut (fun i => RealTime h i k) lin
    refine ⟨A ++ ⟨k, op, r⟩ :: B, ?_, ?_, ?_, ?_, ?_⟩
    · have hperm : (A ++ ⟨k, op, r⟩ :: B).Perm (⟨k, op, r⟩ :: (A ++ B)) := List.perm_middle
      rw [(hperm.map Entry.id).nodup_iff, List.map_cons, List.nodup_cons]
      refine ⟨fun hmem => ?_, hlin.nodup⟩
      obtain ⟨e, he, heq⟩ := List.mem_map.mp hmem
      exact hother e he heq
    · intro e he
      rcases List.mem_append.mp he with he | he
      · exact (without_sublist _ _).subset (hlin.called e (List.mem_append_left _ he))
      · rcases List.mem_cons.mp he with rfl | he
        · exact hop
        · exact (without_sublist _ _).subset (hlin.called e (List.mem_append_right _ he))
    · intro i r' hr'
      by_cases hi : i = k
      · subst hi
        obtain rfl := hk.unique r r' hr hr'
        exact ⟨op, List.mem_append_right _ List.mem_cons_self⟩
      · obtain ⟨op', hmem⟩ := hreturned i r' hi hr'
        refine ⟨op', ?_⟩
        rcases List.mem_append.mp hmem with hmem | hmem
        · exact List.mem_append_left _ hmem
        · exact List.mem_append_right _ (List.mem_cons_of_mem _ hmem)
    · intro i j hij hj
      rw [List.map_append, List.map_cons] at hj ⊢
      have hids : j ≠ k → j ∈ (A ++ B).map Entry.id := fun hne => by
        rw [List.map_append, List.mem_append]
        exact (List.mem_append.mp hj).imp_right fun hj => (List.mem_cons.mp hj).resolve_left hne
      by_cases hi : i = k
      · subst hi
        have hne : j ≠ i := fun heq => hk.once (heq ▸ hij)
        refine List.Sublist.trans ?_ (List.sublist_append_right _ _)
        refine (List.singleton_sublist.mpr ?_).cons_cons i
        have hmem := hids hne
        rw [List.map_append, List.mem_append] at hmem
        refine hmem.resolve_left fun hjA => ?_
        -- the last operation before `k` would come before `j`
        obtain rfl | ⟨A', e, rfl, he⟩ := hA
        · cases hjA
        · have hej := hreal _ _ (hother e (by simp)) hne (realTime_trans he hij hk.once)
          have hsub := hlin.realTime _ _ hej (hids hne)
          have hnodup := hlin.nodup
          simp only [List.map_append, List.map_cons, List.map_nil, List.append_assoc,
            List.singleton_append] at hsub hnodup hjA
          exact after_of_sublist hnodup hsub hjA
      · by_cases hj' : j = k
        · subst hj'
          obtain ⟨r', hr'⟩ := realTime_ret_mem hij
          obtain ⟨op', hmem⟩ := hreturned i r' hi hr'
          have hmemA := (List.mem_append.mp hmem).resolve_right fun hmemB => hB _ hmemB hij
          have hfirst : [i].Sublist (A.map Entry.id) :=
            List.singleton_sublist.mpr (List.mem_map_of_mem hmemA)
          exact hfirst.append ((List.nil_sublist _).cons_cons j)
        · refine (hlin.realTime i j (hreal i j hi hj' hij) (hids hj')).trans ?_
          rw [List.map_append]
          exact (List.Sublist.refl _).append (List.sublist_cons_self _ _)
    · obtain ⟨m', hlegal⟩ := hlin.legal
      obtain ⟨m₁, hfirst, hsecond⟩ := legal_split hlegal
      have hone : Legal spec m₁ ([] ++ [⟨k, op, r⟩]) m₁ := Legal.snoc .nil (hspec m₁)
      exact ⟨m', legal_append hfirst (legal_append hone hsecond)⟩
  · refine ⟨lin, hlin.nodup, fun e he => ?_, fun i r hr => ?_, fun i j hij hj => ?_, hlin.legal⟩
    · exact (without_sublist _ _).subset (hlin.called e he)
    · exact hreturned i r (fun heq => hret ⟨r, heq ▸ hr⟩) hr
    · obtain ⟨e, he, rfl⟩ := List.mem_map.mp hj
      obtain ⟨r, hr⟩ := realTime_ret_mem hij
      exact hlin.realTime _ _ (hreal _ _ (fun heq => hret ⟨r, heq ▸ hr⟩) (hother e he) hij) hj

/-- Any number of them. -/
theorem Linearizable.insertAll {ks : List ι} (hks : ∀ k ∈ ks, Idle spec h k)
    (hlin : Linearizable spec m (without ks h)) : Linearizable spec m h := by
  induction ks generalizing h with
  | nil =>
    have heq : without [] h = h := List.filter_eq_self.mpr fun e _ => decide_eq_true List.not_mem_nil
    rwa [heq] at hlin
  | cons k ks ih =>
    refine (ih (fun j hj => (hks j (List.mem_cons_of_mem _ hj)).without [k]) ?_).insert
      (hks k List.mem_cons_self)
    have heq : without ks (without [k] h) = without (k :: ks) h := by
      unfold without
      rw [List.filter_filter]
      refine List.filter_congr fun e _ => ?_
      rw [← Bool.decide_and]
      exact decide_eq_decide.mpr (by simp [not_or, and_comm])
    rwa [heq]

end

end Linearizability
