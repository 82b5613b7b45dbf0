import AssetTracker.Go.Invariants

/-!
# Goroutines and where they come from (Go service)

What the results about the publisher share: an execution starts one goroutine at
most, for the change that it committed, and a step starts a goroutine, moves one
on, or leaves all of them as they are.

Results:
1. `started_account`, `goroutine_inj`: the execution behind a goroutine.
2. `goroutines_trans`: what an outcome does to the goroutines.
-/

namespace AssetTracker.GoService

open Encoding Effects Linearizability TableLemmas StepLemmas InvariantLemmas

/-- The device that a call of the publisher is about. -/
def PublishCall.device (call : PublishCall) : Option Uuid := Uuid.parse call.deviceID

def PublishStage.isFinished : PublishStage → Bool
  | .finished _ => true
  | _ => false

/-! ## 1. The execution behind a goroutine -/

namespace GoroutineLemmas

variable {s s' : Snapshot}

/-- One element of a list has an image: it stands in one place. -/
theorem index_inj {α β : Type} {f : α → Option β} {l : List α} {b : β} (h : l.filterMap f = [b])
    {i j : Nat} {x y : α} (hx : l[i]? = some x) (hy : l[j]? = some y) (hfx : (f x).isSome = true)
    (hfy : (f y).isSome = true) : i = j := by
  induction l generalizing i j with
  | nil => cases hx
  | cons z l ih =>
    have htail : (f z).isSome = true → l.filterMap f = [] := by
      intro hz
      obtain ⟨c, hc⟩ := Option.isSome_iff_exists.mp hz
      rw [List.filterMap_cons_some hc, List.cons.injEq] at h
      exact h.2
    have himage : ∀ (k : Nat) w, l[k]? = some w → (f w).isSome = true → l.filterMap f ≠ [] := by
      intro k w hw hfw hnil
      obtain ⟨c, hc⟩ := Option.isSome_iff_exists.mp hfw
      exact List.not_mem_nil (hnil ▸ List.mem_filterMap.mpr ⟨w, List.mem_of_getElem? hw, hc⟩)
    cases i with
    | zero =>
      cases hx
      cases j with
      | zero => rfl
      | succ j => exact absurd (htail hfx) (himage j y hy hfy)
    | succ i =>
      cases j with
      | zero =>
        cases hy
        exact absurd (htail hfy) (himage i x hx hfx)
      | succ j =>
        cases hz : f z with
        | none =>
          rw [List.filterMap_cons_none hz] at h
          exact congrArg (· + 1) (ih h hx hy)
        | some c => exact absurd (htail (by rw [hz]; rfl)) (himage i x hx hfx)

/-- The account of the execution that started a goroutine. -/
theorem started_account (h : Ledger s) {p : Publication} (hp : p ∈ s.goroutines) :
    ∃ op reply c, changesOf s p.exec = [c] ∧ publishesOf s.state p.exec = [p.call] ∧
      Announces op reply c p.call := by
  have hmem : p.call ∈ publishesOf s.state p.exec := by
    rw [publishesOf_state]
    exact List.mem_filterMap.mpr ⟨(p.exec, p.call), List.mem_map_of_mem hp, if_pos rfl⟩
  -- a call that has come to its end published this, or nothing
  have settled : ∀ op r, Settled op r (changesOf s p.exec) (publishesOf s.state p.exec) →
      ∃ op reply c, changesOf s p.exec = [c] ∧ publishesOf s.state p.exec = [p.call] ∧
        Announces op reply c p.call := by
    intro op r hr
    unfold Settled at hr
    split at hr
    · next reply =>
      split at hr
      · obtain ⟨c, q, hcs, hps, hann⟩ := hr
        rw [hps, List.mem_singleton] at hmem
        exact ⟨op, reply, c, hcs, hmem ▸ hps, hmem ▸ hann⟩
      · rw [hr.2] at hmem
        cases hmem
    · rw [hr.2] at hmem
      cases hmem
  have hacc := h p.exec
  cases he : s.execs[p.exec]? with
  | none =>
    rw [he] at hacc
    rw [hacc.2] at hmem
    cases hmem
  | some e =>
    rw [he] at hacc
    cases e with
    | returned op r => exact settled op r hacc
    | running op st =>
      cases st with
      | done r => exact settled op r hacc
      | announcing call reply =>
        rw [hacc.1] at hmem
        cases hmem
      | drawing _ _ | saving _ | listing | getting _ | findingToUpdate _ _ _ | updating _
      | findingToDelete _ | deleting _ _ =>
        rw [hacc.2.2] at hmem
        cases hmem

/-- An execution starts one goroutine at most. -/
theorem goroutine_inj (h : Ledger s) {g g' : Nat} {p p' : Publication}
    (hp : s.goroutines[g]? = some p) (hp' : s.goroutines[g']? = some p')
    (hexec : p.exec = p'.exec) : g = g' := by
  obtain ⟨op, reply, c, -, hps, -⟩ := started_account h (List.mem_of_getElem? hp)
  rw [publishesOf_state, List.filterMap_map] at hps
  exact index_inj hps hp hp' (by simp) (by simp [hexec])

theorem commit_of_changesOf {i : Nat} {c : Change} (h : changesOf s i = [c]) :
    (i, c) ∈ s.commits := by
  have hmem : c ∈ changesOf s i := h ▸ List.mem_singleton_self c
  obtain ⟨⟨j, c'⟩, hp, hc⟩ := List.mem_filterMap.mp hmem
  split at hc
  · next hj =>
    cases hc
    exact hj ▸ hp
  · cases hc

theorem announces_device {op : Op} {reply : Reply} {c : Change} {call : PublishCall}
    (h : Announces op reply c call) : call.device = some c.uuid := by
  cases h with
  | created hid => exact hid
  | updated _ hid => exact hid
  | deleted hid => exact hid

theorem finished_stage {p : Publication} {st : PublishStage} (h : p.stage = some st) :
    p.goroutine.finished = st.isFinished := by
  rw [Publication.goroutine, h, Option.map_some, PublishStage.prog_eq]
  cases st <;> rfl

/-! ## 2. Steps -/

/-- An outcome moves a goroutine on, starts one, or leaves all of them, and the topic,
as they are. -/
theorem goroutines_trans {a : Action} (h : Trans s a s') :
    PublisherTrans s a s' ∨
    (∃ i op call reply, At s i op (.announcing call reply) ∧
      s' = (s.goOn i (.running op (.done (.ok reply)))).spawn (Publication.start i call)) ∨
    (s'.goroutines = s.goroutines ∧ s'.topic = s.topic ∧ (s'.writerOpen = true → s.writerOpen = true) ∧
      ∃ cs, s'.commits = s.commits ++ cs) := by
  cases h with
  | publisher hp => exact .inl hp
  | announced hat => exact .inr (.inl ⟨_, _, _, _, hat, rfl⟩)
  | called | drew | failed | listed | got | absent | refused | foundToUpdate | foundToDelete
  | returned => exact .inr (.inr ⟨rfl, rfl, id, [], (List.append_nil _).symm⟩)
  | saved | updated | deleted => exact .inr (.inr ⟨rfl, rfl, id, _, rfl⟩)
  | lifecycle hl =>
    cases hl with
    | signal hphase | shutdown hphase | close hphase | exit hphase =>
      refine .inr (.inr ⟨rfl, rfl, ?_, [], (List.append_nil _).symm⟩)
      simp [StateOf.writerOpen, hphase]

/-- Something that a goroutine of an execution keeps when it is moved on. -/
theorem exists_resume {P : Publication → Prop} {g i : Nat} {p p' : Publication}
    (hp : s.goroutines[g]? = some p) (hexec : p'.exec = p.exec) (hP : P p → P p')
    (h : ∃ q ∈ s.goroutines, q.exec = i ∧ P q) : ∃ q ∈ s.goroutines.set g p', q.exec = i ∧ P q := by
  obtain ⟨q, hq, hqi, hPq⟩ := h
  obtain ⟨k, hk⟩ := List.mem_iff_getElem?.mp hq
  by_cases hkg : k = g
  · subst hkg
    cases hp.symm.trans hk
    refine ⟨p', List.mem_iff_getElem?.mpr ⟨k, ?_⟩, hexec.trans hqi, hP hPq⟩
    rw [List.getElem?_set_self', hk]
    rfl
  · exact ⟨q, List.mem_iff_getElem?.mpr ⟨k, by rw [List.getElem?_set_ne (Ne.symm hkg), hk]⟩, hqi, hPq⟩

end GoroutineLemmas

end AssetTracker.GoService
