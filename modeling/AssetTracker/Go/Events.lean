import AssetTracker.Go.Goroutines
import AssetTracker.Go.Linearizable

/-!
# One event per committed change (Go service)

Whatever fails and however executions interleave: a call that returned success
changed exactly one row and started exactly one call of the publisher, of the same
kind; a call that returned an error did neither.

Results:
1. `replays_trans`: the commits, one after another, lead from the initial table to
   the table; no step changes a row without a commit.
2. `one_event_per_change`: the accounts of the executions that returned, and what
   follows for a device: one `PublishDeviceCreated` and one `PublishDeviceDeleted`
   at most, and nothing for a device that never was in the table.
-/

namespace AssetTracker.GoService

open Encoding Effects Linearizability TableLemmas StepLemmas InvariantLemmas GoroutineLemmas

/-! ## Definitions -/

inductive EventKind where
  | created
  | updated
  | deleted
deriving DecidableEq

def PublishCall.kind : PublishCall → EventKind
  | .created .. => .created
  | .updated .. => .updated
  | .deleted .. => .deleted

/-- The device was in the initial table, or an execution inserted it. -/
def WasStored (t₀ : Table) (s : State) (u : Uuid) : Prop :=
  u ∈ t₀.ids ∨ ∃ i r, (i, Change.inserted r) ∈ s.commits ∧ r.id = u

/-! ## 1. The commits tell the table -/

theorem replays_trans {t₀ : Table} {s s' : Snapshot} {a : Action}
    (h : Replays t₀ (s.commits.map Prod.snd) s.table) (ht : Trans s a s') :
    Replays t₀ (s'.commits.map Prod.snd) s'.table := by
  have commit : ∀ (e : Standing) (i : Nat) (table : Table) (c : Change), c.Makes s.table table →
      Replays t₀ (((s.goOn i e).commit i table [c]).commits.map Prod.snd) table := by
    intro e i table c hc
    simp only [StateOf.commit_commits, StateOf.goOn_commits, List.map_append, List.map_cons,
      List.map_nil]
    exact h.snoc hc
  cases ht with
  | saved hat hid hu => exact commit _ _ _ _ ⟨hu, rfl⟩
  | updated hat hid hr => exact commit _ _ _ _ (update_makes hr)
  | deleted hat hid hr => exact commit _ _ _ _ (delete_makes hr)
  | called | drew | failed | listed | got | absent | refused | foundToUpdate | foundToDelete
  | announced | returned => exact h
  | publisher hp =>
    have hf := publisher_sameStore hp
    rw [hf.commits, hf.table]
    exact h
  | lifecycle hl =>
    have hf := lifecycle_sameStore hl
    rw [hf.commits, hf.table]
    exact h

/-! ## 2. One event per change -/

namespace EventLemmas

variable {t₀ : Table} {s : Snapshot}

theorem filterMap_inj {α β : Type} {f : α → Option β} {l : List α} (h : (l.filterMap f).Nodup)
    {x y : α} {b : β} (hx : x ∈ l) (hy : y ∈ l) (hfx : f x = some b) (hfy : f y = some b) :
    x = y := by
  induction l with
  | nil => cases hx
  | cons z l ih =>
    rcases List.mem_cons.mp hx with rfl | hx'
    · rcases List.mem_cons.mp hy with rfl | hy'
      · rfl
      · rw [List.filterMap_cons_some hfx, List.nodup_cons] at h
        exact absurd (List.mem_filterMap.mpr ⟨y, hy', hfy⟩) h.1
    · rcases List.mem_cons.mp hy with rfl | hy'
      · rw [List.filterMap_cons_some hfy, List.nodup_cons] at h
        exact absurd (List.mem_filterMap.mpr ⟨x, hx', hfx⟩) h.1
      · exact ih (h.sublist ((List.sublist_cons_self z l).filterMap f)) hx' hy'

/-- Two insertions, or two deletions, of one device are one. -/
theorem same_exec (h : Ids t₀ s) {i j : Nat} {c c' : Change} {op op' : Op} {reply reply' : Reply}
    {call call' : PublishCall} (hi : (i, c) ∈ s.commits) (hj : (j, c') ∈ s.commits)
    (hc : Announces op reply c call) (hc' : Announces op' reply' c' call')
    (hkind : call.kind = call'.kind) (hne : call.kind ≠ .updated)
    (hdevice : call.device = call'.device) : i = j := by
  cases hc with
  | updated => exact absurd rfl hne
  | created hid =>
    cases hc' with
    | updated | deleted => cases hkind
    | created hid' =>
      have hu := hid.symm.trans (Eq.trans hdevice hid')
      exact congrArg Prod.fst
        (filterMap_inj (List.nodup_append.mp h.born_nodup).2.1 hi hj hu rfl)
  | deleted hid =>
    cases hc' with
    | updated | created => cases hkind
    | deleted hid' =>
      have hu := hid.symm.trans (Eq.trans hdevice hid')
      exact congrArg Prod.fst (filterMap_inj h.dead_nodup hi hj hu rfl)

/-- The ids of a table are initial or inserted, and so are the ids of all changes. -/
theorem replays_ids {cs : List Change} {t : Table} (h : Replays t₀ cs t) :
    (∀ u ∈ t.ids, u ∈ t₀.ids ∨ ∃ r, Change.inserted r ∈ cs ∧ r.id = u) ∧
    ∀ c ∈ cs, c.uuid ∈ t₀.ids ∨ ∃ r, Change.inserted r ∈ cs ∧ r.id = c.uuid := by
  induction h with
  | nil => exact ⟨fun u hu => .inl hu, fun c hc => by cases hc⟩
  | @snoc cs t t' c hr hc ih =>
    have older : ∀ u, (u ∈ t₀.ids ∨ ∃ r, Change.inserted r ∈ cs ∧ r.id = u) →
        u ∈ t₀.ids ∨ ∃ r, Change.inserted r ∈ cs ++ [c] ∧ r.id = u := by
      rintro u (hu | ⟨r, hr, hru⟩)
      · exact .inl hu
      · exact .inr ⟨r, List.mem_append_left _ hr, hru⟩
    have newest : ∀ r, c = .inserted r →
        r.id ∈ t₀.ids ∨ ∃ r', Change.inserted r' ∈ cs ++ [c] ∧ r'.id = r.id := by
      rintro r rfl
      exact .inr ⟨r, List.mem_append_right _ (List.mem_singleton_self _), rfl⟩
    cases c with
    | inserted r =>
      obtain ⟨-, hrows⟩ := hc
      refine ⟨fun u hu => ?_, fun c' hc' => ?_⟩
      · rw [Table.ids, hrows, List.map_append, List.mem_append] at hu
        rcases hu with hu | hu
        · exact older u (ih.1 u hu)
        · rw [List.map_singleton, List.mem_singleton] at hu
          exact hu ▸ newest r rfl
      · rcases List.mem_append.mp hc' with hc' | hc'
        · exact older _ (ih.2 c' hc')
        · rw [List.mem_singleton] at hc'
          subst hc'
          exact newest r rfl
    | updated r r' =>
      obtain ⟨hfind, hid, -, hrows⟩ := hc
      -- an update keeps the id of its row, so the table has the same ids
      have hids : t'.ids = t.ids := by
        rw [Table.ids, hrows, List.map_map, Table.ids]
        refine List.map_congr_left fun x _ => ?_
        show (if x.id = r.id then r' else x).id = x.id
        split
        · next hx => rw [hid, hx]
        · rfl
      refine ⟨fun u hu => older u (ih.1 u (hids ▸ hu)), fun c' hc' => older _ ?_⟩
      rcases List.mem_append.mp hc' with hc' | hc'
      · exact ih.2 c' hc'
      · rw [List.mem_singleton] at hc'
        exact hc' ▸ ih.1 _ (mem_ids_of_find hfind)
    | deleted r =>
      obtain ⟨hfind, hrows⟩ := hc
      refine ⟨fun u hu => older u (ih.1 u ?_), fun c' hc' => older _ ?_⟩
      · rw [Table.ids, hrows] at hu
        exact (List.filter_sublist.map Row.id).subset hu
      · rcases List.mem_append.mp hc' with hc' | hc'
        · exact ih.2 c' hc'
        · rw [List.mem_singleton] at hc'
          exact hc' ▸ ih.1 _ (mem_ids_of_find hfind)

theorem wasStored_of_commit {i : Nat} {c : Change}
    (h : Replays t₀ (s.commits.map Prod.snd) s.table) (hc : (i, c) ∈ s.commits) :
    WasStored t₀ s.state c.uuid := by
  rcases (replays_ids h).2 c (List.mem_map_of_mem hc) with hu | ⟨r, hr, hru⟩
  · exact .inl hu
  · obtain ⟨⟨j, c'⟩, hj, rfl⟩ := List.mem_map.mp hr
    exact .inr ⟨j, r, hj, hru⟩

/-- What `one_event_per_change` needs of a snapshot. -/
theorem snapshot_run {clock : Instant} {as : List Action} {s : State}
    (h : Reaches t₀ clock as s) :
    ∃ t : Snapshot, s = t.state ∧ Ids t₀ t ∧ Ledger t ∧
      Replays t₀ (t.commits.map Prod.snd) t.table :=
  trans_induction
    (P := fun _ t => Ids t₀ t ∧ Ledger t ∧ Replays t₀ (t.commits.map Prod.snd) t.table)
    ⟨ids_start t₀ clock, ledger_start t₀ clock, .nil⟩
    (fun _ _ _ _ ⟨hids, hl, hr⟩ ht => ⟨ids_trans hids ht, ledger_trans hl ht, replays_trans hr ht⟩)
    h

end EventLemmas

open EventLemmas

/-- One event per committed change, none per failure. In every reachable state:

* the commits are the whole difference between the initial table and the table;
* an execution that returned changed and started what it should have (`Settled`);
* a device has at most one creation and one deletion announced;
* a call of the publisher is about a device that was in the table. -/
theorem one_event_per_change {t₀ : Table} {clock : Instant} {as : List Action} {s : State}
    (h : Reaches t₀ clock as s) :
    Replays t₀ (s.commits.map Prod.snd) s.table ∧
    (∀ (i : Nat) op r, s.execs[i]? = some (.returned op r) →
      Settled op r (changesOf s i) (publishesOf s i)) ∧
    (∀ (g g' : Nat) G G', s.goroutines[g]? = some G → s.goroutines[g']? = some G' →
      G.call.kind = G'.call.kind → G.call.kind ≠ .updated → G.call.device = G'.call.device →
      g = g') ∧
    ∀ G ∈ s.goroutines, ∃ u, G.call.device = some u ∧ WasStored t₀ s u := by
  obtain ⟨t, rfl, hids, hl, hreplays⟩ := snapshot_run h
  refine ⟨hreplays, ?_, ?_, ?_⟩
  · intro i op r hi
    simp only [StateOf.state, List.getElem?_map, Option.map_eq_some_iff] at hi
    obtain ⟨e, he, heq⟩ := hi
    cases e with
    | running op' st => cases heq
    | returned op' r' =>
      cases heq
      have hacc := hl i
      rwa [he] at hacc
  · intro g g' G G' hg hg' hkind hne hdevice
    obtain ⟨p, hp, rfl⟩ := publication_of_goroutine hg
    obtain ⟨p', hp', rfl⟩ := publication_of_goroutine hg'
    obtain ⟨op, reply, c, hcs, -, hann⟩ := started_account hl (List.mem_of_getElem? hp)
    obtain ⟨op', reply', c', hcs', -, hann'⟩ := started_account hl (List.mem_of_getElem? hp')
    exact goroutine_inj hl hp hp' (same_exec hids (commit_of_changesOf hcs)
      (commit_of_changesOf hcs') hann hann' hkind hne hdevice)
  · intro G hG
    obtain ⟨p, hp, rfl⟩ := List.mem_map.mp hG
    obtain ⟨op, reply, c, hcs, -, hann⟩ := started_account hl hp
    exact ⟨_, announces_device hann, wasStored_of_commit hreplays (commit_of_changesOf hcs)⟩

/-- In the race, the deletion changed a row and the update did not. -/
theorem one_event_per_change_race : ∃ s, Reaches Table.empty 0 updateLosesRace s ∧
    Settled (.update uuid₁.toString "server" "rack") (.error .notFound) (changesOf s 1)
      (publishesOf s 1) ∧
    Settled (.delete uuid₁.toString) (.ok .done) (changesOf s 2) (publishesOf s 2) := by
  obtain ⟨s, hrun, h₁, h₂⟩ : ∃ s, Reaches Table.empty 0 updateLosesRace s ∧
      s.execs[1]? = some (.returned (.update uuid₁.toString "server" "rack") (.error .notFound)) ∧
      s.execs[2]? = some (.returned (.delete uuid₁.toString) (.ok .done)) :=
    ⟨_, rfl, rfl, rfl⟩
  obtain ⟨-, hsettled, -⟩ := one_event_per_change hrun
  exact ⟨s, hrun, hsettled 1 _ _ h₁, hsettled 2 _ _ h₂⟩

end AssetTracker.GoService
