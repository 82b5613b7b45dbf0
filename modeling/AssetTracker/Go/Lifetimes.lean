import AssetTracker.Lib.TwoPhase
import AssetTracker.Go.Events
import AssetTracker.Go.Readback

/-!
# The life of a device (Go service)

A device is inserted once and deleted once. The ids in the table are therefore those
that were inserted and not deleted, in whatever order one looks at the commits. Once a
deletion has returned, no later call has to do with the device; and as long as it lives,
all calls show it with the creation time that it was inserted with.

Results:
1. `edits_run`: the ids in the table, as a set whose elements come once and go once.
2. `deleted_gone`: calls after a deletion.
3. `creation_time_fixed`: creation times.
-/

namespace AssetTracker.GoService

open Encoding Effects Linearizability TwoPhase TableLemmas InvariantLemmas GoroutineLemmas EventLemmas

variable {t₀ : Table} {s s' : Snapshot} {a : Action} {u : Uuid} {i j : Nat} {op : Op} {reply : Reply}
  {d : Device}

/-! ## Definitions -/

/-- What a change does to the set of ids. -/
def Change.edit? : Change → Option (Edit Uuid)
  | .inserted r => some (.add r.id)
  | .updated _ _ => none
  | .deleted r => some (.remove r.id)

/-- What the commits did to the set of ids. -/
def edits {E G : Type} (s : StateOf E G) : List (Edit Uuid) :=
  s.commits.filterMap fun p => p.2.edit?

/-- The ids of a table. -/
def Table.idSet (t : Table) : Set Uuid := {u | u ∈ t.ids}

/-- The devices that a caller is shown. -/
def Reply.shown : Reply → List Device
  | .device d => [d]
  | .devices ds => ds
  | .done => []

/-- A successful call has to do with the device `u`: it shows it, or has deleted it. -/
def Concerns (u : Uuid) (op : Op) (reply : Reply) : Prop :=
  (∃ d ∈ reply.shown, Uuid.parse d.id = some u) ∨ ∃ id, op = .delete id ∧ Uuid.parse id = some u

/-- The device `u` was inserted with the creation time `c`, or had it at the start. -/
def BornAt (t₀ : Table) (s : Snapshot) (u : Uuid) (c : Int) : Prop :=
  ∃ r : Row, (r ∈ t₀.rows ∨ ∃ i, (i, Change.inserted r) ∈ s.commits) ∧ r.id = u ∧ r.createdAt = c

/-! ## 1. The ids in the table -/

namespace LifetimeLemmas

theorem idSet_insert {r : Row} {hr : r.id ∉ s.table.ids} :
    (s.table.insert r hr).idSet = insert r.id s.table.idSet := by
  ext v
  simp [Table.idSet, or_comm]

theorem idSet_delete : (s.table.delete u).idSet = s.table.idSet \ {u} := by
  ext v
  exact mem_ids_delete

theorem edits_commit {e : Standing} {table : Table} {c : Change} :
    edits ((s.goOn i e).commit i table [c]) = edits s ++ c.edit?.toList := by
  rw [edits, StateOf.commit_commits, StateOf.goOn_commits, List.filterMap_append, edits]
  cases c <;> rfl

theorem mem_edits_add : .add u ∈ edits s ↔ ∃ i r, (i, Change.inserted r) ∈ s.commits ∧ r.id = u := by
  rw [edits, List.mem_filterMap]
  constructor
  · rintro ⟨⟨i, c⟩, hc, hedit⟩
    cases c <;> cases hedit
    exact ⟨i, _, hc, rfl⟩
  · rintro ⟨i, r, hc, rfl⟩
    exact ⟨_, hc, rfl⟩

theorem mem_edits_remove : .remove u ∈ edits s ↔ ∃ i r, (i, Change.deleted r) ∈ s.commits ∧ r.id = u := by
  rw [edits, List.mem_filterMap]
  constructor
  · rintro ⟨⟨i, c⟩, hc, hedit⟩
    cases c <;> cases hedit
    exact ⟨i, _, hc, rfl⟩
  · rintro ⟨i, r, hc, rfl⟩
    exact ⟨_, hc, rfl⟩

/-- An added id was born. -/
theorem born_of_add (h : .add u ∈ edits s) : u ∈ born t₀ s := by
  obtain ⟨i, r, hc, rfl⟩ := mem_edits_add.mp h
  exact List.mem_append_right _ (List.mem_filterMap.mpr ⟨_, hc, rfl⟩)

/-- A removed id is dead. -/
theorem dead_of_deleted {r : Row} (h : (i, Change.deleted r) ∈ s.commits) : r.id ∈ dead s :=
  List.mem_filterMap.mpr ⟨_, h, rfl⟩

end LifetimeLemmas

open LifetimeLemmas

/-- The commits edit the set of ids legally, and lead to the ids in the table. -/
structure Edited (t₀ : Table) (s : Snapshot) : Prop where
  legal : Legal t₀.idSet (edits s)
  current : s.table.idSet = play t₀.idSet (edits s)

theorem edited_trans (hids : Ids t₀ s) (h : Edited t₀ s) (ht : Trans s a s') : Edited t₀ s' := by
  have same : ∀ {s' : Snapshot}, s'.table = s.table → s'.commits = s.commits → Edited t₀ s' := by
    intro s' htable hcommits
    have hedits : edits s' = edits s := by rw [edits, hcommits, edits]
    exact ⟨hedits ▸ h.legal, by rw [htable, hedits, h.current]⟩
  cases ht with
  | @saved i op d order u hat hid hu =>
    obtain ⟨v, hv, -, hnew⟩ := hids.saving i op d hat
    obtain rfl := parse_of_id hv hid
    refine ⟨?_, ?_⟩
    · rw [edits_commit]
      exact h.legal.add (fun hold => hnew (List.mem_append_left _ hold)) fun hadd =>
        hnew (born_of_add hadd)
    · rw [edits_commit, StateOf.commit_table, idSet_insert, h.current]
      exact (play_snoc (.add u)).symm
  | updated hat hid hr =>
    refine ⟨?_, ?_⟩
    · rw [edits_commit]
      exact (List.append_nil (edits s)).symm ▸ h.legal
    · rw [edits_commit, StateOf.commit_table, Table.idSet, ids_update]
      exact (List.append_nil (edits s)).symm ▸ h.current
  | @deleted i op id name order u r hat hid hr =>
    obtain rfl := id_of_find hr
    have hmem : r.id ∈ s.table.idSet := mem_ids_of_find hr
    refine ⟨?_, ?_⟩
    · rw [edits_commit]
      exact h.legal.remove (h.current ▸ hmem)
    · rw [edits_commit, StateOf.commit_table, idSet_delete, h.current]
      exact (play_snoc (.remove r.id)).symm
  | called | drew | failed | listed | got | absent | refused | foundToUpdate | foundToDelete
  | announced | returned => exact same rfl rfl
  | publisher hp => exact same (publisher_sameStore hp).table (publisher_sameStore hp).commits
  | lifecycle hl => exact same (lifecycle_sameStore hl).table (lifecycle_sameStore hl).commits

theorem edited_start (t₀ : Table) (clock : Instant) : Edited t₀ (StateOf.start t₀ clock) :=
  ⟨.nil, rfl⟩

/-- What is known of the ids after a run. -/
theorem edits_run {clock : Instant} {as : List Action} {s : State} (h : Reaches t₀ clock as s) :
    ∃ t : Snapshot, s = t.state ∧ Ids t₀ t ∧ Ledger t ∧ t.table.idSet = live t₀.idSet (edits t) := by
  obtain ⟨t, rfl, hids, hl, he⟩ := trans_induction
    (P := fun _ t => Ids t₀ t ∧ Ledger t ∧ Edited t₀ t)
    ⟨ids_start t₀ clock, ledger_start t₀ clock, edited_start t₀ clock⟩
    (fun _ _ _ _ ⟨hids, hl, he⟩ ht =>
      ⟨ids_trans hids ht, ledger_trans hl ht, edited_trans hids he ht⟩) h
  exact ⟨t, rfl, hids, hl, he.current.trans (play_eq_live he.legal)⟩

/-! ## 2. After a deletion -/

namespace LifetimeLemmas

theorem microseconds_device (r : Row) : microseconds r.device.createdAt = r.createdAt :=
  Int.mul_ediv_cancel _ (by decide)

/-- A result that is known after a step was known before, or it shows rows of the table as
it is after the step; and a deletion had its row before. -/
theorem shown_trans (hids : Ids t₀ s) (hl : Ledger s) (ht : Trans s a s')
    (h : HasResult s' j op (.ok reply)) : HasResult s j op (.ok reply) ∨
      (∀ d ∈ reply.shown, ∃ r ∈ s'.table.rows,
        d.id = r.id.toString ∧ r.createdAt = microseconds d.createdAt) ∧
      ∀ id u, op = .delete id → Uuid.parse id = some u → u ∈ s.table.ids := by
  have row : ∀ {r : Row}, r ∈ s.table.rows → ∃ q ∈ s.table.rows,
      r.device.id = q.id.toString ∧ q.createdAt = microseconds r.device.createdAt :=
    fun hr => ⟨_, hr, rfl, (microseconds_device _).symm⟩
  cases ht with
  | called =>
    refine hasResult_call h fun hnew => ?_
    obtain ⟨-, e, he⟩ := hasResult_start hnew
    cases he
  | drew => exact hasResult_goOn (s := s) h fun _ hnew => by cases hnew
  | failed | absent | refused => exact hasResult_goOn h fun _ hnew => by cases hnew
  | foundToUpdate | foundToDelete => exact hasResult_goOn h fun _ hnew => by cases hnew
  | @saved i op d order u hat hid hu =>
    refine hasResult_goOn (s := s) h fun _ hnew => ?_
    cases hnew
    obtain ⟨⟨rfl, -⟩, -⟩ := hl.at_query hat rfl
    obtain ⟨v, hv, -⟩ := hids.saving _ _ _ hat
    obtain rfl := parse_of_id hv hid
    refine ⟨fun d' hd' => ?_, nofun⟩
    obtain rfl := List.mem_singleton.mp hd'
    exact ⟨_, List.mem_append_right _ List.mem_cons_self, hv, rfl⟩
  | listed hat hperm =>
    refine hasResult_goOn h fun _ hnew => ?_
    cases hnew
    obtain ⟨rfl, -⟩ := hl.at_query hat rfl
    refine ⟨fun d hd => ?_, nofun⟩
    obtain ⟨r, hr, rfl⟩ := List.mem_map.mp hd
    exact row (hperm.mem_iff.mp hr)
  | got hat hid hr =>
    refine hasResult_goOn h fun _ hnew => ?_
    cases hnew
    obtain ⟨rfl, -⟩ := hl.at_query hat rfl
    refine ⟨fun d hd => ?_, nofun⟩
    obtain rfl := List.mem_singleton.mp hd
    exact row (find_some.mp hr).1
  | @updated i op d order u r hat hid hr =>
    refine hasResult_goOn (s := s) h fun _ hnew => ?_
    cases hnew
    obtain ⟨⟨_, rfl, -⟩, -⟩ := hl.at_query hat rfl
    refine ⟨fun d' hd' => ?_, nofun⟩
    obtain rfl := List.mem_singleton.mp hd'
    -- the device that is saved has the creation time that was read
    obtain ⟨v, hv, -, hcreated⟩ := hids.updating _ _ _ hat
    obtain rfl := parse_of_id hv hid
    have hfind : (s.table.update u d'.name d'.type).find u =
        some { r with name := d'.name, type := d'.type } := by
      rw [find_update, hr, Option.map_some, renamed_of_find hr]
    obtain ⟨hmem, -⟩ := find_some.mp hfind
    refine ⟨_, hmem, ?_, ?_⟩
    · rw [hv, id_of_find hr]
    · rw [← hcreated r hr, microseconds_device]
  | deleted hat hid hr =>
    refine hasResult_goOn (s := s) h fun _ hnew => ?_
    cases hnew
    obtain ⟨rfl, -⟩ := hl.at_query hat rfl
    refine ⟨nofun, fun id' u hop hu => ?_⟩
    cases hop
    rw [hid, Option.some.injEq] at hu
    exact hu ▸ mem_ids_of_find hr
  | @announced i op call reply hat =>
    exact .inl (hasResult_same (s := s) (e := .running op (.done (.ok reply))) hat rfl h)
  | @returned i op r hat => exact .inl (hasResult_same (s := s) (e := .returned op r) hat rfl h)
  | publisher hp =>
    obtain ⟨e, he, hout⟩ := h
    exact .inl ⟨e, (publisher_sameStore hp).execs ▸ he, hout⟩
  | lifecycle hl =>
    obtain ⟨e, he, hout⟩ := h
    exact .inl ⟨e, (lifecycle_sameStore hl).execs ▸ he, hout⟩

theorem dead_trans (ht : Trans s a s') (h : u ∈ dead s) : u ∈ dead s' := by
  obtain ⟨p, hp, hu⟩ := List.mem_filterMap.mp h
  exact List.mem_filterMap.mpr ⟨p, commits_trans ht hp, hu⟩

end LifetimeLemmas

/-- The device is deleted, and no call from number `n` on has to do with it. -/
structure Gone (n : Nat) (u : Uuid) (s : Snapshot) : Prop where
  dead : u ∈ dead s
  silent : ∀ j op reply, n ≤ j → HasResult s j op (.ok reply) → ¬ Concerns u op reply

theorem gone_trans {n : Nat} (hids : Ids t₀ s) (hl : Ledger s) (h : Gone n u s) (ht : Trans s a s') :
    Gone n u s' := by
  have hdead := dead_trans ht h.dead
  refine ⟨hdead, fun j op reply hj hout hc => ?_⟩
  rcases shown_trans hids hl ht hout with hout | ⟨hshown, hdelete⟩
  · exact h.silent j op reply hj hout hc
  · rcases hc with ⟨d, hd, hu⟩ | ⟨id, hop, hu⟩
    · obtain ⟨r, hr, hid, -⟩ := hshown d hd
      obtain rfl := parse_of_id hid hu
      exact ((ids_trans hids ht).dead_gone r.id hdead).2 (List.mem_map_of_mem hr)
    · exact (hids.dead_gone u h.dead).2 (hdelete id u hop hu)

/-- Once a deletion has returned success, the device is gone: it is never in the table again,
no later call returns it, alone or in a list, or updates it, and none deletes it a second
time. -/
theorem deleted_gone {clock : Instant} {as bs : List Action} {s₁ s : State} {id : String}
    (h₁ : Reaches t₀ clock as s₁)
    (hdeleted : s₁.execs[i]? = some (.returned (.delete id) (.ok .done)))
    (hu : Uuid.parse id = some u) (h : Machine.run step s₁ bs = some s) :
    u ∉ s.table.ids ∧ ∀ (j : Nat) op reply, s₁.execs.length ≤ j →
      s.execs[j]? = some (.returned op (.ok reply)) → ¬ Concerns u op reply := by
  obtain ⟨t₁, rfl, hids, hl, -⟩ := snapshot_run h₁
  have hdead : u ∈ dead t₁ := by
    obtain ⟨c, hcs, hann⟩ : ∃ c, changesOf t₁ i = [c] ∧ ∃ call, Announces (.delete id) .done c call := by
      simp only [StateOf.state, List.getElem?_map, Option.map_eq_some_iff] at hdeleted
      obtain ⟨e, he, heq⟩ := hdeleted
      cases e with
      | running op' st => cases heq
      | returned op' r' =>
        cases heq
        have hacc := hl i
        rw [he] at hacc
        obtain ⟨c, call, hcs, -, hann⟩ := hacc
        exact ⟨c, hcs, call, hann⟩
    obtain ⟨call, hann⟩ := hann
    cases hann with
    | deleted hid =>
      rw [hu, Option.some.injEq] at hid
      exact hid ▸ dead_of_deleted (commit_of_changesOf hcs)
  have hstart : Gone t₁.state.execs.length u t₁ := by
    refine ⟨hdead, fun j op reply hj hout _ => ?_⟩
    obtain ⟨e, he, -⟩ := hout
    rw [StateOf.state, List.length_map] at hj
    rw [List.getElem?_eq_none hj] at he
    cases he
  obtain ⟨t, rfl, hids', -, hgone⟩ : ∃ t, s = StateOf.state t ∧
      Ids t₀ t ∧ Ledger t ∧ Gone t₁.state.execs.length u t := by
    refine trans_run (P := fun _ t => Ids t₀ t ∧ Ledger t ∧ Gone t₁.state.execs.length u t)
      ⟨hids, hl, hstart⟩ ?_ h
    rintro as t a t' ⟨hids, hl, hg⟩ ht
    exact ⟨ids_trans hids ht, ledger_trans hl ht, gone_trans hids hl hg ht⟩
  exact ⟨(hids'.dead_gone u hgone.dead).2,
    fun j op reply hj hret => hgone.silent j op reply hj (hasResult_of_returned hret)⟩

/-- A device is created and deleted, and looked up. -/
def deleteThenGet : List Action × List Action :=
  let row : Row := ⟨Uuid.numbered 10, "laptop", "computer", 0⟩
  ([.call (.create "laptop" "computer"), .draw 0 ⟨Uuid.numbered 10, 1⟩, .sql 0 none [], .go 0, .ret 0,
    .call (.delete row.id.toString), .sql 1 none [row], .sql 1 none [row], .go 1, .ret 1],
    [.call .list, .sql 2 none [], .ret 2])

theorem deleted_gone_list : ∃ s₁ s, Reaches Table.empty 0 deleteThenGet.1 s₁ ∧
    Machine.run step s₁ deleteThenGet.2 = some s ∧
    s.execs[2]? = some (.returned .list (.ok (.devices []))) ∧
    ¬ Concerns (Uuid.numbered 10) .list (.devices []) := by
  obtain ⟨s₁, s, h₁, hdeleted, hlength, h, hlist⟩ : ∃ s₁ s,
      Reaches Table.empty 0 deleteThenGet.1 s₁ ∧
      s₁.execs[1]? = some (.returned (.delete (Uuid.numbered 10).toString) (.ok .done)) ∧
      s₁.execs.length = 2 ∧ Machine.run step s₁ deleteThenGet.2 = some s ∧
      s.execs[2]? = some (.returned .list (.ok (.devices []))) := ⟨_, _, rfl, rfl, rfl, rfl, rfl⟩
  refine ⟨s₁, s, h₁, h, hlist, ?_⟩
  exact (deleted_gone h₁ hdeleted (Uuid.parse_toString _) h).2 2 _ _ (Nat.le_of_eq hlength) hlist

/-! ## 3. Creation times -/

/-- The rows, and the devices that are shown, were born with their creation times. -/
structure Dated (t₀ : Table) (s : Snapshot) : Prop where
  rows : ∀ r ∈ s.table.rows, BornAt t₀ s r.id r.createdAt
  shown : ∀ j op reply, HasResult s j op (.ok reply) → ∀ d ∈ reply.shown,
    ∃ u, d.id = u.toString ∧ BornAt t₀ s u (microseconds d.createdAt)

namespace LifetimeLemmas

theorem bornAt_trans {c : Int} (ht : Trans s a s') (h : BornAt t₀ s u c) : BornAt t₀ s' u c := by
  obtain ⟨r, hr, hu⟩ := h
  exact ⟨r, hr.imp_right fun ⟨i, hi⟩ => ⟨i, commits_trans ht hi⟩, hu⟩

/-- A device has one creation time. -/
theorem bornAt_unique {c c' : Int} (hids : Ids t₀ s) (h : BornAt t₀ s u c) (h' : BornAt t₀ s u c') :
    c = c' := by
  obtain ⟨r, hr, hru, rfl⟩ := h
  obtain ⟨r', hr', hru', rfl⟩ := h'
  obtain ⟨-, hinserted, hdisjoint⟩ := List.nodup_append.mp hids.born_nodup
  have inserted : ∀ {q : Row}, (∃ i, (i, Change.inserted q) ∈ s.commits) →
      q.id ∈ s.commits.filterMap insertedId := by
    rintro q ⟨i, hi⟩
    exact List.mem_filterMap.mpr ⟨_, hi, rfl⟩
  rcases hr with hr | hr
  · rcases hr' with hr' | hr'
    · have hfind := find_some.mpr ⟨hr, hru⟩
      rw [find_some.mpr ⟨hr', hru'⟩, Option.some.injEq] at hfind
      rw [hfind]
    · exact absurd (hru.trans hru'.symm)
        (hdisjoint _ (List.mem_map_of_mem hr) _ (inserted hr'))
  · rcases hr' with hr' | hr'
    · exact absurd (hru'.trans hru.symm)
        (hdisjoint _ (List.mem_map_of_mem hr') _ (inserted hr))
    · obtain ⟨i, hi⟩ := hr
      obtain ⟨i', hi'⟩ := hr'
      have heq := filterMap_inj hinserted hi hi' rfl (congrArg some (hru'.trans hru.symm))
      cases heq
      rfl

/-- Every outcome keeps ids and creation times of the rows. -/
theorem rows_bornAt (h : ∀ r ∈ s.table.rows, BornAt t₀ s r.id r.createdAt) (ht : Trans s a s') :
    ∀ r ∈ s'.table.rows, BornAt t₀ s' r.id r.createdAt := by
  have kept : s'.table.rows ⊆ s.table.rows → ∀ r ∈ s'.table.rows, BornAt t₀ s' r.id r.createdAt :=
    fun hsub r hr => bornAt_trans ht (h r (hsub hr))
  cases ht with
  | saved =>
    intro r hr
    rcases List.mem_append.mp hr with hr | hr
    · obtain ⟨q, hq, heq⟩ := h r hr
      exact ⟨q, hq.imp_right fun ⟨i, hi⟩ => ⟨i, List.mem_append_left _ hi⟩, heq⟩
    · obtain rfl := List.mem_singleton.mp hr
      exact ⟨_, .inr ⟨_, List.mem_append_right _ List.mem_cons_self⟩, rfl, rfl⟩
  | updated hat hid hr =>
    intro r' hr'
    obtain ⟨r₀, hr₀, rfl⟩ := List.mem_map.mp hr'
    obtain ⟨q, hq, hqu, hqc⟩ := h r₀ hr₀
    refine ⟨q, hq.imp_right fun ⟨i, hi⟩ => ⟨i, List.mem_append_left _ hi⟩, ?_, ?_⟩
    · rw [hqu, renamed_id]
    · rw [hqc]
      unfold Row.renamed
      split <;> rfl
  | deleted => exact kept List.filter_sublist.subset
  | publisher hp => exact kept ((publisher_sameStore hp).table ▸ List.Subset.refl _)
  | lifecycle hl => exact kept ((lifecycle_sameStore hl).table ▸ List.Subset.refl _)
  | _ => exact kept (List.Subset.refl _)

end LifetimeLemmas

theorem dated_trans (hids : Ids t₀ s) (hl : Ledger s) (h : Dated t₀ s) (ht : Trans s a s') :
    Dated t₀ s' := by
  have hrows := rows_bornAt h.rows ht
  refine ⟨hrows, fun j op reply hout d hd => ?_⟩
  rcases shown_trans hids hl ht hout with hout | ⟨hshown, -⟩
  · obtain ⟨u, hu, hborn⟩ := h.shown j op reply hout d hd
    exact ⟨u, hu, bornAt_trans ht hborn⟩
  · obtain ⟨r, hr, hid, hcreated⟩ := hshown d hd
    exact ⟨r.id, hid, hcreated ▸ hrows r hr⟩

/-- A device has one creation time for as long as the service runs: to the microsecond, it is
the same in the answers of any two calls that show the device, and in its row. -/
theorem creation_time_fixed {clock : Instant} {as : List Action} {s : State}
    (h : Reaches t₀ clock as s) (hi : s.execs[i]? = some (.returned op (.ok reply)))
    (hd : d ∈ reply.shown) :
    (∀ (j : Nat) op' reply', s.execs[j]? = some (.returned op' (.ok reply')) →
      ∀ d' ∈ reply'.shown, d'.id = d.id → microseconds d'.createdAt = microseconds d.createdAt) ∧
    ∀ r ∈ s.table.rows, r.id.toString = d.id → r.createdAt = microseconds d.createdAt := by
  have hstart : Dated t₀ (StateOf.start t₀ clock) := by
    refine ⟨fun r hr => ⟨r, .inl hr, rfl, rfl⟩, ?_⟩
    rintro j op reply ⟨e, he, -⟩
    cases he
  obtain ⟨t, rfl, hids, -, hdated⟩ := trans_induction
    (P := fun _ t => Ids t₀ t ∧ Ledger t ∧ Dated t₀ t)
    ⟨ids_start t₀ clock, ledger_start t₀ clock, hstart⟩
    (fun _ _ _ _ ⟨hids, hl, hd⟩ ht =>
      ⟨ids_trans hids ht, ledger_trans hl ht, dated_trans hids hl hd ht⟩) h
  obtain ⟨u, hu, hborn⟩ := hdated.shown i op reply (hasResult_of_returned hi) d hd
  constructor
  · intro j op' reply' hj d' hd' hid
    obtain ⟨u', hu', hborn'⟩ := hdated.shown j op' reply' (hasResult_of_returned hj) d' hd'
    obtain rfl : u' = u := Uuid.toString_injective (hu'.symm.trans (hid.trans hu))
    exact bornAt_unique hids hborn' hborn
  · intro r hr hid
    obtain rfl : r.id = u := Uuid.toString_injective (hid.trans hu)
    exact bornAt_unique hids (hdated.rows r hr) hborn

/-- The creation and the lookup of a device, whose times differ by a nanosecond. -/
theorem creation_time_fixed_laptop : ∃ s, ∃ d d' : Device,
    Reaches Table.empty 0 (createLaptop ++ getLaptop) s ∧
    s.execs[0]? = some (.returned (.create "laptop" "computer") (.ok (.device d))) ∧
    s.execs[1]? = some (.returned (.get uuid₁.toString) (.ok (.device d'))) ∧
    d'.createdAt ≠ d.createdAt ∧ microseconds d'.createdAt = microseconds d.createdAt := by
  obtain ⟨s, d, d', hrun, h₀, h₁, hid, hne⟩ : ∃ s, ∃ d d' : Device,
      Reaches Table.empty 0 (createLaptop ++ getLaptop) s ∧
      s.execs[0]? = some (.returned (.create "laptop" "computer") (.ok (.device d))) ∧
      s.execs[1]? = some (.returned (.get uuid₁.toString) (.ok (.device d'))) ∧
      d'.id = d.id ∧ d'.createdAt ≠ d.createdAt :=
    ⟨_, ⟨uuid₁.toString, "laptop", "computer", 1⟩, ⟨uuid₁.toString, "laptop", "computer", 0⟩, rfl, rfl,
      rfl, rfl, by decide⟩
  have hfixed := (creation_time_fixed hrun h₀ (List.mem_singleton_self d)).1
  exact ⟨s, d, d', hrun, h₀, h₁, hne, hfixed 1 _ _ h₁ d' (List.mem_singleton_self d') hid⟩

end AssetTracker.GoService
