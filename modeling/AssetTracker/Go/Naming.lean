import AssetTracker.Go.Events

/-!
# The name in a deletion event (Go service)

`DeleteDeviceUseCase` reads the name of the device before it deletes the row, so that
the event names the deleted device. The two statements are not one transaction: an
`UPDATE` that commits between them renames the row, and the event still has the old
name. It is the only way to a wrong name.

Results:
1. `named_trans`: where no `UPDATE` renames a row under a pending deletion, every
   pending deletion holds the name of its row.
2. `deletions_named`: the run theorem.
3. `renamed_before_delete`: the event with the old name.
-/

namespace AssetTracker.GoService

open Encoding Effects Linearizability TableLemmas StepLemmas InvariantLemmas GoroutineLemmas
  EventLemmas

/-! ## Definitions -/

/-- Every call of `PublishDeviceDeleted` that was started belongs to an execution that
removed one row, and has the name that was in this row. -/
def DeletionsNamed (s : State) : Prop :=
  ∀ G ∈ s.goroutines, ∀ id name, G.call = .deleted id name →
    ∃ r, changesOf s G.exec = [.deleted r] ∧ Uuid.parse id = some r.id ∧ name = r.name

/-- An `UPDATE` that finds its row leaves the name as every `Delete` knows it that has read
this device and stands before its `DELETE`. The event has the name that `FindByID` read, and no
lock keeps the row between the two statements. Not every run outside of the condition goes
wrong: the device may be renamed back in time, or the `DELETE` may fail. -/
def KeepsName (s : State) : Action → Prop
  | .sql i none _ => ∀ op d u r, s.execs[i]? = some (Exec.running op (Stage.updating d).prog) →
      Uuid.parse d.id = some u → s.table.find u = some r →
      ∀ (j : Nat) op' id name, s.execs[j]? = some (Exec.running op' (Stage.deleting id name).prog) →
        Uuid.parse id = some u → d.name = name
  | _ => True

/-! ## Names of rows -/

section

variable {t : Table} {u v : Uuid} {name : String}

theorem name_insert {q : Row} {hq : q.id ∉ t.ids} (hne : v ≠ q.id)
    (h : ∀ r, t.find v = some r → r.name = name) :
    ∀ r, (t.insert q hq).find v = some r → r.name = name := by
  intro r hr
  rw [find_insert, if_neg hne] at hr
  exact h r hr

theorem name_update {newName deviceType : String} (hname : v = u → newName = name)
    (h : ∀ r, t.find v = some r → r.name = name) :
    ∀ r, (t.update u newName deviceType).find v = some r → r.name = name := by
  intro r hr
  rw [find_update, Option.map_eq_some_iff] at hr
  obtain ⟨r₀, hr₀, rfl⟩ := hr
  unfold Row.renamed
  split
  · next hu => exact hname ((id_of_find hr₀).symm.trans hu)
  · exact h r₀ hr₀

theorem name_delete (h : ∀ r, t.find v = some r → r.name = name) :
    ∀ r, (t.delete u).find v = some r → r.name = name := by
  intro r hr
  rw [find_delete] at hr
  split at hr
  · cases hr
  · exact h r hr

end

/-! ## 1. Pending deletions -/

/-- The name that an execution of `Delete` knows is the name of the row: before the
`DELETE` of the row that is there, after it of the row that it removed. -/
structure Named (t₀ : Table) (s : Snapshot) : Prop where
  pending : ∀ i op id name, At s i op (.deleting id name) →
    ∃ u, Uuid.parse id = some u ∧ u ∈ born t₀ s ∧ ∀ r, s.table.find u = some r → r.name = name
  announcing : ∀ i op id name reply, At s i op (.announcing (.deleted id name) reply) →
    ∀ r, (i, Change.deleted r) ∈ s.commits → r.name = name
  started : ∀ p ∈ s.goroutines, ∀ id name, p.call = .deleted id name →
    ∀ r, (p.exec, Change.deleted r) ∈ s.commits → r.name = name

/-- A stage at which nothing is known of a name. -/
def Standing.nameless : Standing → Bool
  | .running _ (.deleting _ _) => false
  | .running _ (.announcing (.deleted _ _) _) => false
  | _ => true

theorem nameless_start (op op' : Op) : (Standing.running op' op.start).nameless = true := by
  unfold Op.start
  cases op with
  | create name deviceType =>
    dsimp only
    split
    · rfl
    · split <;> rfl
  | list | get _ | update _ _ _ | delete _ => rfl

namespace Named

variable {t₀ : Table} {s s' : Snapshot} {i : Nat} {op : Op} {st : Stage} {e : Standing}

theorem start (t₀ : Table) (clock : Instant) : Named t₀ (StateOf.start t₀ clock) := by
  refine ⟨fun _ _ _ _ hat => absurd hat not_at_start, fun _ _ _ _ _ hat => absurd hat not_at_start,
    fun p hp => ?_⟩
  cases hp

/-- An execution goes on to a stage that knows no name. -/
theorem goOn (h : Named t₀ s) (hn : e.nameless = true) : Named t₀ (s.goOn i e) := by
  refine ⟨fun j op' id name hat => ?_, fun j op' id name reply hat => ?_, h.started⟩
  · rcases at_goOn hat with ⟨-, rfl⟩ | ⟨-, hat⟩
    · cases hn
    · exact h.pending j op' id name hat
  · rcases at_goOn hat with ⟨-, rfl⟩ | ⟨-, hat⟩
    · cases hn
    · exact h.announcing j op' id name reply hat

theorem call (h : Named t₀ s) (hn : e.nameless = true) : Named t₀ (s.call op e) := by
  refine ⟨fun j op' id name hat => ?_, fun j op' id name reply hat => ?_, h.started⟩
  · rcases at_call hat with ⟨-, rfl⟩ | ⟨-, hat⟩
    · cases hn
    · exact h.pending j op' id name hat
  · rcases at_call hat with ⟨-, rfl⟩ | ⟨-, hat⟩
    · cases hn
    · exact h.announcing j op' id name reply hat

/-- Only the table, the executions, the commits and the calls of the goroutines count. -/
theorem congr (h : Named t₀ s) (ht : s'.table = s.table) (he : s'.execs = s.execs)
    (hc : s'.commits = s.commits)
    (hg : ∀ p ∈ s'.goroutines, ∃ q ∈ s.goroutines, q.exec = p.exec ∧ q.call = p.call) :
    Named t₀ s' := by
  have hat : ∀ i op st, At s' i op st → At s i op st := by
    intro i op st hat
    rwa [At, he] at hat
  have hborn : born t₀ s' = born t₀ s := by rw [born, born, hc]
  refine ⟨?_, ?_, ?_⟩
  · intro i op id name hi
    rw [hborn, ht]
    exact h.pending i op id name (hat i op _ hi)
  · intro i op id name reply hi r hr
    exact h.announcing i op id name reply (hat i op _ hi) r (hc ▸ hr)
  · intro p hp id name hcall r hr
    obtain ⟨q, hq, hexec, hqcall⟩ := hg p hp
    exact h.started q hq id name (hqcall.trans hcall) r (hexec ▸ hc ▸ hr)

/-- An execution commits a change and goes on to announce it. The other ones still know
the names of their rows. -/
theorem commit {table : Table} {c : Change} {call : PublishCall} {reply : Reply} (h : Named t₀ s)
    (hl : Ledger s) (hat : At s i op st) (hq : st.isQuery = true)
    (htable : ∀ j op' id name u, At s j op' (.deleting id name) → Uuid.parse id = some u →
      u ∈ born t₀ s → (∀ r, s.table.find u = some r → r.name = name) →
      ∀ r, table.find u = some r → r.name = name)
    (hcall : ∀ id name r, call = .deleted id name → c = .deleted r → r.name = name) :
    Named t₀ ((s.goOn i (.running op (.announcing call reply))).commit i table [c]) := by
  obtain ⟨-, hchanges, hpublishes⟩ := hl.at_query hat hq
  have hmem : ∀ {j : Nat} {c' : Change},
      (j, c') ∈ ((s.goOn i (.running op (.announcing call reply))).commit i table [c]).commits →
      (j ≠ i ∧ (j, c') ∈ s.commits) ∨ (j = i ∧ c' = c) := by
    intro j c' hmem
    rcases List.mem_append.mp hmem with hmem | hmem
    · refine .inl ⟨fun hj => ?_, hmem⟩
      -- before its statement an execution has changed nothing
      have hnone : c' ∈ changesOf s i := List.mem_filterMap.mpr ⟨(j, c'), hmem, if_pos hj⟩
      rw [hchanges] at hnone
      cases hnone
    · cases List.mem_singleton.mp hmem
      exact .inr ⟨rfl, rfl⟩
  refine ⟨?_, ?_, ?_⟩
  · intro j op' id name hj
    rcases at_goOn hj with ⟨-, he⟩ | ⟨-, hj⟩
    · cases he
    · obtain ⟨u, hid, hborn, hrow⟩ := h.pending j op' id name hj
      refine ⟨u, hid, ?_, htable j op' id name u hj hid hborn hrow⟩
      simp only [born, StateOf.commit_commits, StateOf.goOn_commits, List.filterMap_append]
      exact List.mem_append.mpr ((List.mem_append.mp hborn).imp_right (List.mem_append_left _))
  · intro j op' id name reply' hj r hr
    rcases hmem hr with ⟨hne, hr⟩ | ⟨hji, hc⟩
    · rcases at_goOn hj with ⟨hji, -⟩ | ⟨-, hj⟩
      · exact absurd hji hne
      · exact h.announcing j op' id name reply' hj r hr
    · rcases at_goOn hj with ⟨-, he⟩ | ⟨hne, -⟩
      · cases he
        exact hcall id name r rfl hc.symm
      · exact absurd hji hne
  · intro p hp id name hpcall r hr
    rcases hmem hr with ⟨-, hr⟩ | ⟨hpi, -⟩
    · exact h.started p hp id name hpcall r hr
    · -- before its statement an execution has started nothing
      have hnone : p.call ∈ publishesOf s.state i := by
        rw [publishesOf_state]
        exact List.mem_filterMap.mpr ⟨(p.exec, p.call), List.mem_map_of_mem hp, if_pos hpi⟩
      rw [hpublishes] at hnone
      cases hnone

end Named

/-- The goroutines of a step of a publisher are those that were there. -/
theorem resume_calls {s : Snapshot} {g : Nat} {p p' : Publication} (hp : s.goroutines[g]? = some p)
    (hexec : p'.exec = p.exec) (hcall : p'.call = p.call) :
    ∀ q' ∈ (s.resume g p').goroutines, ∃ q ∈ s.goroutines, q.exec = q'.exec ∧ q.call = q'.call := by
  intro q' hq'
  rcases List.mem_or_eq_of_mem_set hq' with hmem | rfl
  · exact ⟨q', hmem, rfl, rfl⟩
  · exact ⟨p, List.mem_of_getElem? hp, hexec.symm, hcall.symm⟩

/-- A step that renames no row under a pending deletion keeps all names. -/
theorem named_trans {t₀ : Table} {s s' : Snapshot} {a : Action} (h : Named t₀ s) (hids : Ids t₀ s)
    (hl : Ledger s) (hkeeps : KeepsName s.state a) (ht : Trans s a s') : Named t₀ s' := by
  cases ht with
  | called => exact h.call (nameless_start _ _)
  | @drew i op name deviceType fresh hat =>
    exact (h.goOn (i := i) (e := .running op (.saving ⟨fresh.uuid.toString, name, deviceType,
      fresh.now⟩)) rfl).congr rfl rfl rfl fun p hp => ⟨p, hp, rfl, rfl⟩
  | failed hat => exact h.goOn rfl
  | @saved i op d order u hat hid hu =>
    refine h.commit hl hat rfl ?_ (fun _ _ _ hcall => by cases hcall)
    intro j op' id name v hj hv hborn hrow
    refine name_insert ?_ hrow
    -- the new row has an id that no row had before
    rintro rfl
    obtain ⟨w, hdw, -, hnew⟩ := hids.saving i op d hat
    exact hnew (parse_of_id hdw hid ▸ hborn)
  | listed => exact h.goOn rfl
  | got => exact h.goOn rfl
  | absent => exact h.goOn rfl
  | refused => exact h.goOn rfl
  | foundToUpdate => exact h.goOn rfl
  | @updated i op d order u r hat hid hr =>
    refine h.commit hl hat rfl ?_ (fun _ _ _ hcall => by cases hcall)
    intro j op' id name v hj hv _ hrow
    refine name_update ?_ hrow
    rintro rfl
    exact hkeeps op d v r (exec_of_at hat) hid hr j op' id name (exec_of_at hj) hv
  | @foundToDelete i op id order u r hat hid hr =>
    refine ⟨fun j op' id' name hj => ?_, fun j op' id' name reply hj => ?_, h.started⟩
    · rcases at_goOn hj with ⟨-, he⟩ | ⟨-, hj⟩
      · cases he
        refine ⟨u, hid, hids.table_born u (mem_ids_of_find hr), fun r' hr' => ?_⟩
        rw [StateOf.goOn_table, hr] at hr'
        cases hr'
        rfl
      · exact h.pending j op' id' name hj
    · rcases at_goOn hj with ⟨-, he⟩ | ⟨-, hj⟩
      · cases he
      · exact h.announcing j op' id' name reply hj
  | @deleted i op id name order u r hat hid hr =>
    refine h.commit hl hat rfl ?_ ?_
    · exact fun _ _ _ _ _ _ _ _ hrow => name_delete hrow
    · rintro id' name' r' ⟨⟩ ⟨⟩
      obtain ⟨v, hv, -, hrow⟩ := h.pending i op id name hat
      cases hid.symm.trans hv
      exact hrow r hr
  | @announced i op call reply hat =>
    have hgo := h.goOn (i := i) (e := .running op (.done (.ok reply))) rfl
    refine ⟨hgo.pending, hgo.announcing, fun p hp id name hcall r hr => ?_⟩
    rcases List.mem_append.mp hp with hp | hp
    · exact h.started p hp id name hcall r hr
    · cases List.mem_singleton.mp hp
      obtain rfl : call = .deleted id name := hcall
      exact h.announcing i op id name reply hat r hr
  | @returned i op r hat =>
    exact (h.goOn (i := i) (e := .returned op r) rfl).congr rfl rfl rfl
      fun p hp => ⟨p, hp, rfl, rfl⟩
  | publisher hp =>
    have hf := publisher_sameStore hp
    refine h.congr hf.table hf.execs hf.commits ?_
    cases hp with
    | clockRead hat => exact resume_calls hat.1 rfl rfl
    | handedOver | stored => exact fun p hp => ⟨p, hp, rfl, rfl⟩
    | wrote hat => exact resume_calls hat.1 rfl rfl
    | woke hat => exact resume_calls hat.1 rfl rfl
    | panicked hp => exact resume_calls hp rfl rfl
  | lifecycle hlife =>
    have hf := lifecycle_sameStore hlife
    refine h.congr hf.table hf.execs hf.commits ?_
    cases hlife <;> exact fun p hp => ⟨p, hp, rfl, rfl⟩

/-! ## 2. Runs -/

/-- In every run in which no `UPDATE` renames a device under a `Delete` that has read it
(`hkeeps`), the deletion events name the rows that were removed. Updates before the first
statement of the `Delete` and after the second are not excluded, nor are failures. -/
theorem deletions_named {t₀ : Table} {clock : Instant} {as : List Action} {s : State}
    (hkeeps : Machine.Guarded step KeepsName (StateOf.start t₀ clock) as)
    (h : Reaches t₀ clock as s) : DeletionsNamed s := by
  obtain ⟨t, rfl, hnamed, -, hl⟩ := guarded_trans_induction
    (P := fun _ t => Named t₀ t ∧ Ids t₀ t ∧ Ledger t)
    ⟨.start t₀ clock, ids_start t₀ clock, ledger_start t₀ clock⟩
    (fun _ _ _ _ ⟨hn, hids, hl⟩ hc ht =>
      ⟨named_trans hn hids hl hc ht, ids_trans hids ht, ledger_trans hl ht⟩) hkeeps h
  intro G hG id name hcall
  obtain ⟨p, hp, rfl⟩ := List.mem_map.mp hG
  obtain ⟨op, reply, c, hchanges, -, hann⟩ := started_account hl hp
  replace hcall : p.call = .deleted id name := hcall
  rw [hcall] at hann
  cases hann with
  | @deleted _ _ r hid =>
    exact ⟨r, hchanges, hid, (hnamed.started p hp id name hcall r
      (commit_of_changesOf hchanges)).symm⟩

/-- The statement that an execution stands before. -/
def Exec.stmt? : Exec → Option Stmt
  | .running _ (.op (.sql stmt) _) => some stmt
  | _ => none

def Stmt.isUpdate : Stmt → Bool
  | .update .. => true
  | _ => false

def Stmt.isDelete : Stmt → Bool
  | .delete _ => true
  | _ => false

/-- No `UPDATE` is executed while a `DELETE` is pending. -/
def Undisturbed (s : State) : Action → Prop
  | .sql i none _ => (s.execs[i]?.bind Exec.stmt?).any Stmt.isUpdate = false ∨
      (s.execs.all fun e => !(e.stmt?.any Stmt.isDelete)) = true
  | _ => True

instance decidableUndisturbed (s : State) : ∀ a, Decidable (Undisturbed s a)
  | .sql _ none _ => inferInstanceAs (Decidable (_ ∨ _))
  | .sql _ (some _) _ | .call _ | .draw _ _ | .go _ | .ret _ | .clock _ _ | .handOver _ | .store _
  | .write _ _ | .wake _ | .panic _ | .signal | .shutdown _ | .close | .exit => isTrue trivial

theorem Undisturbed.keepsName {s : State} {a : Action} (h : Undisturbed s a) : KeepsName s a := by
  cases a with
  | sql i fault order =>
    cases fault with
    | some f => trivial
    | none =>
      intro op d _ _ hi _ _ j op' id name hj _
      rcases h with h | h
      · rw [hi] at h
        cases h
      · have hdelete := List.all_eq_true.mp h _ (List.mem_of_getElem? hj)
        cases hdelete
  | _ => trivial

/-- The race of `updateLosesRace` renames nothing: its `UPDATE` comes after the `DELETE`. -/
theorem deletions_named_race : ∃ s, Reaches Table.empty 0 updateLosesRace s ∧ DeletionsNamed s := by
  have hundisturbed : Machine.Guarded step Undisturbed (StateOf.start Table.empty 0)
      updateLosesRace := by decide
  obtain ⟨s, hrun⟩ : ∃ s, Reaches Table.empty 0 updateLosesRace s := ⟨_, rfl⟩
  refine ⟨s, hrun, deletions_named (Machine.guarded_iff.mpr ?_) hrun⟩
  exact fun bs a cs t has hbs => (Machine.guarded_iff.mp hundisturbed bs a cs t has hbs).keepsName

/-! ## 3. The old name -/

/-- A device is created; an update commits between the two statements of a deletion. -/
def renamedBeforeDelete : List Action :=
  let row : Row := ⟨uuid₁, "laptop", "computer", 0⟩
  [.call (.create "laptop" "computer"), .draw 0 ⟨uuid₁, 1⟩, .sql 0 none [], .go 0, .ret 0,
    .call (.delete uuid₁.toString), .call (.update uuid₁.toString "server" "rack"),
    .sql 1 none [row], .sql 2 none [row], .sql 2 none [row],
    .sql 1 none [⟨uuid₁, "server", "rack", 0⟩], .go 1, .ret 1]

/-- The row that is removed has the new name, the event the old one. -/
theorem renamed_before_delete : ∃ s, Reaches Table.empty 0 renamedBeforeDelete s ∧
    s.execs[1]? = some (.returned (.delete uuid₁.toString) (.ok .done)) ∧
    changesOf s 1 = [.deleted ⟨uuid₁, "server", "rack", 0⟩] ∧
    publishesOf s 1 = [.deleted uuid₁.toString "laptop"] ∧ ¬ DeletionsNamed s := by
  obtain ⟨s, hrun, hret, hchanges, hpublishes⟩ : ∃ s,
      Reaches Table.empty 0 renamedBeforeDelete s ∧
      s.execs[1]? = some (.returned (.delete uuid₁.toString) (.ok .done)) ∧
      changesOf s 1 = [.deleted ⟨uuid₁, "server", "rack", 0⟩] ∧
      publishesOf s 1 = [.deleted uuid₁.toString "laptop"] := ⟨_, rfl, rfl, rfl, rfl⟩
  refine ⟨s, hrun, hret, hchanges, hpublishes, fun hnamed => ?_⟩
  have hmem : PublishCall.deleted uuid₁.toString "laptop" ∈ publishesOf s 1 :=
    hpublishes ▸ List.mem_singleton_self _
  obtain ⟨G, hG, hcall⟩ := List.mem_filterMap.mp hmem
  split at hcall
  · next hexec =>
    obtain ⟨r, hr, -, hname⟩ := hnamed G hG _ _ (Option.some.inj hcall)
    rw [hexec, hchanges] at hr
    cases hr
    exact absurd hname (by decide)
  · cases hcall

end AssetTracker.GoService
