import AssetTracker.Go.Linearizable

/-!
# Created devices, read back (Go service)

`Create` returns the device that it built; `Get` and `List` return what is in its row.
The row has the id, the name and the type of the device, and the creation time to the
microsecond. A lookup or a list can miss it only when its own statement is made to fail:
the database has no reason of its own to refuse one, since the id is a UUID.

Results:
1. `row_trans`, `hasResult_trans`: what a step leaves of a row, and what it can tell a caller.
2. `created_row`: the row of a device that was created.
3. `created_found`: how later calls show the device. `stored_eq_iff`: they show the device
   itself when it was created at a whole microsecond.
-/

namespace AssetTracker.GoService

open Encoding Effects Linearizability TableLemmas InvariantLemmas

/-! ## Definitions -/

/-- The id of a row that is updated or deleted. -/
def Change.altered? : Change → Option Uuid
  | .inserted _ => none
  | .updated r _ => some r.id
  | .deleted r => some r.id

/-- No row with this id was updated or deleted. -/
def Untouched {E G : Type} (s : StateOf E G) (u : Uuid) : Prop :=
  ∀ p ∈ s.commits, p.2.altered? ≠ some u

/-- The result shows the device `d`: a lookup of its id succeeds and finds it, and a list
succeeds and has it as its only device with this id. -/
structure Found (d : Device) (op : Op) (res : Result) : Prop where
  get : op = .get d.id → res = .ok (.device d)
  list : op = .list → ∃ ds, res = .ok (.devices ds) ∧ d ∈ ds ∧ ∀ d' ∈ ds, d'.id = d.id → d' = d

/-- The step makes no statement of the execution `j` fail. Only faults from outside count (the
connection, a cancelled context): a statement that the database itself refuses is no fault,
and that `Get` and `List` meet none of these is proved, not assumed. -/
def Faultless (j : Nat) (_ : State) : Action → Prop
  | .sql i fault _ => i = j → fault = none
  | _ => True

instance (j : Nat) (s : State) : ∀ a, Decidable (Faultless j s a)
  | .sql i fault _ => inferInstanceAs (Decidable (i = j → fault = none))
  | .call _ | .draw _ _ | .go _ | .ret _ | .clock _ _ | .handOver _ | .store _ | .write _ _
  | .wake _ | .panic _ | .signal | .shutdown _ | .close | .exit => isTrue trivial

/-- The result of an execution, once it is known. -/
def Standing.result? : Standing → Option (Op × Result)
  | .running op st => st.result.map fun res => (op, res)
  | .returned op res => some (op, res)

/-- The execution `j` of `op` has the result `res`. -/
def HasResult (s : Snapshot) (j : Nat) (op : Op) (res : Result) : Prop :=
  ∃ e, s.execs[j]? = some e ∧ e.result? = some (op, res)

/-- What a call tells of the table, `t` before the step that decides it and `t'` after it. -/
inductive Tells (t t' : Table) : Op → Result → Prop
  | refused {op : Op} {e : Err} : op.mutates = true → Tells t t' op (.error e)
  | created {d : Device} {u : Uuid} : d.id = u.toString →
      t'.find u = some ⟨u, d.name, d.type, microseconds d.createdAt⟩ →
      Tells t t' (.create d.name d.type) (.ok (.device d))
  | listed {order : List Row} :
      order.Perm t.rows → Tells t t' .list (.ok (.devices (order.map Row.device)))
  | got {id : String} {u : Uuid} {r : Row} : Uuid.parse id = some u → t.find u = some r →
      Tells t t' (.get id) (.ok (.device r.device))
  | absent {id : String} {u : Uuid} : Uuid.parse id = some u → t.find u = none →
      Tells t t' (.get id) (.error .notFound)
  | updated {id name deviceType : String} {d : Device} :
      Tells t t' (.update id name deviceType) (.ok (.device d))
  | deleted {id : String} : Tells t t' (.delete id) (.ok .done)

/-- The step makes the statement before which the execution `j` of `op` stands fail, and the
call ends with an error. -/
inductive Interrupts (s : Snapshot) (j : Nat) (op : Op) : Action → Result → Prop
  | failed {st : Stage} {fault : Option Fault} {order : List Row} {e : Err} :
      At s j op st → st.isQuery = true → s.state.fails (.sql j fault order) = true →
      Interrupts s j op (.sql j fault order) (.error e)

/-! ## 1. Steps -/

variable {t₀ : Table} {s s' : Snapshot} {a : Action} {u : Uuid} {r : Row} {i j : Nat}
  {op op' : Op} {st : Stage} {e : Standing} {res : Result} {d : Device}

theorem commits_trans (ht : Trans s a s') : s.commits ⊆ s'.commits := by
  cases ht with
  | saved => exact List.subset_append_left _ _
  | updated => exact List.subset_append_left _ _
  | deleted => exact List.subset_append_left _ _
  | publisher hp => exact (publisher_sameStore hp).commits ▸ List.Subset.refl _
  | lifecycle hl => exact (lifecycle_sameStore hl).commits ▸ List.Subset.refl _
  | _ => exact List.Subset.refl _

theorem untouched_trans (ht : Trans s a s') (h : Untouched s' u) : Untouched s u :=
  fun p hp => h p (commits_trans ht hp)

/-- A row stays until it is updated or deleted. -/
theorem row_trans (ht : Trans s a s') (hrow : s.table.find r.id = some r)
    (h : Untouched s' r.id) : s'.table.find r.id = some r := by
  have haltered {i : Nat} {c : Change} (hmem : (i, c) ∈ s'.commits) {u : Uuid}
      (hc : c.altered? = some u) : r.id ≠ u := fun heq => h (i, c) hmem (heq ▸ hc)
  cases ht with
  | @saved _ _ _ _ u _ _ hu =>
    rw [StateOf.commit_table, find_insert, if_neg]
    · exact hrow
    · intro (heq : r.id = u)
      exact hu (heq ▸ mem_ids_of_find hrow)
  | updated _ _ hr =>
    have hne := haltered (List.mem_append_right _ List.mem_cons_self) rfl
    rw [StateOf.commit_table, find_update, hrow, Option.map_some, Row.renamed,
      if_neg (id_of_find hr ▸ hne)]
  | deleted _ _ hr =>
    have hne := haltered (List.mem_append_right _ List.mem_cons_self) rfl
    rw [StateOf.commit_table, find_delete, if_neg (id_of_find hr ▸ hne)]
    exact hrow
  | publisher hp => exact (publisher_sameStore hp).table ▸ hrow
  | lifecycle hl => exact (lifecycle_sameStore hl).table ▸ hrow
  | _ => exact hrow

theorem hasResult_goOn {P : Prop} (h : HasResult (s.goOn i e) j op res)
    (hnew : j = i → e.result? = some (op, res) → P) : HasResult s j op res ∨ P := by
  obtain ⟨e', he', hout⟩ := h
  rcases getElem?_set_some he' with ⟨hj, rfl⟩ | ⟨-, he'⟩
  · exact .inr (hnew hj hout)
  · exact .inl ⟨e', he', hout⟩

theorem hasResult_call {P : Prop} (h : HasResult (s.call op' e) j op res)
    (hnew : e.result? = some (op, res) → P) : HasResult s j op res ∨ P := by
  obtain ⟨e', he', hout⟩ := h
  rcases getElem?_snoc_some he' with ⟨-, rfl⟩ | ⟨-, he'⟩
  · exact .inr (hnew hout)
  · exact .inl ⟨e', he', hout⟩

/-- The result of an execution that goes on without a new one. -/
theorem hasResult_same {e' : Standing} (hi : s.execs[i]? = some e') (heq : e.result? = e'.result?)
    (h : HasResult (s.goOn i e) j op res) : HasResult s j op res := by
  obtain ⟨e'', he'', hout⟩ := h
  rcases getElem?_set_some he'' with ⟨rfl, rfl⟩ | ⟨-, he''⟩
  · exact ⟨e', hi, heq ▸ hout⟩
  · exact ⟨e'', he'', hout⟩

/-- A creation that is refused has its result at once. -/
theorem hasResult_start (h : (Standing.running op' op'.start).result? = some (op, res)) :
    op.mutates = true ∧ ∃ e, res = .error e := by
  cases op' with
  | create name deviceType =>
    simp only [Op.start] at h
    split at h
    · cases h
      exact ⟨rfl, _, rfl⟩
    · split at h
      · cases h
        exact ⟨rfl, _, rfl⟩
      · cases h
  | list | get _ | update _ _ _ | delete _ => cases h

/-- A call stands before a statement of a change, or of a list, or of a lookup. -/
theorem stage_of_fits (hquery : st.isQuery = true) (hfits : st.Fits op) :
    op.mutates = true ∨ (op = .list ∧ st = .listing) ∨ ∃ id, op = .get id ∧ st = .getting id := by
  cases st with
  | listing => exact .inr (.inl ⟨hfits, rfl⟩)
  | getting id => exact .inr (.inr ⟨id, hfits, rfl⟩)
  | saving _ =>
    obtain ⟨rfl, -⟩ := hfits
    exact .inl rfl
  | updating _ =>
    obtain ⟨_, rfl, -⟩ := hfits
    exact .inl rfl
  | findingToUpdate _ _ _ | findingToDelete _ | deleting _ _ =>
    rw [show op = _ from hfits]
    exact .inl rfl
  | drawing _ _ | announcing _ _ | done _ => cases hquery

/-- The lookup of a stage belongs to a call that changes something, or to a `Get`. -/
theorem mutates_or_get {id : String} (hfits : st.Fits op) (hlook : st.lookup = some id) :
    op.mutates = true ∨ op = .get id := by
  rcases stage_of_fits (isQuery_of_lookup hlook) hfits with hop | ⟨-, rfl⟩ | ⟨id', rfl, rfl⟩
  · exact .inl hop
  · cases hlook
  · cases hlook
    exact .inr rfl

/-- A result that is known after a step was known before, or tells of the table, or is the
error of a statement that failed in this step. -/
theorem hasResult_trans (hids : Ids t₀ s) (hl : Ledger s) (ht : Trans s a s')
    (h : HasResult s' j op res) :
    HasResult s j op res ∨ Tells s.table s'.table op res ∨ Interrupts s j op a res := by
  cases ht with
  | called =>
    refine hasResult_call h fun hnew => ?_
    obtain ⟨hop, e, rfl⟩ := hasResult_start hnew
    exact .inl (.refused hop)
  | drew => exact hasResult_goOn (s := s) h fun _ hnew => by cases hnew
  | failed hat hquery hfails =>
    refine hasResult_goOn h fun hj hnew => ?_
    cases hnew
    subst hj
    exact .inr (.failed hat hquery hfails)
  | saved hat hid hu =>
    refine hasResult_goOn (s := s) h fun _ hnew => ?_
    cases hnew
    obtain ⟨⟨rfl, -⟩, -⟩ := hl.at_query hat rfl
    obtain ⟨v, hv, -⟩ := hids.saving _ _ _ hat
    obtain rfl := parse_of_id hv hid
    refine .inl (.created hv ?_)
    rw [StateOf.commit_table, find_insert, if_pos rfl]
  | listed hat hperm =>
    refine hasResult_goOn h fun _ hnew => ?_
    cases hnew
    obtain ⟨rfl, -⟩ := hl.at_query hat rfl
    exact .inl (.listed hperm)
  | got hat hid hr =>
    refine hasResult_goOn h fun _ hnew => ?_
    cases hnew
    obtain ⟨rfl, -⟩ := hl.at_query hat rfl
    exact .inl (.got hid hr)
  | absent hat hlook hid hr =>
    refine hasResult_goOn h fun _ hnew => ?_
    cases hnew
    rcases mutates_or_get (hl.at_query hat (isQuery_of_lookup hlook)).1 hlook with hop | rfl
    · exact .inl (.refused hop)
    · exact .inl (.absent hid hr)
  | refused hat =>
    refine hasResult_goOn h fun _ hnew => ?_
    cases hnew
    obtain ⟨rfl, -⟩ := hl.at_query hat rfl
    exact .inl (.refused rfl)
  | foundToUpdate => exact hasResult_goOn h fun _ hnew => by cases hnew
  | updated hat =>
    refine hasResult_goOn (s := s) h fun _ hnew => ?_
    cases hnew
    obtain ⟨⟨id, rfl, -⟩, -⟩ := hl.at_query hat rfl
    exact .inl .updated
  | foundToDelete => exact hasResult_goOn h fun _ hnew => by cases hnew
  | deleted hat =>
    refine hasResult_goOn (s := s) h fun _ hnew => ?_
    cases hnew
    obtain ⟨rfl, -⟩ := hl.at_query hat rfl
    exact .inl .deleted
  | @announced i op call reply hat =>
    exact .inl (hasResult_same (s := s) (e := .running op (.done (.ok reply))) hat rfl h)
  | @returned i op r hat => exact .inl (hasResult_same (s := s) (e := .returned op r) hat rfl h)
  | publisher hp =>
    obtain ⟨e, he, hout⟩ := h
    exact .inl ⟨e, (publisher_sameStore hp).execs ▸ he, hout⟩
  | lifecycle hl =>
    obtain ⟨e, he, hout⟩ := h
    exact .inl ⟨e, (lifecycle_sameStore hl).execs ▸ he, hout⟩

/-- A lookup of a UUID, or a list, is interrupted only by a fault from outside. -/
theorem faulted (hl : Ledger s) (h : Interrupts s j op a res)
    (hop : op = .list ∨ ∃ id, op = .get id ∧ (Uuid.parse id).isSome = true) :
    ∃ fault order, a = .sql j (some fault) order := by
  obtain @⟨st, fault, order, e, hat, hquery, hfails⟩ := h
  cases fault with
  | some fault => exact ⟨fault, order, rfl⟩
  | none =>
    -- without a fault the statement is executed, and this succeeds
    rw [State.fails, StepLemmas.exec_of_at hat, Stage.prog_eq] at hfails
    rcases stage_of_fits hquery (hl.at_query hat hquery).1 with hmut | ⟨rfl, rfl⟩ | ⟨id, rfl, rfl⟩
    · obtain rfl | ⟨id, rfl, -⟩ := hop <;> cases hmut
    · cases hfails
    · obtain h | ⟨_, hid, hsome⟩ := hop
      · cases h
      · cases hid
        obtain ⟨u, hu⟩ := Option.isSome_iff_exists.mp hsome
        simp only [Stage.tree, Table.exec, uuidArg, hu] at hfails
        cases hfails

/-! ## 2. The row of a created device -/

/-- A device that was created has its row, as long as this is neither updated nor deleted. -/
def Rows (s : Snapshot) : Prop :=
  ∀ j name deviceType d, HasResult s j (.create name deviceType) (.ok (.device d)) →
    ∃ r : Row, r.device = d.stored ∧ (Untouched s r.id → s.table.find r.id = some r)

theorem rows_trans (hids : Ids t₀ s) (hl : Ledger s) (h : Rows s) (ht : Trans s a s') :
    Rows s' := by
  intro j name deviceType d hout
  rcases hasResult_trans hids hl ht hout with hout | htells | hbroken
  · obtain ⟨r, hr, hrow⟩ := h j name deviceType d hout
    exact ⟨r, hr, fun hkept => row_trans ht (hrow (untouched_trans ht hkept)) hkept⟩
  · cases htells with
    | @created d u hid hrow =>
      refine ⟨⟨u, d.name, d.type, microseconds d.createdAt⟩, ?_, fun _ => hrow⟩
      rw [Device.stored, hid]
      rfl
  · cases hbroken

theorem hasResult_of_returned
    (h : s.state.execs[j]? = some (.returned op res)) : HasResult s j op res := by
  simp only [StateOf.state, List.getElem?_map, Option.map_eq_some_iff] at h
  obtain ⟨e, he, heq⟩ := h
  cases e with
  | running => cases heq
  | returned =>
    cases heq
    exact ⟨_, he, rfl⟩

/-- The same, after a run. -/
theorem created_row {clock : Instant} {as : List Action} {s₁ : State} {name deviceType : String}
    (h : Reaches t₀ clock as s₁)
    (hcreated : s₁.execs[i]? = some (.returned (.create name deviceType) (.ok (.device d)))) :
    ∃ t r, s₁ = StateOf.state t ∧ Ids t₀ t ∧ Ledger t ∧ r.device = d.stored ∧
      (Untouched t r.id → t.table.find r.id = some r) := by
  have hstart : Rows (StateOf.start t₀ clock) := by
    rintro j name deviceType d ⟨e, he, -⟩
    cases he
  obtain ⟨t, rfl, hids, hl, hrows⟩ := trans_induction
    (P := fun _ t => Ids t₀ t ∧ Ledger t ∧ Rows t)
    ⟨ids_start t₀ clock, ledger_start t₀ clock, hstart⟩
    (fun _ _ _ _ ⟨hids, hl, hrows⟩ ht =>
      ⟨ids_trans hids ht, ledger_trans hl ht, rows_trans hids hl hrows ht⟩) h
  obtain ⟨r, hr, hrow⟩ := hrows i name deviceType d (hasResult_of_returned hcreated)
  exact ⟨t, r, rfl, hids, hl, hr, hrow⟩

/-! ## 3. Later calls -/

theorem found_of_tells {t t' : Table} (hrow : t.find r.id = some r) (h : Tells t t' op res) :
    Found r.device op res := by
  have hid : r.device.id = r.id.toString := rfl
  refine ⟨?_, ?_⟩
  · rintro rfl
    cases h with
    | refused hop => cases hop
    | got hu hr =>
      rw [hid, Uuid.parse_toString, Option.some.injEq] at hu
      subst hu
      rw [hrow, Option.some.injEq] at hr
      rw [hr]
    | absent hu hr =>
      rw [hid, Uuid.parse_toString, Option.some.injEq] at hu
      subst hu
      rw [hrow] at hr
      cases hr
  · rintro rfl
    cases h with
    | refused hop => cases hop
    | @listed order hperm =>
      have hmem {q : Row} : q ∈ order ↔ q ∈ t.rows := hperm.mem_iff
      refine ⟨_, rfl, List.mem_map_of_mem (hmem.mpr (find_some.mp hrow).1), fun d' hd' heq => ?_⟩
      obtain ⟨q, hq, rfl⟩ := List.mem_map.mp hd'
      have hqid : q.id = r.id := Uuid.toString_injective heq
      have hfind := find_some.mpr ⟨hmem.mp hq, hqid⟩
      rw [hrow, Option.some.injEq] at hfind
      rw [hfind]

/-- A call that is interrupted though no fault came from outside neither looks up a device that
was created nor lists. -/
theorem found_of_interrupts (hl : Ledger s) (hfaultless : Faultless j s.state a)
    (h : Interrupts s j op a res) : Found r.device op res := by
  have hnone {fault : Fault} {order : List Row} (ha : a = .sql j (some fault) order) : False := by
    subst ha
    cases hfaultless rfl
  refine ⟨fun hop => ?_, fun hop => ?_⟩
  · have hid : (Uuid.parse r.device.id).isSome = true := by
      rw [show r.device.id = r.id.toString from rfl, Uuid.parse_toString, Option.isSome_some]
    obtain ⟨fault, order, ha⟩ := faulted hl h (.inr ⟨_, hop, hid⟩)
    exact (hnone ha).elim
  · obtain ⟨fault, order, ha⟩ := faulted hl h (.inl hop)
    exact (hnone ha).elim

/-- From the creation on, the row is there, and the call `j` shows it. -/
def Serves (j : Nat) (r : Row) (s : Snapshot) : Prop :=
  Untouched s r.id → s.table.find r.id = some r ∧
    ∀ op res, HasResult s j op res → Found r.device op res

theorem serves_trans (hids : Ids t₀ s) (hl : Ledger s) (h : Serves j r s)
    (hfaultless : Faultless j s.state a) (ht : Trans s a s') : Serves j r s' := by
  intro hkept
  obtain ⟨hrow, hfound⟩ := h (untouched_trans ht hkept)
  refine ⟨row_trans ht hrow hkept, fun op res hout => ?_⟩
  rcases hasResult_trans hids hl ht hout with hout | htells | hbroken
  · exact hfound op res hout
  · exact found_of_tells hrow htells
  · exact found_of_interrupts hl hfaultless hbroken

/-- After `Create` has returned a device, every call of `Get` and `List` shows it with its
id, name and type, and its creation time to the microsecond, as long as it is neither
updated nor deleted. The call is any execution that starts later. `Faultless` is needed
because a connection may break; it is about this one call, and everything else may fail. -/
theorem created_found {clock : Instant} {as bs : List Action} {s₁ s : State}
    {name deviceType : String} (h₁ : Reaches t₀ clock as s₁)
    (hcreated : s₁.execs[i]? = some (.returned (.create name deviceType) (.ok (.device d))))
    (h : Machine.run step s₁ bs = some s)
    (hkept : ∀ u, Uuid.parse d.id = some u → Untouched s u) (hlater : s₁.execs.length ≤ j)
    (hfaultless : Machine.Guarded step (Faultless j) s₁ bs)
    (hreturned : s.execs[j]? = some (.returned op res)) : Found d.stored op res := by
  obtain ⟨t₁, r, rfl, hids, hl, hr, hrow⟩ := created_row h₁ hcreated
  have hstart : Serves j r t₁ := by
    refine fun hkept => ⟨hrow hkept, fun op res hout => ?_⟩
    obtain ⟨e, he, -⟩ := hout
    rw [StateOf.state, List.length_map] at hlater
    rw [List.getElem?_eq_none hlater] at he
    cases he
  obtain ⟨t, rfl, -, -, hserves⟩ := guarded_trans_run
    (P := fun _ t => Ids t₀ t ∧ Ledger t ∧ Serves j r t) ⟨hids, hl, hstart⟩
    (fun _ _ _ _ hinv hc ht => ⟨ids_trans hinv.1 ht, ledger_trans hinv.2.1 ht,
      serves_trans hinv.1 hinv.2.1 hinv.2.2 hc ht⟩) hfaultless h
  have hid : Uuid.parse d.id = some r.id := by
    have hd : d.id = r.id.toString := congrArg Device.id hr.symm
    rw [hd, Uuid.parse_toString]
  rw [← hr]
  exact (hserves (hkept r.id hid)).2 op res (hasResult_of_returned hreturned)

/-- What is kept of a device is all of it, if it was created at a whole microsecond. -/
theorem stored_eq_iff : d.stored = d ↔ 1000 ∣ d.createdAt := by
  constructor
  · intro h
    exact ⟨_, (Int.mul_comm _ _).trans (congrArg Device.createdAt h) |>.symm⟩
  · intro h
    rw [Device.stored, ofMicroseconds, microseconds, Int.ediv_mul_cancel h]

/-! ## A creation at the first nanosecond of 1970 -/

/-- The creation of `createThenGet`. -/
def createLaptop : List Action :=
  [.call (.create "laptop" "computer"), .draw 0 ⟨uuid₁, 1⟩, .sql 0 none [], .go 0, .ret 0]

/-- The lookup of `createThenGet`. -/
def getLaptop : List Action :=
  [.call (.get uuid₁.toString), .sql 1 none [⟨uuid₁, "laptop", "computer", 0⟩], .ret 1]

theorem laptop_run : ∃ s₁ s, Reaches Table.empty 0 createLaptop s₁ ∧
    s₁.execs[0]? = some (.returned (.create "laptop" "computer")
      (.ok (.device ⟨uuid₁.toString, "laptop", "computer", 1⟩))) ∧
    s₁.execs.length = 1 ∧ Machine.run step s₁ getLaptop = some s ∧ (∀ u, Untouched s u) ∧
    Machine.Guarded step (Faultless 1) s₁ getLaptop ∧
    s.execs[1]? = some (.returned (.get uuid₁.toString)
      (.ok (.device ⟨uuid₁.toString, "laptop", "computer", 0⟩))) := by
  refine ⟨_, _, rfl, rfl, rfl, rfl, fun u p hp => ?_, by decide, rfl⟩
  cases List.mem_singleton.mp hp
  exact nofun

theorem created_found_laptop : Found ⟨uuid₁.toString, "laptop", "computer", 0⟩
    (.get uuid₁.toString) (.ok (.device ⟨uuid₁.toString, "laptop", "computer", 0⟩)) := by
  obtain ⟨s₁, s, h₁, hcreated, hlength, h, hkept, hfaultless, hreturned⟩ := laptop_run
  exact created_found h₁ hcreated h (fun u _ => hkept u) (Nat.le_of_eq hlength) hfaultless hreturned

/-- Later calls do not show the device that `Create` returned: the nanoseconds are lost. -/
theorem nanoseconds_lost :
    ¬ ∀ (t₀ : Table) (clock : Instant) (as bs : List Action) (s₁ s : State) (i j : Nat)
      (name deviceType : String) (d : Device) (op : Op) (res : Result), Reaches t₀ clock as s₁ →
      s₁.execs[i]? = some (.returned (.create name deviceType) (.ok (.device d))) →
      Machine.run step s₁ bs = some s → (∀ u, Uuid.parse d.id = some u → Untouched s u) →
      s₁.execs.length ≤ j → Machine.Guarded step (Faultless j) s₁ bs →
      s.execs[j]? = some (.returned op res) → Found d op res := by
  intro hall
  obtain ⟨s₁, s, h₁, hcreated, hlength, h, hkept, hfaultless, hreturned⟩ := laptop_run
  have hfound := hall Table.empty 0 _ _ s₁ s 0 1 _ _ _ _ _ h₁ hcreated h (fun u _ => hkept u)
    (Nat.le_of_eq hlength) hfaultless hreturned
  exact absurd (hfound.get rfl) (by decide)

end AssetTracker.GoService
