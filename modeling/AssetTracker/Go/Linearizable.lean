import AssetTracker.Go.Invariants
import Mathlib.Logic.Function.Basic

/-!
# The device store is linearizable (Go service)

`MapSpec` is the store as callers may see it: a map from ids to devices, on which
each use case is one step. The executions of the use cases send one or two
statements each, with anything in between; still every history is one of the map.

The linearization points: a creation at its `INSERT`, a list and a lookup at their
`SELECT`; an update and a deletion at the `SELECT` when it finds nothing, or when
the new name or type is refused, otherwise at the second statement. That the
second statement still acts on the row that was found is the invariant `Ids`.

Results:
1. `view_insert`, `view_update`, `view_delete`: the table as a map.
2. `refines_trans`: every step of the service is a step of the map, or none.
3. `store_linearizable`: every history of clean steps is linearizable, for the map
   in which a creation keeps the microseconds of the creation time.
4. `store_not_linearizable`: not for the map that keeps all of the creation time.
-/

namespace AssetTracker.GoService

open Encoding Effects Linearizability TableLemmas InvariantLemmas

/-! ## Definitions -/

/-- The store as a map from ids to devices. -/
abbrev DeviceMap := String → Option Device

/-- `ds` are all devices of the map, each once, newest first. -/
structure Lists (m : DeviceMap) (ds : List Device) : Prop where
  all : ∀ d, d ∈ ds ↔ m d.id = some d
  once : (ds.map Device.id).Nodup
  descending : ds.Pairwise fun a b => b.createdAt ≤ a.createdAt

/-- `MapSpec stored m op r m'`: the call `op` may return `r` on the map `m` and leave
`m'`. `stored` is what the map keeps of a new device. -/
inductive MapSpec (stored : Device → Device) (m : DeviceMap) : Op → Result → DeviceMap → Prop
  | created {d : Device} :
      d.name ≠ "" → d.type ≠ "" → m d.id = none →
      MapSpec stored m (.create d.name d.type) (.ok (.device d))
        (Function.update m d.id (some (stored d)))
  | createNoName {deviceType : String} :
      MapSpec stored m (.create "" deviceType) (.error .nameRequired) m
  | createNoType {name : String} :
      name ≠ "" → MapSpec stored m (.create name "") (.error .typeRequired) m
  | list {ds : List Device} : Lists m ds → MapSpec stored m .list (.ok (.devices ds)) m
  | get {id : String} {d : Device} :
      m id = some d → MapSpec stored m (.get id) (.ok (.device d)) m
  | getAbsent {id : String} :
      m id = none → MapSpec stored m (.get id) (.error .notFound) m
  | updated {id name deviceType : String} {d : Device} :
      m id = some d → name ≠ "" → deviceType ≠ "" →
      MapSpec stored m (.update id name deviceType)
        (.ok (.device { d with name := name, type := deviceType }))
        (Function.update m id (some { d with name := name, type := deviceType }))
  | updateNoName {id deviceType : String} {d : Device} :
      m id = some d → MapSpec stored m (.update id "" deviceType) (.error .nameRequired) m
  | updateNoType {id name : String} {d : Device} :
      m id = some d → name ≠ "" →
      MapSpec stored m (.update id name "") (.error .typeRequired) m
  | updateAbsent {id name deviceType : String} :
      m id = none → MapSpec stored m (.update id name deviceType) (.error .notFound) m
  | deleted {id : String} {d : Device} :
      m id = some d → MapSpec stored m (.delete id) (.ok .done) (Function.update m id none)
  | deleteAbsent {id : String} :
      m id = none → MapSpec stored m (.delete id) (.error .notFound) m

/-- A device as the `TIMESTAMPTZ` column keeps it: its creation time to the microsecond. -/
def Device.stored (d : Device) : Device :=
  { d with createdAt := ofMicroseconds (microseconds d.createdAt) }

/-- The table as a map. Devices stand under their canonical ids. -/
def Table.view (t : Table) : DeviceMap := fun id =>
  match Uuid.parse id with
  | some u => if u.toString = id then (t.find u).map Row.device else none
  | none => none

/-- The id that a call names. -/
def Op.id? : Op → Option String
  | .create .. => none
  | .list => none
  | .get id => some id
  | .update id _ _ => some id
  | .delete id => some id

def isCanonical (id : String) : Bool :=
  match Uuid.parse id with
  | some u => u.toString == id
  | none => false

/-- The step meets the assumptions on the store: no statement fails, and ids are given in
canonical form. PostgreSQL reads other spellings of an id as well, but the map of the
specification has its devices by the texts that `Create` returned. -/
def Clean (s : State) (a : Action) : Prop :=
  s.fails a = false ∧
  match a with
  | .call op => op.id?.all isCanonical = true
  | _ => True

instance (s : State) : ∀ a, Decidable (Clean s a)
  | .call op => inferInstanceAs (Decidable (_ ∧ op.id?.all isCanonical = true))
  | .draw _ _ | .sql _ _ _ | .go _ | .ret _ | .clock _ _ | .handOver _ | .store _ | .write _ _
  | .wake _ | .panic _ | .signal | .shutdown _ | .close | .exit => inferInstanceAs (Decidable (_ ∧ True))

/-! ## 1. The table as a map -/

namespace LinearizableLemmas

variable {t : Table} {u : Uuid}

theorem isCanonical_iff {id : String} : isCanonical id = true ↔ ∃ u : Uuid, id = u.toString := by
  unfold isCanonical
  split
  · next u hu =>
    rw [beq_iff_eq]
    constructor
    · exact fun h => ⟨u, h.symm⟩
    · rintro ⟨v, rfl⟩
      rw [parse_of_id rfl hu]
  · next hnone =>
    refine ⟨nofun, ?_⟩
    rintro ⟨v, rfl⟩
    rw [Uuid.parse_toString] at hnone
    cases hnone

@[simp] theorem view_toString : t.view u.toString = (t.find u).map Row.device := by
  rw [Table.view, Uuid.parse_toString]
  exact if_pos rfl

theorem view_of_not_canonical {id : String} (h : ¬ ∃ u : Uuid, id = u.toString) :
    t.view id = none := by
  unfold Table.view
  split
  · next v hv => exact if_neg fun heq => h ⟨v, heq.symm⟩
  · rfl

/-- Maps of tables are equal when they agree on UUIDs. -/
theorem view_ext {m : DeviceMap} (hcanon : ∀ v : Uuid, t.view v.toString = m v.toString)
    (hother : ∀ id, (¬ ∃ v : Uuid, id = v.toString) → m id = none) : t.view = m := by
  funext id
  by_cases h : ∃ v : Uuid, id = v.toString
  · obtain ⟨v, rfl⟩ := h
    exact hcanon v
  · rw [view_of_not_canonical h, hother id h]

theorem update_toString {m : DeviceMap} {o : Option Device} {v : Uuid} :
    Function.update m u.toString o v.toString = if v = u then o else m v.toString := by
  rw [Function.update_apply]
  by_cases h : v = u
  · rw [if_pos h, if_pos (congrArg _ h)]
  · rw [if_neg h, if_neg fun heq => h (Uuid.toString_injective heq)]

theorem update_of_not_canonical {o : Option Device} {id : String}
    (h : ¬ ∃ v : Uuid, id = v.toString) : Function.update t.view u.toString o id = none := by
  rw [Function.update_apply, if_neg fun heq => h ⟨u, heq⟩, view_of_not_canonical h]

theorem view_insert {r : Row} {h : r.id ∉ t.ids} :
    (t.insert r h).view = Function.update t.view r.id.toString (some r.device) := by
  refine view_ext (fun v => ?_) fun id => update_of_not_canonical
  rw [view_toString, find_insert, update_toString, view_toString]
  split <;> rfl

theorem view_update {r : Row} {name deviceType : String} (h : t.find u = some r) :
    (t.update u name deviceType).view =
      Function.update t.view u.toString
        (some { r.device with name := name, type := deviceType }) := by
  refine view_ext (fun v => ?_) fun id => update_of_not_canonical
  rw [view_toString, find_update, update_toString, view_toString]
  by_cases hv : v = u
  · subst hv
    rw [if_pos rfl, h, Option.map_some, renamed_of_find h]
    rfl
  · rw [if_neg hv]
    cases hf : t.find v with
    | none => rfl
    | some r' =>
      rw [Option.map_some, Row.renamed, if_neg (id_of_find hf ▸ hv)]

theorem view_delete : (t.delete u).view = Function.update t.view u.toString none := by
  refine view_ext (fun v => ?_) fun id => update_of_not_canonical
  rw [view_toString, find_delete, update_toString, view_toString]
  split <;> rfl

/-- The rows in any order, newest first, list the map. -/
theorem lists_view {order : List Row} (hperm : order.Perm t.rows) (hdesc : Descending order) :
    Lists t.view (order.map Row.device) := by
  refine ⟨fun d => ?_, ?_, ?_⟩
  · rw [List.mem_map]
    constructor
    · rintro ⟨r, hr, rfl⟩
      show t.view r.id.toString = some r.device
      rw [view_toString, find_some.mpr ⟨hperm.mem_iff.mp hr, rfl⟩]
      rfl
    · intro h
      by_cases hd : ∃ v : Uuid, d.id = v.toString
      · obtain ⟨v, hv⟩ := hd
        rw [hv, view_toString, Option.map_eq_some_iff] at h
        obtain ⟨r, hr, rfl⟩ := h
        exact ⟨r, hperm.mem_iff.mpr (find_some.mp hr).1, rfl⟩
      · rw [view_of_not_canonical hd] at h
        cases h
  · have hmap : (order.map Row.device).map Device.id = (order.map Row.id).map Uuid.toString := by
      rw [List.map_map, List.map_map]
      rfl
    rw [hmap]
    exact ((hperm.map Row.id).nodup_iff.mpr t.primaryKey).map fun _ _ => Uuid.toString_injective
  · rw [List.pairwise_map]
    exact hdesc.imp fun h => Int.mul_le_mul_of_nonneg_right h (by decide)

end LinearizableLemmas

open LinearizableLemmas

/-! ## 2. The simulation -/

/-- The answer of an execution that has had its linearization point. -/
def Stage.result : Stage → Option Result
  | .announcing _ reply => some (.ok reply)
  | .done r => some r
  | _ => none

/-- How an execution stands to the history and to the order of linearization points. -/
def Placed (h : History Nat Op Result) (lin : List (Entry Nat Op Result)) (i : Nat) :
    Standing → Prop
  | .running op st =>
    Event.call i op ∈ h ∧ (op.id?.all isCanonical = true) ∧
      match st.result with
      | some r => ⟨i, op, r⟩ ∈ lin
      | none => i ∉ lin.map Entry.id
  | .returned op r => ⟨i, op, r⟩ ∈ lin

/-- `Refines t₀ s lin`: the table is the map after the operations of `lin`, which are
the executions that had their linearization point. -/
structure Refines (t₀ : Table) (s : Snapshot) (lin : List (Entry Nat Op Result)) : Prop where
  tracked : Tracked (MapSpec Device.stored) t₀.view s.history lin s.table.view
  calls : ∀ i op, Event.call i op ∈ s.history → i < s.execs.length
  placed : ∀ (i : Nat) e, s.execs[i]? = some e → Placed s.history lin i e

namespace Refines

variable {t₀ : Table} {s s' : Snapshot} {lin : List (Entry Nat Op Result)} {i : Nat} {op : Op}
  {st st' : Stage} {r : Result}

theorem at_stage (h : Refines t₀ s lin) (hat : At s i op st) :
    Event.call i op ∈ s.history ∧ op.id?.all isCanonical = true ∧
      match st.result with
      | some r => ⟨i, op, r⟩ ∈ lin
      | none => i ∉ lin.map Entry.id :=
  h.placed i _ hat

/-- The id of a call names the UUID that the statement looks up. -/
theorem id_eq {id : String} {u : Uuid} (h : Refines t₀ s lin) (hat : At s i op st)
    (hop : op.id? = some id) (hu : Uuid.parse id = some u) : id = u.toString := by
  have hcanon := (h.at_stage hat).2.1
  rw [hop] at hcanon
  obtain ⟨v, rfl⟩ := isCanonical_iff.mp hcanon
  rw [parse_of_id rfl hu]

/-- A step that is none of the map's. -/
theorem quiet (h : Refines t₀ s lin) (hat : At s i op st)
    (he : s'.execs = (s.goOn i (.running op st')).execs) (hres : st'.result = st.result)
    (ht : s'.table = s.table) (hh : s'.history = s.history) : Refines t₀ s' lin := by
  refine ⟨ht ▸ hh ▸ h.tracked, fun j op' hj => ?_, fun j e hj => ?_⟩
  · rw [he, StateOf.goOn_execs, List.length_set]
    exact h.calls j op' (hh ▸ hj)
  · rw [he, getElem?_goOn hat] at hj
    rw [hh]
    split at hj
    · next heq =>
      cases hj
      rw [heq]
      show _ ∧ _ ∧ match st'.result with | some r => _ | none => _
      rw [hres]
      exact h.at_stage hat
    · exact h.placed j e hj

/-- The linearization point of an execution. -/
theorem point (h : Refines t₀ s lin) (hat : At s i op st)
    (he : s'.execs = (s.goOn i (.running op st')).execs) (hnone : st.result = none)
    (hsome : st'.result = some r) (hh : s'.history = s.history)
    (hspec : MapSpec Device.stored s.table.view op r s'.table.view) :
    Refines t₀ s' (lin ++ [⟨i, op, r⟩]) := by
  obtain ⟨hcall, hcanon, hout⟩ := h.at_stage hat
  rw [hnone] at hout
  refine ⟨hh ▸ h.tracked.point i op r hcall hout hspec, fun j op' hj => ?_, fun j e hj => ?_⟩
  · rw [he, StateOf.goOn_execs, List.length_set]
    exact h.calls j op' (hh ▸ hj)
  · rw [he, getElem?_goOn hat] at hj
    rw [hh]
    split at hj
    · next heq =>
      cases hj
      rw [heq]
      refine ⟨hcall, hcanon, ?_⟩
      rw [hsome]
      exact List.mem_append_right _ (List.mem_singleton_self _)
    · next hne =>
      have hj' := h.placed j e hj
      cases e with
      | returned op' r' => exact List.mem_append_left _ hj'
      | running op' st'' =>
        obtain ⟨hc, hid, hp⟩ := hj'
        refine ⟨hc, hid, ?_⟩
        cases hr : st''.result with
        | some r' =>
          rw [hr] at hp
          exact List.mem_append_left _ hp
        | none =>
          rw [hr] at hp
          rw [List.map_append, List.mem_append, List.map_singleton, List.mem_singleton]
          exact not_or.mpr ⟨hp, hne⟩

/-- A step that the store does not see. -/
theorem congr (h : Refines t₀ s lin) (hf : SameStore s s') : Refines t₀ s' lin :=
  ⟨hf.table ▸ hf.history ▸ h.tracked, hf.execs ▸ hf.history ▸ h.calls,
    hf.execs ▸ hf.history ▸ h.placed⟩

/-- A new execution. -/
theorem call (h : Refines t₀ s lin) (hop : op.id?.all isCanonical = true) (hst : st.result = none) :
    Refines t₀ (s.call op (.running op st)) lin := by
  have hnew : ∀ op', Event.call s.execs.length op' ∉ s.history :=
    fun op' hc => Nat.lt_irrefl _ (h.calls _ op' hc)
  refine ⟨h.tracked.call _ op hnew, fun j op' hj => ?_, fun j e hj => ?_⟩
  · rw [StateOf.call_execs, List.length_append, List.length_singleton]
    rcases List.mem_append.mp hj with hj | hj
    · exact Nat.lt_succ_of_lt (h.calls j op' hj)
    · cases List.mem_singleton.mp hj
      exact Nat.lt_succ_self _
  · rcases getElem?_snoc_some hj with ⟨rfl, rfl⟩ | ⟨-, hj⟩
    · refine ⟨List.mem_append_right _ (List.mem_singleton_self _), hop, ?_⟩
      rw [hst]
      intro hmem
      obtain ⟨entry, hentry, hid⟩ := List.mem_map.mp hmem
      exact hnew entry.op (hid ▸ h.tracked.called hentry)
    · have hj' := h.placed j e hj
      cases e with
      | returned op' r' => exact hj'
      | running op' st'' => exact ⟨List.mem_append_left _ hj'.1, hj'.2⟩

/-- An execution returns the answer of its linearization point. -/
theorem ret (h : Refines t₀ s lin) (hat : At s i op (.done r)) :
    Refines t₀ ((s.goOn i (.returned op r)).ret i r) lin := by
  have hmem : ⟨i, op, r⟩ ∈ lin := (h.at_stage hat).2.2
  refine ⟨h.tracked.ret i op r hmem, fun j op' hj => ?_, fun j e hj => ?_⟩
  · rw [StateOf.ret_execs, StateOf.goOn_execs, List.length_set]
    rcases List.mem_append.mp hj with hj | hj
    · exact h.calls j op' hj
    · cases List.mem_singleton.mp hj
  · rw [StateOf.ret_execs, getElem?_goOn hat] at hj
    split at hj
    · next heq =>
      cases hj
      exact heq ▸ hmem
    · have hj' := h.placed j e hj
      cases e with
      | returned op' r' => exact hj'
      | running op' st'' => exact ⟨List.mem_append_left _ hj'.1, hj'.2⟩

end Refines

/-- A call begins; a `Create` without a name or a type is answered at once. -/
theorem refines_called {t₀ : Table} {s : Snapshot} {lin : List (Entry Nat Op Result)} {op : Op}
    (h : Refines t₀ s lin) (hop : op.id?.all isCanonical = true) :
    ∃ lin', Refines t₀ (s.call op (.running op op.start)) lin' := by
  have refusal : ∀ e : Err, MapSpec Device.stored s.table.view op (.error e) s.table.view →
      ∃ lin', Refines t₀ (s.call op (.running op (.done (.error e)))) lin' := by
    intro e hspec
    -- an execution that has not answered yet, and its point in the same step
    let pending : Standing := .running op (.drawing "" "")
    have hcall : Refines t₀ (s.call op pending) lin := h.call hop rfl
    have hat : At (s.call op pending) s.execs.length op (.drawing "" "") :=
      List.getElem?_concat_length
    have hexecs : (s.call op (.running op (.done (.error e)))).execs =
        ((s.call op pending).goOn s.execs.length (.running op (.done (.error e)))).execs := by
      simp [StateOf.call, StateOf.goOn]
    exact ⟨_, hcall.point hat hexecs rfl rfl rfl hspec⟩
  cases op with
  | create name deviceType =>
    dsimp only [Op.start]
    split
    · next hname =>
      subst hname
      exact refusal _ .createNoName
    · next hname =>
      split
      · next htype =>
        subst htype
        exact refusal _ (.createNoType hname)
      · exact ⟨lin, h.call hop rfl⟩
  | list | get _ | update _ _ _ | delete _ => exact ⟨lin, h.call hop rfl⟩

/-- Every clean step of the service is a step of the map, or none. -/
theorem refines_trans {t₀ : Table} {s s' : Snapshot} {a : Action}
    {lin : List (Entry Nat Op Result)} (h : Refines t₀ s lin) (hids : Ids t₀ s) (hl : Ledger s)
    (hc : Clean s.state a) (ht : Trans s a s') : ∃ lin', Refines t₀ s' lin' := by
  cases ht with
  | called => exact refines_called h hc.2
  | drew hat => exact ⟨lin, h.quiet hat rfl rfl rfl rfl⟩
  | failed _ _ hfails =>
    rw [hc.1] at hfails
    cases hfails
  | @saved i op d order u hat hid hu =>
    obtain ⟨⟨rfl, hname, htype⟩, -⟩ := hl.at_query hat rfl
    obtain ⟨v, hv, -⟩ := hids.saving i _ d hat
    obtain rfl := parse_of_id hv hid
    refine ⟨_, h.point hat rfl rfl rfl rfl ?_⟩
    have habsent : s.table.view d.id = none := by
      rw [hv, view_toString, find_none.mpr hu]
      rfl
    have hrow : Row.device ⟨u, d.name, d.type, microseconds d.createdAt⟩ = d.stored := by
      rw [Row.device, Device.stored, ← hv]
    rw [StateOf.commit_table, view_insert, hrow, ← hv]
    exact .created hname htype habsent
  | listed hat hperm hdesc =>
    obtain ⟨rfl, -⟩ := hl.at_query hat rfl
    exact ⟨_, h.point hat rfl rfl rfl rfl (.list (lists_view hperm hdesc))⟩
  | got hat hid hr =>
    obtain ⟨rfl, -⟩ := hl.at_query hat rfl
    obtain rfl := h.id_eq hat rfl hid
    exact ⟨_, h.point hat rfl rfl rfl rfl (.get (by rw [view_toString, hr]; rfl))⟩
  | @absent i op st id order u hat hlook hid hnone =>
    have habsent : s.table.view u.toString = none := by
      rw [view_toString, hnone]
      rfl
    cases st with
    | drawing _ _ | saving _ | listing | announcing _ _ | done _ => cases hlook
    | getting id =>
      cases hlook
      obtain ⟨rfl, -⟩ := hl.at_query hat rfl
      obtain rfl := h.id_eq hat rfl hid
      exact ⟨_, h.point hat rfl rfl rfl rfl (.getAbsent habsent)⟩
    | findingToUpdate id name deviceType =>
      cases hlook
      obtain ⟨rfl, -⟩ := hl.at_query hat rfl
      obtain rfl := h.id_eq hat rfl hid
      exact ⟨_, h.point hat rfl rfl rfl rfl (.updateAbsent habsent)⟩
    | updating d =>
      cases hlook
      obtain ⟨⟨id, rfl, hsame, -⟩, -⟩ := hl.at_query hat rfl
      obtain rfl := h.id_eq hat rfl (hsame.trans hid)
      exact ⟨_, h.point hat rfl rfl rfl rfl (.updateAbsent habsent)⟩
    | findingToDelete id =>
      cases hlook
      obtain ⟨rfl, -⟩ := hl.at_query hat rfl
      obtain rfl := h.id_eq hat rfl hid
      exact ⟨_, h.point hat rfl rfl rfl rfl (.deleteAbsent habsent)⟩
    | deleting id name =>
      cases hlook
      obtain ⟨rfl, -⟩ := hl.at_query hat rfl
      obtain rfl := h.id_eq hat rfl hid
      exact ⟨_, h.point hat rfl rfl rfl rfl (.deleteAbsent habsent)⟩
  | @refused i op id name deviceType order u r e hat hid hr herr =>
    obtain ⟨rfl, -⟩ := hl.at_query hat rfl
    obtain rfl := h.id_eq hat rfl hid
    have hfound : s.table.view u.toString = some r.device := by
      rw [view_toString, hr]
      rfl
    rcases Device.update_error.mp herr with ⟨rfl, rfl⟩ | ⟨hname, rfl, rfl⟩
    · exact ⟨_, h.point hat rfl rfl rfl rfl (.updateNoName hfound)⟩
    · exact ⟨_, h.point hat rfl rfl rfl rfl (.updateNoType hfound hname)⟩
  | foundToUpdate hat => exact ⟨lin, h.quiet hat rfl rfl rfl rfl⟩
  | @updated i op d order u r hat hid hr =>
    obtain ⟨⟨id, rfl, hsame, hname, htype⟩, -⟩ := hl.at_query hat rfl
    obtain rfl := h.id_eq hat rfl (hsame.trans hid)
    obtain ⟨v, hv, -, hcreated⟩ := hids.updating i _ d hat
    obtain rfl := parse_of_id hv hid
    have hfound : s.table.view u.toString = some r.device := by
      rw [view_toString, hr]
      rfl
    -- the device in memory is the row of this moment under its new name and type
    have hdid : r.device.id = d.id := by rw [hv, Row.device, id_of_find hr]
    have hd : (⟨r.device.id, d.name, d.type, r.device.createdAt⟩ : Device) = d := by
      rw [hdid, hcreated r hr]
    refine ⟨_, h.point hat rfl rfl rfl rfl ?_⟩
    rw [StateOf.commit_table, view_update hr]
    have hspec : MapSpec Device.stored s.table.view _ _ _ := .updated hfound hname htype
    rw [hd] at hspec
    rw [hd]
    exact hspec
  | foundToDelete hat => exact ⟨lin, h.quiet hat rfl rfl rfl rfl⟩
  | @deleted i op id name order u r hat hid hr =>
    obtain ⟨rfl, -⟩ := hl.at_query hat rfl
    obtain rfl := h.id_eq hat rfl hid
    refine ⟨_, h.point hat rfl rfl rfl rfl ?_⟩
    rw [StateOf.commit_table, view_delete]
    exact .deleted (d := r.device) (by rw [view_toString, hr]; rfl)
  | announced hat => exact ⟨lin, h.quiet hat rfl rfl rfl rfl⟩
  | returned hat => exact ⟨lin, h.ret hat⟩
  | publisher hp => exact ⟨lin, h.congr (publisher_sameStore hp)⟩
  | lifecycle hl => exact ⟨lin, h.congr (lifecycle_sameStore hl)⟩

/-! ## 3. Linearizability -/

theorem refines_start (t₀ : Table) (clock : Instant) : Refines t₀ (StateOf.start t₀ clock) [] := by
  refine ⟨.init, ?_, ?_⟩ <;> rintro _ _ ⟨⟩

/-- Every history of clean steps is one of the map, in which a creation keeps the microseconds
of the creation time. A statement that fails is excluded (`hclean`) since its call answers with
an error that no map gives; any number of calls in any interleaving of their statements is in. -/
theorem store_linearizable {t₀ : Table} {clock : Instant} {as : List Action} {s : State}
    (hclean : Machine.Guarded step Clean (StateOf.start t₀ clock) as)
    (h : Reaches t₀ clock as s) :
    Linearizable (MapSpec Device.stored) t₀.view s.history := by
  obtain ⟨t, rfl, lin, hlin, -⟩ := guarded_trans_induction
    (P := fun _ t => ∃ lin, Refines t₀ t lin ∧ Ids t₀ t ∧ Ledger t)
    ⟨[], refines_start t₀ clock, ids_start t₀ clock, ledger_start t₀ clock⟩
    (fun as t a t' ⟨lin, hlin, hids, hl⟩ hc ht => by
      obtain ⟨lin', hlin'⟩ := refines_trans hlin hids hl hc ht
      exact ⟨lin', hlin', ids_trans hids ht, ledger_trans hl ht⟩) hclean h
  exact hlin.tracked.linearizable

/-- A UUID for examples. -/
def uuid₁ : Uuid := Uuid.numbered 1

/-- A device is created; then an update and a deletion of it run at the same time.
The update finds the device, but comes too late with its second statement. -/
def updateLosesRace : List Action :=
  let row : Row := ⟨uuid₁, "laptop", "computer", 0⟩
  [.call (.create "laptop" "computer"), .draw 0 ⟨uuid₁, 1⟩, .sql 0 none [], .go 0, .ret 0,
    .call (.update uuid₁.toString "server" "rack"), .call (.delete uuid₁.toString),
    .sql 1 none [row], .sql 2 none [row], .sql 2 none [row], .sql 1 none [], .go 2, .ret 2, .ret 1]

theorem updateLosesRace_history : ∃ s, Reaches Table.empty 0 updateLosesRace s ∧ s.history =
    [.call 0 (.create "laptop" "computer"),
      .ret 0 (.ok (.device ⟨uuid₁.toString, "laptop", "computer", 1⟩)),
      .call 1 (.update uuid₁.toString "server" "rack"), .call 2 (.delete uuid₁.toString),
      .ret 2 (.ok .done), .ret 1 (.error .notFound)] :=
  ⟨_, rfl, rfl⟩

theorem store_linearizable_race :
    Linearizable (MapSpec Device.stored) Table.empty.view
      [.call 0 (.create "laptop" "computer"),
        .ret 0 (.ok (.device ⟨uuid₁.toString, "laptop", "computer", 1⟩)),
        .call 1 (.update uuid₁.toString "server" "rack"), .call 2 (.delete uuid₁.toString),
        .ret 2 (.ok .done), .ret 1 (.error .notFound)] := by
  obtain ⟨s, hrun, hhistory⟩ := updateLosesRace_history
  rw [← hhistory]
  exact store_linearizable (by decide) hrun

/-! ## 4. Creation times -/

/-- On the map that keeps a new device as it is, a lookup after a creation returns
the device that the creation returned. -/
theorem lookup_after_create {m : DeviceMap} {name deviceType : String} {d d' : Device}
    (h : Linearizable (MapSpec id) m
      [.call 0 (.create name deviceType), .ret 0 (.ok (.device d)), .call 1 (.get d.id),
        .ret 1 (.ok (.device d'))]) : d' = d := by
  obtain ⟨lin, hlin⟩ := h
  obtain ⟨op₀, h₀⟩ := hlin.returned 0 (.ok (.device d)) (by simp)
  obtain ⟨op₁, h₁⟩ := hlin.returned 1 (.ok (.device d')) (by simp)
  have hreal : RealTime ([.call 0 (.create name deviceType), .ret 0 (.ok (.device d)),
      .call 1 (.get d.id), .ret 1 (.ok (.device d'))] : History Nat Op Result) 0 1 :=
    ⟨[_, _], [_], _, rfl, .ok (.device d), by simp⟩
  obtain ⟨a, b, rfl, ha, hb⟩ := hlin.pair hreal (List.mem_map_of_mem h₁)
    (by simp only [List.mem_cons, Event.call.injEq, List.not_mem_nil]; grind)
  have hcall₀ := hlin.called a (by simp)
  have hcall₁ := hlin.called b (by simp)
  obtain ⟨m'', hlegal⟩ := hlin.legal
  have hlast : Legal (MapSpec id) m ([a] ++ [b]) m'' := hlegal
  obtain ⟨m', hfirst, hget⟩ := Legal.snoc_inv hlast
  have hfirst : Legal (MapSpec id) m ([] ++ [a]) m' := hfirst
  obtain ⟨m₀, -, hcreate⟩ := Legal.snoc_inv hfirst
  simp only [List.mem_cons, List.not_mem_nil, or_false] at h₀ h₁
  rcases h₀ with rfl | rfl
  · rcases h₁ with h₁ | rfl
    · cases h₁
    · simp at hcall₀ hcall₁
      subst hcall₀ hcall₁
      cases hcreate
      cases hget with
      | get hd' =>
        rw [Function.update_self, Option.some.injEq] at hd'
        exact hd'.symm
  · cases hb

/-- A device is created at the first nanosecond of 1970, and looked up. -/
def createThenGet : List Action :=
  [.call (.create "laptop" "computer"), .draw 0 ⟨uuid₁, 1⟩, .sql 0 none [], .go 0, .ret 0,
    .call (.get uuid₁.toString), .sql 1 none [⟨uuid₁, "laptop", "computer", 0⟩], .ret 1]

theorem createThenGet_history : ∃ s, Reaches Table.empty 0 createThenGet s ∧ s.history =
    [.call 0 (.create "laptop" "computer"),
      .ret 0 (.ok (.device ⟨uuid₁.toString, "laptop", "computer", 1⟩)),
      .call 1 (.get uuid₁.toString),
      .ret 1 (.ok (.device ⟨uuid₁.toString, "laptop", "computer", 0⟩))] :=
  ⟨_, rfl, rfl⟩

/-- The map that keeps a new device as it is does not explain all histories: the
nanoseconds that a creation returns are not in the row. -/
theorem store_not_linearizable :
    ¬ ∀ (t₀ : Table) (clock : Instant) (as : List Action) (s : State),
      Machine.Guarded step Clean (StateOf.start t₀ clock) as → Reaches t₀ clock as s →
      Linearizable (MapSpec id) t₀.view s.history := by
  intro hall
  obtain ⟨s, hrun, hhistory⟩ := createThenGet_history
  have hlin := hall Table.empty 0 createThenGet s (by decide) hrun
  rw [hhistory] at hlin
  exact absurd (lookup_after_create hlin) (by decide)

end AssetTracker.GoService
