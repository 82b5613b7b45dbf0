import AssetTracker.Go.Steps

/-!
# Invariants of the service

Two invariants that the results about the service share. `Ids` is about
identities: a UUID is born in one insertion at most, and dies in one deletion at
most. `Ledger` is about each execution: which row it changed and which calls of
the publisher it started, depending on where it stands.

Results:
1. `ids_start`, `ids_trans`: `Ids` holds at the start and every outcome keeps it.
2. `ledger_start`, `ledger_trans`: the same for `Ledger`.
-/

namespace AssetTracker.GoService

open Encoding Effects Linearizability TableLemmas

/-! ## Definitions -/

/-- The UUID that a commit inserts. -/
def insertedId : Nat × Change → Option Uuid
  | (_, .inserted r) => some r.id
  | _ => none

/-- The UUID that a commit deletes. -/
def deletedId : Nat × Change → Option Uuid
  | (_, .deleted r) => some r.id
  | _ => none

section

variable {E G : Type}

/-- The UUIDs that the table had at the start or that were inserted since. -/
def born (t₀ : Table) (s : StateOf E G) : List Uuid := t₀.ids ++ s.commits.filterMap insertedId

/-- The UUIDs that were deleted. -/
def dead (s : StateOf E G) : List Uuid := s.commits.filterMap deletedId

/-- The changes that the execution `i` committed. -/
def changesOf (s : StateOf E G) (i : Nat) : List Change :=
  s.commits.filterMap fun p => if p.1 = i then some p.2 else none

end

/-- The calls of the publisher that the execution `i` started. -/
def publishesOf (s : State) (i : Nat) : List PublishCall :=
  s.goroutines.filterMap fun g => if g.exec = i then some g.call else none

/-- `Ids t₀ s`: identities in a run over the table `t₀`. The execution that is
about to save a device owns its UUID; the one that is about to update a device
knows the creation time of its row. -/
structure Ids (t₀ : Table) (s : Snapshot) : Prop where
  born_nodup : (born t₀ s).Nodup
  born_drawn : ∀ u ∈ born t₀ s, u ∈ s.drawn
  table_born : ∀ u ∈ s.table.ids, u ∈ born t₀ s
  saving : ∀ i op d, At s i op (.saving d) → ∃ u, d.id = u.toString ∧ u ∈ s.drawn ∧ u ∉ born t₀ s
  unique : ∀ i j op op' d d', At s i op (.saving d) → At s j op' (.saving d') → d.id = d'.id → i = j
  updating : ∀ i op d, At s i op (.updating d) → ∃ u, d.id = u.toString ∧ u ∈ born t₀ s ∧
    ∀ r, s.table.find u = some r → r.device.createdAt = d.createdAt
  dead_nodup : (dead s).Nodup
  dead_gone : ∀ u ∈ dead s, u ∈ born t₀ s ∧ u ∉ s.table.ids

/-- The change and the call of the publisher that belong to a successful call of a
use case, with its reply. -/
inductive Announces : Op → Reply → Change → PublishCall → Prop
  | created {d : Device} {r : Row} :
      Uuid.parse d.id = some r.id → r.name = d.name → r.type = d.type →
      r.createdAt = microseconds d.createdAt →
      Announces (.create d.name d.type) (.device d) (.inserted r)
        (.created d.id d.name d.createdAt)
  | updated {id : String} {d : Device} {r r' : Row} :
      Uuid.parse id = some r.id → Uuid.parse d.id = some r.id →
      r' = { r with name := d.name, type := d.type } →
      Announces (.update id d.name d.type) (.device d) (.updated r r') (.updated d.id d.name)
  | deleted {id name : String} {r : Row} :
      Uuid.parse id = some r.id →
      Announces (.delete id) .done (.deleted r) (.deleted id name)

/-- A call that is meant to change a row. -/
def Op.mutates : Op → Bool
  | .create .. => true
  | .update .. => true
  | .delete _ => true
  | _ => false

/-- What an execution of `op` with the result `r` has changed and started: one row
and one call of the publisher that announces it, or nothing at all. -/
def Settled (op : Op) (r : Result) (cs : List Change) (ps : List PublishCall) : Prop :=
  match r with
  | .ok reply =>
    if op.mutates then ∃ c p, cs = [c] ∧ ps = [p] ∧ Announces op reply c p else cs = [] ∧ ps = []
  | .error _ => cs = [] ∧ ps = []

/-- The stage is one of a call of `op`, with its arguments. -/
def Stage.Fits (op : Op) : Stage → Prop
  | .drawing name deviceType => op = .create name deviceType ∧ name ≠ "" ∧ deviceType ≠ ""
  | .saving d => op = .create d.name d.type ∧ d.name ≠ "" ∧ d.type ≠ ""
  | .listing => op = .list
  | .getting id => op = .get id
  | .findingToUpdate id name deviceType => op = .update id name deviceType
  | .updating d => ∃ id, op = .update id d.name d.type ∧ Uuid.parse id = Uuid.parse d.id ∧
      d.name ≠ "" ∧ d.type ≠ ""
  | .findingToDelete id => op = .delete id
  | .deleting id _ => op = .delete id
  | .announcing .. => True
  | .done _ => True

/-- What an execution has changed and started, by where it stands. -/
def Accounted (e : Option Standing) (cs : List Change) (ps : List PublishCall) : Prop :=
  match e with
  | none => cs = [] ∧ ps = []
  | some (.returned op r) => Settled op r cs ps
  | some (.running op st) =>
    match st with
    | .done r => Settled op r cs ps
    | .announcing call reply =>
      ps = [] ∧ op.mutates = true ∧ ∃ c, cs = [c] ∧ Announces op reply c call
    | st => st.Fits op ∧ cs = [] ∧ ps = []

/-- Every execution has changed and started what it should have, where it stands. -/
def Ledger (s : Snapshot) : Prop :=
  ∀ i : Nat, Accounted s.execs[i]? (changesOf s i) (publishesOf s.state i)

/-! ## Helpers -/

namespace InvariantLemmas

variable {i j : Nat} {op op' : Op} {st : Stage} {e : Standing} {s s' : Snapshot}

theorem getElem?_set_some {α : Type} {l : List α} {x y : α}
    (h : (l.set i x)[j]? = some y) : (j = i ∧ y = x) ∨ (j ≠ i ∧ l[j]? = some y) := by
  by_cases hij : j = i
  · subst hij
    rw [List.getElem?_set_self'] at h
    cases hl : l[j]? with
    | none => simp [hl] at h
    | some z =>
      rw [hl] at h
      exact .inl ⟨rfl, (Option.some.inj h).symm⟩
  · rw [List.getElem?_set_ne (Ne.symm hij)] at h
    exact .inr ⟨hij, h⟩

theorem getElem?_snoc_some {α : Type} {l : List α} {x y : α}
    (h : (l ++ [x])[j]? = some y) : (j = l.length ∧ y = x) ∨ (j ≠ l.length ∧ l[j]? = some y) := by
  rcases Nat.lt_trichotomy j l.length with hj | rfl | hj
  · rw [List.getElem?_append_left hj] at h
    exact .inr ⟨Nat.ne_of_lt hj, h⟩
  · rw [List.getElem?_concat_length] at h
    exact .inl ⟨rfl, (Option.some.inj h).symm⟩
  · rw [List.getElem?_eq_none (by rw [List.length_append, List.length_singleton]; exact hj)] at h
    cases h

theorem at_goOn (h : At (s.goOn i e) j op st) :
    (j = i ∧ e = .running op st) ∨ (j ≠ i ∧ At s j op st) := by
  rcases getElem?_set_some h with ⟨hj, he⟩ | h
  · exact .inl ⟨hj, he.symm⟩
  · exact .inr h

theorem at_call (h : At (s.call op' e) j op st) :
    (j = s.execs.length ∧ e = .running op st) ∨ (j ≠ s.execs.length ∧ At s j op st) := by
  rcases getElem?_snoc_some h with ⟨hj, he⟩ | h
  · exact .inl ⟨hj, he.symm⟩
  · exact .inr h

theorem map_set_eq {α β : Type} {f : α → β} {l : List α} {x y : α} (hx : l[i]? = some x)
    (hf : f y = f x) : (l.set i y).map f = l.map f := by
  obtain ⟨hi, rfl⟩ := List.getElem?_eq_some_iff.mp hx
  rw [List.map_set, hf, ← List.getElem_map f (h := by simpa using hi), List.set_getElem_self]

/-- Only the execution and the call of a goroutine count. -/
theorem publishesOf_state (s : Snapshot) (i : Nat) :
    publishesOf s.state i = (s.goroutines.map fun p => (p.exec, p.call)).filterMap fun q =>
      if q.1 = i then some q.2 else none := by
  rw [publishesOf, StateOf.state, List.filterMap_map, List.filterMap_map]
  rfl

theorem parse_of_id {id : String} {u v : Uuid} (hid : id = u.toString)
    (hv : Uuid.parse id = some v) : v = u := by
  rw [hid, Uuid.parse_toString] at hv
  exact (Option.some.inj hv).symm

end InvariantLemmas

open InvariantLemmas

/-- Nothing that `Ids` and `Ledger` speak of differs. -/
structure SameStore (s s' : Snapshot) : Prop where
  table : s'.table = s.table
  drawn : s'.drawn = s.drawn
  execs : s'.execs = s.execs
  history : s'.history = s.history
  commits : s'.commits = s.commits
  publishes : ∀ i, publishesOf s'.state i = publishesOf s.state i

theorem publishesOf_resume {s : Snapshot} {g : Nat} {p p' : Publication}
    (hp : s.goroutines[g]? = some p) (hexec : p'.exec = p.exec) (hcall : p'.call = p.call)
    (i : Nat) : publishesOf (s.resume g p').state i = publishesOf s.state i := by
  rw [publishesOf_state, publishesOf_state, StateOf.resume_goroutines,
    map_set_eq (f := fun p : Publication => (p.exec, p.call)) hp (by rw [hexec, hcall])]

theorem publisher_sameStore {s s' : Snapshot} {a : Action} (h : PublisherTrans s a s') :
    SameStore s s' := by
  cases h with
  | clockRead hat => exact ⟨rfl, rfl, rfl, rfl, rfl, publishesOf_resume hat.1 rfl rfl⟩
  | handedOver | stored => exact ⟨rfl, rfl, rfl, rfl, rfl, fun _ => rfl⟩
  | wrote hat => exact ⟨rfl, rfl, rfl, rfl, rfl, publishesOf_resume hat.1 rfl rfl⟩
  | woke hat => exact ⟨rfl, rfl, rfl, rfl, rfl, publishesOf_resume hat.1 rfl rfl⟩
  | panicked hp => exact ⟨rfl, rfl, rfl, rfl, rfl, publishesOf_resume hp rfl rfl⟩

theorem lifecycle_sameStore {s s' : Snapshot} {a : Action} (h : LifecycleTrans s a s') :
    SameStore s s' := by
  cases h <;> exact ⟨rfl, rfl, rfl, rfl, rfl, fun _ => rfl⟩

/-! ## 1. Identities -/

/-- The execution is not about to save or to update a device. -/
def Standing.quiet : Standing → Bool
  | .running _ (.saving _) => false
  | .running _ (.updating _) => false
  | _ => true

namespace InvariantLemmas

variable {s : Snapshot} {i j : Nat} {op : Op} {e : Standing} {d : Device}

theorem quiet_start (op op' : Op) : (Standing.running op' op.start).quiet = true := by
  unfold Op.start
  cases op with
  | create name deviceType =>
    dsimp only
    split
    · rfl
    · split <;> rfl
  | list | get _ | update _ _ _ | delete _ => rfl

theorem saving_goOn (hq : e.quiet = true) (h : At (s.goOn i e) j op (.saving d)) :
    j ≠ i ∧ At s j op (.saving d) := by
  rcases at_goOn h with ⟨-, rfl⟩ | h
  · cases hq
  · exact h

theorem updating_goOn (hq : e.quiet = true) (h : At (s.goOn i e) j op (.updating d)) :
    At s j op (.updating d) := by
  rcases at_goOn h with ⟨-, rfl⟩ | h
  · cases hq
  · exact h.2

end InvariantLemmas

namespace Ids

variable {t₀ : Table} {s s' : Snapshot} {i : Nat} {op : Op} {e : Standing} {d : Device} {u : Uuid}

/-- Only the table, the draws, the executions and the commits count. -/
theorem congr (h : Ids t₀ s) (ht : s'.table = s.table) (hd : s'.drawn = s.drawn)
    (he : s'.execs = s.execs) (hc : s'.commits = s.commits) : Ids t₀ s' := by
  have hborn : born t₀ s' = born t₀ s := by rw [born, born, hc]
  have hdead : dead s' = dead s := by rw [dead, dead, hc]
  have hat : ∀ i op st, At s' i op st → At s i op st := by
    intro i op st hat
    rwa [At, he] at hat
  refine ⟨?_, ?_, ?_, ?_, ?_, ?_, ?_, ?_⟩
  · exact hborn ▸ h.born_nodup
  · exact hborn ▸ hd ▸ h.born_drawn
  · exact hborn ▸ ht ▸ h.table_born
  · exact fun i op d hs => hborn ▸ hd ▸ h.saving i op d (hat i op _ hs)
  · exact fun i j op op' d d' hs hs' => h.unique i j op op' d d' (hat i op _ hs) (hat j op' _ hs')
  · exact fun i op d hs => hborn ▸ ht ▸ h.updating i op d (hat i op _ hs)
  · exact hdead ▸ h.dead_nodup
  · exact hdead ▸ hborn ▸ ht ▸ h.dead_gone

/-- An execution goes on to a stage that is not about identities. -/
theorem goOn (h : Ids t₀ s) (hq : e.quiet = true) : Ids t₀ (s.goOn i e) where
  born_nodup := h.born_nodup
  born_drawn := h.born_drawn
  table_born := h.table_born
  saving j op d hd := h.saving j op d (saving_goOn hq hd).2
  unique j k op op' d d' hd hd' :=
    h.unique j k op op' d d' (saving_goOn hq hd).2 (saving_goOn hq hd').2
  updating j op d hd := h.updating j op d (updating_goOn hq hd)
  dead_nodup := h.dead_nodup
  dead_gone := h.dead_gone

theorem call (h : Ids t₀ s) (hq : e.quiet = true) : Ids t₀ (s.call op e) := by
  have hsaving : ∀ j op' d, At (s.call op e) j op' (.saving d) → At s j op' (.saving d) := by
    intro j op' d hd
    rcases at_call hd with ⟨-, rfl⟩ | hd
    · cases hq
    · exact hd.2
  refine ⟨h.born_nodup, h.born_drawn, h.table_born, ?_, ?_, ?_, h.dead_nodup, h.dead_gone⟩
  · exact fun j op' d hd => h.saving j op' d (hsaving j op' d hd)
  · exact fun j k op' op'' d d' hd hd' =>
      h.unique j k op' op'' d d' (hsaving j op' d hd) (hsaving k op'' d' hd')
  · intro j op' d hd
    rcases at_call hd with ⟨-, rfl⟩ | hd
    · cases hq
    · exact h.updating j op' d hd.2

/-- A fresh UUID is owned by the execution that drew it. -/
theorem draw {fresh : Fresh} (h : Ids t₀ s) (hfresh : fresh.uuid ∉ s.drawn)
    (hd : d.id = fresh.uuid.toString) :
    Ids t₀ ((s.goOn i (.running op (.saving d))).draw fresh) := by
  have hsaving : ∀ j op' d', At (s.goOn i (.running op (.saving d))) j op' (.saving d') →
      (j = i ∧ d' = d) ∨ (At s j op' (.saving d') ∧ d'.id ≠ d.id) := by
    intro j op' d' hat
    rcases at_goOn hat with ⟨hj, he⟩ | ⟨-, hat⟩
    · cases he
      exact .inl ⟨hj, rfl⟩
    · obtain ⟨u, hu, hdrawn, -⟩ := h.saving j op' d' hat
      refine .inr ⟨hat, fun heq => hfresh ?_⟩
      rw [hu, hd] at heq
      exact Uuid.toString_injective heq ▸ hdrawn
  refine ⟨h.born_nodup, ?_, h.table_born, ?_, ?_, ?_, h.dead_nodup, h.dead_gone⟩
  · exact fun u hu => List.mem_append_left _ (h.born_drawn u hu)
  · intro j op' d' hat
    rcases hsaving j op' d' hat with ⟨-, rfl⟩ | ⟨hat, -⟩
    · exact ⟨_, hd, List.mem_append_right _ (List.mem_singleton_self _),
        fun hmem => hfresh (h.born_drawn _ hmem)⟩
    · obtain ⟨u, hu, hdrawn, hborn⟩ := h.saving j op' d' hat
      exact ⟨u, hu, List.mem_append_left _ hdrawn, hborn⟩
  · intro j k op' op'' d' d'' hd' hd'' heq
    rcases hsaving j op' d' hd' with ⟨hj, rfl⟩ | ⟨hat', hne'⟩
    · rcases hsaving k op'' d'' hd'' with ⟨hk, -⟩ | ⟨-, hne⟩
      · rw [hj, hk]
      · exact absurd heq.symm hne
    · rcases hsaving k op'' d'' hd'' with ⟨-, rfl⟩ | ⟨hat'', -⟩
      · exact absurd heq hne'
      · exact h.unique j k op' op'' d' d'' hat' hat'' heq
  · intro j op' d' hat
    rcases at_goOn hat with ⟨-, he⟩ | ⟨-, hat⟩
    · cases he
    · exact h.updating j op' d' hat

/-- The row that was found is the row that will be updated. -/
theorem find {r : Row} (h : Ids t₀ s) (hr : s.table.find u = some r)
    (hid : d.id = r.device.id) (hcreated : d.createdAt = r.device.createdAt) :
    Ids t₀ (s.goOn i (.running op (.updating d))) := by
  have hsaving : ∀ j op' d', At (s.goOn i (.running op (.updating d))) j op' (.saving d') →
      At s j op' (.saving d') := by
    intro j op' d' hat
    rcases at_goOn hat with ⟨-, he⟩ | ⟨-, hat⟩
    · cases he
    · exact hat
  refine ⟨h.born_nodup, h.born_drawn, h.table_born, ?_, ?_, ?_, h.dead_nodup, h.dead_gone⟩
  · exact fun j op' d' hat => h.saving j op' d' (hsaving j op' d' hat)
  · exact fun j k op' op'' d' d'' hd' hd'' =>
      h.unique j k op' op'' d' d'' (hsaving j op' d' hd') (hsaving k op'' d'' hd'')
  · intro j op' d' hat
    rcases at_goOn hat with ⟨-, he⟩ | ⟨-, hat⟩
    · cases he
      have hru := id_of_find hr
      refine ⟨u, by rw [hid, Row.device, hru], h.table_born u (mem_ids_of_find hr), ?_⟩
      intro r' hr'
      rw [StateOf.goOn_table, hr, Option.some.injEq] at hr'
      rw [hcreated, hr']
    · exact h.updating j op' d' hat

/-- The device that an execution owns is inserted. -/
theorem insert {row : Row} {hu : row.id ∉ s.table.ids} (h : Ids t₀ s)
    (hat : At s i op (.saving d)) (hid : Uuid.parse d.id = some row.id) (hq : e.quiet = true) :
    Ids t₀ ((s.goOn i e).commit i (s.table.insert row hu) [.inserted row]) := by
  obtain ⟨u, hdu, hdrawn, hnew⟩ := h.saving i op d hat
  obtain rfl := parse_of_id hdu hid
  have hborn : born t₀ ((s.goOn i e).commit i (s.table.insert row hu) [.inserted row]) =
      born t₀ s ++ [row.id] := by
    simp [born, insertedId]
  have hdead : dead ((s.goOn i e).commit i (s.table.insert row hu) [.inserted row]) = dead s := by
    simp [dead, deletedId]
  refine ⟨?_, ?_, ?_, ?_, ?_, ?_, hdead ▸ h.dead_nodup, ?_⟩
  · rw [hborn, List.nodup_append]
    refine ⟨h.born_nodup, List.nodup_singleton _, fun a ha b hb hab => hnew ?_⟩
    rw [List.mem_singleton] at hb
    exact hb ▸ hab ▸ ha
  · rw [hborn]
    intro v hv
    rcases List.mem_append.mp hv with hv | hv
    · exact h.born_drawn v hv
    · exact List.mem_singleton.mp hv ▸ hdrawn
  · rw [hborn, StateOf.commit_table, ids_insert]
    intro v hv
    rcases List.mem_append.mp hv with hv | hv
    · exact List.mem_append_left _ (h.table_born v hv)
    · exact List.mem_append_right _ hv
  · intro j op' d' hd'
    obtain ⟨hji, hd'⟩ := saving_goOn hq hd'
    obtain ⟨v, hv, hvdrawn, hvnew⟩ := h.saving j op' d' hd'
    refine ⟨v, hv, hvdrawn, ?_⟩
    rw [hborn, List.mem_append, List.mem_singleton]
    rintro (hmem | rfl)
    · exact hvnew hmem
    · -- two creations that drew one id are one
      exact hji (h.unique j i op' op d' d hd' hat (hv.trans hdu.symm))
  · exact fun j k op' op'' d' d'' hd' hd'' =>
      h.unique j k op' op'' d' d'' (saving_goOn hq hd').2 (saving_goOn hq hd'').2
  · intro j op' d' hd'
    obtain ⟨v, hv, hvborn, hcreated⟩ := h.updating j op' d' (updating_goOn hq hd')
    refine ⟨v, hv, hborn ▸ List.mem_append_left _ hvborn, fun r hr => hcreated r ?_⟩
    rw [StateOf.commit_table, find_insert, if_neg] at hr
    · exact hr
    · -- the new row is not the one that is being updated
      rintro rfl
      exact hnew hvborn
  · rw [hdead, hborn, StateOf.commit_table, ids_insert]
    intro v hv
    obtain ⟨hvborn, hvtable⟩ := h.dead_gone v hv
    refine ⟨List.mem_append_left _ hvborn, ?_⟩
    rw [List.mem_append, List.mem_singleton]
    rintro (hmem | rfl)
    · exact hvtable hmem
    · exact hnew hvborn

/-- An update keeps ids and creation times. -/
theorem update {r : Row} {name deviceType : String} (h : Ids t₀ s) (hq : e.quiet = true) :
    Ids t₀ ((s.goOn i e).commit i (s.table.update u name deviceType)
      [.updated r { r with name := name, type := deviceType }]) := by
  have hborn : born t₀ ((s.goOn i e).commit i (s.table.update u name deviceType)
      [.updated r { r with name := name, type := deviceType }]) = born t₀ s := by
    simp [born, insertedId]
  have hdead : dead ((s.goOn i e).commit i (s.table.update u name deviceType)
      [.updated r { r with name := name, type := deviceType }]) = dead s := by
    simp [dead, deletedId]
  refine ⟨hborn ▸ h.born_nodup, hborn ▸ h.born_drawn, ?_, ?_, ?_, ?_, hdead ▸ h.dead_nodup, ?_⟩
  · rw [hborn, StateOf.commit_table, ids_update]
    exact h.table_born
  · exact fun j op' d' hd' => hborn ▸ h.saving j op' d' (saving_goOn hq hd').2
  · exact fun j k op' op'' d' d'' hd' hd'' =>
      h.unique j k op' op'' d' d'' (saving_goOn hq hd').2 (saving_goOn hq hd'').2
  · intro j op' d' hd'
    obtain ⟨v, hv, hvborn, hcreated⟩ := h.updating j op' d' (updating_goOn hq hd')
    refine ⟨v, hv, hborn ▸ hvborn, fun r' hr' => ?_⟩
    rw [StateOf.commit_table, find_update, Option.map_eq_some_iff] at hr'
    obtain ⟨r₀, hr₀, rfl⟩ := hr'
    rw [← hcreated r₀ hr₀]
    unfold Row.renamed
    split <;> rfl
  · rw [hdead, hborn, StateOf.commit_table, ids_update]
    exact h.dead_gone

/-- A deletion of a row that is there is its first. -/
theorem delete {r : Row} (h : Ids t₀ s) (hr : s.table.find u = some r) (hq : e.quiet = true) :
    Ids t₀ ((s.goOn i e).commit i (s.table.delete u) [.deleted r]) := by
  obtain rfl := id_of_find hr
  have hborn : born t₀ ((s.goOn i e).commit i (s.table.delete r.id) [.deleted r]) = born t₀ s := by
    simp [born, insertedId]
  have hdead : dead ((s.goOn i e).commit i (s.table.delete r.id) [.deleted r]) =
      dead s ++ [r.id] := by
    simp [dead, deletedId]
  have hmem := mem_ids_of_find hr
  refine ⟨hborn ▸ h.born_nodup, hborn ▸ h.born_drawn, ?_, ?_, ?_, ?_, ?_, ?_⟩
  · rw [hborn, StateOf.commit_table]
    exact fun v hv => h.table_born v (mem_ids_delete.mp hv).1
  · exact fun j op' d' hd' => hborn ▸ h.saving j op' d' (saving_goOn hq hd').2
  · exact fun j k op' op'' d' d'' hd' hd'' =>
      h.unique j k op' op'' d' d'' (saving_goOn hq hd').2 (saving_goOn hq hd'').2
  · intro j op' d' hd'
    obtain ⟨v, hv, hvborn, hcreated⟩ := h.updating j op' d' (updating_goOn hq hd')
    refine ⟨v, hv, hborn ▸ hvborn, fun r' hr' => hcreated r' ?_⟩
    rw [StateOf.commit_table, find_delete] at hr'
    split at hr'
    · cases hr'
    · exact hr'
  · rw [hdead, List.nodup_append]
    refine ⟨h.dead_nodup, List.nodup_singleton _, fun a ha b hb hab => ?_⟩
    rw [List.mem_singleton] at hb
    exact (h.dead_gone a ha).2 (hab ▸ hb ▸ hmem)
  · rw [hdead, hborn, StateOf.commit_table]
    intro v hv
    rw [mem_ids_delete]
    rcases List.mem_append.mp hv with hv | hv
    · exact ⟨(h.dead_gone v hv).1, fun hv' => (h.dead_gone v hv).2 hv'.1⟩
    · rw [List.mem_singleton] at hv
      exact ⟨hv ▸ h.table_born _ hmem, fun hv' => hv'.2 hv⟩

end Ids

theorem ids_start (t₀ : Table) (clock : Instant) : Ids t₀ (StateOf.start t₀ clock) := by
  have hborn : born t₀ (StateOf.start t₀ clock : Snapshot) = t₀.ids := List.append_nil _
  refine ⟨hborn ▸ t₀.primaryKey, hborn ▸ fun _ hu => hu, hborn ▸ fun _ hu => hu, ?_, ?_, ?_,
    List.nodup_nil, fun _ hu => by cases hu⟩
  · exact fun _ _ _ hat => absurd hat not_at_start
  · exact fun _ _ _ _ _ _ hat => absurd hat not_at_start
  · exact fun _ _ _ hat => absurd hat not_at_start

/-- Every outcome keeps `Ids`. -/
theorem ids_trans {t₀ : Table} {s s' : Snapshot} {a : Action} (h : Ids t₀ s) (ht : Trans s a s') :
    Ids t₀ s' := by
  cases ht with
  | called => exact h.call (quiet_start _ _)
  | drew _ hfresh => exact h.draw hfresh rfl
  | failed => exact h.goOn rfl
  | saved hat hid hu => exact h.insert hat hid rfl
  | listed => exact h.goOn rfl
  | got => exact h.goOn rfl
  | absent => exact h.goOn rfl
  | refused => exact h.goOn rfl
  | foundToUpdate hat hid hr hd =>
    obtain ⟨-, -, rfl⟩ := Device.update_ok.mp hd
    exact h.find hr rfl rfl
  | updated => exact h.update rfl
  | foundToDelete => exact h.goOn rfl
  | deleted hat hid hr => exact h.delete hr rfl
  | @announced i op call reply =>
    exact (h.goOn (i := i) (e := .running op (.done (.ok reply))) rfl).congr rfl rfl rfl rfl
  | @returned i op r =>
    exact (h.goOn (i := i) (e := .returned op r) rfl).congr rfl rfl rfl rfl
  | publisher hp =>
    have hf := publisher_sameStore hp
    exact h.congr hf.table hf.drawn hf.execs hf.commits
  | lifecycle hl =>
    have hf := lifecycle_sameStore hl
    exact h.congr hf.table hf.drawn hf.execs hf.commits

/-! ## 2. Accounts -/

namespace InvariantLemmas

variable {s : Snapshot} {i j : Nat} {op : Op} {st : Stage} {e : Standing}

theorem getElem?_goOn (hat : At s i op st) (e : Standing) :
    (s.goOn i e).execs[j]? = if j = i then some e else s.execs[j]? := by
  rw [StateOf.goOn_execs]
  split
  · next hj =>
    rw [hj, List.getElem?_set_self', hat]
    rfl
  · next hj => rw [List.getElem?_set_ne (Ne.symm hj)]

theorem changesOf_commit {table : Table} {cs : List Change} :
    changesOf ((s.goOn i e).commit i table cs) j =
      changesOf s j ++ if j = i then cs else [] := by
  simp only [changesOf, StateOf.commit_commits, StateOf.goOn_commits, List.filterMap_append,
    List.filterMap_map]
  congr 1
  split
  · next hj => simp [hj]
  · next hj => simp [Ne.symm hj]

theorem publishesOf_spawn {call : PublishCall} :
    publishesOf ((s.goOn i e).spawn (Publication.start i call)).state j =
      publishesOf s.state j ++ if j = i then [call] else [] := by
  simp only [publishesOf_state, StateOf.spawn_goroutines, StateOf.goOn_goroutines,
    List.map_append, List.filterMap_append]
  congr 1
  split
  · next hj => simp [Publication.start, hj]
  · next hj => simp [Publication.start, Ne.symm hj]

theorem accounted_start (op : Op) : Accounted (some (.running op op.start)) [] [] := by
  unfold Op.start
  cases op with
  | create name deviceType =>
    dsimp only
    split
    · exact ⟨rfl, rfl⟩
    · next hname =>
      split
      · exact ⟨rfl, rfl⟩
      · next htype => exact ⟨⟨rfl, hname, htype⟩, rfl, rfl⟩
  | list | get _ | update _ _ _ | delete _ => exact ⟨rfl, rfl, rfl⟩

/-- Before a statement nothing has been changed or started. -/
theorem accounted_query {cs : List Change} {ps : List PublishCall} (hq : st.isQuery = true)
    (h : Accounted (some (.running op st)) cs ps) : st.Fits op ∧ cs = [] ∧ ps = [] := by
  cases st with
  | drawing _ _ | announcing _ _ | done _ => cases hq
  | saving _ | listing | getting _ | findingToUpdate _ _ _ | updating _ | findingToDelete _
  | deleting _ _ => exact h

theorem isQuery_of_lookup {id : String} (h : st.lookup = some id) : st.isQuery = true := by
  cases st <;> first | rfl | cases h

end InvariantLemmas

namespace Ledger

variable {s s' : Snapshot} {i : Nat} {op : Op} {st : Stage} {e : Standing}

theorem at_stage (h : Ledger s) (hat : At s i op st) :
    Accounted (some (.running op st)) (changesOf s i) (publishesOf s.state i) := by
  have hi := h i
  rwa [hat] at hi

/-- The account of an execution before a statement. -/
theorem at_query (h : Ledger s) (hat : At s i op st) (hq : st.isQuery = true) :
    st.Fits op ∧ changesOf s i = [] ∧ publishesOf s.state i = [] :=
  accounted_query hq (h.at_stage hat)

theorem goOn (h : Ledger s) (hat : At s i op st)
    (hi : Accounted (some e) (changesOf s i) (publishesOf s.state i)) : Ledger (s.goOn i e) := by
  intro j
  rw [getElem?_goOn hat]
  split
  · next hj => exact hj ▸ hi
  · exact h j

theorem commit {table : Table} {c : Change} (h : Ledger s) (hat : At s i op st)
    (hq : st.isQuery = true) (hi : Accounted (some e) [c] []) :
    Ledger ((s.goOn i e).commit i table [c]) := by
  obtain ⟨-, hcs, hps⟩ := h.at_query hat hq
  intro j
  rw [changesOf_commit, StateOf.commit_execs, getElem?_goOn hat]
  split
  · next hj =>
    subst hj
    rw [hcs]
    exact hps ▸ hi
  · rw [List.append_nil]
    exact h j

theorem spawn {call : PublishCall} {reply : Reply} (h : Ledger s)
    (hat : At s i op (.announcing call reply)) :
    Ledger ((s.goOn i (.running op (.done (.ok reply)))).spawn (Publication.start i call)) := by
  obtain ⟨hps, hmut, c, hcs, hann⟩ := h.at_stage hat
  intro j
  rw [publishesOf_spawn, StateOf.spawn_execs, getElem?_goOn hat]
  split
  · next hj =>
    subst hj
    rw [hps]
    show Settled op (.ok reply) (changesOf s j) ([] ++ [call])
    rw [Settled, if_pos hmut, hcs]
    exact ⟨c, call, rfl, rfl, hann⟩
  · rw [List.append_nil]
    exact h j

theorem congr (h : Ledger s) (he : s'.execs = s.execs) (hc : s'.commits = s.commits)
    (hp : ∀ i, publishesOf s'.state i = publishesOf s.state i) : Ledger s' := by
  intro i
  rw [he, hp, changesOf, hc]
  exact h i

theorem call (h : Ledger s) (op : Op) : Ledger (s.call op (.running op op.start)) := by
  intro j
  rw [StateOf.call_execs]
  rcases Nat.lt_trichotomy j s.execs.length with hj | rfl | hj
  · rw [List.getElem?_append_left hj]
    exact h j
  · have hnone := h s.execs.length
    rw [List.getElem?_eq_none (Nat.le_refl _)] at hnone
    obtain ⟨hcs, hps⟩ := hnone
    rw [List.getElem?_concat_length]
    show Accounted _ (changesOf s s.execs.length) (publishesOf s.state s.execs.length)
    rw [hcs, hps]
    exact accounted_start op
  · have hnone := h j
    rw [List.getElem?_eq_none (Nat.le_of_lt hj)] at hnone
    rw [List.getElem?_eq_none (by rw [List.length_append, List.length_singleton]; exact hj)]
    exact hnone

end Ledger

theorem ledger_start (t₀ : Table) (clock : Instant) : Ledger (StateOf.start t₀ clock) :=
  fun _ => ⟨rfl, rfl⟩

/-- Every outcome keeps the accounts. -/
theorem ledger_trans {s s' : Snapshot} {a : Action} (h : Ledger s) (ht : Trans s a s') :
    Ledger s' := by
  cases ht with
  | @called op => exact h.call op
  | drew hat =>
    obtain ⟨⟨rfl, hname, htype⟩, hacc⟩ := h.at_stage hat
    refine Ledger.congr (h.goOn hat ?_) rfl rfl fun _ => rfl
    exact ⟨⟨rfl, hname, htype⟩, hacc⟩
  | failed hat hq => exact h.goOn hat (h.at_query hat hq).2
  | saved hat hid hu =>
    obtain ⟨⟨rfl, -⟩, -⟩ := h.at_query hat rfl
    exact h.commit hat rfl ⟨rfl, rfl, _, rfl, .created hid rfl rfl rfl⟩
  | listed hat =>
    obtain ⟨rfl, hacc⟩ := h.at_query hat rfl
    exact h.goOn hat hacc
  | got hat =>
    obtain ⟨rfl, hacc⟩ := h.at_query hat rfl
    exact h.goOn hat hacc
  | absent hat hlook => exact h.goOn hat (h.at_query hat (isQuery_of_lookup hlook)).2
  | refused hat => exact h.goOn hat (h.at_query hat rfl).2
  | @foundToUpdate i op id name deviceType order u r d hat hid hr hd =>
    obtain ⟨rfl, hacc⟩ := h.at_query hat rfl
    obtain ⟨hname, htype, rfl⟩ := Device.update_ok.mp hd
    refine h.goOn hat ⟨⟨id, rfl, ?_, hname, htype⟩, hacc⟩
    rw [hid, Row.device, id_of_find hr, Uuid.parse_toString]
  | updated hat hid hr =>
    obtain ⟨⟨id, rfl, hsame, -⟩, -⟩ := h.at_query hat rfl
    have hru := id_of_find hr
    exact h.commit hat rfl ⟨rfl, rfl, _, rfl, .updated (hsame.trans (hru ▸ hid)) (hru ▸ hid) rfl⟩
  | foundToDelete hat =>
    obtain ⟨rfl, hacc⟩ := h.at_query hat rfl
    exact h.goOn hat ⟨rfl, hacc⟩
  | deleted hat hid hr =>
    obtain ⟨rfl, -⟩ := h.at_query hat rfl
    exact h.commit hat rfl ⟨rfl, rfl, _, rfl, .deleted (id_of_find hr ▸ hid)⟩
  | announced hat => exact h.spawn hat
  | returned hat => exact (h.goOn (e := .returned _ _) hat (h.at_stage hat)).congr rfl rfl fun _ => rfl
  | publisher hp =>
    have hf := publisher_sameStore hp
    exact h.congr hf.execs hf.commits hf.publishes
  | lifecycle hl =>
    have hf := lifecycle_sameStore hl
    exact h.congr hf.execs hf.commits hf.publishes

end AssetTracker.GoService
