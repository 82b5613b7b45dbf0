import AssetTracker.Go.Device
import Mathlib.Data.List.Nodup

/-!
# The devices table (Go service, PostgreSQL)

The table of `RunMigrations` and the five statements that
`PostgresDeviceRepository` sends. A statement is one atomic step. The database
reads ids as UUIDs in any spelling, keeps instants to the microsecond, refuses
texts with a NUL character, and counts the rows a statement touches.

Results:
1. `find_insert`, `find_update`, `find_delete`: lookups after a change.
2. `exec_insert` ... `exec_delete`: what each statement can do when it succeeds.
3. `Table.exec_changes`: the rows that a statement reports as changed tell what
   becomes of the table; they are one row or none.
-/

namespace AssetTracker.GoService

open Encoding

/-! ## Rows and tables -/

/-- A row of `devices`. `createdAt` counts microseconds since 1970. -/
structure Row where
  id : Uuid
  name : String
  type : String
  createdAt : Int
deriving DecidableEq, Repr

/-- The microsecond of an instant, rounded down: what a `TIMESTAMPTZ` column keeps. -/
def microseconds (t : Instant) : Int := t / 1000

/-- An instant read back from the column. -/
def ofMicroseconds (n : Int) : Instant := n * 1000

/-- `CREATE TABLE devices (id UUID PRIMARY KEY, ...)`. -/
structure Table where
  rows : List Row
  primaryKey : (rows.map Row.id).Nodup

def Table.empty : Table := ⟨[], List.nodup_nil⟩

def Table.find (t : Table) (u : Uuid) : Option Row := t.rows.find? fun r => r.id = u

def Table.ids (t : Table) : List Uuid := t.rows.map Row.id

/-! ## Changes of one row -/

/-- One row inserted, updated or deleted. `updated` has the row before and after. -/
inductive Change where
  | inserted (r : Row)
  | updated (r r' : Row)
  | deleted (r : Row)
deriving DecidableEq, Repr

def Change.uuid : Change → Uuid
  | .inserted r => r.id
  | .updated r _ => r.id
  | .deleted r => r.id

/-- Give the rows whose id is `u` another name and type. -/
def Row.renamed (u : Uuid) (name deviceType : String) (r : Row) : Row :=
  if r.id = u then { r with name := name, type := deviceType } else r

namespace TableLemmas

theorem renamed_id (u : Uuid) (name deviceType : String) (r : Row) :
    (r.renamed u name deviceType).id = r.id := by
  unfold Row.renamed
  split <;> rfl

theorem map_renamed_ids (u : Uuid) (name deviceType : String) (rows : List Row) :
    (rows.map (Row.renamed u name deviceType)).map Row.id = rows.map Row.id := by
  rw [List.map_map]
  exact List.map_congr_left fun r _ => renamed_id u name deviceType r

end TableLemmas

open TableLemmas

def Table.insert (t : Table) (r : Row) (h : r.id ∉ t.ids) : Table where
  rows := t.rows ++ [r]
  primaryKey := by
    rw [List.map_append, List.nodup_append]
    refine ⟨t.primaryKey, List.nodup_singleton r.id, ?_⟩
    intro a ha b hb hab
    rw [List.map_singleton, List.mem_singleton] at hb
    exact h (hb ▸ hab ▸ ha)

def Table.update (t : Table) (u : Uuid) (name deviceType : String) : Table where
  rows := t.rows.map (Row.renamed u name deviceType)
  primaryKey := by
    rw [map_renamed_ids]
    exact t.primaryKey

def Table.delete (t : Table) (u : Uuid) : Table where
  rows := t.rows.filter fun r => r.id ≠ u
  primaryKey := t.primaryKey.sublist (List.filter_sublist.map _)

/-! ## Statements -/

/-- The statements of the repository, with their arguments in the source's order. -/
inductive Stmt where
  /-- `INSERT INTO devices (id, name, type, created_at) VALUES ($1, $2, $3, $4)` -/
  | insert (id name deviceType : String) (createdAt : Instant)
  /-- `SELECT id, name, type, created_at FROM devices ORDER BY created_at DESC` -/
  | selectAll
  /-- `SELECT id, name, type, created_at FROM devices WHERE id = $1` -/
  | selectById (id : String)
  /-- `UPDATE devices SET name = $1, type = $2 WHERE id = $3` -/
  | update (name deviceType id : String)
  /-- `DELETE FROM devices WHERE id = $1` -/
  | delete (id : String)
deriving DecidableEq, Repr

/-- What a statement that succeeds answers: rows, or the number of rows affected. -/
abbrev Stmt.Rows : Stmt → Type
  | .insert .. => Nat
  | .selectAll => List Row
  | .selectById _ => Option Row
  | .update .. => Nat
  | .delete _ => Nat

/-- How a statement fails: as a whole, while a row is scanned, or while the rows
are fetched. -/
inductive Fault where
  | statement (message : String)
  | scan (message : String)
  | iteration (message : String)
deriving DecidableEq, Repr

def Fault.message : Fault → String
  | .statement message => message
  | .scan message => message
  | .iteration message => message

def invalidUuid (id : String) : String :=
  "ERROR: invalid input syntax for type uuid: \x22" ++ id ++ "\x22 (SQLSTATE 22P02)"

def invalidText : String :=
  "ERROR: invalid byte sequence for encoding \x22UTF8\x22: 0x00 (SQLSTATE 22021)"

def duplicateKey : String :=
  "ERROR: duplicate key value violates unique constraint \x22devices_pkey\x22 (SQLSTATE 23505)"

/-- A `UUID` argument. -/
def uuidArg (id : String) : Except Fault Uuid :=
  match Uuid.parse id with
  | some u => .ok u
  | none => .error (.statement (invalidUuid id))

/-- A `TEXT` argument holds no NUL. -/
def textArg (s : String) : Except Fault Unit :=
  if s.toList.contains '\x00' then .error (.statement invalidText) else .ok ()

/-- `rows` in descending order of `created_at`; rows of one instant stand in any order. -/
def Descending (rows : List Row) : Prop := rows.Pairwise fun a b => b.createdAt ≤ a.createdAt

instance (rows : List Row) : Decidable (Descending rows) :=
  inferInstanceAs (Decidable (rows.Pairwise fun a b => b.createdAt ≤ a.createdAt))

/-- What a statement that succeeds does: its answer, the table after it, and the
rows it changed. -/
structure Done (A : Type) where
  answer : A
  table : Table
  changes : List Change

/-- A statement that changes nothing. -/
def Table.reads {A : Type} (t : Table) (answer : A) : Done A := ⟨answer, t, []⟩

/-- The rows that `WHERE id = u` finds. -/
def Table.touched (t : Table) (u : Uuid) : List Row := t.rows.filter fun r => r.id = u

/-- Execute one statement. `order` is the order in which `ORDER BY` puts the rows. -/
def Table.exec (t : Table) (order : List Row) : (s : Stmt) → Except Fault (Done s.Rows)
  | .insert id name deviceType createdAt => do
    let u ← uuidArg id
    textArg name
    textArg deviceType
    if h : u ∈ t.ids then .error (.statement duplicateKey)
    else
      let r : Row := ⟨u, name, deviceType, microseconds createdAt⟩
      .ok ⟨1, t.insert r h, [.inserted r]⟩
  | .selectAll => .ok (t.reads order)
  | .selectById id => do
    let u ← uuidArg id
    .ok (t.reads (t.find u))
  | .update name deviceType id => do
    textArg name
    textArg deviceType
    let u ← uuidArg id
    .ok ⟨(t.touched u).length, t.update u name deviceType,
      (t.touched u).map fun r => .updated r (r.renamed u name deviceType)⟩
  | .delete id => do
    let u ← uuidArg id
    .ok ⟨(t.touched u).length, t.delete u, (t.touched u).map .deleted⟩

/-! ## 1. Lookups -/

namespace TableLemmas

theorem find_some {t : Table} {u : Uuid} {r : Row} :
    t.find u = some r ↔ r ∈ t.rows ∧ r.id = u := by
  have hsound : ∀ {u r}, t.find u = some r → r ∈ t.rows ∧ r.id = u := by
    intro u r h
    unfold Table.find at h
    exact ⟨List.mem_of_find?_eq_some h, by simpa using List.find?_some h⟩
  refine ⟨hsound, ?_⟩
  rintro ⟨hr, rfl⟩
  obtain ⟨r', h'⟩ : ∃ r', t.find r.id = some r' :=
    Option.isSome_iff_exists.mp (List.find?_isSome.mpr ⟨r, hr, decide_eq_true rfl⟩)
  obtain ⟨hr', hid⟩ := hsound h'
  rw [h', List.inj_on_of_nodup_map t.primaryKey hr' hr hid]

theorem find_none {t : Table} {u : Uuid} : t.find u = none ↔ u ∉ t.ids := by
  unfold Table.find Table.ids
  rw [List.find?_eq_none, List.mem_map]
  constructor
  · rintro h ⟨r, hr, rfl⟩
    exact h r hr (decide_eq_true rfl)
  · intro h r hr hid
    exact h ⟨r, hr, of_decide_eq_true hid⟩

theorem mem_ids_of_find {t : Table} {u : Uuid} {r : Row} (h : t.find u = some r) : u ∈ t.ids := by
  obtain ⟨hr, rfl⟩ := find_some.mp h
  exact List.mem_map_of_mem hr

theorem id_of_find {t : Table} {u : Uuid} {r : Row} (h : t.find u = some r) : r.id = u :=
  (find_some.mp h).2

theorem touched_some {t : Table} {u : Uuid} {r : Row} (h : t.find u = some r) :
    t.touched u = [r] := by
  obtain ⟨hr, rfl⟩ := find_some.mp h
  have hnd : (t.touched r.id).Nodup := t.primaryKey.of_map.filter _
  have hall : ∀ r' ∈ t.touched r.id, r' = r := by
    intro r' h'
    obtain ⟨hr', hid⟩ := List.mem_filter.mp h'
    exact List.inj_on_of_nodup_map t.primaryKey hr' hr (of_decide_eq_true hid)
  have hmem : r ∈ t.touched r.id := List.mem_filter.mpr ⟨hr, decide_eq_true rfl⟩
  exact List.perm_singleton.mp ((List.perm_ext_iff_of_nodup hnd (by simp)).mpr fun r' =>
    ⟨fun h' => List.mem_singleton.mpr (hall r' h'), fun h' => List.mem_singleton.mp h' ▸ hmem⟩)

theorem touched_none {t : Table} {u : Uuid} (h : t.find u = none) : t.touched u = [] := by
  rw [Table.touched, List.filter_eq_nil_iff]
  exact List.find?_eq_none.mp h

@[simp] theorem ids_insert {t : Table} {r : Row} {h : r.id ∉ t.ids} :
    (t.insert r h).ids = t.ids ++ [r.id] := by
  simp [Table.insert, Table.ids]

@[simp] theorem ids_update {t : Table} {u : Uuid} {name deviceType : String} :
    (t.update u name deviceType).ids = t.ids :=
  map_renamed_ids u name deviceType t.rows

theorem mem_ids_delete {t : Table} {u v : Uuid} : v ∈ (t.delete u).ids ↔ v ∈ t.ids ∧ v ≠ u := by
  simp only [Table.delete, Table.ids, List.mem_map, List.mem_filter, decide_eq_true_eq]
  constructor
  · rintro ⟨r, ⟨hr, hne⟩, rfl⟩
    exact ⟨⟨r, hr, rfl⟩, hne⟩
  · rintro ⟨⟨r, hr, rfl⟩, hne⟩
    exact ⟨r, ⟨hr, hne⟩, rfl⟩

theorem find_insert {t : Table} {r : Row} {h : r.id ∉ t.ids} {v : Uuid} :
    (t.insert r h).find v = if v = r.id then some r else t.find v := by
  split
  · next hv =>
    subst hv
    exact find_some.mpr ⟨List.mem_append_right _ (List.mem_singleton_self r), rfl⟩
  · next hv =>
    cases hf : t.find v with
    | none =>
      rw [find_none, ids_insert, List.mem_append, List.mem_singleton]
      exact not_or.mpr ⟨find_none.mp hf, hv⟩
    | some r' =>
      obtain ⟨hr', hid⟩ := find_some.mp hf
      exact find_some.mpr ⟨List.mem_append_left _ hr', hid⟩

theorem find_update {t : Table} {u v : Uuid} {name deviceType : String} :
    (t.update u name deviceType).find v = (t.find v).map (Row.renamed u name deviceType) := by
  cases hf : t.find v with
  | none =>
    rw [Option.map_none, find_none, ids_update]
    exact find_none.mp hf
  | some r =>
    obtain ⟨hr, hid⟩ := find_some.mp hf
    refine find_some.mpr ⟨List.mem_map_of_mem hr, ?_⟩
    rw [renamed_id, hid]

theorem find_delete {t : Table} {u v : Uuid} :
    (t.delete u).find v = if v = u then none else t.find v := by
  split
  · next hv => exact find_none.mpr fun h => (mem_ids_delete.mp h).2 hv
  · next hv =>
    cases hf : t.find v with
    | none => exact find_none.mpr fun h => find_none.mp hf (mem_ids_delete.mp h).1
    | some r =>
      obtain ⟨hr, hid⟩ := find_some.mp hf
      exact find_some.mpr ⟨List.mem_filter.mpr ⟨hr, decide_eq_true (hid ▸ hv)⟩, hid⟩

end TableLemmas

open TableLemmas

/-! ## 2. Statements that succeed -/

namespace TableLemmas

theorem bind_ok {ε α β : Type} {x : Except ε α} {f : α → Except ε β} {b : β}
    (h : (x >>= f) = .ok b) : ∃ a, x = .ok a ∧ f a = .ok b := by
  cases x with
  | error e => cases h
  | ok a => exact ⟨a, rfl, h⟩

theorem uuidArg_ok {id : String} {u : Uuid} : uuidArg id = .ok u ↔ Uuid.parse id = some u := by
  unfold uuidArg
  split
  · next v h => rw [h, Except.ok.injEq, Option.some.injEq]
  · next h => simp [h]

theorem update_of_find_none {t : Table} {u : Uuid} {name deviceType : String}
    (h : t.find u = none) : t.update u name deviceType = t := by
  have hrows : t.rows.map (Row.renamed u name deviceType) = t.rows := by
    conv_rhs => rw [← List.map_id t.rows]
    refine List.map_congr_left fun r hr => ?_
    unfold Row.renamed
    rw [if_neg]
    · rfl
    · exact fun hid => find_none.mp h (hid ▸ List.mem_map_of_mem hr)
  cases t
  simp only [Table.update, Table.mk.injEq]
  exact hrows

theorem delete_of_find_none {t : Table} {u : Uuid} (h : t.find u = none) : t.delete u = t := by
  have hrows : t.rows.filter (fun r => r.id ≠ u) = t.rows := by
    rw [List.filter_eq_self]
    exact fun r hr => decide_eq_true fun hid => find_none.mp h (hid ▸ List.mem_map_of_mem hr)
  cases t
  simp only [Table.delete, Table.mk.injEq]
  exact hrows

theorem renamed_of_find {t : Table} {u : Uuid} {r : Row} {name deviceType : String}
    (h : t.find u = some r) :
    r.renamed u name deviceType = { r with name := name, type := deviceType } :=
  if_pos (id_of_find h)

end TableLemmas

variable {t : Table} {order : List Row}

theorem exec_insert {id name deviceType : String} {createdAt : Instant} {d : Done Nat}
    (h : t.exec order (.insert id name deviceType createdAt) = .ok d) :
    ∃ u, Uuid.parse id = some u ∧ ∃ hu : u ∉ t.ids,
      d = ⟨1, t.insert ⟨u, name, deviceType, microseconds createdAt⟩ hu,
        [.inserted ⟨u, name, deviceType, microseconds createdAt⟩]⟩ := by
  obtain ⟨u, hu, h⟩ := bind_ok h
  obtain ⟨_, _, h⟩ := bind_ok h
  obtain ⟨_, _, h⟩ := bind_ok h
  split at h
  · cases h
  · next hfree =>
    cases h
    exact ⟨u, uuidArg_ok.mp hu, hfree, rfl⟩

theorem exec_selectById {id : String} {d : Done (Option Row)}
    (h : t.exec order (.selectById id) = .ok d) :
    ∃ u, Uuid.parse id = some u ∧ d = t.reads (t.find u) := by
  obtain ⟨u, hu, h⟩ := bind_ok h
  cases h
  exact ⟨u, uuidArg_ok.mp hu, rfl⟩

/-- An `UPDATE` finds no row and does nothing, or changes the one row with the id. -/
theorem exec_update {id name deviceType : String} {d : Done Nat}
    (h : t.exec order (.update name deviceType id) = .ok d) :
    ∃ u, Uuid.parse id = some u ∧
      ((t.find u = none ∧ d = ⟨0, t, []⟩) ∨
       ∃ r, t.find u = some r ∧ d = ⟨1, t.update u name deviceType,
          [.updated r { r with name := name, type := deviceType }]⟩) := by
  obtain ⟨_, _, h⟩ := bind_ok h
  obtain ⟨_, _, h⟩ := bind_ok h
  obtain ⟨u, hu, h⟩ := bind_ok h
  cases h
  refine ⟨u, uuidArg_ok.mp hu, ?_⟩
  cases hf : t.find u with
  | none => simp [touched_none hf, update_of_find_none hf]
  | some r => simp [touched_some hf, renamed_of_find hf]

/-- A `DELETE` finds no row and does nothing, or removes the one row with the id. -/
theorem exec_delete {id : String} {d : Done Nat} (h : t.exec order (.delete id) = .ok d) :
    ∃ u, Uuid.parse id = some u ∧
      ((t.find u = none ∧ d = ⟨0, t, []⟩) ∨
       ∃ r, t.find u = some r ∧ d = ⟨1, t.delete u, [.deleted r]⟩) := by
  obtain ⟨u, hu, h⟩ := bind_ok h
  cases h
  refine ⟨u, uuidArg_ok.mp hu, ?_⟩
  cases hf : t.find u with
  | none => simp [touched_none hf, delete_of_find_none hf]
  | some r => simp [touched_some hf]

/-! ## 3. Changes -/

/-- `c` is the whole difference between the tables `t` and `t'`. -/
def Change.Makes (t : Table) : Change → Table → Prop
  | .inserted r, t' => r.id ∉ t.ids ∧ t'.rows = t.rows ++ [r]
  | .updated r r', t' =>
    t.find r.id = some r ∧ r'.id = r.id ∧ r'.createdAt = r.createdAt ∧
      t'.rows = t.rows.map fun x => if x.id = r.id then r' else x
  | .deleted r, t' => t.find r.id = some r ∧ t'.rows = t.rows.filter fun x => x.id ≠ r.id

/-- A list of changes leads from one table to another, one row at a time. -/
inductive Replays (t : Table) : List Change → Table → Prop
  | nil : Replays t [] t
  | snoc {cs : List Change} {t' t'' : Table} {c : Change} :
      Replays t cs t' → c.Makes t' t'' → Replays t (cs ++ [c]) t''

theorem update_makes {u : Uuid} {r : Row} {name deviceType : String} (h : t.find u = some r) :
    Change.Makes t (.updated r { r with name := name, type := deviceType })
      (t.update u name deviceType) := by
  obtain rfl := id_of_find h
  refine ⟨h, rfl, rfl, List.map_congr_left fun x hx => ?_⟩
  unfold Row.renamed
  split
  · next hxu =>
    have hxr := find_some.mpr ⟨hx, hxu⟩
    rw [h, Option.some.injEq] at hxr
    rw [hxr]
  · rfl

theorem delete_makes {u : Uuid} {r : Row} (h : t.find u = some r) :
    Change.Makes t (.deleted r) (t.delete u) := by
  obtain rfl := id_of_find h
  exact ⟨h, rfl⟩

/-- A statement changes no row and leaves the table as it is, or changes one row. -/
theorem Table.exec_changes {s : Stmt} {d : Done s.Rows} (h : t.exec order s = .ok d) :
    (d.changes = [] ∧ d.table = t) ∨ ∃ c, d.changes = [c] ∧ c.Makes t d.table := by
  cases s with
  | insert id name deviceType createdAt =>
    obtain ⟨u, _, hu, rfl⟩ := exec_insert h
    exact .inr ⟨_, rfl, hu, rfl⟩
  | selectAll =>
    cases h
    exact .inl ⟨rfl, rfl⟩
  | selectById id =>
    obtain ⟨u, _, rfl⟩ := exec_selectById h
    exact .inl ⟨rfl, rfl⟩
  | update name deviceType id =>
    obtain ⟨u, _, ⟨_, rfl⟩ | ⟨r, hr, rfl⟩⟩ := exec_update h
    · exact .inl ⟨rfl, rfl⟩
    · exact .inr ⟨_, rfl, update_makes hr⟩
  | delete id =>
    obtain ⟨u, _, ⟨_, rfl⟩ | ⟨r, hr, rfl⟩⟩ := exec_delete h
    · exact .inl ⟨rfl, rfl⟩
    · exact .inr ⟨_, rfl, delete_makes hr⟩

end AssetTracker.GoService
