import Mathlib.Data.List.Basic

/-!
# Arrays in memory

Blocks of cells, allocated one after the other and never freed. A slice, as in Go,
is a number of cells from the start of a block, and other slices may share the block:
`append` writes behind the slice when the block has room there, and moves to a new
block when it has not.

1. `read_append`, `append_frame`: an appended slice reads one element more, and what
   was not longer than it reads as before.
2. `read_set`, `set_frame`: the same of a write within a slice.
-/

namespace Memory

variable {α : Type}

abbrev Blocks (α : Type) := List (List α)

/-- The number of a new block, and the memory with it. -/
def alloc (cells : List α) (mem : Blocks α) : Nat × Blocks α := (mem.length, mem ++ [cells])

structure Slice where
  block : Nat
  len : Nat
deriving DecidableEq, Repr

namespace Slice

/-- The elements of a slice; `none` if it goes beyond its block. -/
def read (s : Slice) (mem : Blocks α) : Option (List α) :=
  mem[s.block]?.bind fun cells => if s.len ≤ cells.length then some (cells.take s.len) else none

/-- `make([]T, n)`. -/
def make (n : Nat) (zero : α) (mem : Blocks α) : Slice × Blocks α :=
  let (block, mem) := alloc (List.replicate n zero) mem
  (⟨block, n⟩, mem)

/-- `s[i] = a`; `none` out of bounds. -/
def set (s : Slice) (i : Nat) (a : α) (mem : Blocks α) : Option (Blocks α) :=
  if i < s.len then mem[s.block]?.map fun cells => mem.set s.block (cells.set i a) else none

/-- `append(s, a)`. A new block has `room s.len` cells to spare. -/
def append (room : Nat → Nat) (zero : α) (s : Slice) (a : α) (mem : Blocks α) :
    Option (Slice × Blocks α) :=
  mem[s.block]?.map fun cells =>
    if s.len < cells.length then
      (⟨s.block, s.len + 1⟩, mem.set s.block (cells.set s.len a))
    else
      let (block, mem) := alloc (cells.take s.len ++ a :: List.replicate (room s.len) zero) mem
      (⟨block, s.len + 1⟩, mem)

end Slice

theorem alloc_old {mem : Blocks α} {b : Nat} (h : b < mem.length) (cells : List α) :
    (alloc cells mem).2[b]? = mem[b]? := List.getElem?_append_left h

theorem alloc_new (mem : Blocks α) (cells : List α) :
    (alloc cells mem).2[(alloc cells mem).1]? = some cells := List.getElem?_concat_length

theorem lt_of_getElem? {mem : Blocks α} {b : Nat} {cells : List α} (h : mem[b]? = some cells) :
    b < mem.length := (List.getElem?_eq_some_iff.mp h).1

namespace Slice

variable {s r : Slice} {mem mem' : Blocks α} {xs ys : List α} {a zero : α} {i : Nat}

/-- A slice reads the cells from the start of its block. -/
theorem read_eq_some :
    s.read mem = some xs ↔ s.len = xs.length ∧ ∃ rest, mem[s.block]? = some (xs ++ rest) := by
  unfold read
  rw [Option.bind_eq_some_iff]
  constructor
  · rintro ⟨cells, hcells, h⟩
    split at h
    · next hlen =>
      cases h
      refine ⟨by rw [List.length_take, Nat.min_eq_left hlen], cells.drop s.len, ?_⟩
      rw [List.take_append_drop, hcells]
    · cases h
  · rintro ⟨hlen, rest, hcells⟩
    refine ⟨xs ++ rest, hcells, ?_⟩
    rw [if_pos (by rw [hlen, List.length_append]; exact Nat.le_add_right _ _), hlen, List.take_left]

theorem block_lt (h : s.read mem = some xs) : s.block < mem.length := by
  obtain ⟨-, rest, hcells⟩ := read_eq_some.mp h
  exact lt_of_getElem? hcells

/-- What a slice reads depends on its block only. -/
theorem read_congr (h : mem'[s.block]? = mem[s.block]?) : s.read mem' = s.read mem := by
  unfold read
  rw [h]

theorem read_alloc (h : s.read mem = some xs) (cells : List α) :
    s.read (alloc cells mem).2 = some xs := by
  rw [read_congr (alloc_old (block_lt h) cells), h]

theorem read_make (n : Nat) (zero : α) (mem : Blocks α) :
    (make n zero mem).1.read (make n zero mem).2 = some (List.replicate n zero) :=
  read_eq_some.mpr ⟨List.length_replicate.symm, [], by
    rw [List.append_nil]
    exact alloc_new mem _⟩

/-! ### Writing -/

theorem read_set (h : s.read mem = some xs) (hi : i < xs.length) (a : α) :
    ∃ mem', s.set i a mem = some mem' ∧ s.read mem' = some (xs.set i a) := by
  obtain ⟨hlen, rest, hcells⟩ := read_eq_some.mp h
  refine ⟨_, by rw [set, if_pos (hlen ▸ hi), hcells]; rfl, read_eq_some.mpr ⟨?_, rest, ?_⟩⟩
  · rw [hlen, List.length_set]
  · rw [List.getElem?_set_self (lt_of_getElem? hcells), List.set_append_left i a hi]

theorem set_frame (h : s.set i a mem = some mem') (hne : r.block ≠ s.block) :
    r.read mem' = r.read mem := by
  unfold set at h
  split at h
  · obtain ⟨cells, -, rfl⟩ := Option.map_eq_some_iff.mp h
    exact read_congr (List.getElem?_set_ne hne.symm)
  · cases h

/-! ### Appending -/

theorem read_append (room : Nat → Nat) (zero a : α) (h : s.read mem = some xs) :
    ∃ s' mem', s.append room zero a mem = some (s', mem') ∧ s'.read mem' = some (xs ++ [a]) := by
  obtain ⟨hlen, rest, hcells⟩ := read_eq_some.mp h
  have hnext : s.len + 1 = (xs ++ [a]).length := by rw [hlen, List.length_append]; rfl
  unfold append
  rw [hcells]
  dsimp only [Option.map_some]
  split
  · next hroom =>
    refine ⟨_, _, rfl, read_eq_some.mpr ⟨hnext, rest.tail, ?_⟩⟩
    dsimp only
    rw [List.getElem?_set_self (lt_of_getElem? hcells), hlen,
      List.set_append_right _ _ (Nat.le_refl _), Nat.sub_self]
    cases rest with
    | nil => simp [hlen] at hroom
    | cons b rest => simp
  · refine ⟨_, _, rfl, read_eq_some.mpr ⟨hnext, List.replicate (room s.len) zero, ?_⟩⟩
    rw [alloc_new, hlen, List.take_left, List.append_assoc]
    rfl

/-- An append goes on in the block of the slice, or in one that is new. -/
theorem append_block {room : Nat → Nat} {s' : Slice}
    (h : s.append room zero a mem = some (s', mem')) :
    s'.block = s.block ∨ s'.block = mem.length := by
  obtain ⟨cells, -, h⟩ := Option.map_eq_some_iff.mp h
  split at h <;> cases h
  · exact .inl rfl
  · exact .inr rfl

/-- An append writes behind the slice only: another slice reads as before, unless it is a
longer one of the same block. -/
theorem append_frame {room : Nat → Nat} {s' : Slice}
    (h : s.append room zero a mem = some (s', mem')) (hr : r.read mem = some ys)
    (hshared : r.block = s.block → r.len ≤ s.len) : r.read mem' = some ys := by
  obtain ⟨cells, hcells, h⟩ := Option.map_eq_some_iff.mp h
  split at h <;> cases h
  · next hroom =>
    by_cases hblock : r.block = s.block
    · obtain ⟨hlen, rest, hrest⟩ := read_eq_some.mp hr
      rw [hblock, hcells, Option.some_inj] at hrest
      refine read_eq_some.mpr ⟨hlen, rest.set (s.len - ys.length) a, ?_⟩
      rw [hblock, List.getElem?_set_self (lt_of_getElem? hcells), hrest, List.set_append_right]
      exact hlen ▸ hshared hblock
    · rw [read_congr (List.getElem?_set_ne (Ne.symm hblock)), hr]
  · exact read_alloc hr _

end Slice

end Memory
