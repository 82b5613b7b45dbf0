import Mathlib.Data.List.Basic

/-!
# Partitioned logs

The entries of a log belong to partitions. A reader sees every partition in the
order of the log, and the partitions interleaved in any way. Which other orders
survive is a question about the classes of a second function, the key.

Result: `together_iff_agree`. All readers see the entries of each key in the order of
the log exactly when no key has entries in two partitions.
-/

namespace Partitioned

variable {α β P K : Type}

/-- The two lists have the same entries in each class of `f`, in the same order. -/
def Agree [DecidableEq β] (f : α → β) (log read : List α) : Prop :=
  ∀ b, read.filter (f · = b) = log.filter (f · = b)

/-- The entries of a key are in one partition. -/
def Together (part : α → P) (key : α → K) (log : List α) : Prop :=
  ∀ a ∈ log, ∀ b ∈ log, key a = key b → part a = part b

/-- An entry is appended: the older entries of its key are in its partition. -/
theorem Together.snoc {part : α → P} {key : α → K} {log : List α} {a : α}
    (h : Together part key log) (ha : ∀ b ∈ log, key b = key a → part b = part a) :
    Together part key (log ++ [a]) := by
  intro b hb c hc hkey
  rcases List.mem_append.mp hb with hold | hnew <;> rcases List.mem_append.mp hc with hold' | hnew'
  · exact h b hold c hold' hkey
  · cases List.mem_singleton.mp hnew'
    exact ha b hold hkey
  · cases List.mem_singleton.mp hnew
    exact (ha c hold' hkey.symm).symm
  · cases List.mem_singleton.mp hnew
    cases List.mem_singleton.mp hnew'
    rfl

theorem Agree.mem_iff [DecidableEq β] {f : α → β} {log read : List α} (h : Agree f log read)
    {a : α} : a ∈ read ↔ a ∈ log := by
  have hfilter : a ∈ read.filter (f · = f a) ↔ a ∈ log.filter (f · = f a) := by rw [h (f a)]
  simpa using hfilter

section

variable [DecidableEq P] [DecidableEq K] {part : α → P} {key : α → K} {log read : List α}

/-- What stays in one partition is read in order. -/
theorem Together.agree (h : Together part key log) (hread : Agree part log read) :
    Agree key log read := by
  intro k
  by_cases hk : ∃ a ∈ log, key a = k
  · obtain ⟨a, ha, rfl⟩ := hk
    -- the entries of the key are picked from the partition of one of them
    have hpick : ∀ {l : List α}, (∀ b ∈ l, b ∈ log) →
        l.filter (key · = key a) = (l.filter (part · = part a)).filter (key · = key a) := by
      intro l hl
      rw [List.filter_filter]
      refine List.filter_congr fun b hb => ?_
      by_cases hkey : key b = key a
      · simp [hkey, h b (hl b hb) a ha hkey]
      · simp [hkey]
    rw [hpick fun b hb => hread.mem_iff.mp hb, hread (part a), ← hpick fun b hb => hb]
  · have hnone : ∀ {l : List α}, (∀ b ∈ l, b ∈ log) → l.filter (key · = k) = [] := by
      intro l hl
      refine List.filter_eq_nil_iff.mpr fun b hb hkey => hk ⟨b, hl b hb, ?_⟩
      exact of_decide_eq_true hkey
    rw [hnone fun b hb => hread.mem_iff.mp hb, hnone fun b hb => hb]

/-- The partition `p` is read before all others. -/
def front (part : α → P) (p : P) (log : List α) : List α :=
  log.filter (part · = p) ++ log.filter (part · ≠ p)

theorem agree_front (p : P) : Agree part log (front part p log) := by
  intro q
  unfold front
  rw [List.filter_append, List.filter_filter, List.filter_filter]
  by_cases h : q = p
  · subst h
    have hnone : log.filter (fun a => (part a = q : Bool) && (part a ≠ q : Bool)) = [] :=
      List.filter_eq_nil_iff.mpr fun a _ => by simp
    rw [hnone, List.append_nil]
    exact List.filter_congr fun a _ => by simp
  · have hnone : log.filter (fun a => (part a = q : Bool) && (part a = p : Bool)) = [] := by
      refine List.filter_eq_nil_iff.mpr fun a _ => ?_
      simp only [Bool.and_eq_true, decide_eq_true_eq, not_and]
      rintro rfl
      exact h
    rw [hnone, List.nil_append]
    refine List.filter_congr fun a _ => ?_
    by_cases ha : part a = q
    · simp [ha, h]
    · simp [ha]

theorem front_filter (p : P) (k : K) :
    (front part p log).filter (key · = k) = front part p (log.filter (key · = k)) := by
  unfold front
  rw [List.filter_append, List.filter_comm, List.filter_comm (l := log) (p := fun a => key a = k)]

/-- A list that `front` leaves as it is begins with the partition `p`, if it has it at all. -/
theorem head_of_front {p : P} {a b : α} (h : front part p (b :: log) = b :: log)
    (ha : a ∈ b :: log) (hp : part a = p) : part b = p := by
  by_contra hb
  unfold front at h
  have hmem : a ∈ (b :: log).filter (part · = p) :=
    List.mem_filter.mpr ⟨ha, decide_eq_true hp⟩
  cases hlist : (b :: log).filter (part · = p) with
  | nil =>
    rw [hlist] at hmem
    cases hmem
  | cons c rest =>
    rw [hlist, List.cons_append] at h
    obtain ⟨rfl, -⟩ := List.cons.inj h
    have hc : c ∈ (c :: log).filter (part · = p) := by rw [hlist]; exact List.mem_cons_self
    exact hb (of_decide_eq_true (List.mem_filter.mp hc).2)

/-- Every reader sees the entries of each key in order exactly when they are together. -/
theorem together_iff_agree :
    Together part key log ↔ ∀ read, Agree part log read → Agree key log read := by
  refine ⟨fun h read hread => h.agree hread, fun h a ha b hb hkey => ?_⟩
  -- the reader who sees the partition of an entry first finds it at the head of its class
  have hfront (p : P) : front part p (log.filter (key · = key b)) = log.filter (key · = key b) := by
    rw [← front_filter]
    exact h _ (agree_front p) (key b)
  have ha' : a ∈ log.filter (key · = key b) := List.mem_filter.mpr ⟨ha, decide_eq_true hkey⟩
  have hb' : b ∈ log.filter (key · = key b) := List.mem_filter.mpr ⟨hb, decide_eq_true rfl⟩
  cases hclass : log.filter (key · = key b) with
  | nil =>
    rw [hclass] at ha'
    cases ha'
  | cons c rest =>
    rw [hclass] at ha' hb'
    have hhead (p : P) : front part p (c :: rest) = c :: rest := by
      rw [← hclass]
      exact hfront p
    rw [← head_of_front (hhead (part a)) ha' rfl, ← head_of_front (hhead (part b)) hb' rfl]

end

end Partitioned
