import Mathlib.Data.Set.Insert
import Mathlib.Data.List.Induction

/-!
# Sets whose elements come once and go once

A set is edited: an element is added, at most once, and is removed while it is there.
What the edits lead to is then decided by which edits there were (`play_eq_live`). Their
order does not count, and neither does how often one is repeated. So a log that has the
edits out of order, or twice, still tells the set.
-/

namespace TwoPhase

inductive Edit (α : Type) where
  | add (a : α)
  | remove (a : α)

variable {α : Type} {s : Set α} {es : List (Edit α)} {a : α}

def Edit.apply (s : Set α) : Edit α → Set α
  | .add a => insert a s
  | .remove a => s \ {a}

/-- The set after some edits. -/
def play (s : Set α) (es : List (Edit α)) : Set α := es.foldl Edit.apply s

/-- An element is added when it is new, and removed when it is there. -/
inductive Legal (s : Set α) : List (Edit α) → Prop
  | nil : Legal s []
  | add {es : List (Edit α)} {a : α} :
      Legal s es → a ∉ s → .add a ∉ es → Legal s (es ++ [.add a])
  | remove {es : List (Edit α)} {a : α} :
      Legal s es → a ∈ play s es → Legal s (es ++ [.remove a])

/-- The elements that were there or were added, and that were not removed. -/
def live (s : Set α) (es : List (Edit α)) : Set α :=
  {a | (a ∈ s ∨ .add a ∈ es) ∧ .remove a ∉ es}

theorem mem_live : a ∈ live s es ↔ (a ∈ s ∨ .add a ∈ es) ∧ .remove a ∉ es := Iff.rfl

theorem play_snoc (e : Edit α) : play s (es ++ [e]) = e.apply (play s es) := by
  rw [play, List.foldl_append, List.foldl_cons, List.foldl_nil, play]

/-- What is there was there at first, or was added. -/
theorem known_of_mem_play (h : a ∈ play s es) : a ∈ s ∨ .add a ∈ es := by
  induction es using List.reverseRecOn with
  | nil => exact .inl h
  | append_singleton es e ih =>
    rw [play_snoc] at h
    cases e with
    | add b =>
      rcases h with rfl | h
      · exact .inr (List.mem_append_right _ List.mem_cons_self)
      · exact (ih h).imp_right (List.mem_append_left _)
    | remove b => exact (ih h.1).imp_right (List.mem_append_left _)

/-- What was removed was there at first, or was added. -/
theorem Legal.known (h : Legal s es) (ha : .remove a ∈ es) : a ∈ s ∨ .add a ∈ es := by
  induction h with
  | nil => cases ha
  | add _ _ _ ih =>
    rw [List.mem_append, List.mem_singleton] at ha
    exact (ih (ha.resolve_right nofun)).imp_right (List.mem_append_left _)
  | remove _ hb ih =>
    rw [List.mem_append, List.mem_singleton] at ha
    rcases ha with ha | heq
    · exact (ih ha).imp_right (List.mem_append_left _)
    · cases heq
      exact (known_of_mem_play hb).imp_right (List.mem_append_left _)

/-- Legal edits lead to the elements that came and did not go. -/
theorem play_eq_live (h : Legal s es) : play s es = live s es := by
  induction h with
  | nil =>
    ext a
    simp [play, live]
  | @add es a h hs hnew ih =>
    rw [play_snoc, Edit.apply, ih]
    ext b
    simp only [Set.mem_insert_iff, mem_live, List.mem_append, List.mem_singleton, Edit.add.injEq,
      reduceCtorEq, or_false]
    constructor
    · rintro (rfl | ⟨hb, hrem⟩)
      · -- what was never there was never removed
        exact ⟨.inr (.inr rfl), fun hrem => (h.known hrem).elim hs hnew⟩
      · exact ⟨hb.imp_right .inl, hrem⟩
    · rintro ⟨hb | hb | rfl, hrem⟩
      · exact .inr ⟨.inl hb, hrem⟩
      · exact .inr ⟨.inr hb, hrem⟩
      · exact .inl rfl
  | @remove es a h ha ih =>
    rw [play_snoc, Edit.apply, ih]
    ext b
    simp only [Set.mem_sdiff, Set.mem_singleton_iff, mem_live, List.mem_append, List.mem_singleton,
      reduceCtorEq, or_false, Edit.remove.injEq, not_or, and_assoc]

end TwoPhase
