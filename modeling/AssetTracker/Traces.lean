import AssetTracker.Go.Traces
import AssetTracker.Node.Traces

/-!
# Retrieving traces

`GetTraces` of Go and `getTraces` of Node, between any pushes and other retrievals.

`traces_retrieved`: both return the newest traces first, whatever happens later.
-/

namespace AssetTracker.Metrics

open Memory

/-- What a journal of traces is for. `earlier` and `later` are any calls. -/
structure Retrieves {σ ρ : Type} (J : Journal RequestTrace σ ρ) : Prop where
  /-- No limit makes an index go out of bounds. -/
  returns : ∀ earlier limit, ∃ s r s',
    J.run earlier J.start = some s ∧ J.get limit s = some (r, s')
  newest : ∀ earlier (limit : Int) s r s', 1 ≤ limit → J.run earlier J.start = some s →
    J.get limit s = some (r, s') →
    J.read r s' = some ((pushed earlier).reverse.take (min limit (pushed earlier).length).toNat)
  fixed : ∀ earlier limit s r s' later s'', J.run earlier J.start = some s →
    J.get limit s = some (r, s') → J.run later s' = some s'' → J.read r s'' = J.read r s'
  /-- What was pushed earlier comes after what was pushed later, in the same order. -/
  nothing_lost : ∀ earlier later s (limit : Int) r s', J.run (earlier ++ later) J.start = some s →
    (pushed (earlier ++ later)).length ≤ limit → J.get limit s = some (r, s') →
    J.read r s' = some ((pushed later).reverse ++ (pushed earlier).reverse)

section

variable {σ ρ : Type} {J : Journal RequestTrace σ ρ} {count : Int → Nat}
  {Holds : σ → List RequestTrace → Prop} {Kept : ρ → List RequestTrace → σ → Prop}

/-- The list that `get` returns, and how it reads after any other calls. -/
theorem read_after (hJ : J.Implements (fun limit ts => ts.reverse.take (count limit)) Holds Kept)
    {earlier : List (Call RequestTrace)} {limit : Int} {s s' : σ} {r : ρ}
    (hrun : J.run earlier J.start = some s) (hget : J.get limit s = some (r, s')) :
    J.read r s' = some ((pushed earlier).reverse.take (count limit)) ∧
      ∀ later s'', J.run later s' = some s'' →
        J.read r s'' = some ((pushed earlier).reverse.take (count limit)) := by
  obtain ⟨s₀, r₀, s₀', hrun₀, hget₀, hlater⟩ := hJ.get_after earlier limit
  obtain rfl := Option.some_inj.mp (hrun.symm.trans hrun₀)
  cases hget.symm.trans hget₀
  have hread (later : List (Call RequestTrace)) (s'' : σ) (h : J.run later s' = some s'') :
      J.read r s'' = some ((pushed earlier).reverse.take (count limit)) := by
    obtain ⟨t, ht, hread⟩ := hlater later
    obtain rfl := Option.some_inj.mp (h.symm.trans ht)
    exact hread
  exact ⟨hread [] s' rfl, hread⟩

/-- A journal that hands out a number of the newest entries, and `limit` of them if it is
positive. -/
theorem retrieves_of_implements
    (hJ : J.Implements (fun limit ts => ts.reverse.take (count limit)) Holds Kept)
    (hcount : ∀ limit : Int, 1 ≤ limit → count limit = limit.toNat) : Retrieves J where
  returns earlier limit := by
    obtain ⟨s, r, s', hrun, hget, -⟩ := hJ.get_after earlier limit
    exact ⟨s, r, s', hrun, hget⟩
  newest earlier limit s r s' hlimit hrun hget := by
    rw [(read_after hJ hrun hget).1, hcount limit hlimit, Option.some_inj, List.take_eq_take_iff,
      List.length_reverse]
    omega
  fixed earlier limit s r s' later s'' hrun hget hlater := by
    obtain ⟨hread, hafter⟩ := read_after hJ hrun hget
    rw [hread, hafter later s'' hlater]
  nothing_lost earlier later s limit r s' hrun hlimit hget := by
    rw [(read_after hJ hrun hget).1, ← List.reverse_append, ← pushed_append, Option.some_inj]
    cases h : pushed (earlier ++ later) with
    | nil => exact List.take_nil
    | cons t ts =>
      rw [h, List.length_cons] at hlimit
      rw [hcount limit (by omega), List.take_of_length_le]
      rw [List.length_reverse, List.length_cons]
      omega

end

/-- After any calls, both services retrieve the newest traces first, for every limit and for
every policy by which `append` makes `room` for more. -/
theorem traces_retrieved :
    (∀ room : Nat → Nat, Retrieves (GoTraces.journal room)) ∧ Retrieves NodeTraces.journal := by
  refine ⟨fun room => retrieves_of_implements (GoTraces.journal_implements room) fun _ _ => rfl,
    retrieves_of_implements NodeTraces.journal_implements fun limit hlimit => ?_⟩
  rw [Int.max_eq_right hlimit]

end AssetTracker.Metrics
