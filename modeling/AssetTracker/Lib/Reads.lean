import Mathlib.Order.Basic
import AssetTracker.Lib.Pool

/-!
# Reads of a state that only grows

In a pool whose effects take the shared state upwards in a preorder, a thread reads between the
state in which it was spawned and the state of now. So what is read after a thread has returned
is never from before what that thread has read.

Results:
1. `reads_since`: the threads that were spawned since some moment, over any interleaving.
2. `reads_ordered`: two threads, one after the other.
-/

namespace Effects.System

variable {E : Type} {R : E → Type} {Q I α σ Φ : Type} [Preorder σ]

/-- Spawning a thread and performing an effect take the state upwards. -/
structure Grows (S : System Q I R α σ) : Prop where
  enter : ∀ {q s s'}, S.enter q s = some s' → s ≤ s'
  handle : ∀ {e x s r s'}, S.handle e x s = some (r, s') → s ≤ s'

/-- `reads lo hi φ`: what a thread in phase `φ` has read is from between the two states. -/
structure Reads (S : System Q I R α σ) (init : Q → Φ) (next : Protocol R Φ)
    (reads : σ → σ → Φ → Prop) : Prop where
  start : ∀ {lo s}, lo ≤ s → ∀ q, reads lo s (init q)
  mono : ∀ {lo hi hi' φ}, hi ≤ hi' → reads lo hi φ → reads lo hi' φ
  effect : ∀ {lo s s' φ φ' e x r}, lo ≤ s → reads lo s φ → S.handle e x s = some (r, s') →
    next φ e r φ' → reads lo s' φ'

variable {S : System Q I R α σ} {init : Q → Φ} {next : Protocol R Φ} {post : Q → Φ → α → Prop}
  {reads : σ → σ → Φ → Prop} {s₀ : σ} {as bs : List (PoolAction Q I)} {p₁ p : Pool Q R α σ}

/-- The threads from `n` on have read between `lo` and `hi`. -/
def Since (reads : σ → σ → Φ → Prop) (n : Nat) (lo hi : σ) (ts : List (Thread Q R α × Φ)) : Prop :=
  lo ≤ hi ∧ n ≤ ts.length ∧ ∀ j t, n ≤ j → ts[j]? = some t → reads lo hi t.2

theorem Since.trans {n : Nat} {lo s s' : σ} {ts ts' : List (Thread Q R α × Φ)}
    {a : PoolAction Q I} (hgrows : S.Grows) (hreads : S.Reads init next reads)
    (h : Since reads n lo s ts) (ht : Trans S init next s ts a s' ts') :
    Since reads n lo s' ts' := by
  obtain ⟨hle, hn, hall⟩ := h
  cases ht with
  | spawn q hs =>
    have hup := hgrows.enter hs
    refine ⟨hle.trans hup, by simp; omega, fun j t hj hget => ?_⟩
    rcases getElem?_snoc hget with ⟨-, rfl⟩ | hget
    · exact hreads.start (hle.trans hup) q
    · exact hreads.mono hup (hall j t hj hget)
  | @run _ e r φ φ' before after q k x hs hnext =>
    have hup := hgrows.handle hs
    refine ⟨hle.trans hup, by simpa using hn, fun j t hj hget => ?_⟩
    rcases getElem?_replace (c := (⟨q, .op e k⟩, φ)) hget with ⟨rfl, rfl⟩ | ⟨-, hget⟩
    · have hbefore := hall before.length (⟨q, .op e k⟩, φ) hj (by simp)
      exact hreads.effect hle hbefore hs hnext
    · exact hreads.mono hup (hall j t hj hget)

/-- The rule: what was spawned since `p₁` has read between `p₁` and now. -/
theorem reads_since (hgrows : S.Grows) (hreads : S.Reads init next reads)
    (hbody : ∀ q, (S.body q).Follows next (post q) (init q)) (h₁ : S.Reaches s₀ as p₁)
    (h : Machine.run S.step p₁ bs = some p) :
    ∃ ts, p.threads = ts.map Prod.fst ∧ Following next post ts ∧
      Since reads p₁.threads.length p₁.shared p.shared ts := by
  obtain ⟨ts₁, hts₁, hf₁, -⟩ := protocol_run (P := fun _ _ _ => True) hbody trivial
    (fun _ _ _ _ _ _ _ _ _ _ => trivial) h₁
  refine Machine.invariant_run (I := fun p => ∃ ts, p.threads = ts.map Prod.fst ∧
    Following next post ts ∧ Since reads p₁.threads.length p₁.shared p.shared ts) ?_ ?_ h
  · rintro p a p' ⟨ts, hts, hf, hsince⟩ ha
    obtain ⟨ts', hts', hf', ht⟩ := step_trans hbody hts hf ha
    exact ⟨ts', hts', hf', hsince.trans hgrows hreads ht⟩
  · refine ⟨ts₁, hts₁, hf₁, le_rfl, by simp [hts₁], fun j t hj hget => ?_⟩
    have hlt := (List.getElem?_eq_some_iff.mp hget).1
    rw [hts₁, List.length_map] at hj
    omega

/-- What a thread has returned stands for what it has read. -/
theorem returned_phase {ts : List (Thread Q R α × Φ)} {i : Nat} {t : Thread Q R α} {a : α}
    (hf : Following next post ts) (hget : (ts.map Prod.fst)[i]? = some t)
    (ha : t.returned? = some a) : ∃ φ, ts[i]? = some (t, φ) ∧ post t.label φ a := by
  rw [List.getElem?_map] at hget
  obtain ⟨⟨⟨q, prog⟩, φ⟩, hphase, rfl⟩ := Option.map_eq_some_iff.mp hget
  have hfollows := hf _ (List.mem_of_getElem? hphase)
  cases prog with
  | op e k => cases ha
  | pure b =>
    cases ha
    exact ⟨φ, hphase, hfollows⟩

/-- One thread has returned in `p₁`, and another one was spawned later: what they have read is
on the two sides of `p₁`. -/
theorem reads_ordered (hgrows : S.Grows) (hreads : S.Reads init next reads)
    (hbody : ∀ q, (S.body q).Follows next (post q) (init q)) (h₁ : S.Reaches s₀ as p₁)
    (h : Machine.run S.step p₁ bs = some p) {i j : Nat} {t t' : Thread Q R α} {a b : α}
    (ht : p₁.threads[i]? = some t) (ha : t.returned? = some a) (hj : p₁.threads.length ≤ j)
    (ht' : p.threads[j]? = some t') (hb : t'.returned? = some b) :
    p₁.shared ≤ p.shared ∧ ∃ φ φ', post t.label φ a ∧ post t'.label φ' b ∧
      reads s₀ p₁.shared φ ∧ reads p₁.shared p.shared φ' := by
  have hempty : S.Reaches s₀ [] ⟨s₀, []⟩ := rfl
  obtain ⟨ts₁, hts₁, hf₁, hsince₁⟩ := reads_since hgrows hreads hbody hempty h₁
  obtain ⟨ts, hts, hf, hsince⟩ := reads_since hgrows hreads hbody h₁ h
  obtain ⟨φ, hφ, hpost⟩ := returned_phase hf₁ (hts₁ ▸ ht) ha
  obtain ⟨φ', hφ', hpost'⟩ := returned_phase hf (hts ▸ ht') hb
  exact ⟨hsince.1, φ, φ', hpost, hpost', hsince₁.2.2 i _ (Nat.zero_le i) hφ,
    hsince.2.2 j _ hj hφ'⟩

end Effects.System
