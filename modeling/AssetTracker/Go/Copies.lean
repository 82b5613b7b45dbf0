import AssetTracker.Go.Goroutines
import Mathlib.Data.List.Count
import Mathlib.Data.List.Nodup
import Mathlib.Data.List.Perm.Subperm

/-!
# Copies of an event in the topic (Go service)

`publish` calls `WriteMessages` again after some errors, though the call that failed may
have stored its message. And one call may store several copies: the writer tries again on
its own, up to `MaxAttempts` times, which `main` leaves at its default of ten. Nor does an
answer without an error say that there is a copy, since `RequiredAcks` is left at
`RequireNone`. So the copies of an event are counted by calls; what is assumed of the broker
is a hypothesis where it is used (`FewCopies`, `Acknowledges`).

Results:
1. `copying_trans`: what a goroutine has done, by the stage at which it stands.
2. `records_accounted`: the run theorem.
3. `topic_bounded`: all records together.
-/

namespace AssetTracker.GoService

open Encoding Effects TableLemmas StepLemmas InvariantLemmas GoroutineLemmas

/-! ## Definitions -/

section

variable {E G : Type}

/-- The messages in the topic that come from the execution `i`. -/
def messagesOf (s : StateOf E G) (i : Nat) : List Message :=
  s.topic.filterMap fun r => if r.exec = i then some r.message else none

end

/-- The goroutine that an action moves, or for which the writer or the broker acts. -/
def Action.goroutine? : Action → Option Nat
  | .clock g _ => some g
  | .handOver g => some g
  | .store g => some g
  | .write g _ => some g
  | .wake g => some g
  | .panic g => some g
  | _ => none

/-- The part of a run that is about the goroutine `g`. -/
def actionsOf (g : Nat) (as : List Action) : List Action :=
  as.filter fun a => a.goroutine? = some g

/-- The answers of the calls of `WriteMessages` that returned. -/
def answersIn (as : List Action) : List (Except String Unit) :=
  as.filterMap fun
    | .write _ answer => some answer
    | _ => none

/-- The calls of `WriteMessages` whose message the writer took. -/
def handOversIn (as : List Action) : Nat :=
  as.countP fun
    | .handOver _ => true
    | _ => false

/-- The copies that the broker stored. -/
def storesIn (as : List Action) : Nat :=
  as.countP fun
    | .store _ => true
    | _ => false

/-- The broker stores no more than `n` copies for each call, on the average of the calls of a
goroutine. Kafka's own limit is `MaxAttempts`: a writer sends a batch no more often. -/
def FewCopies (n : Nat) (as : List Action) : Prop :=
  ∀ g, storesIn (actionsOf g as) ≤ n * handOversIn (actionsOf g as)

/-- A call of the goroutine `g` answers without an error only after a copy of its message has
been stored. The writer of `main` does not ask the broker for this: it would take a
`RequiredAcks` other than the default. -/
def Acknowledges (g : Nat) (as : List Action) : Prop :=
  ∀ bs cs, as = bs ++ .write g (.ok ()) :: cs → .store g ∈ bs

/-- What a goroutine has done, and the copies of its event in the topic. -/
structure Copies (as : List Action) (s : State) (g : Nat) (G : Goroutine) : Prop where
  calls : (answersIn (actionsOf g as)).length ≤ 3
  handOvers : handOversIn (actionsOf g as) ≤ 3
  /-- Only a call that failed is followed by another one. -/
  retried : ∀ answer ∈ (answersIn (actionsOf g as)).dropLast, answer.toBool = false
  stored : (messagesOf s G.exec).length = storesIn (actionsOf g as)
  same : ∃ t, ∀ m ∈ messagesOf s G.exec, m = G.call.message t
  few : ∀ n, FewCopies n as → (messagesOf s G.exec).length ≤ 3 * n
  written : Acknowledges g as → G.prog = some (.pure (.ok ())) → messagesOf s G.exec ≠ []

/-! ## 1. By stages -/

/-- Every call has failed, `left` calls are still to come, and of `inside` calls (none or one)
the writer has the message. -/
structure Tried (as : List Action) (left inside : Nat) : Prop where
  calls : (answersIn as).length + left ≤ 3
  handOvers : handOversIn as ≤ (answersIn as).length + inside
  failed : ∀ answer ∈ answersIn as, answer.toBool = false

/-- No call is to come. -/
structure Over (as : List Action) : Prop where
  calls : (answersIn as).length ≤ 3
  handOvers : handOversIn as ≤ (answersIn as).length
  retried : ∀ answer ∈ (answersIn as).dropLast, answer.toBool = false

section

variable {as bs : List Action} {left inside : Nat}

theorem Tried.over (h : Tried as left 0) : Over as :=
  ⟨Nat.le_of_add_right_le h.calls, h.handOvers,
    fun answer hmem => h.failed answer (List.mem_of_mem_dropLast hmem)⟩

theorem Tried.congr (h : Tried as left inside)
    (heq : answersIn bs = answersIn as ∧ handOversIn bs = handOversIn as) :
    Tried bs left inside :=
  ⟨heq.1 ▸ h.calls, by rw [heq.1, heq.2]; exact h.handOvers, heq.1 ▸ h.failed⟩

theorem Over.congr (h : Over as)
    (heq : answersIn bs = answersIn as ∧ handOversIn bs = handOversIn as) : Over bs :=
  ⟨heq.1 ▸ h.calls, by rw [heq.1, heq.2]; exact h.handOvers, heq.1 ▸ h.retried⟩

end

/-- What a goroutine has done where it stands, and the messages `ms` in the topic. It is inside
of a call at most where it writes. -/
def Publication.Copied (p : Publication) (ms : List Message) (as : List Action) (inside : Bool) :
    Prop :=
  ms.length = storesIn as ∧
    match p.stage with
    | some .reading => inside = false ∧ Tried as 3 0 ∧ ms = []
    | some (.writing t rounds _) =>
      Tried as (rounds + 1) inside.toNat ∧ ∀ m ∈ ms, m = p.call.message t
    | some (.sleeping t rounds _) =>
      inside = false ∧ Tried as rounds 0 ∧ ∀ m ∈ ms, m = p.call.message t
    | some (.finished r) =>
      inside = false ∧ Over as ∧ (∃ t, ∀ m ∈ ms, m = p.call.message t) ∧
        (r = .ok () → (answersIn as).getLast? = some (.ok ()))
    | none => inside = false ∧ Over as ∧ ∃ t, ∀ m ∈ ms, m = p.call.message t

/-- Every goroutine has done what its stage says, and nothing else is in the topic. -/
structure Copying (as : List Action) (s : Snapshot) : Prop where
  copied : ∀ (g : Nat) p, s.goroutines[g]? = some p →
    p.Copied (messagesOf s p.exec) (actionsOf g as) (decide (g ∈ s.handed))
  started : ∀ r ∈ s.topic, ∃ p ∈ s.goroutines, p.exec = r.exec
  fresh : ∀ g, s.goroutines.length ≤ g → actionsOf g as = [] ∧ g ∉ s.handed

namespace CopyLemmas

variable {s s' : Snapshot} {p : Publication} {ms : List Message} {as : List Action} {a : Action}
  {t : Instant} {g left inside : Nat} {busy : Bool}

theorem actionsOf_snoc (h : a.goroutine? = some g) :
    actionsOf g (as ++ [a]) = actionsOf g as ++ [a] := by
  simp [actionsOf, h]

theorem actionsOf_snoc_other (h : a.goroutine? ≠ some g) :
    actionsOf g (as ++ [a]) = actionsOf g as := by
  simp [actionsOf, h]

theorem counts_handOver (as : List Action) (g : Nat) :
    answersIn (as ++ [.handOver g]) = answersIn as ∧
      handOversIn (as ++ [.handOver g]) = handOversIn as + 1 ∧
      storesIn (as ++ [.handOver g]) = storesIn as := by
  simp [answersIn, handOversIn, storesIn]

theorem counts_store (as : List Action) (g : Nat) :
    answersIn (as ++ [.store g]) = answersIn as ∧
      handOversIn (as ++ [.store g]) = handOversIn as ∧
      storesIn (as ++ [.store g]) = storesIn as + 1 := by
  simp [answersIn, handOversIn, storesIn]

theorem counts_write (as : List Action) (g : Nat) (answer : Except String Unit) :
    answersIn (as ++ [.write g answer]) = answersIn as ++ [answer] ∧
      handOversIn (as ++ [.write g answer]) = handOversIn as ∧
        storesIn (as ++ [.write g answer]) = storesIn as := by
  simp [answersIn, handOversIn, storesIn]

/-- An action that is none of a call changes no count. -/
theorem counts_quiet (as : List Action)
    (h : answersIn [a] = [] ∧ handOversIn [a] = 0 ∧ storesIn [a] = 0) :
    answersIn (as ++ [a]) = answersIn as ∧ handOversIn (as ++ [a]) = handOversIn as ∧
      storesIn (as ++ [a]) = storesIn as := by
  obtain ⟨h₁, h₂, h₃⟩ := h
  unfold answersIn handOversIn storesIn at *
  rw [List.filterMap_append, List.countP_append, List.countP_append, h₁, h₂, h₃, List.append_nil]
  exact ⟨rfl, rfl, rfl⟩

/-- Whatever the stage. -/
theorem copied_bounds (h : p.Copied ms as busy) :
    (answersIn as).length ≤ 3 ∧ handOversIn as ≤ 3 ∧
      (∀ answer ∈ (answersIn as).dropLast, answer.toBool = false) ∧ ms.length = storesIn as ∧
      ∃ t, ∀ m ∈ ms, m = p.call.message t := by
  obtain ⟨hlength, h⟩ := h
  have settled (ho : Over as) (hsame : ∃ t, ∀ m ∈ ms, m = p.call.message t) :
      (answersIn as).length ≤ 3 ∧ handOversIn as ≤ 3 ∧
        (∀ answer ∈ (answersIn as).dropLast, answer.toBool = false) ∧ ms.length = storesIn as ∧
        ∃ t, ∀ m ∈ ms, m = p.call.message t :=
    ⟨ho.calls, ho.handOvers.trans ho.calls, ho.retried, hlength, hsame⟩
  split at h
  · obtain ⟨-, htried, rfl⟩ := h
    exact settled htried.over ⟨0, nofun⟩
  · obtain ⟨htried, hsame⟩ := h
    have hcalls := htried.calls
    have htaken := htried.handOvers
    have hbusy := Bool.toNat_le busy
    exact ⟨by omega, by omega,
      fun answer hmem => htried.failed answer (List.mem_of_mem_dropLast hmem), hlength, _, hsame⟩
  · obtain ⟨-, htried, hsame⟩ := h
    exact settled htried.over ⟨_, hsame⟩
  · exact settled h.2.1 h.2.2.1
  · exact settled h.2.1 h.2.2

theorem messagesOf_append (r : Record) (i : Nat) : messagesOf (s.append r) i =
    messagesOf s i ++ if r.exec = i then [r.message] else [] := by
  rw [messagesOf, StateOf.append_topic, List.filterMap_append, messagesOf]
  by_cases hr : r.exec = i <;> simp [hr]

/-- The goroutine hands its message over. -/
theorem copied_handOver {rounds : Nat} {lastErr : Option String}
    (hst : p.stage = some (.writing t rounds lastErr)) (h : p.Copied ms as false) :
    p.Copied ms (as ++ [.handOver g]) true := by
  rw [Publication.Copied, hst] at h ⊢
  obtain ⟨hlength, htried, hsame⟩ := h
  obtain ⟨h₁, h₂, h₃⟩ := counts_handOver as g
  refine ⟨hlength.trans h₃.symm, ⟨h₁ ▸ htried.calls, ?_, h₁ ▸ htried.failed⟩, hsame⟩
  rw [h₁, h₂]
  exact Nat.succ_le_succ htried.handOvers

/-- A copy of its message is stored. -/
theorem copied_store {rounds : Nat} {lastErr : Option String}
    (hst : p.stage = some (.writing t rounds lastErr)) (h : p.Copied ms as busy) :
    p.Copied (ms ++ [p.call.message t]) (as ++ [.store g]) busy := by
  rw [Publication.Copied, hst] at h ⊢
  obtain ⟨hlength, htried, hsame⟩ := h
  obtain ⟨h₁, h₂, h₃⟩ := counts_store as g
  refine ⟨?_, htried.congr ⟨h₁, h₂⟩, fun m hm => ?_⟩
  · rw [List.length_append, List.length_singleton, h₃, hlength]
  · rcases List.mem_append.mp hm with hm | hm
    · exact hsame m hm
    · exact List.mem_singleton.mp hm

/-- Its call returns. -/
theorem copied_written {rounds : Nat} {lastErr : Option String} {answer : Except String Unit}
    (hst : p.stage = some (.writing t rounds lastErr)) (h : p.Copied ms as busy) :
    Publication.Copied ⟨p.exec, p.call, p.timestamp, some (.written t rounds answer)⟩ ms
      (as ++ [.write g answer]) false := by
  rw [Publication.Copied, hst] at h
  obtain ⟨hlength, htried, hsame⟩ := h
  obtain ⟨h₁, h₂, h₃⟩ := counts_write as g answer
  have hlast : (answersIn (as ++ [.write g answer])).length = (answersIn as).length + 1 := by
    rw [h₁, List.length_append, List.length_singleton]
  have hcalls := htried.calls
  have htaken := htried.handOvers.trans (Nat.add_le_add_left (Bool.toNat_le busy) _)
  have hover : Over (as ++ [.write g answer]) :=
    ⟨by omega, by omega, by rw [h₁, List.dropLast_concat]; exact htried.failed⟩
  cases answer with
  | ok _ =>
    refine ⟨hlength.trans h₃.symm, rfl, hover, ⟨t, hsame⟩, fun _ => ?_⟩
    rw [h₁, List.getLast?_concat]
  | error e =>
    by_cases hretry : isRetriable e = true
    · have hnext : PublishStage.written t rounds (.error e) = .sleeping t rounds e := if_pos hretry
      rw [hnext]
      refine ⟨hlength.trans h₃.symm, rfl, ⟨by omega, by omega, fun answer hmem => ?_⟩, hsame⟩
      rw [h₁] at hmem
      rcases List.mem_append.mp hmem with hmem | hmem
      · exact htried.failed answer hmem
      · rw [List.mem_singleton.mp hmem]
        rfl
    · rw [PublishStage.written, if_neg hretry]
      exact ⟨hlength.trans h₃.symm, rfl, hover, ⟨t, hsame⟩, nofun⟩

/-- It reads the clock. -/
theorem copied_read (hst : p.stage = some .reading) (h : p.Copied ms as busy) :
    Publication.Copied ⟨p.exec, p.call, some t, some (.writing t 2 none)⟩ ms
      (as ++ [.clock g t]) busy := by
  rw [Publication.Copied, hst] at h
  obtain ⟨hlength, rfl, htried, rfl⟩ := h
  obtain ⟨h₁, h₂, h₃⟩ := counts_quiet as (a := .clock g t) ⟨rfl, rfl, rfl⟩
  exact ⟨hlength.trans h₃.symm, htried.congr ⟨h₁, h₂⟩, nofun⟩

/-- Its sleep ends. -/
theorem copied_slept {rounds : Nat} {lastErr : String}
    (hst : p.stage = some (.sleeping t rounds lastErr)) (h : p.Copied ms as busy) :
    Publication.Copied ⟨p.exec, p.call, p.timestamp, some (.slept t lastErr rounds)⟩ ms
      (as ++ [.wake g]) busy := by
  rw [Publication.Copied, hst] at h
  obtain ⟨hlength, rfl, htried, hsame⟩ := h
  obtain ⟨h₁, h₂, h₃⟩ := counts_quiet as (a := .wake g) ⟨rfl, rfl, rfl⟩
  have htried := htried.congr ⟨h₁, h₂⟩
  refine ⟨hlength.trans h₃.symm, ?_⟩
  cases rounds with
  | zero => exact ⟨rfl, htried.over, ⟨t, hsame⟩, nofun⟩
  | succ rounds => exact ⟨htried, hsame⟩

/-- It panics outside of a call. -/
theorem copied_panic (h : p.Copied ms as false) :
    Publication.Copied ⟨p.exec, p.call, p.timestamp, none⟩ ms (as ++ [.panic g]) false := by
  obtain ⟨h₁, h₂, h₃⟩ := counts_quiet as (a := .panic g) ⟨rfl, rfl, rfl⟩
  obtain ⟨hlength, h⟩ := h
  have settled (ho : Over as) (hsame : ∃ t, ∀ m ∈ ms, m = p.call.message t) :
      Publication.Copied ⟨p.exec, p.call, p.timestamp, none⟩ ms (as ++ [.panic g]) false :=
    ⟨hlength.trans h₃.symm, rfl, ho.congr ⟨h₁, h₂⟩, hsame⟩
  split at h
  · obtain ⟨-, htried, rfl⟩ := h
    exact settled htried.over ⟨0, nofun⟩
  · exact settled h.1.over ⟨_, h.2⟩
  · exact settled h.2.1.over ⟨_, h.2.2⟩
  · exact settled h.2.1 h.2.2.1
  · exact settled h.2.1 h.2.2

/-- A goroutine that starts has done nothing. -/
theorem copied_start (i : Nat) (call : PublishCall) :
    (Publication.start i call).Copied [] [] false := by
  have htried : Tried [] 3 0 := ⟨Nat.le_refl _, Nat.le_refl _, nofun⟩
  cases call with
  | created id name t => exact ⟨rfl, htried, nofun⟩
  | updated | deleted => exact ⟨rfl, rfl, htried, rfl⟩

end CopyLemmas

open CopyLemmas

namespace Copying

variable {as : List Action} {s s' : Snapshot} {a : Action} {g i : Nat} {op : Op}
  {p : Publication} {call : PublishCall} {reply : Reply} {e : Standing}

/-- Only the goroutines, the topic and the calls in progress count. -/
theorem congr (h : Copying as s) (hg : s'.goroutines = s.goroutines) (ht : s'.topic = s.topic)
    (hh : s'.handed = s.handed) : Copying as s' := by
  refine ⟨fun g p hp => ?_, fun r hr => ?_, fun g hlength => ?_⟩
  · rw [messagesOf, ht, hh]
    exact h.copied g p (hg ▸ hp)
  · rw [hg]
    exact h.started r (ht ▸ hr)
  · rw [hh]
    exact h.fresh g (hg ▸ hlength)

/-- An action that is about no goroutine. -/
theorem snoc (h : Copying as s) (ha : a.goroutine? = none) : Copying (as ++ [a]) s := by
  have hsame (g : Nat) : actionsOf g (as ++ [a]) = actionsOf g as :=
    actionsOf_snoc_other (by rw [ha]; exact nofun)
  refine ⟨fun g p hp => ?_, h.started, fun g hlength => ?_⟩
  · rw [hsame]
    exact h.copied g p hp
  · rw [hsame]
    exact h.fresh g hlength

/-- The goroutine of an execution starts, and the execution had none before. -/
theorem spawn (h : Copying as s) (hl : Ledger s) (hat : At s i op (.announcing call reply)) :
    Copying as ((s.goOn i e).spawn (Publication.start i call)) := by
  have hnew : messagesOf s i = [] := by
    rw [messagesOf, List.filterMap_eq_nil_iff]
    intro r hr
    refine if_neg fun hri => ?_
    obtain ⟨p, hp, hpr⟩ := h.started r hr
    obtain ⟨-, -, -, -, hps, -⟩ := started_account hl hp
    rw [hpr, hri, (hl.at_stage hat).1] at hps
    cases hps
  refine ⟨fun g p hp => ?_, fun r hr => ?_, fun g hlength => ?_⟩
  · rcases getElem?_snoc_some hp with ⟨rfl, rfl⟩ | ⟨-, hp⟩
    · obtain ⟨hnone, hout⟩ := h.fresh s.goroutines.length (Nat.le_refl _)
      show Publication.Copied _ (messagesOf s i) _ (decide (s.goroutines.length ∈ s.handed))
      rw [hnew, StateOf.goOn_goroutines, hnone, decide_eq_false hout]
      exact copied_start i call
    · exact h.copied g p hp
  · obtain ⟨p, hp, hpr⟩ := h.started r hr
    exact ⟨p, List.mem_append_left _ hp, hpr⟩
  · exact h.fresh g (Nat.le_of_succ_le (by simpa using hlength))

/-- A goroutine goes on, or something is done for it. -/
theorem resume (h : Copying as s) (p' : Publication) (hl : Ledger s) (ha : a.goroutine? = some g)
    (hp : s.goroutines[g]? = some p) (hexec : p'.exec = p.exec)
    (hg : s'.goroutines = s.goroutines.set g p')
    (hms : ∀ j, j ≠ p.exec → messagesOf s' j = messagesOf s j)
    (htopic : ∀ r ∈ s'.topic, r ∈ s.topic ∨ r.exec = p.exec)
    (hhanded : ∀ k, k ≠ g → (k ∈ s'.handed ↔ k ∈ s.handed))
    (hcopied : p'.Copied (messagesOf s' p.exec) (actionsOf g as ++ [a])
      (decide (g ∈ s'.handed))) : Copying (as ++ [a]) s' := by
  have hlt : g < s.goroutines.length := (List.getElem?_eq_some_iff.mp hp).1
  refine ⟨fun k q hq => ?_, fun r hr => ?_, fun k hk => ?_⟩
  · rw [hg] at hq
    rcases getElem?_set_some hq with ⟨rfl, rfl⟩ | ⟨hne, hq⟩
    · rw [actionsOf_snoc ha, hexec]
      exact hcopied
    · have hother : a.goroutine? ≠ some k := by
        rw [ha]
        exact fun heq => hne (Option.some.inj heq).symm
      rw [actionsOf_snoc_other hother,
        hms q.exec fun heq => hne (goroutine_inj hl hq hp heq), decide_eq_decide.mpr (hhanded k hne)]
      exact h.copied k q hq
  · have hstarted : ∃ q ∈ s.goroutines, q.exec = r.exec ∧ True := by
      rcases htopic r hr with hr | hr
      · obtain ⟨q, hq, hqr⟩ := h.started r hr
        exact ⟨q, hq, hqr, trivial⟩
      · exact ⟨p, List.mem_of_getElem? hp, hr.symm, trivial⟩
    rw [hg]
    obtain ⟨q, hq, hqr, -⟩ := exists_resume hp hexec (fun _ => trivial) hstarted
    exact ⟨q, hq, hqr⟩
  · rw [hg, List.length_set] at hk
    have hne : k ≠ g := fun heq => absurd hlt (Nat.not_lt.mpr (heq ▸ hk))
    obtain ⟨hnone, hout⟩ := h.fresh k hk
    refine ⟨?_, fun hmem => hout ((hhanded k hne).mp hmem)⟩
    rw [actionsOf_snoc_other (by rw [ha]; exact fun heq => hne (Option.some.inj heq).symm), hnone]

/-- The goroutine goes on, and nothing arrives in the topic. -/
theorem move (h : Copying as s) (p' : Publication) (hl : Ledger s) (ha : a.goroutine? = some g)
    (hp : s.goroutines[g]? = some p) (hexec : p'.exec = p.exec)
    (hg : s'.goroutines = s.goroutines.set g p') (htopic : s'.topic = s.topic)
    (hhanded : s'.handed = s.handed)
    (hcopied : p'.Copied (messagesOf s p.exec) (actionsOf g as ++ [a]) (decide (g ∈ s.handed))) :
    Copying (as ++ [a]) s' := by
  have hms (j : Nat) : messagesOf s' j = messagesOf s j := by rw [messagesOf, htopic, messagesOf]
  refine h.resume p' hl ha hp hexec hg (fun j _ => hms j) (fun r hr => .inl (htopic ▸ hr))
    (fun k _ => by rw [hhanded]) ?_
  rw [hms, hhanded]
  exact hcopied

end Copying

theorem copying_start (t₀ : Table) (clock : Instant) : Copying [] (StateOf.start t₀ clock) := by
  refine ⟨fun g p hp => ?_, fun r hr => ?_, fun g _ => ⟨rfl, List.not_mem_nil⟩⟩
  · cases hp
  · cases hr

/-- Every outcome keeps the account of the copies. -/
theorem copying_trans {as : List Action} {s s' : Snapshot} {a : Action} (h : Copying as s)
    (hl : Ledger s) (ht : Trans s a s') : Copying (as ++ [a]) s' := by
  -- a goroutine for which something is done stays where it is
  have stays {g : Nat} {p : Publication} (hp : s.goroutines[g]? = some p) :
      s.goroutines = s.goroutines.set g p := by
    obtain ⟨hlt, rfl⟩ := List.getElem?_eq_some_iff.mp hp
    exact (List.set_getElem_self hlt).symm
  cases ht with
  | publisher hp =>
    cases hp with
    | @clockRead g p t hat =>
      exact h.move ⟨p.exec, p.call, some t, some (.writing t 2 none)⟩ hl rfl hat.1 rfl rfl
        rfl rfl (copied_read hat.2 (h.copied g p hat.1))
    | @handedOver g p t rounds lastErr hat hout =>
      have hcopied := h.copied g p hat.1
      rw [decide_eq_false hout] at hcopied
      refine h.resume p hl rfl hat.1 rfl (stays hat.1) (fun _ _ => rfl) (fun r hr => .inl hr)
        (fun k hk => by simp [hk]) ?_
      rw [StateOf.handOver_handed, decide_eq_true (List.mem_append_right _ List.mem_cons_self)]
      exact copied_handOver hat.2 hcopied
    | @stored g p t rounds lastErr hat hin =>
      refine h.resume p hl rfl hat.1 rfl (stays hat.1) (fun j hj => ?_) (fun r hr => ?_)
        (fun k _ => Iff.rfl) ?_
      · rw [messagesOf_append, if_neg (Ne.symm hj), List.append_nil]
      · exact (List.mem_append.mp hr).imp_right fun hr => by rw [List.mem_singleton.mp hr]
      · rw [messagesOf_append, if_pos rfl]
        exact copied_store hat.2 (h.copied g p hat.1)
    | @wrote g p t rounds lastErr answer hat =>
      refine h.resume ⟨p.exec, p.call, p.timestamp, some (.written t rounds answer)⟩ hl rfl
        hat.1 rfl rfl (fun _ _ => rfl) (fun r hr => .inl hr) (fun k hk => by simp [hk]) ?_
      rw [StateOf.release_handed, decide_eq_false (by simp)]
      exact copied_written hat.2 (h.copied g p hat.1)
    | @woke g p t rounds lastErr hat =>
      exact h.move ⟨p.exec, p.call, p.timestamp, some (.slept t lastErr rounds)⟩ hl rfl
        hat.1 rfl rfl rfl rfl (copied_slept hat.2 (h.copied g p hat.1))
    | @panicked g p hp hrunning hout =>
      have hcopied := h.copied g p hp
      rw [decide_eq_false hout] at hcopied
      refine h.move ⟨p.exec, p.call, p.timestamp, none⟩ hl rfl hp rfl rfl rfl rfl ?_
      rw [decide_eq_false hout]
      exact copied_panic hcopied
  | announced hat => exact (h.spawn hl hat).snoc rfl
  | lifecycle hlife => cases hlife <;> exact Copying.snoc (h.congr rfl rfl rfl) rfl
  | _ => exact Copying.snoc (h.congr rfl rfl rfl) rfl

/-! ## 2. Runs -/

/-- The accounts after a run. -/
theorem copying_run {t₀ : Table} {clock : Instant} {as : List Action} {s : State}
    (h : Reaches t₀ clock as s) :
    ∃ t : Snapshot, s = t.state ∧ Ledger t ∧ Copying as t :=
  trans_induction (P := fun as t => Ledger t ∧ Copying as t)
    ⟨ledger_start t₀ clock, copying_start t₀ clock⟩
    (fun _ _ _ _ ⟨hl, hc⟩ ht => ⟨ledger_trans hl ht, copying_trans hc hl ht⟩) h

namespace CopyLemmas

variable {s : Snapshot} {as : List Action} {g : Nat} {p : Publication}

/-- Few copies for each call are few copies. -/
theorem copies_few {n : Nat} (hc : Copying as s) (hg : s.goroutines[g]? = some p)
    (hfew : FewCopies n as) : (messagesOf s p.exec).length ≤ 3 * n := by
  obtain ⟨-, hhandOvers, -, hstored, -⟩ := copied_bounds (hc.copied g p hg)
  calc (messagesOf s p.exec).length = storesIn (actionsOf g as) := hstored
    _ ≤ n * handOversIn (actionsOf g as) := hfew g
    _ ≤ n * 3 := Nat.mul_le_mul_left n hhandOvers
    _ = 3 * n := Nat.mul_comm n 3

/-- An acknowledged call leaves a message. -/
theorem copies_written (hc : Copying as s) (hg : s.goroutines[g]? = some p)
    (hack : Acknowledges g as) (hst : p.stage = some (.finished (.ok ()))) :
    messagesOf s p.exec ≠ [] := by
  have hcopied := hc.copied g p hg
  rw [Publication.Copied, hst] at hcopied
  have hok : .ok () ∈ answersIn (actionsOf g as) :=
    List.mem_of_getLast? (hcopied.2.2.2.2 rfl)
  obtain ⟨a, ha, hanswer⟩ := List.mem_filterMap.mp hok
  obtain ⟨ha, habout⟩ := List.mem_filter.mp ha
  obtain rfl : a = .write g (.ok ()) := by
    cases a <;> cases hanswer
    rw [Option.some.inj (of_decide_eq_true habout)]
  obtain ⟨bs, cs, rfl⟩ := List.append_of_mem ha
  have hstore : .store g ∈ actionsOf g (bs ++ .write g (.ok ()) :: cs) :=
    List.mem_filter.mpr ⟨List.mem_append_left _ (hack bs cs rfl), decide_eq_true rfl⟩
  have hpos : 0 < storesIn (actionsOf g (bs ++ .write g (.ok ()) :: cs)) :=
    List.countP_pos_iff.mpr ⟨_, hstore, rfl⟩
  rw [← hcopied.1] at hpos
  exact List.ne_nil_of_length_pos hpos

end CopyLemmas

/-- Every record of the topic comes from a goroutine; the goroutine was started for one
change that its execution committed; it calls `WriteMessages` at most three times, again only
after a failure; and the topic holds the copies that these calls stored, which do not differ.
How many a call stores is the broker's affair: `few` and `written` name what they assume. -/
theorem records_accounted {t₀ : Table} {clock : Instant} {as : List Action} {s : State}
    (h : Reaches t₀ clock as s) :
    (∀ r ∈ s.topic, ∃ (g : Nat) (G : Goroutine), s.goroutines[g]? = some G ∧ G.exec = r.exec) ∧
    ∀ (g : Nat) G, s.goroutines[g]? = some G → Copies as s g G ∧
      ∃ op reply c, changesOf s G.exec = [c] ∧ publishesOf s G.exec = [G.call] ∧
        Announces op reply c G.call := by
  obtain ⟨t, rfl, hl, hcopying⟩ := copying_run h
  constructor
  · intro r hr
    obtain ⟨p, hp, hpr⟩ := hcopying.started r hr
    obtain ⟨g, hg⟩ := List.mem_iff_getElem?.mp hp
    refine ⟨g, p.goroutine, ?_, hpr⟩
    rw [StateOf.state, List.getElem?_map, hg, Option.map_some]
  · intro g G hG
    obtain ⟨p, hp, rfl⟩ := publication_of_goroutine hG
    obtain ⟨hcalls, hhandOvers, hretried, hstored, hsame⟩ := copied_bounds (hcopying.copied g p hp)
    refine ⟨⟨hcalls, hhandOvers, hretried, hstored, hsame, fun n => copies_few hcopying hp,
      fun hack hdone => ?_⟩, started_account hl (List.mem_of_getElem? hp)⟩
    rw [Publication.goroutine, Option.map_eq_some_iff] at hdone
    obtain ⟨st, hst, hprog⟩ := hdone
    rw [PublishStage.prog_eq] at hprog
    cases st with
    | finished r =>
      cases hprog
      exact copies_written hcopying hp hack hst
    | reading | writing | sleeping => cases hprog

/-- A creation whose first call stores two copies and fails, and whose second call succeeds. -/
def createTwice : List Action :=
  [.call (.create "laptop" "computer"), .draw 0 ⟨Uuid.numbered 10, 1⟩, .sql 0 none [], .go 0, .ret 0,
    .handOver 0, .store 0, .store 0, .write 0 (.error "request timed out"), .wake 0,
    .handOver 0, .store 0, .write 0 (.ok ())]

theorem records_accounted_twice : ∃ s G, Reaches Table.empty 0 createTwice s ∧
    (messagesOf s 0).length = 3 ∧ s.goroutines[0]? = some G ∧ Copies createTwice s 0 G := by
  obtain ⟨s, G, hrun, hlength, hG⟩ : ∃ s G, Reaches Table.empty 0 createTwice s ∧
      (messagesOf s 0).length = 3 ∧ s.goroutines[0]? = some G := ⟨_, _, rfl, rfl, rfl⟩
  exact ⟨s, G, hrun, hlength, hG, ((records_accounted hrun).2 0 G hG).1⟩

/-! ## 3. All records -/

namespace CopyLemmas

/-- A list with at most `n` of each key is at most `n` times as long as the keys. -/
theorem length_le_mul {l keys : List Nat} {n : Nat} (hmem : ∀ x ∈ l, x ∈ keys)
    (hcount : ∀ k ∈ keys, l.count k ≤ n) : l.length ≤ n * keys.length := by
  induction keys generalizing l with
  | nil =>
    rw [List.eq_nil_iff_forall_not_mem.mpr fun x hx => List.not_mem_nil (hmem x hx)]
    exact Nat.zero_le _
  | cons k keys ih =>
    have hrest : (l.filter (· != k)).length ≤ n * keys.length := by
      refine ih (fun x hx => ?_) fun k' hk' => ?_
      · obtain ⟨hxl, hxk⟩ := List.mem_filter.mp hx
        exact (List.mem_cons.mp (hmem x hxl)).resolve_left (bne_iff_ne.mp hxk)
      · exact (List.filter_sublist.count_le k').trans (hcount k' (List.mem_cons_of_mem _ hk'))
    have hsplit : l.length = l.count k + (l.filter (· != k)).length := by
      rw [List.length_eq_countP_add_countP (· == k), List.count, List.countP_eq_length_filter]
      refine congrArg _ (List.countP_eq_length_filter.trans (congrArg List.length ?_))
      exact List.filter_congr fun x _ => by simp [bne, beq_eq_decide]
    rw [hsplit, List.length_cons, Nat.mul_succ, Nat.add_comm]
    exact Nat.add_le_add hrest (hcount k List.mem_cons_self)

theorem length_messagesOf {E G : Type} (s : StateOf E G) (i : Nat) :
    (messagesOf s i).length = (s.topic.map Record.exec).count i := by
  rw [messagesOf]
  induction s.topic with
  | nil => rfl
  | cons r rs ih =>
    rw [List.map_cons, List.count_cons, List.filterMap_cons, ← ih]
    by_cases hr : r.exec = i <;> simp [hr]

/-- Every goroutine has an execution of its own, and this has a commit. -/
theorem goroutines_le_commits {s : Snapshot} (hl : Ledger s) :
    s.goroutines.length ≤ s.commits.length := by
  have hnodup : (s.goroutines.map Publication.exec).Nodup := by
    rw [List.nodup_iff_getElem?_ne_getElem?]
    intro g g' hlt hlength heq
    rw [List.length_map] at hlength
    rw [List.getElem?_map, List.getElem?_map, List.getElem?_eq_getElem (hlt.trans hlength),
      List.getElem?_eq_getElem hlength] at heq
    have hexec := Option.some.inj heq
    exact Nat.ne_of_lt hlt (goroutine_inj hl (List.getElem?_eq_getElem (hlt.trans hlength))
      (List.getElem?_eq_getElem hlength) hexec)
  have hsubset : s.goroutines.map Publication.exec ⊆ s.commits.map Prod.fst := by
    intro i hi
    obtain ⟨p, hp, rfl⟩ := List.mem_map.mp hi
    obtain ⟨-, -, c, hcs, -⟩ := started_account hl hp
    exact List.mem_map_of_mem (f := Prod.fst) (commit_of_changesOf hcs)
  have hle := (hnodup.subperm hsubset).length_le
  rwa [List.length_map, List.length_map] at hle

end CopyLemmas

/-- The topic holds at most `3 * n` records for each change, when the broker stores at most
`n` copies for each call. -/
theorem topic_bounded {t₀ : Table} {clock : Instant} {as : List Action} {s : State} {n : Nat}
    (hfew : FewCopies n as) (h : Reaches t₀ clock as s) :
    s.topic.length ≤ 3 * n * s.commits.length := by
  obtain ⟨t, rfl, hl, hcopying⟩ := copying_run h
  have hle : (t.topic.map Record.exec).length ≤
      3 * n * (t.goroutines.map Publication.exec).length := by
    refine length_le_mul (fun i hi => ?_) fun i hi => ?_
    · obtain ⟨r, hr, rfl⟩ := List.mem_map.mp hi
      obtain ⟨p, hp, hpr⟩ := hcopying.started r hr
      exact hpr ▸ List.mem_map_of_mem hp
    · obtain ⟨p, hp, rfl⟩ := List.mem_map.mp hi
      obtain ⟨g, hg⟩ := List.mem_iff_getElem?.mp hp
      rw [← length_messagesOf]
      exact copies_few hcopying hg hfew
  rw [List.length_map, List.length_map] at hle
  exact hle.trans (Nat.mul_le_mul_left _ (goroutines_le_commits hl))

end AssetTracker.GoService
