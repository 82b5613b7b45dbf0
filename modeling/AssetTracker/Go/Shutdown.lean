import AssetTracker.Go.Goroutines
import AssetTracker.Go.Linearizable

/-!
# Events at shutdown (Go service)

The README promises that messages are flushed before exit. `main` waits for the
handlers and closes the writer, and `Close` waits for the calls of `WriteMessages`
that it finds in progress; nothing waits for the goroutines that the handlers started.
With a broker that accepts every write, the promise is kept by the runs in which all of
them have handed their messages over when `Close` is called, and by no others.

Results:
1. `draining_trans`: what the topic holds, and for whom a message is in flight.
2. `settled_trans`: after `Close`, whether a goroutine will have its event in the topic is
   settled.
3. `flushed_iff`: the runs that keep the promise.
4. `not_flushed`: one that breaks it.
-/

namespace AssetTracker.GoService

open Encoding Effects Linearizability TableLemmas StepLemmas InvariantLemmas GoroutineLemmas

/-! ## Definitions -/

/-- The event of every call that returned success after a change is in the topic. -/
def Flushed (s : State) : Prop :=
  ∀ (i : Nat) op reply, s.execs[i]? = some (.returned op (.ok reply)) → op.mutates = true →
    ∃ c call t, changesOf s i = [c] ∧ Announces op reply c call ∧
      (⟨i, call.message t⟩ : Record) ∈ s.topic

/-- The broker accepts every write: a call that the writer has taken answers without an error,
once its message is stored. And `server.Shutdown` returns once all handlers have returned. Calls
that come after `Close` are refused whatever the broker does. -/
def Accepting (s : State) : Action → Prop
  | .write g answer => g ∈ s.handed →
      answer = .ok () ∧ ∀ G ∈ s.goroutines[g]?, ∃ r ∈ s.topic, r.exec = G.exec
  | .shutdown timedOut => timedOut = false
  | _ => True

/-- The goroutine came to its end, and not by a panic. -/
def Goroutine.through (g : Goroutine) : Bool :=
  match g.prog with
  | some (.pure _) => true
  | _ => false

/-- When `Close` is called, every goroutine has handed its message to the writer: its call of
`WriteMessages` has been taken, and is in progress or over. A goroutine that comes later finds
the writer closed, and one that panicked never comes. -/
def HandedOver (s : State) : Action → Prop
  | .close => ∀ g < s.goroutines.length,
      g ∈ s.handed ∨ ∃ G ∈ s.goroutines[g]?, G.through = true
  | _ => True

instance (s : State) : ∀ a, Decidable (Accepting s a)
  | .write g answer => inferInstanceAs (Decidable (g ∈ s.handed →
      answer = .ok () ∧ ∀ G ∈ s.goroutines[g]?, ∃ r ∈ s.topic, r.exec = G.exec))
  | .shutdown timedOut => inferInstanceAs (Decidable (timedOut = false))
  | .call _ | .draw _ _ | .sql _ _ _ | .go _ | .ret _ | .clock _ _ | .handOver _ | .store _
  | .wake _ | .panic _ | .signal | .close | .exit => isTrue trivial

instance (s : State) : ∀ a, Decidable (HandedOver s a)
  | .close => inferInstanceAs (Decidable (∀ g < s.goroutines.length,
      g ∈ s.handed ∨ ∃ G ∈ s.goroutines[g]?, G.through = true))
  | .call _ | .draw _ _ | .sql _ _ _ | .go _ | .ret _ | .clock _ _ | .handOver _ | .store _
  | .write _ _ | .wake _ | .panic _ | .signal | .shutdown _ | .exit => isTrue trivial

/-! ## 1. What is in the topic -/

/-- The goroutine has ended without an error. -/
def Publication.Ended (p : Publication) : Prop := p.stage = some (.finished (.ok ()))

/-- The goroutine has met no error. -/
def Publication.Smooth (p : Publication) : Prop :=
  match p.stage with
  | some (.sleeping _ _ _) => False
  | some (.finished r) => r = .ok ()
  | _ => True

/-- What a run keeps, with a broker that accepts every write. A goroutine inside of a call
writes, a record in the topic is of one that is inside of its call or has ended, and those that
have ended have theirs in the topic. While the writer is open no goroutine meets an error. -/
structure Draining (s : Snapshot) : Prop where
  patient : s.forced = false
  returned : s.acceptsCalls = false → ∀ i op st, ¬ At s i op st
  inside : ∀ g ∈ s.handed, ∃ p t rounds lastErr, Publishing s g p (.writing t rounds lastErr)
  records : ∀ r ∈ s.topic, ∃ (g : Nat) (p : Publication) (t : Instant),
    s.goroutines[g]? = some p ∧ r = ⟨p.exec, p.call.message t⟩ ∧ (g ∈ s.handed ∨ p.Ended)
  delivered : ∀ p ∈ s.goroutines, p.Ended → ∃ t, (⟨p.exec, p.call.message t⟩ : Record) ∈ s.topic
  smooth : s.writerOpen = true → ∀ p ∈ s.goroutines, p.Smooth
  emptied : s.phase = .exited → s.handed = []

namespace ShutdownLemmas

variable {s s' : Snapshot} {p : Publication} {st : PublishStage} {i : Nat}

theorem through_stage (h : p.stage = some st) : p.goroutine.through = st.isFinished := by
  rw [Publication.goroutine, h, Option.map_some, PublishStage.prog_eq]
  cases st <;> rfl

/-- A goroutine that met no error is through when it has ended. -/
theorem through_iff_ended (h : p.Smooth) : p.goroutine.through = true ↔ p.Ended := by
  unfold Publication.Ended
  cases hst : p.stage with
  | none =>
    have hout : p.goroutine.through = false := by
      rw [Publication.goroutine, hst]
      rfl
    rw [hout]
    exact iff_of_false Bool.false_ne_true (Option.some_ne_none _).symm
  | some st =>
    rw [through_stage hst]
    cases st with
    | finished r =>
      rw [Publication.Smooth, hst] at h
      have hok : r = .ok () := h
      rw [hok]
      exact iff_of_true rfl rfl
    | reading | writing _ _ _ | sleeping _ _ _ =>
      refine iff_of_false Bool.false_ne_true fun heq => ?_
      cases heq

theorem not_ended_of_stage (h : p.stage = some st) (hst : st.isFinished = false) : ¬ p.Ended := by
  intro hended
  rw [Publication.Ended, h] at hended
  cases hended
  cases hst

theorem not_ended_of_running (h : p.goroutine.finished = false) : ¬ p.Ended := by
  intro hended
  rw [finished_stage hended] at h
  cases h

/-- A call that fails does not end its goroutine well. -/
theorem not_ended_of_fails {t : Instant} {rounds : Nat} {answer : Except String Unit}
    (h : answer.toBool = false) :
    ¬ Publication.Ended ⟨p.exec, p.call, p.timestamp, some (.written t rounds answer)⟩ := by
  cases answer with
  | ok _ => cases h
  | error e =>
    intro hended
    rw [Publication.Ended, Option.some.injEq, PublishStage.written] at hended
    split at hended <;> cases hended

theorem release_outside {g : Nat} (h : g ∉ s.handed) : s.release g = s := by
  have hsame : s.handed.filter (· ≠ g) = s.handed :=
    List.filter_eq_self.mpr fun k hk => decide_eq_true fun heq => h (heq ▸ hk)
  rw [StateOf.release, hsame]

end ShutdownLemmas

open ShutdownLemmas

namespace Draining

variable {s s' : Snapshot} {g i : Nat} {op : Op} {p p' : Publication}

/-- A goroutine inside of a call writes. -/
theorem at_writing (h : Draining s) (hg : g ∈ s.handed) (hp : s.goroutines[g]? = some p) :
    ∃ t rounds lastErr, p.stage = some (.writing t rounds lastErr) := by
  obtain ⟨q, t, rounds, lastErr, hq, hst⟩ := h.inside g hg
  cases hp.symm.trans hq
  exact ⟨t, rounds, lastErr, hst⟩

theorem not_inside {st : PublishStage} (h : Draining s) (hat : Publishing s g p st)
    (hst : ∀ t rounds lastErr, st ≠ .writing t rounds lastErr) : g ∉ s.handed := by
  intro hg
  obtain ⟨t, rounds, lastErr, hwriting⟩ := h.at_writing hg hat.1
  rw [hat.2] at hwriting
  exact hst t rounds lastErr (Option.some.inj hwriting)

/-- While calls are accepted, a step that moves no goroutine keeps what there is. -/
theorem frame (h : Draining s) (hcalls : s.acceptsCalls = true) (hphase : s'.phase = s.phase)
    (hforced : s'.forced = s.forced) (hg : s'.goroutines = s.goroutines)
    (ht : s'.topic = s.topic) (hh : s'.handed = s.handed) : Draining s' := by
  have hopen : s'.writerOpen = s.writerOpen := by rw [StateOf.writerOpen, hphase, StateOf.writerOpen]
  refine ⟨hforced ▸ h.patient, fun hc => ?_, ?_, ?_, ?_, ?_, ?_⟩
  · rw [StateOf.acceptsCalls, hphase, hforced, ← StateOf.acceptsCalls, hcalls] at hc
    cases hc
  · unfold Publishing
    rw [hh, hg]
    exact h.inside
  · rw [ht, hg, hh]
    exact h.records
  · rw [ht, hg]
    exact h.delivered
  · rw [hopen, hg]
    exact h.smooth
  · rw [hphase, hh]
    exact h.emptied

/-- An execution is there only while calls are accepted. -/
theorem acceptsCalls (h : Draining s) {st : Stage} (hat : At s i op st) : s.acceptsCalls = true := by
  cases hc : s.acceptsCalls with
  | true => rfl
  | false => exact absurd hat (h.returned hc i op st)

/-- A goroutine starts before its clock reading or its first write. -/
theorem spawn {call : PublishCall} (h : Draining s) (hcalls : s.acceptsCalls = true)
    {e : Standing} : Draining ((s.goOn i e).spawn (Publication.start i call)) := by
  have old {k : Nat} {q : Publication} (hk : s.goroutines[k]? = some q) :
      (s.goroutines ++ [Publication.start i call])[k]? = some q := by
    rwa [List.getElem?_append_left (List.getElem?_eq_some_iff.mp hk).1]
  refine ⟨h.patient, fun hc => ?_, fun k hk => ?_, fun r hr => ?_, fun q hq hended => ?_,
    fun ho q hq => ?_, h.emptied⟩
  · have hc' : s.acceptsCalls = false := hc
    rw [hcalls] at hc'
    cases hc'
  · obtain ⟨q, t, rounds, lastErr, hq, hst⟩ := h.inside k hk
    exact ⟨q, t, rounds, lastErr, old hq, hst⟩
  · obtain ⟨k, q, t, hk, hr, hends⟩ := h.records r hr
    exact ⟨k, q, t, old hk, hr, hends⟩
  · rcases List.mem_append.mp hq with hq | hq
    · exact h.delivered q hq hended
    · obtain rfl := List.mem_singleton.mp hq
      cases call <;> cases hended
  · rcases List.mem_append.mp hq with hq | hq
    · exact h.smooth ho q hq
    · obtain rfl := List.mem_singleton.mp hq
      cases call <;> exact trivial

/-- `main` goes on. -/
theorem enter {phase : Phase} (h : Draining s)
    (hret : phase ≠ .draining → ∀ i op st, ¬ At s i op st)
    (hopen : phase ≠ .closed → phase ≠ .exited → s.writerOpen = true)
    (hempty : phase = .exited → s.handed = []) : Draining (s.enter phase false) := by
  refine ⟨rfl, fun hc i op st hat => ?_, h.inside, h.records, h.delivered, fun ho => ?_, hempty⟩
  · refine hret ?_ i op st hat
    rintro rfl
    cases hc
  · refine h.smooth (hopen ?_ ?_) <;> rintro rfl <;> cases ho

/-- A goroutine outside of a call goes on, and does not come to its end by this. -/
theorem move (h : Draining s) (hp : s.goroutines[g]? = some p) (hout : g ∉ s.handed)
    (hrunning : ¬ p.Ended) (hrunning' : ¬ p'.Ended) (hsmooth : s.writerOpen = true → p'.Smooth) :
    Draining (s.resume g p') := by
  have other {k : Nat} {q : Publication} (hk : s.goroutines[k]? = some q) (hne : k ≠ g) :
      (s.goroutines.set g p')[k]? = some q := by
    rwa [List.getElem?_set_ne hne.symm]
  refine ⟨h.patient, h.returned, fun k hk => ?_, fun r hr => ?_, fun q hq hended => ?_,
    fun ho q hq => ?_, h.emptied⟩
  · obtain ⟨q, t, rounds, lastErr, hq, hst⟩ := h.inside k hk
    exact ⟨q, t, rounds, lastErr, other hq fun heq => hout (heq ▸ hk), hst⟩
  · obtain ⟨k, q, t, hk, hr, hends⟩ := h.records r hr
    refine ⟨k, q, t, other hk ?_, hr, hends⟩
    -- the goroutine that moves has nothing in the topic
    rintro rfl
    cases hp.symm.trans hk
    exact hends.elim hout hrunning
  · rcases List.mem_or_eq_of_mem_set hq with hq | rfl
    · exact h.delivered q hq hended
    · exact absurd hended hrunning'
  · rcases List.mem_or_eq_of_mem_set hq with hq | rfl
    · exact h.smooth ho q hq
    · exact hsmooth ho

/-- The call of a goroutine returns without an error, and its message is in the topic. -/
theorem finish (h : Draining s) (hp : s.goroutines[g]? = some p) (hin : g ∈ s.handed)
    (hexec : p'.exec = p.exec) (hcall : p'.call = p.call) (hended : p'.Ended)
    (hrecord : ∃ t, (⟨p.exec, p.call.message t⟩ : Record) ∈ s.topic) :
    Draining ((s.resume g p').release g) := by
  have other {k : Nat} {q : Publication} (hk : s.goroutines[k]? = some q) (hne : k ≠ g) :
      (s.goroutines.set g p')[k]? = some q := by
    rwa [List.getElem?_set_ne hne.symm]
  have kept {k : Nat} (hk : k ∈ s.handed) (hne : k ≠ g) : k ∈ s.handed.filter (· ≠ g) :=
    List.mem_filter.mpr ⟨hk, decide_eq_true hne⟩
  refine ⟨h.patient, h.returned, fun k hk => ?_, fun r hr => ?_, fun q hq hq' => ?_,
    fun ho q hq => ?_, fun hphase => ?_⟩
  · obtain ⟨hk, hne⟩ := List.mem_filter.mp hk
    obtain ⟨q, t, rounds, lastErr, hq, hst⟩ := h.inside k hk
    exact ⟨q, t, rounds, lastErr, other hq (of_decide_eq_true hne), hst⟩
  · obtain ⟨k, q, t, hk, rfl, hends⟩ := h.records r hr
    by_cases hne : k = g
    · subst hne
      cases hp.symm.trans hk
      have hself : (s.goroutines.set k p')[k]? = some p' :=
        List.getElem?_set_self (List.getElem?_eq_some_iff.mp hp).1
      exact ⟨k, p', t, hself, by rw [hexec, hcall], .inr hended⟩
    · exact ⟨k, q, t, other hk hne, rfl, hends.imp_left fun hk => kept hk hne⟩
  · rcases List.mem_or_eq_of_mem_set hq with hq | rfl
    · exact h.delivered q hq hq'
    · rw [hexec, hcall]
      exact hrecord
  · rcases List.mem_or_eq_of_mem_set hq with hq | rfl
    · exact h.smooth ho q hq
    · rw [Publication.Smooth, hended]
  · rw [h.emptied hphase] at hin
    cases hin

/-- The writer takes the message of a goroutine. -/
theorem handOver {t : Instant} {rounds : Nat} {lastErr : Option String} (h : Draining s)
    (hat : Publishing s g p (.writing t rounds lastErr)) (hopen : s.writerOpen = true) :
    Draining (s.handOver g) := by
  refine ⟨h.patient, h.returned, fun k hk => ?_, fun r hr => ?_, h.delivered, h.smooth,
    fun hphase => ?_⟩
  · rcases List.mem_append.mp hk with hk | hk
    · exact h.inside k hk
    · obtain rfl := List.mem_singleton.mp hk
      exact ⟨p, t, rounds, lastErr, hat⟩
  · obtain ⟨k, q, t', hk, hr, hends⟩ := h.records r hr
    exact ⟨k, q, t', hk, hr, hends.imp_left fun hk => List.mem_append_left _ hk⟩
  · have hexited : s.phase = .exited := hphase
    rw [StateOf.writerOpen, hexited] at hopen
    cases hopen

/-- A copy of the message is stored. -/
theorem store {t : Instant} {rounds : Nat} {lastErr : Option String} (h : Draining s)
    (hat : Publishing s g p (.writing t rounds lastErr)) (hin : g ∈ s.handed) :
    Draining (s.append ⟨p.exec, p.call.message t⟩) := by
  refine ⟨h.patient, h.returned, h.inside, fun r hr => ?_, fun q hq hended => ?_, h.smooth,
    h.emptied⟩
  · rcases List.mem_append.mp hr with hr | hr
    · exact h.records r hr
    · exact ⟨g, p, t, hat.1, List.mem_singleton.mp hr, .inl hin⟩
  · obtain ⟨t', ht'⟩ := h.delivered q hq hended
    exact ⟨t', List.mem_append_left _ ht'⟩

/-- The call of a goroutine returns: with success, for the broker accepts it, or with an error,
for the writer was closed when the call came. -/
theorem wrote {t : Instant} {rounds : Nat} {lastErr : Option String} {answer : Except String Unit}
    (h : Draining s) (hl : Ledger s) (hat : Publishing s g p (.writing t rounds lastErr))
    (hacc : Accepting s.state (.write g answer))
    (htaken : g ∈ s.handed ∨ s.writerOpen = false ∧ answer.toBool = false) :
    Draining ((s.resume g ⟨p.exec, p.call, p.timestamp, some (.written t rounds answer)⟩).release
      g) := by
  by_cases hin : g ∈ s.handed
  · have hG : p.goroutine ∈ s.state.goroutines[g]? := by
      simp only [StateOf.state, List.getElem?_map, hat.1]
      rfl
    obtain ⟨rfl, hstored⟩ := hacc hin
    refine h.finish hat.1 hin rfl rfl rfl ?_
    obtain ⟨r, hr, hexec⟩ := hstored p.goroutine hG
    obtain ⟨k, q, t', hk, rfl, -⟩ := h.records r hr
    obtain rfl := goroutine_inj hl hk hat.1 hexec
    cases hk.symm.trans hat.1
    exact ⟨t', hr⟩
  · obtain ⟨hclosed, hfails⟩ := htaken.resolve_left hin
    rw [release_outside (show g ∉ (s.resume g _).handed from hin)]
    refine h.move hat.1 hin (not_ended_of_stage hat.2 rfl) (not_ended_of_fails hfails) fun ho => ?_
    rw [hclosed] at ho
    cases ho

end Draining

theorem draining_start (t₀ : Table) (clock : Instant) : Draining (StateOf.start t₀ clock) := by
  refine ⟨rfl, fun _ _ _ _ => not_at_start, ?_, ?_, ?_, ?_, fun _ => rfl⟩
  · rintro _ ⟨⟩
  · rintro _ ⟨⟩
  · rintro _ ⟨⟩
  · rintro - _ ⟨⟩

/-- Every step keeps `Draining`, with a broker that accepts every write. -/
theorem draining_trans {s s' : Snapshot} {a : Action} (h : Draining s) (hl : Ledger s)
    (hacc : Accepting s.state a) (ht : Trans s a s') : Draining s' := by
  cases ht with
  | called hcalls => exact h.frame hcalls rfl rfl rfl rfl rfl
  | drew hat | failed hat | saved hat | listed hat | got hat | absent hat | refused hat
  | foundToUpdate hat | updated hat | foundToDelete hat | deleted hat | returned hat =>
    exact h.frame (h.acceptsCalls hat) rfl rfl rfl rfl rfl
  | announced hat => exact h.spawn (h.acceptsCalls hat)
  | publisher hp =>
    cases hp with
    | @clockRead g p t hat =>
      have hread : Draining (s.resume g ⟨p.exec, p.call, some t, some (.writing t 2 none)⟩) :=
        h.move hat.1 (h.not_inside hat fun _ _ _ heq => by cases heq) (not_ended_of_stage hat.2 rfl)
          (not_ended_of_stage rfl rfl) fun _ => trivial
      exact ⟨hread.patient, hread.returned, hread.inside, hread.records, hread.delivered,
        hread.smooth, hread.emptied⟩
    | handedOver hat _ hopen => exact h.handOver hat hopen
    | stored hat hin => exact h.store hat hin
    | wrote hat htaken => exact h.wrote hl hat hacc htaken
    | @woke g p t rounds lastErr hat =>
      have hclosed : s.writerOpen ≠ true := fun ho => by
        have hsmooth := h.smooth ho p (List.mem_of_getElem? hat.1)
        rw [Publication.Smooth, hat.2] at hsmooth
        exact hsmooth
      refine h.move hat.1 (h.not_inside hat fun _ _ _ heq => by cases heq)
        (not_ended_of_stage hat.2 rfl) ?_ fun ho => absurd ho hclosed
      intro hended
      cases rounds <;> cases hended
    | @panicked g p hp hrunning hout =>
      exact h.move hp hout (not_ended_of_running hrunning) (Option.some_ne_none _).symm
        fun _ => trivial
  | lifecycle hlife =>
    cases hlife with
    | signal hphase =>
      rw [h.patient]
      exact h.enter (fun hne => absurd rfl hne)
        (fun _ _ => by rw [StateOf.writerOpen, hphase]; rfl) fun heq => by cases heq
    | @shutdown timedOut hphase hret =>
      -- `Shutdown` came back because every request had been answered
      obtain rfl : timedOut = false := hacc
      exact h.enter (fun _ => hret.resolve_left Bool.false_ne_true)
        (fun _ _ => by rw [StateOf.writerOpen, hphase]; rfl) fun heq => by cases heq
    | close hphase =>
      rw [h.patient]
      refine h.enter (fun _ => h.returned ?_) (fun hne => absurd rfl hne) fun heq => by cases heq
      rw [StateOf.acceptsCalls, hphase, h.patient]
      rfl
    | exit hphase hempty =>
      rw [h.patient]
      refine h.enter (fun _ => h.returned ?_) (fun _ hne => absurd rfl hne) fun _ => hempty
      rw [StateOf.acceptsCalls, hphase, h.patient]
      rfl

/-! ## 2. After `Close` -/

/-- The goroutine `g` is inside of its call, or it has ended without an error. -/
def Settles (s : Snapshot) (g : Nat) : Prop :=
  g ∈ s.handed ∨ ∃ p, s.goroutines[g]? = some p ∧ p.Ended

/-- The writer is closed and all handlers have returned. -/
structure Closed (s : Snapshot) : Prop where
  closed : s.writerOpen = false
  patient : s.forced = false
  returned : ∀ i op st, ¬ At s i op st

/-- What `s'` has kept of `s`: the executions, their changes, and for which goroutines the
event is in the topic or on its way. -/
structure Keeps (s s' : Snapshot) : Prop where
  execs : s'.execs = s.execs
  commits : s'.commits = s.commits
  length : s'.goroutines.length = s.goroutines.length
  settles : ∀ g, Settles s' g ↔ Settles s g

theorem Keeps.trans {s s' s'' : Snapshot} (h : Keeps s s') (h' : Keeps s' s'') : Keeps s s'' :=
  ⟨h'.execs.trans h.execs, h'.commits.trans h.commits, h'.length.trans h.length,
    fun g => (h'.settles g).trans (h.settles g)⟩

namespace ShutdownLemmas

variable {s s' : Snapshot} {p : Publication} {g : Nat}

/-- A goroutine goes on, and its event is on its way afterwards if it was before. -/
theorem keeps_move {t : Snapshot} (p' : Publication) (hp : s.goroutines[g]? = some p)
    (hexecs : t.execs = s.execs) (hcommits : t.commits = s.commits)
    (hg : t.goroutines = s.goroutines.set g p') (hh : ∀ k, k ≠ g → (k ∈ t.handed ↔ k ∈ s.handed))
    (hself : (g ∈ t.handed ∨ p'.Ended) ↔ (g ∈ s.handed ∨ p.Ended)) : Keeps s t := by
  have hlt : g < s.goroutines.length := (List.getElem?_eq_some_iff.mp hp).1
  refine ⟨hexecs, hcommits, by rw [hg, List.length_set], fun k => ?_⟩
  unfold Settles
  rw [hg]
  by_cases hk : k = g
  · subst hk
    rw [List.getElem?_set_self hlt, hp]
    simpa using hself
  · rw [hh k hk, List.getElem?_set_ne (Ne.symm hk)]

end ShutdownLemmas

/-- After `Close` no execution goes on, and no goroutine hands over a message that was not. -/
theorem settled_trans {s s' : Snapshot} {a : Action} (h : Closed s) (hacc : Accepting s.state a)
    (ht : Trans s a s') : Closed s' ∧ Keeps s s' := by
  have hphase : s.phase = .closed ∨ s.phase = .exited := by
    have hc := h.closed
    cases hs : s.phase <;> simp [StateOf.writerOpen, hs] at hc ⊢
  cases ht with
  | called hcalls =>
    rcases hphase with hp | hp <;> simp [StateOf.acceptsCalls, hp, h.patient] at hcalls
  | drew hat | failed hat | saved hat | listed hat | got hat | absent hat | refused hat
  | foundToUpdate hat | updated hat | foundToDelete hat | deleted hat | returned hat
  | announced hat => exact absurd hat (h.returned _ _ _)
  | publisher hp =>
    refine ⟨?_, ?_⟩
    · cases hp <;> exact ⟨h.closed, h.patient, h.returned⟩
    cases hp with
    | @clockRead g p t hat =>
      refine keeps_move ⟨p.exec, p.call, some t, some (.writing t 2 none)⟩ hat.1 rfl rfl rfl
        (fun _ _ => Iff.rfl) (or_congr_right ?_)
      exact iff_of_false (not_ended_of_stage rfl rfl) (not_ended_of_stage hat.2 rfl)
    | handedOver _ _ hopen =>
      rw [h.closed] at hopen
      cases hopen
    | stored => exact ⟨rfl, rfl, rfl, fun _ => Iff.rfl⟩
    | @wrote g p t rounds lastErr answer hat htaken =>
      refine keeps_move ⟨p.exec, p.call, p.timestamp, some (.written t rounds answer)⟩ hat.1
        rfl rfl rfl (fun k hk => by simp [hk]) ?_
      by_cases hin : g ∈ s.handed
      · -- a call that was in progress is accepted
        obtain ⟨rfl, -⟩ := hacc hin
        exact iff_of_true (.inr rfl) (.inl hin)
      · have hfails := (htaken.resolve_left hin).2
        refine iff_of_false ?_ ?_
        · rintro (hmem | hended)
          · exact hin (List.mem_filter.mp hmem).1
          · exact not_ended_of_fails hfails hended
        · rintro (hmem | hended)
          · exact hin hmem
          · exact not_ended_of_stage hat.2 rfl hended
    | @woke g p t rounds lastErr hat =>
      refine keeps_move ⟨p.exec, p.call, p.timestamp, some (.slept t lastErr rounds)⟩ hat.1
        rfl rfl rfl (fun _ _ => Iff.rfl) (or_congr_right ?_)
      refine iff_of_false ?_ (not_ended_of_stage hat.2 rfl)
      intro hended
      cases rounds <;> cases hended
    | @panicked g p hp hrunning =>
      refine keeps_move ⟨p.exec, p.call, p.timestamp, none⟩ hp rfl rfl rfl
        (fun _ _ => Iff.rfl) (or_congr_right ?_)
      exact iff_of_false (Option.some_ne_none _).symm (not_ended_of_running hrunning)
  | lifecycle hl =>
    cases hl with
    | signal hs | shutdown hs | close hs => rcases hphase with hp | hp <;> rw [hs] at hp <;> cases hp
    | exit => exact ⟨⟨rfl, h.patient, h.returned⟩, rfl, rfl, rfl, fun _ => Iff.rfl⟩

/-! ## 3. The promise -/

namespace ShutdownLemmas

variable {s s' : Snapshot} {p : Publication}

/-- Once all executions have returned, the one behind a goroutine has returned success. -/
theorem returned_account (hl : Ledger s) (hret : ∀ i op st, ¬ At s i op st)
    (hp : p ∈ s.goroutines) :
    ∃ op reply, s.execs[p.exec]? = some (.returned op (.ok reply)) ∧ op.mutates = true := by
  have hmem : p.call ∈ publishesOf s.state p.exec := by
    rw [publishesOf_state]
    exact List.mem_filterMap.mpr ⟨(p.exec, p.call), List.mem_map_of_mem hp, if_pos rfl⟩
  have hacc := hl p.exec
  cases he : s.execs[p.exec]? with
  | none =>
    rw [he] at hacc
    rw [hacc.2] at hmem
    cases hmem
  | some e =>
    rw [he] at hacc
    cases e with
    | running op st => exact absurd he (hret p.exec op st)
    | returned op r =>
      cases r with
      | error e =>
        rw [hacc.2] at hmem
        cases hmem
      | ok reply =>
        by_cases hmut : op.mutates = true
        · exact ⟨op, reply, rfl, hmut⟩
        · have hset : Settled op (.ok reply) (changesOf s p.exec) (publishesOf s.state p.exec) :=
            hacc
          rw [Settled, if_neg hmut] at hset
          rw [hset.2] at hmem
          cases hmem

/-- The goroutine of an execution that returned success after a change. -/
theorem returned_goroutine {i : Nat} {op : Op} {reply : Reply} (hl : Ledger s)
    (hi : s.execs[i]? = some (.returned op (.ok reply))) (hmut : op.mutates = true) :
    ∃ c, ∃ p ∈ s.goroutines, p.exec = i ∧ changesOf s i = [c] ∧ Announces op reply c p.call := by
  have hacc : Settled op (.ok reply) (changesOf s i) (publishesOf s.state i) := by
    have hi' := hl i
    rwa [hi] at hi'
  rw [Settled, if_pos hmut] at hacc
  obtain ⟨c, call, hcs, hps, hann⟩ := hacc
  have hmem : call ∈ publishesOf s.state i := hps ▸ List.mem_singleton_self call
  rw [publishesOf_state] at hmem
  obtain ⟨⟨j, call'⟩, hq, hcall⟩ := List.mem_filterMap.mp hmem
  obtain ⟨p, hp, heq⟩ := List.mem_map.mp hq
  cases heq
  split at hcall
  · next hj =>
    cases hcall
    exact ⟨c, p, hp, hj, hcs, hann⟩
  · cases hcall

theorem returned_of_state {i : Nat} {op : Op} {r : Result}
    (h : s.state.execs[i]? = some (.returned op r)) : s.execs[i]? = some (.returned op r) := by
  simp only [StateOf.state, List.getElem?_map, Option.map_eq_some_iff] at h
  obtain ⟨e, he, heq⟩ := h
  cases e <;> cases heq
  exact he

/-- When no call is in progress any more: the events are in the topic exactly if all goroutines
ended without an error. -/
theorem flushed_at_exit (h : Draining s) (hl : Ledger s) (hempty : s.handed = [])
    (hret : ∀ i op st, ¬ At s i op st) :
    Flushed s.state ↔ ∀ g < s.goroutines.length, Settles s g := by
  constructor
  · intro hf g hlt
    have hp : s.goroutines[g]? = some s.goroutines[g] := List.getElem?_eq_getElem hlt
    obtain ⟨op, reply, he, hmut⟩ := returned_account hl hret (List.mem_of_getElem? hp)
    have he' : s.state.execs[s.goroutines[g].exec]? = some (.returned op (.ok reply)) := by
      simp only [StateOf.state, List.getElem?_map, he]
      rfl
    obtain ⟨c, call, t, -, -, hr⟩ := hf s.goroutines[g].exec op reply he' hmut
    obtain ⟨k, q, t', hk, heq, hends⟩ := h.records _ hr
    rw [hempty] at hends
    obtain rfl := goroutine_inj hl hp hk (congrArg Record.exec heq)
    exact .inr ⟨q, hk, hends.resolve_left List.not_mem_nil⟩
  · intro hall i op reply hi hmut
    obtain ⟨c, p, hp, rfl, hcs, hann⟩ := returned_goroutine hl (returned_of_state hi) hmut
    obtain ⟨g, hg⟩ := List.mem_iff_getElem?.mp hp
    have hsettled := hall g (List.getElem?_eq_some_iff.mp hg).1
    rw [Settles, hempty] at hsettled
    obtain ⟨q, hq, hended⟩ := hsettled.resolve_left List.not_mem_nil
    cases hg.symm.trans hq
    obtain ⟨t, ht⟩ := h.delivered p hp hended
    exact ⟨c, p.call, t, hcs, hann, ht⟩

/-- `HandedOver`, as the snapshot shows it while no goroutine has met an error. -/
theorem handedOver_iff (h : Draining s) (ho : s.writerOpen = true) :
    HandedOver s.state .close ↔ ∀ g < s.goroutines.length, Settles s g := by
  have hlength : s.state.goroutines.length = s.goroutines.length := List.length_map _
  unfold HandedOver
  rw [hlength]
  refine forall₂_congr fun g hlt => or_congr_right ?_
  simp only [StateOf.state, List.getElem?_map, List.getElem?_eq_getElem hlt]
  have hsmooth := h.smooth ho s.goroutines[g] (List.getElem_mem hlt)
  constructor
  · rintro ⟨G, hG, hthrough⟩
    cases hG
    exact ⟨_, rfl, (through_iff_ended hsmooth).mp hthrough⟩
  · rintro ⟨p, hp, hended⟩
    cases hp
    exact ⟨_, rfl, (through_iff_ended hsmooth).mpr hended⟩

/-- A run that ended called `Close` once. -/
theorem exists_close {t₀ : Table} {clock : Instant} {as : List Action} {s : State}
    (h : Reaches t₀ clock as s) (hexit : s.phase = .closed ∨ s.phase = .exited) :
    ∃ bs cs, as = bs ++ .close :: cs := by
  obtain ⟨t, rfl, hp⟩ := trans_induction
    (P := fun as t => t.phase = .closed ∨ t.phase = .exited → ∃ bs cs, as = bs ++ .close :: cs)
    (fun hphase => by rcases hphase with hphase | hphase <;> cases hphase)
    (fun as t a t' ih ht hphase => by
      have old : (t.phase = .closed ∨ t.phase = .exited) → ∃ bs cs, as ++ [a] = bs ++ .close :: cs := by
        intro hold
        obtain ⟨bs, cs, rfl⟩ := ih hold
        exact ⟨bs, cs ++ [a], by simp⟩
      cases ht with
      | lifecycle hl =>
        cases hl with
        | signal | shutdown => rcases hphase with hphase | hphase <;> cases hphase
        | close => exact ⟨as, [], rfl⟩
        | exit hclosed => exact old (.inl hclosed)
      | publisher hp => cases hp <;> exact old hphase
      | _ => exact old hphase) h
  exact hp hexit

/-- What the rest of a run keeps after `Close`. -/
theorem closed_run {as : List Action} {s' : State} (hd : Draining s) (hl : Ledger s) (h : Closed s)
    (hacc : Machine.Guarded step Accepting s.state as) (hrun : Machine.run step s.state as = some s') :
    ∃ t : Snapshot, s' = t.state ∧ Draining t ∧ Ledger t ∧ Closed t ∧ Keeps s t := by
  refine guarded_trans_run (P := fun _ t => Draining t ∧ Ledger t ∧ Closed t ∧ Keeps s t)
    ⟨hd, hl, h, rfl, rfl, rfl, fun _ => Iff.rfl⟩ ?_ hacc hrun
  rintro as t a t' ⟨hd, hl, hc, hk⟩ ha ht
  obtain ⟨hc', hk'⟩ := settled_trans hc ha ht
  exact ⟨draining_trans hd hl ha ht, ledger_trans hl ht, hc', hk.trans hk'⟩

end ShutdownLemmas

/-- A run that ended, with a broker that accepts every write, has flushed the events of
all successful calls exactly if all goroutines had handed their messages over when it called
`Close`. Without `Accepting` an event can be lost at any time, and then there is nothing to
flush. -/
theorem flushed_iff {t₀ : Table} {clock : Instant} {as : List Action} {s : State}
    (hacc : Machine.Guarded step Accepting (StateOf.start t₀ clock) as)
    (h : Reaches t₀ clock as s) (hexit : s.phase = .exited) :
    Flushed s ↔ Machine.Guarded step HandedOver (StateOf.start t₀ clock) as := by
  -- wherever the run calls `Close`, the end is decided
  have decided : ∀ bs cs s₁, as = bs ++ .close :: cs → Reaches t₀ clock bs s₁ →
      (Flushed s ↔ HandedOver s₁ .close) := by
    rintro bs cs s₁ rfl hbs
    obtain ⟨hacc₁, hacc₂⟩ := Machine.guarded_append hacc hbs
    obtain ⟨t, rfl, hd, hl⟩ := guarded_trans_induction
      (P := fun _ t => Draining t ∧ Ledger t)
      ⟨draining_start t₀ clock, ledger_start t₀ clock⟩
      (fun _ _ _ _ ⟨hd, hl⟩ hc ht => ⟨draining_trans hd hl hc ht, ledger_trans hl ht⟩) hacc₁ hbs
    obtain ⟨s₁, hs₁, hrest⟩ := Machine.run_append_some h
    cases hbs.symm.trans hs₁
    obtain ⟨s₂, hclose, hrest⟩ := Option.bind_eq_some_iff.mp hrest
    obtain ⟨t₂, rfl, htrans⟩ := step_trans hclose
    have hd₂ := draining_trans hd hl hacc₂.1 htrans
    have hl₂ := ledger_trans hl htrans
    cases htrans with
    | publisher hp => cases hp
    | lifecycle hlife =>
      cases hlife with
      | close hphase =>
        have ho : t.writerOpen = true := by
          rw [StateOf.writerOpen, hphase]
          rfl
        have hret : ∀ i op st, ¬ At t i op st :=
          hd.returned (by rw [StateOf.acceptsCalls, hphase, hd.patient]; rfl)
        obtain ⟨t', rfl, hd', hl', hc', hk⟩ := closed_run hd₂ hl₂ ⟨rfl, hd₂.patient, hret⟩
          (hacc₂.2 _ hclose) hrest
        rw [flushed_at_exit hd' hl' (hd'.emptied hexit) hc'.returned, hk.length,
          handedOver_iff hd ho]
        exact forall₂_congr fun g _ => hk.settles g
  constructor
  · intro hf
    refine Machine.guarded_iff.mpr fun bs a cs s₁ heq hbs => ?_
    cases a with
    | close => exact (decided bs cs s₁ heq hbs).mp hf
    | _ => exact trivial
  · intro hg
    obtain ⟨bs, cs, heq⟩ := exists_close h (.inr hexit)
    obtain ⟨s₁, hbs, -⟩ := Machine.run_append_some (heq ▸ h)
    exact (decided bs cs s₁ heq hbs).mpr (Machine.guarded_iff.mp hg bs .close cs s₁ heq hbs)

/-- A creation and a deletion; the message of the creation is in the topic before `Close`, and
that of the deletion has been handed over only, and is stored while `Close` waits. -/
def closeFlushes : List Action :=
  let row : Row := ⟨uuid₁, "laptop", "computer", 0⟩
  [.call (.create "laptop" "computer"), .draw 0 ⟨uuid₁, 1⟩, .sql 0 none [], .go 0, .ret 0,
    .handOver 0, .store 0, .write 0 (.ok ()), .call (.delete uuid₁.toString), .sql 1 none [row],
    .signal, .sql 1 none [row], .go 1, .ret 1, .shutdown false, .clock 1 2, .handOver 1, .close,
    .store 1, .write 1 (.ok ()), .exit]

theorem flushed_closeFlushes : ∃ s, Reaches Table.empty 0 closeFlushes s ∧
    s.topic.map Record.exec = [0, 1] ∧ Flushed s := by
  obtain ⟨s, hrun, hexit, htopic⟩ : ∃ s, Reaches Table.empty 0 closeFlushes s ∧
      s.phase = .exited ∧ s.topic.map Record.exec = [0, 1] := ⟨_, rfl, rfl, rfl⟩
  exact ⟨s, hrun, htopic, (flushed_iff (by decide) hrun hexit).mpr (by decide)⟩

/-! ## 4. A lost event -/

/-- A creation, and a shutdown in which its goroutine is too late for the writer. -/
def closeBeforeWrite : List Action :=
  [.call (.create "laptop" "computer"), .draw 0 ⟨uuid₁, 1⟩, .sql 0 none [], .go 0, .ret 0, .signal,
    .shutdown false, .close, .write 0 (.error "io: read/write on closed pipe"), .exit]

/-- The creation returned success, and its event is not in the topic. -/
theorem not_flushed :
    ¬ ∀ (t₀ : Table) (clock : Instant) (as : List Action) (s : State),
      Machine.Guarded step Accepting (StateOf.start t₀ clock) as → Reaches t₀ clock as s →
      s.phase = .exited → Flushed s := by
  intro hall
  obtain ⟨s, hrun, hexit, htopic, hret⟩ : ∃ s, Reaches Table.empty 0 closeBeforeWrite s ∧
      s.phase = .exited ∧ s.topic = [] ∧ s.execs[0]? = some (.returned (.create "laptop" "computer")
        (.ok (.device ⟨uuid₁.toString, "laptop", "computer", 1⟩))) :=
    ⟨_, rfl, rfl, rfl, rfl⟩
  obtain ⟨c, call, t, -, -, hr⟩ :=
    hall Table.empty 0 closeBeforeWrite s (by decide) hrun hexit 0 _ _ hret rfl
  rw [htopic] at hr
  cases hr

end AssetTracker.GoService
