import AssetTracker.Go.Events

/-!
# The order of the events of a device (Go service)

The comment of `publish` promises the events of a device in order. The goroutines
that publish them do not wait for one another, and the promise is broken by two
operations that do not even overlap (`events_out_of_order`). It is kept by the
runs in which the goroutines of a device take turns, in the order of the commits.

Results:
1. `clocked_trans`: with a monotone clock, no instant is ahead of the clock.
2. `inOrder_trans`: in turn, the goroutines of a device keep the order of the
   commits.
3. `events_in_order`: the run theorem.
4. `events_out_of_order`: the promise is broken.
-/

namespace AssetTracker.GoService

open Encoding Effects Linearizability TableLemmas StepLemmas InvariantLemmas GoroutineLemmas
  EventLemmas

/-! ## Definitions -/

/-- The device that a record is about. -/
def Record.device (r : Record) : Option Uuid := r.message.deviceID.bind Uuid.parse

section

variable {E G : Type}

/-- The executions that changed the device `u` before the execution `i` committed. -/
def earlier (s : StateOf E G) (u : Option Uuid) (i : Nat) : List Nat :=
  (s.commits.takeWhile fun q => q.1 != i).filterMap fun q =>
    if some q.2.uuid = u then some q.1 else none

end

/-- The record holds the event of its execution with the timestamp `t`. -/
def StampedAt (s : State) (r : Record) (t : Instant) : Prop :=
  ∃ G ∈ s.goroutines, G.exec = r.exec ∧ G.timestamp = some t ∧ r.message = G.call.message t

/-- The records of a device stand in the topic in the order of the commits, and their
timestamps are in that order too. -/
def InCommitOrder (s : State) (u : Uuid) : Prop :=
  (s.topic.filter fun r => r.device = some u).Pairwise fun r r' =>
    r'.exec ∉ earlier s (some u) r.exec ∧
      ∃ t t', StampedAt s r t ∧ StampedAt s r' t' ∧ t ≤ t'

/-- The operations that changed a device ran one after another. -/
def NonOverlapping (s : State) (u : Uuid) : Prop :=
  ∀ i j c c', (i, c) ∈ s.commits → (j, c') ∈ s.commits → c.uuid = u → c'.uuid = u → i ≠ j →
    RealTime s.history i j ∨ RealTime s.history j i

/-- The clock does not go back. The timestamps of the events are its readings, which would
otherwise be out of order even if all goroutines took turns. Two readings may be equal. -/
def MonotoneClock (s : State) : Action → Prop
  | .draw _ fresh => s.clock ≤ fresh.now
  | .clock _ t => s.clock ≤ t
  | _ => True

/-- The goroutine has its timestamp, or came to its end without one. -/
def Goroutine.stamped (g : Goroutine) : Bool := g.timestamp.isSome || g.finished

/-- The goroutines of a device take turns, in the order of the commits: one reads the
clock after those before it have their timestamps, and its message is stored after those
before it are finished. Both are needed, the first for the order of the timestamps and the
second for that of the records, and nothing in the code makes the goroutines wait for one
another. Goroutines of different devices are free. -/
def InTurn (s : State) : Action → Prop
  | .clock g _ => ∀ G ∈ s.goroutines[g]?, ∀ i ∈ earlier s G.call.device G.exec,
      ∃ G' ∈ s.goroutines, G'.exec = i ∧ G'.stamped = true
  | .store g => ∀ G ∈ s.goroutines[g]?, ∀ i ∈ earlier s G.call.device G.exec,
      ∃ G' ∈ s.goroutines, G'.exec = i ∧ G'.finished = true
  | _ => True

instance (s : State) : ∀ a, Decidable (MonotoneClock s a)
  | .draw _ fresh => inferInstanceAs (Decidable (s.clock ≤ fresh.now))
  | .clock _ t => inferInstanceAs (Decidable (s.clock ≤ t))
  | .call _ | .sql _ _ _ | .go _ | .ret _ | .handOver _ | .store _ | .write _ _ | .wake _ | .panic _
  | .signal | .shutdown _ | .close | .exit => isTrue trivial

instance (s : State) : ∀ a, Decidable (InTurn s a)
  | .clock g _ => inferInstanceAs (Decidable (∀ G ∈ s.goroutines[g]?,
      ∀ i ∈ earlier s G.call.device G.exec, ∃ G' ∈ s.goroutines, G'.exec = i ∧ G'.stamped = true))
  | .store g => inferInstanceAs (Decidable (∀ G ∈ s.goroutines[g]?,
      ∀ i ∈ earlier s G.call.device G.exec, ∃ G' ∈ s.goroutines, G'.exec = i ∧ G'.finished = true))
  | .call _ | .draw _ _ | .sql _ _ _ | .go _ | .ret _ | .handOver _ | .write _ _ | .wake _ | .panic _
  | .signal | .shutdown _ | .close | .exit => isTrue trivial

/-! ## 1. The clock -/

/-- The instant that an execution holds for its event. -/
def Stage.instant : Stage → Option Instant
  | .saving d => some d.createdAt
  | .announcing call _ => call.captured
  | _ => none

/-- No instant of the service is ahead of the clock. -/
structure Clocked (s : Snapshot) : Prop where
  execs : ∀ i op st t, At s i op st → st.instant = some t → t ≤ s.clock
  goroutines : ∀ p ∈ s.goroutines, ∀ t, p.timestamp = some t → t ≤ s.clock

theorem instant_start (op : Op) : op.start.instant = none := by
  unfold Op.start
  cases op with
  | create name deviceType =>
    dsimp only
    split
    · rfl
    · split <;> rfl
  | list | get _ | update _ _ _ | delete _ => rfl

namespace Clocked

variable {s s' : Snapshot} {i : Nat} {op : Op} {st : Stage} {e : Standing}

theorem goOn (h : Clocked s) (he : ∀ op st t, e = .running op st → st.instant = some t → t ≤ s.clock) :
    Clocked (s.goOn i e) := by
  refine ⟨fun j op' st' t hat ht => ?_, h.goroutines⟩
  rcases at_goOn hat with ⟨-, rfl⟩ | ⟨-, hat⟩
  · exact he _ _ t rfl ht
  · exact h.execs j op' st' t hat ht

/-- An execution goes on to a stage that holds no instant. -/
theorem goOn_none (h : Clocked s) (hst : st.instant = none) :
    Clocked (s.goOn i (.running op st)) := by
  refine h.goOn fun op' st' t he ht => ?_
  cases he
  rw [hst] at ht
  cases ht

theorem congr (h : Clocked s) (he : s'.execs = s.execs) (hg : s'.goroutines = s.goroutines)
    (hc : s.clock ≤ s'.clock) : Clocked s' := by
  refine ⟨fun j op' st' t hat ht => Int.le_trans (h.execs j op' st' t ?_ ht) hc, fun p hp t ht =>
    Int.le_trans (h.goroutines p (hg ▸ hp) t ht) hc⟩
  rwa [At, he] at hat

/-- A goroutine is moved on; a new timestamp is the reading of the clock. -/
theorem resume {g : Nat} {p' : Publication} (h : Clocked s)
    (ht : ∀ t, p'.timestamp = some t → t ≤ s.clock) : Clocked (s.resume g p') := by
  refine ⟨h.execs, fun p hp t hpt => ?_⟩
  rcases List.mem_or_eq_of_mem_set hp with hp | rfl
  · exact h.goroutines p hp t hpt
  · exact ht t hpt

end Clocked

theorem clocked_start (t₀ : Table) (clock : Instant) : Clocked (StateOf.start t₀ clock) := by
  refine ⟨fun _ _ _ _ hat => absurd hat not_at_start, fun p hp => ?_⟩
  cases hp

theorem clocked_trans {s s' : Snapshot} {a : Action} (h : Clocked s) (hm : MonotoneClock s.state a)
    (ht : Trans s a s') : Clocked s' := by
  cases ht with
  | @called op =>
    refine ⟨fun j op' st' t hat ht => ?_, h.goroutines⟩
    rcases at_call hat with ⟨-, he⟩ | ⟨-, hat⟩
    · cases he
      -- a call that just began has drawn no instant
      rw [instant_start] at ht
      cases ht
    · exact h.execs j op' st' t hat ht
  | @drew i op name deviceType fresh hat =>
    have hle : s.clock ≤ fresh.now := hm
    refine ⟨fun j op' st' t hat' ht => ?_, fun p hp t ht => Int.le_trans (h.goroutines p hp t ht) hle⟩
    rcases at_goOn hat' with ⟨-, he⟩ | ⟨-, hat'⟩
    · cases he
      cases ht
      exact Int.le_refl _
    · exact Int.le_trans (h.execs j op' st' t hat' ht) hle
  | saved hat =>
    refine (h.goOn fun op' st' t he ht => ?_).congr rfl rfl (Int.le_refl _)
    cases he
    cases ht
    exact h.execs _ _ _ _ hat rfl
  | updated | deleted => exact (h.goOn_none rfl).congr rfl rfl (Int.le_refl _)
  | failed | listed | got | absent | refused | foundToUpdate | foundToDelete => exact h.goOn_none rfl
  | @announced i op call reply hat =>
    -- the new goroutine takes over the instant of its call
    have hnext : Clocked (s.goOn i (.running op (.done (.ok reply)))) := h.goOn_none rfl
    refine ⟨hnext.execs, fun p hp t ht => ?_⟩
    rcases List.mem_append.mp hp with hp | hp
    · exact h.goroutines p hp t ht
    · rw [List.mem_singleton] at hp
      subst hp
      exact h.execs i op _ t hat ht
  | @returned i op r =>
    exact (h.goOn (e := .returned op r) fun _ _ _ => Standing.noConfusion).congr rfl rfl (Int.le_refl _)
  | publisher hp =>
    cases hp with
    | @clockRead g p t hat =>
      have hle : s.clock ≤ t := hm
      refine ⟨fun j op' st' t' hat' ht' => Int.le_trans (h.execs j op' st' t' hat' ht') hle, ?_⟩
      intro q hq t' ht'
      rcases List.mem_or_eq_of_mem_set hq with hq | rfl
      · exact Int.le_trans (h.goroutines q hq t' ht') hle
      · cases ht'
        exact Int.le_refl _
    | handedOver | stored => exact h.congr rfl rfl (Int.le_refl _)
    | @wrote g p t rounds lastErr answer hat =>
      have hres : Clocked (s.resume g
          ⟨p.exec, p.call, p.timestamp, some (.written t rounds answer)⟩) :=
        h.resume fun t ht => h.goroutines p (List.mem_of_getElem? hat.1) t ht
      exact hres.congr rfl rfl (Int.le_refl _)
    | woke hat => exact h.resume fun t ht => h.goroutines _ (List.mem_of_getElem? hat.1) t ht
    | panicked hp => exact h.resume fun t ht => h.goroutines _ (List.mem_of_getElem? hp) t ht
  | lifecycle hl =>
    cases hl <;> exact h.congr rfl rfl (Int.le_refl _)

/-! ## 2. Turns -/

/-- A goroutine before the clock has no timestamp, and one that writes has that of its
message. -/
def Publication.Coherent (p : Publication) : Prop :=
  match p.stage with
  | some .reading => p.timestamp = none
  | some (.writing t _ _) => p.timestamp = some t
  | some (.sleeping t _ _) => p.timestamp = some t
  | _ => True

/-- `InOrder s`: every goroutine has waited for those before it. -/
structure InOrder (s : Snapshot) : Prop where
  coherent : ∀ p ∈ s.goroutines, p.Coherent
  waited : ∀ p ∈ s.goroutines, p.timestamp.isSome = true →
    ∀ i ∈ earlier s p.call.device p.exec,
      ∃ q ∈ s.goroutines, q.exec = i ∧ q.goroutine.stamped = true
  stamps : ∀ p ∈ s.goroutines, ∀ q ∈ s.goroutines, p.exec ∈ earlier s q.call.device q.exec →
    ∀ t t', p.timestamp = some t → q.timestamp = some t' → t ≤ t'
  recorded : ∀ r ∈ s.topic, ∃ p ∈ s.goroutines, p.exec = r.exec ∧
    (∃ t, p.timestamp = some t ∧ r.message = p.call.message t) ∧
    ∀ i ∈ earlier s p.call.device p.exec,
      ∃ q ∈ s.goroutines, q.exec = i ∧ q.goroutine.finished = true
  ordered : s.topic.Pairwise fun r r' => r'.exec ∉ earlier s r.device r.exec

namespace OrderLemmas

variable {t₀ : Table} {s s' : Snapshot} {g i j : Nat} {op : Op} {p q : Publication}
  {r : Record} {u : Option Uuid} {c c' : Change}

theorem record_device {t : Instant} (h : r.message = p.call.message t) :
    r.device = p.call.device := by
  rw [Record.device, h, message_deviceID]
  rfl

/-- The change behind a goroutine. -/
theorem committed (hl : Ledger s) (hp : p ∈ s.goroutines) :
    ∃ c, (p.exec, c) ∈ s.commits ∧ p.call.device = some c.uuid := by
  obtain ⟨op, reply, c, hcs, -, hann⟩ := started_account hl hp
  exact ⟨c, commit_of_changesOf hcs, announces_device hann⟩

/-- What came before a commit stays what came before it. -/
theorem earlier_append {cs : List (Nat × Change)} (hs' : s'.commits = s.commits ++ cs)
    (hi : (i, c) ∈ s.commits) : earlier s' u i = earlier s u i := by
  have hlen : (s.commits.takeWhile fun q => q.1 != i).length ≠ s.commits.length := by
    intro hlen
    have hall := List.takeWhile_eq_self_iff.mp
      ((List.takeWhile_prefix fun q : Nat × Change => q.1 != i).eq_of_length hlen)
    simpa using hall _ hi
  rw [earlier, hs', List.takeWhile_append, if_neg hlen]
  rfl

theorem mem_earlier {E G : Type} {s : StateOf E G} : j ∈ earlier s u i ↔
    ∃ c, (j, c) ∈ s.commits.takeWhile (fun q => q.1 != i) ∧ some c.uuid = u := by
  simp only [earlier, List.mem_filterMap, Option.ite_none_right_eq_some, Option.some.injEq]
  constructor
  · rintro ⟨⟨j', c⟩, hmem, hu, rfl⟩
    exact ⟨c, hmem, hu⟩
  · rintro ⟨c, hmem, hu⟩
    exact ⟨(j, c), hmem, hu, rfl⟩

/-- Of two entries with different numbers, one stands before the other. -/
theorem takeWhile_total {l : List (Nat × Change)} (hij : i ≠ j)
    (hi : (i, c) ∈ l) (hj : (j, c') ∈ l) (hic : ∀ d, (i, d) ∈ l → d = c)
    (hjc : ∀ d, (j, d) ∈ l → d = c') :
    (i, c) ∈ l.takeWhile (fun q => q.1 != j) ∨ (j, c') ∈ l.takeWhile (fun q => q.1 != i) := by
  induction l with
  | nil => cases hi
  | cons q l ih =>
    obtain ⟨k, d⟩ := q
    by_cases hki : k = i
    · obtain rfl := hki
      obtain rfl := hic d List.mem_cons_self
      left
      rw [List.takeWhile_cons_of_pos (by simpa using hij)]
      exact List.mem_cons_self
    · by_cases hkj : k = j
      · obtain rfl := hkj
        obtain rfl := hjc d List.mem_cons_self
        right
        rw [List.takeWhile_cons_of_pos (by simpa using hki)]
        exact List.mem_cons_self
      · have tail : ∀ {k' : Nat} {d' : Change}, k ≠ k' → (k', d') ∈ (k, d) :: l → (k', d') ∈ l := by
          intro k' d' hk hmem
          rcases List.mem_cons.mp hmem with heq | hmem
          · exact absurd (congrArg Prod.fst heq).symm hk
          · exact hmem
        rw [List.takeWhile_cons_of_pos (by simpa using hkj),
          List.takeWhile_cons_of_pos (by simpa using hki)]
        exact (ih (tail hki hi) (tail hkj hj) (fun d hd => hic d (List.mem_cons_of_mem _ hd))
          fun d hd => hjc d (List.mem_cons_of_mem _ hd)).imp
            (List.mem_cons_of_mem _) (List.mem_cons_of_mem _)

/-- The goroutines of two changes of a device: one change came before the other. -/
theorem earlier_total (hl : Ledger s) (hp : p ∈ s.goroutines) (hq : q ∈ s.goroutines)
    (hdevice : p.call.device = q.call.device) (hne : p.exec ≠ q.exec) :
    p.exec ∈ earlier s q.call.device q.exec ∨ q.exec ∈ earlier s p.call.device p.exec := by
  have only : ∀ p ∈ s.goroutines, ∃ c, (p.exec, c) ∈ s.commits ∧ p.call.device = some c.uuid ∧
      ∀ d, (p.exec, d) ∈ s.commits → d = c := by
    intro p hp
    obtain ⟨op, reply, c, hcs, -, hann⟩ := started_account hl hp
    refine ⟨c, commit_of_changesOf hcs, announces_device hann, fun d hd => ?_⟩
    have hmem : d ∈ changesOf s p.exec :=
      List.mem_filterMap.mpr ⟨(p.exec, d), hd, if_pos rfl⟩
    rw [hcs] at hmem
    exact List.mem_singleton.mp hmem
  obtain ⟨c, hc, hcu, hconly⟩ := only p hp
  obtain ⟨d, hd, hdu, hdonly⟩ := only q hq
  rcases takeWhile_total hne hc hd hconly hdonly with hmem | hmem
  · exact .inl (mem_earlier.mpr ⟨c, hmem, hcu.symm.trans hdevice⟩)
  · exact .inr (mem_earlier.mpr ⟨d, hmem, hdu.symm.trans hdevice.symm⟩)

/-- A goroutine that is there is one of its execution's: it is the one. -/
theorem eq_of_exec (hl : Ledger s) (hp : p ∈ s.goroutines) (hq : q ∈ s.goroutines)
    (hexec : p.exec = q.exec) : p = q := by
  obtain ⟨k, hk⟩ := List.mem_iff_getElem?.mp hp
  obtain ⟨k', hk'⟩ := List.mem_iff_getElem?.mp hq
  obtain rfl := goroutine_inj hl hk hk' hexec
  exact Option.some.inj (hk.symm.trans hk')

theorem replays_prefix {cs ds : List Change} {t : Table} (h : Replays t₀ (cs ++ ds) t) :
    ∃ t', Replays t₀ cs t' := by
  induction ds using List.reverseRecOn generalizing t with
  | nil => exact ⟨t, List.append_nil cs ▸ h⟩
  | append_singleton ds d ih =>
    rw [← List.append_assoc] at h
    generalize hl : cs ++ ds ++ [d] = l at h
    cases h with
    | nil => exact absurd hl (List.concat_ne_nil _ _)
    | snoc hr hc =>
      obtain rfl := List.append_inj_left' hl rfl
      exact ih hr

/-- Nothing changed a device before it was inserted. -/
theorem earlier_inserted {row : Row} (hids : Ids t₀ s)
    (hr : Replays t₀ (s.commits.map Prod.snd) s.table) (hi : (i, .inserted row) ∈ s.commits) :
    earlier s (some row.id) i = [] := by
  rw [List.eq_nil_iff_forall_not_mem]
  intro j hj
  obtain ⟨c, hmem, hu⟩ := mem_earlier.mp hj
  obtain ⟨rest, hrest⟩ := List.takeWhile_prefix (l := s.commits) fun q : Nat × Change => q.1 != i
  have hlast : (i, Change.inserted row) ∈ rest := by
    rw [← hrest, List.mem_append] at hi
    rcases hi with hi | hi
    · exact absurd (List.mem_takeWhile_imp hi) (by simp)
    · exact hi
  have hnodup := hids.born_nodup
  rw [← hrest, List.map_append] at hr
  rw [born, ← hrest, List.filterMap_append, ← List.append_assoc, List.nodup_append] at hnodup
  have hin : row.id ∈ rest.filterMap insertedId := List.mem_filterMap.mpr ⟨_, hlast, rfl⟩
  obtain ⟨t', hpre⟩ := replays_prefix hr
  have hborn := (replays_ids hpre).2 c (List.mem_map_of_mem hmem)
  rw [Option.some.inj hu] at hborn
  refine hnodup.2.2 row.id (List.mem_append.mpr (hborn.imp_right ?_)) row.id hin rfl
  rintro ⟨r', hr', hid⟩
  obtain ⟨⟨k, _⟩, hk, rfl⟩ := List.mem_map.mp hr'
  exact List.mem_filterMap.mpr ⟨_, hk, by rw [← hid]; rfl⟩

end OrderLemmas

open OrderLemmas

namespace InOrder

variable {t₀ : Table} {s s' : Snapshot} {g i : Nat} {op : Op} {p p' : Publication}
  {st : PublishStage}

/-- A step that neither moves nor starts a goroutine. -/
theorem frame (h : InOrder s) (hl : Ledger s) (hg : s'.goroutines = s.goroutines)
    (ht : s'.topic = s.topic) (cs : List (Nat × Change)) (hc : s'.commits = s.commits ++ cs) :
    InOrder s' := by
  have hearlier : ∀ p ∈ s.goroutines, ∀ u, earlier s' u p.exec = earlier s u p.exec := by
    intro p hp u
    obtain ⟨c, hmem, -⟩ := committed hl hp
    exact earlier_append hc hmem
  have hrecord : ∀ r ∈ s.topic, earlier s' r.device r.exec = earlier s r.device r.exec := by
    intro r hr
    obtain ⟨p, hp, hexec, -⟩ := h.recorded r hr
    rw [← hexec]
    exact hearlier p hp _
  refine ⟨hg ▸ h.coherent, ?_, ?_, ?_, ?_⟩
  · intro p hp hstamp i hi
    rw [hg] at hp ⊢
    exact h.waited p hp hstamp i (hearlier p hp _ ▸ hi)
  · intro p hp q hq hpq
    rw [hg] at hp hq
    exact h.stamps p hp q hq (hearlier q hq _ ▸ hpq)
  · intro r hr
    rw [hg]
    obtain ⟨p, hp, hexec, hmsg, hfin⟩ := h.recorded r (ht ▸ hr)
    exact ⟨p, hp, hexec, hmsg, fun i hi => hfin i (hearlier p hp _ ▸ hi)⟩
  · rw [ht]
    exact h.ordered.imp_of_mem fun hr _ hrr' => hrecord _ hr ▸ hrr'

/-- A goroutine is moved on without a new timestamp. -/
theorem resume (h : InOrder s) (hp : s.goroutines[g]? = some p) (hexec : p'.exec = p.exec)
    (hcall : p'.call = p.call) (htime : p'.timestamp = p.timestamp) (hcoh : p'.Coherent)
    (hfin : p.goroutine.finished = false) (hstamped : p.timestamp.isSome = true ∨ p'.stage = none) :
    InOrder (s.resume g p') := by
  have hmem := List.mem_of_getElem? hp
  -- every goroutine has its device, its turn and its timestamp from before the step
  have old : ∀ q ∈ s.goroutines.set g p', ∃ q₀ ∈ s.goroutines,
      q.exec = q₀.exec ∧ q.call = q₀.call ∧ q.timestamp = q₀.timestamp := by
    intro q hq
    rcases List.mem_or_eq_of_mem_set hq with hq | rfl
    · exact ⟨q, hq, rfl, rfl, rfl⟩
    · exact ⟨p, hmem, hexec, hcall, htime⟩
  have hkeep : p.goroutine.stamped = true → p'.goroutine.stamped = true := by
    intro _
    rcases hstamped with hs | hs
    · exact Bool.or_eq_true_iff.mpr (.inl (show p'.timestamp.isSome = true from htime ▸ hs))
    · exact Bool.or_eq_true_iff.mpr (.inr (by simp [Publication.goroutine, Goroutine.finished, hs]))
  refine ⟨?_, ?_, ?_, ?_, h.ordered⟩
  · intro q hq
    rcases List.mem_or_eq_of_mem_set hq with hq | rfl
    · exact h.coherent q hq
    · exact hcoh
  · intro q hq hs i hi
    obtain ⟨q₀, hq₀, he, hc, ht⟩ := old q hq
    rw [hc, he] at hi
    rw [ht] at hs
    exact exists_resume hp hexec hkeep (h.waited q₀ hq₀ hs i hi)
  · intro q hq q' hq' hearlier t t' ht ht'
    obtain ⟨q₀, hq₀, he, -, htime₀⟩ := old q hq
    obtain ⟨q₁, hq₁, he₁, hc₁, htime₁⟩ := old q' hq'
    rw [he, he₁, hc₁] at hearlier
    exact h.stamps q₀ hq₀ q₁ hq₁ hearlier t t' (htime₀ ▸ ht) (htime₁ ▸ ht')
  · intro r hr
    obtain ⟨q, hq, hqe, ⟨t, ht, hmsg⟩, hdone⟩ := h.recorded r hr
    have hsame : p.call = q.call ∧ p.timestamp = some t ∧ r.message = p.call.message t →
        p'.call = q.call ∧ p'.timestamp = some t ∧ r.message = p'.call.message t := by
      rintro ⟨h₁, h₂, h₃⟩
      exact ⟨hcall.trans h₁, htime.trans h₂, hcall ▸ h₃⟩
    obtain ⟨q', hq', hqe', hcall', ht', hmsg'⟩ := exists_resume (i := r.exec)
      (P := fun x => x.call = q.call ∧ x.timestamp = some t ∧ r.message = x.call.message t) hp hexec
      hsame ⟨q, hq, hqe, rfl, ht, hmsg⟩
    refine ⟨q', hq', hqe', ⟨t, ht', hmsg'⟩, fun i hi => ?_⟩
    rw [hcall', hqe', ← hqe] at hi
    exact exists_resume hp hexec (fun hf => absurd (hfin ▸ hf) Bool.false_ne_true) (hdone i hi)

/-- A goroutine that writes has the timestamp of its message. -/
theorem timestamp {t : Instant} {rounds : Nat} {lastErr : Option String} (h : InOrder s)
    (hat : Publishing s g p (.writing t rounds lastErr)) : p.timestamp = some t := by
  have hcoh := h.coherent p (List.mem_of_getElem? hat.1)
  rwa [Publication.Coherent, hat.2] at hcoh

/-- A goroutine reads the clock, in turn. -/
theorem clockRead {t : Instant} (h : InOrder s) (hl : Ledger s) (hclk : Clocked s)
    (hat : Publishing s g p .reading) (hle : s.clock ≤ t)
    (hturn : ∀ i ∈ earlier s p.call.device p.exec,
      ∃ q ∈ s.goroutines, q.exec = i ∧ q.goroutine.stamped = true) :
    InOrder (s.resume g ⟨p.exec, p.call, some t, some (.writing t 2 none)⟩) := by
  have hmem := List.mem_of_getElem? hat.1
  have hnone : p.timestamp = none := by
    have hcoh := h.coherent p hmem
    rwa [Publication.Coherent, hat.2] at hcoh
  have hrunning : p.goroutine.finished = false := finished_stage hat.2
  have hnot : p.goroutine.stamped = false := by
    show (p.timestamp.isSome || p.goroutine.finished) = false
    rw [hnone, hrunning]
    rfl
  have hkeep : p.goroutine.stamped = true →
      (Publication.goroutine ⟨p.exec, p.call, some t, some (.writing t 2 none)⟩).stamped = true :=
    fun _ => rfl
  refine ⟨?_, ?_, ?_, ?_, h.ordered⟩
  · intro q hq
    rcases List.mem_or_eq_of_mem_set hq with hq | rfl
    · exact h.coherent q hq
    · exact rfl
  · intro q hq hs i hi
    rcases List.mem_or_eq_of_mem_set hq with hq | rfl
    · exact exists_resume hat.1 rfl hkeep (h.waited q hq hs i hi)
    · exact exists_resume hat.1 rfl hkeep (hturn i hi)
  · intro q hq q' hq' hearlier t₁ t₂ ht₁ ht₂
    rcases List.mem_or_eq_of_mem_set hq' with hq' | rfl
    · rcases List.mem_or_eq_of_mem_set hq with hq | rfl
      · exact h.stamps q hq q' hq' hearlier t₁ t₂ ht₁ ht₂
      · -- the later goroutine waited for this one, which has no timestamp yet
        obtain ⟨x, hx, hxe, hstamped⟩ :=
          h.waited q' hq' (Option.isSome_of_eq_some ht₂) p.exec hearlier
        obtain rfl := eq_of_exec hl hx hmem hxe
        rw [hnot] at hstamped
        cases hstamped
    · cases ht₂
      rcases List.mem_or_eq_of_mem_set hq with hq | rfl
      · exact Int.le_trans (hclk.goroutines q hq t₁ ht₁) hle
      · cases ht₁
        exact Int.le_refl _
  · intro r hr
    obtain ⟨q, hq, hqe, ⟨t', ht', hmsg⟩, hdone⟩ := h.recorded r hr
    -- a goroutine that wrote a record had a timestamp, so it is another one
    have hne : q ≠ p := by
      rintro rfl
      rw [hnone] at ht'
      cases ht'
    obtain ⟨k, hk⟩ := List.mem_iff_getElem?.mp hq
    have hkg : g ≠ k := by
      rintro rfl
      exact hne (Option.some.inj (hk.symm.trans hat.1))
    refine ⟨q, List.mem_iff_getElem?.mpr ⟨k, by rw [StateOf.resume_goroutines,
      List.getElem?_set_ne hkg, hk]⟩, hqe, ⟨t', ht', hmsg⟩, fun i hi => ?_⟩
    exact exists_resume hat.1 rfl (fun hf => absurd (hrunning ▸ hf) Bool.false_ne_true) (hdone i hi)

/-- The message of a goroutine whose turn it is arrives. -/
theorem append (h : InOrder s) (hl : Ledger s) {t : Instant} (hp : s.goroutines[g]? = some p)
    (htime : p.timestamp = some t) (hrunning : p.goroutine.finished = false)
    (hturn : ∀ i ∈ earlier s p.call.device p.exec,
      ∃ q ∈ s.goroutines, q.exec = i ∧ q.goroutine.finished = true) :
    InOrder (s.append ⟨p.exec, p.call.message t⟩) := by
  refine ⟨h.coherent, h.waited, h.stamps, ?_, ?_⟩
  · intro r hr
    rcases List.mem_append.mp hr with hr | hr
    · exact h.recorded r hr
    · rw [List.mem_singleton] at hr
      subst hr
      exact ⟨p, List.mem_of_getElem? hp, rfl, ⟨t, htime, rfl⟩, hturn⟩
  · refine List.pairwise_append.mpr ⟨h.ordered, List.pairwise_singleton _ _, fun r hr r' hr' => ?_⟩
    rw [List.mem_singleton] at hr'
    subst hr'
    intro hearlier
    -- the goroutine of an earlier change was finished when `r` was stored
    obtain ⟨q, hq, hqe, ⟨t', ht', hmsg⟩, hdone⟩ := h.recorded r hr
    have hdevice : r.device = q.call.device := record_device hmsg
    obtain ⟨x, hx, hxe, hfin⟩ := hdone p.exec (by rw [hqe, ← hdevice]; exact hearlier)
    obtain rfl := eq_of_exec hl hx (List.mem_of_getElem? hp) hxe
    rw [hrunning] at hfin
    cases hfin

/-- A goroutine starts. -/
theorem spawn {call : PublishCall} {reply : Reply} (h : InOrder s) (hl : Ledger s)
    (hids : Ids t₀ s) (hr : Replays t₀ (s.commits.map Prod.snd) s.table)
    (hat : At s i op (.announcing call reply)) :
    InOrder ((s.goOn i (.running op (.done (.ok reply)))).spawn (Publication.start i call)) := by
  obtain ⟨hps, -, c, hcs, hann⟩ := hl.at_stage hat
  have hnew : ∀ q ∈ s.goroutines, q.exec ≠ i := by
    intro q hq hqi
    have hmem : q.call ∈ publishesOf s.state i := by
      rw [publishesOf_state]
      exact List.mem_filterMap.mpr ⟨(q.exec, q.call), List.mem_map_of_mem hq, if_pos hqi⟩
    rw [hps] at hmem
    cases hmem
  -- the event of a creation has its timestamp from the start, and nothing before it
  have hfirst : (Publication.start i call).timestamp.isSome = true →
      earlier s call.device i = [] := by
    intro hsome
    cases hann with
    | created hid =>
      show earlier s (Uuid.parse _) i = []
      rw [PublishCall.deviceID, hid]
      exact earlier_inserted hids hr (commit_of_changesOf hcs)
    | updated | deleted => cases hsome
  refine ⟨?_, ?_, ?_, ?_, h.ordered⟩
  · intro q hq
    rcases List.mem_append.mp hq with hq | hq
    · exact h.coherent q hq
    · rw [List.mem_singleton] at hq
      subst hq
      cases call <;> exact rfl
  · intro q hq hs j hj
    rcases List.mem_append.mp hq with hq | hq
    · obtain ⟨x, hx, hxe⟩ := h.waited q hq hs j hj
      exact ⟨x, List.mem_append_left _ hx, hxe⟩
    · rw [List.mem_singleton] at hq
      subst hq
      have hj' : j ∈ earlier s call.device i := hj
      rw [hfirst hs] at hj'
      cases hj'
  · intro q hq q' hq' hearlier t t' ht ht'
    rcases List.mem_append.mp hq' with hq' | hq'
    · rcases List.mem_append.mp hq with hq | hq
      · exact h.stamps q hq q' hq' hearlier t t' ht ht'
      · rw [List.mem_singleton] at hq
        subst hq
        obtain ⟨x, hx, hxe, -⟩ := h.waited q' hq' (Option.isSome_of_eq_some ht') i hearlier
        exact absurd hxe (hnew x hx)
    · rw [List.mem_singleton] at hq'
      subst hq'
      have hearlier' : q.exec ∈ earlier s call.device i := hearlier
      rw [hfirst (Option.isSome_of_eq_some ht')] at hearlier'
      cases hearlier'
  · intro r hr
    obtain ⟨q, hq, hqe, hmsg, hdone⟩ := h.recorded r hr
    refine ⟨q, List.mem_append_left _ hq, hqe, hmsg, fun j hj => ?_⟩
    obtain ⟨x, hx, hxe⟩ := hdone j hj
    exact ⟨x, List.mem_append_left _ hx, hxe⟩

end InOrder

/-- The turns as the snapshot shows them. -/
theorem turn_of_state {s : Snapshot} {g : Nat} {p : Publication} {f : Goroutine → Bool}
    (hp : s.goroutines[g]? = some p)
    (h : ∀ G ∈ s.state.goroutines[g]?, ∀ i ∈ earlier s.state G.call.device G.exec,
      ∃ G' ∈ s.state.goroutines, G'.exec = i ∧ f G' = true) :
    ∀ i ∈ earlier s p.call.device p.exec, ∃ q ∈ s.goroutines, q.exec = i ∧ f q.goroutine = true := by
  intro i hi
  have hg : p.goroutine ∈ s.state.goroutines[g]? := by
    simp only [StateOf.state, List.getElem?_map, hp]
    rfl
  obtain ⟨G', hG', hexec, hf⟩ := h p.goroutine hg i hi
  obtain ⟨q, hq, rfl⟩ := List.mem_map.mp hG'
  exact ⟨q, hq, hexec, hf⟩

/-- A step in turn keeps the order. -/
theorem inOrder_trans {t₀ : Table} {s s' : Snapshot} {a : Action} (h : InOrder s)
    (hl : Ledger s) (hids : Ids t₀ s) (hr : Replays t₀ (s.commits.map Prod.snd) s.table)
    (hclk : Clocked s) (hm : MonotoneClock s.state a) (hturn : InTurn s.state a)
    (ht : Trans s a s') : InOrder s' := by
  rcases goroutines_trans ht with hp | ⟨i, op, call, reply, hat, rfl⟩ | ⟨hg, htopic, -, cs, hc⟩
  · cases hp with
    | clockRead hat =>
      have hread := h.clockRead hl hclk hat hm (turn_of_state hat.1 hturn)
      exact hread.frame (hl.congr rfl rfl (publishesOf_resume hat.1 rfl rfl)) rfl rfl []
        (List.append_nil _).symm
    | handedOver => exact h.frame hl rfl rfl [] (List.append_nil _).symm
    | stored hat =>
      -- `InTurn` says that nothing earlier is open
      exact h.append hl hat.1 (h.timestamp hat) (finished_stage hat.2) (turn_of_state hat.1 hturn)
    | @wrote g p t rounds lastErr answer hat =>
      have htime := h.timestamp hat
      have hcoh : Publication.Coherent
          ⟨p.exec, p.call, p.timestamp, some (.written t rounds answer)⟩ := by
        unfold PublishStage.written
        split
        · exact trivial
        · split
          · exact htime
          · exact trivial
      have hres : InOrder (s.resume g
          ⟨p.exec, p.call, p.timestamp, some (.written t rounds answer)⟩) :=
        h.resume hat.1 rfl rfl rfl hcoh (finished_stage hat.2) (.inl (Option.isSome_of_eq_some htime))
      exact hres.frame (hl.congr rfl rfl (publishesOf_resume hat.1 rfl rfl)) rfl rfl []
        (List.append_nil _).symm
    | @woke g p t rounds lastErr hat =>
      have htime : p.timestamp = some t := by
        have hcoh := h.coherent p (List.mem_of_getElem? hat.1)
        rwa [Publication.Coherent, hat.2] at hcoh
      refine h.resume hat.1 rfl rfl rfl ?_ (finished_stage hat.2)
        (.inl (Option.isSome_of_eq_some htime))
      cases rounds with
      | zero => exact trivial
      | succ n => exact htime
    | panicked hp hrunning => exact h.resume hp rfl rfl rfl trivial hrunning (.inr rfl)
  · exact h.spawn hl hids hr hat
  · exact h.frame hl hg htopic cs hc

/-! ## 3. Runs in turn -/

theorem inOrder_start (t₀ : Table) (clock : Instant) : InOrder (StateOf.start t₀ clock) := by
  refine ⟨?_, ?_, ?_, ?_, List.Pairwise.nil⟩ <;> rintro _ ⟨⟩

/-- What the runs in turn keep. -/
theorem inOrder_run {t₀ : Table} {clock : Instant} {as : List Action} {s : State}
    (hm : Machine.Guarded step MonotoneClock (StateOf.start t₀ clock) as)
    (hturn : Machine.Guarded step InTurn (StateOf.start t₀ clock) as) (h : Reaches t₀ clock as s) :
    ∃ t : Snapshot, s = t.state ∧ Ledger t ∧ InOrder t := by
  obtain ⟨t, hs, -, hl, -, -, ho⟩ := guarded_trans_induction
    (P := fun _ t => Ids t₀ t ∧ Ledger t ∧ Replays t₀ (t.commits.map Prod.snd) t.table ∧
      Clocked t ∧ InOrder t)
    ⟨ids_start t₀ clock, ledger_start t₀ clock, .nil, clocked_start t₀ clock, inOrder_start t₀ clock⟩
    (fun _ _ _ _ ⟨hids, hl, hr, hclk, ho⟩ hC ht =>
      ⟨ids_trans hids ht, ledger_trans hl ht, replays_trans hr ht, clocked_trans hclk hC.1 ht,
        inOrder_trans ho hl hids hr hclk hC.1 hC.2 ht⟩) (hm.and hturn) h
  exact ⟨t, hs, hl, ho⟩

/-- With a monotone clock (`hm`), when the goroutines of each device take turns in the order of
the commits (`hturn`), the events of every device stand in the topic in that order, and so do
their timestamps. Failures, retries and overlapping calls are not excluded, nor is any order of
the goroutines of different devices. -/
theorem events_in_order {t₀ : Table} {clock : Instant} {as : List Action} {s : State}
    (hm : Machine.Guarded step MonotoneClock (StateOf.start t₀ clock) as)
    (hturn : Machine.Guarded step InTurn (StateOf.start t₀ clock) as) (h : Reaches t₀ clock as s)
    (u : Uuid) : InCommitOrder s u := by
  obtain ⟨t, rfl, hl, ho⟩ := inOrder_run hm hturn h
  refine List.Pairwise.imp_of_mem ?_ (ho.ordered.filter _)
  intro r r' hr hr' hrr'
  obtain ⟨hr, hru⟩ := List.mem_filter.mp hr
  obtain ⟨hr', hru'⟩ := List.mem_filter.mp hr'
  have hru : r.device = some u := of_decide_eq_true hru
  have hru' : r'.device = some u := of_decide_eq_true hru'
  obtain ⟨p, hp, hpe, ⟨i, hi, hmsg⟩, -⟩ := ho.recorded r hr
  obtain ⟨q, hq, hqe, ⟨j, hj, hmsg'⟩, -⟩ := ho.recorded r' hr'
  have hstamp : StampedAt t.state r i := ⟨_, List.mem_map_of_mem hp, hpe, hi, hmsg⟩
  have hstamp' : StampedAt t.state r' j := ⟨_, List.mem_map_of_mem hq, hqe, hj, hmsg'⟩
  have hpu : p.call.device = some u := (record_device hmsg).symm.trans hru
  have hqu : q.call.device = some u := (record_device hmsg').symm.trans hru'
  rw [hru] at hrr'
  refine ⟨hrr', i, j, hstamp, hstamp', ?_⟩
  by_cases hexec : p.exec = q.exec
  · -- one goroutine, which wrote again after a failure
    obtain rfl := eq_of_exec hl hp hq hexec
    rw [hi, Option.some.injEq] at hj
    exact hj ▸ Int.le_refl _
  · rcases earlier_total hl hp hq (hpu.trans hqu.symm) hexec with hbefore | hafter
    · exact ho.stamps p hp q hq hbefore i j hi hj
    · rw [hpu, hpe, hqe] at hafter
      exact absurd hafter hrr'

/-- A device is created, then updated; both calls have returned. -/
def createThenUpdate : List Action :=
  let row : Row := ⟨uuid₁, "laptop", "computer", 0⟩
  [.call (.create "laptop" "computer"), .draw 0 ⟨uuid₁, 1⟩, .sql 0 none [], .go 0, .ret 0,
    .call (.update uuid₁.toString "server" "rack"), .sql 1 none [row], .sql 1 none [row], .go 1,
    .ret 1]

/-- The goroutine of the creation writes first, at its second try. -/
def inTurn : List Action :=
  createThenUpdate ++ [.handOver 0, .write 0 (.error "Leader Not Available"), .clock 1 2, .wake 0,
    .handOver 0, .store 0, .write 0 (.ok ()), .handOver 1, .store 1, .write 1 (.ok ())]

theorem events_in_order_inTurn : ∃ s, Reaches Table.empty 0 inTurn s ∧
    s.topic.map Record.exec = [0, 1] ∧ InCommitOrder s uuid₁ := by
  have htopics : (Machine.run step (StateOf.start Table.empty 0) inTurn).map
      (fun s => s.topic.map Record.exec) = some [0, 1] := rfl
  obtain ⟨s, hrun, htopic⟩ := Option.map_eq_some_iff.mp htopics
  exact ⟨s, hrun, htopic, events_in_order (by decide) (by decide) hrun uuid₁⟩

/-! ## 4. Out of order -/

/-- The goroutine of the update overtakes that of the creation. -/
def overtaking : List Action :=
  createThenUpdate ++ [.clock 1 2, .handOver 1, .store 1, .write 1 (.ok ()), .handOver 0, .store 0,
    .write 0 (.ok ())]

theorem overtaking_state : ∃ s, Reaches Table.empty 0 overtaking s ∧
    s.topic = [⟨1, PublishCall.message (.updated uuid₁.toString "server") 2⟩,
      ⟨0, PublishCall.message (.created uuid₁.toString "laptop" 1) 1⟩] ∧
    s.commits = [(0, .inserted ⟨uuid₁, "laptop", "computer", 0⟩),
      (1, .updated ⟨uuid₁, "laptop", "computer", 0⟩ ⟨uuid₁, "server", "rack", 0⟩)] ∧
    s.history = [.call 0 (.create "laptop" "computer"),
      .ret 0 (.ok (.device ⟨uuid₁.toString, "laptop", "computer", 1⟩)),
      .call 1 (.update uuid₁.toString "server" "rack"),
      .ret 1 (.ok (.device ⟨uuid₁.toString, "server", "rack", 0⟩))] :=
  ⟨_, rfl, rfl, rfl, rfl⟩

/-- Operations that do not overlap, and a monotone clock, are not enough for the order
of the events. -/
theorem events_out_of_order :
    ¬ ∀ (t₀ : Table) (clock : Instant) (as : List Action) (s : State) (u : Uuid),
      Machine.Guarded step MonotoneClock (StateOf.start t₀ clock) as → Reaches t₀ clock as s →
      NonOverlapping s u → InCommitOrder s u := by
  intro hall
  obtain ⟨s, hrun, htopic, hcommits, hhistory⟩ := overtaking_state
  have hreal : RealTime s.history 0 1 :=
    ⟨[_, _], [_], _, hhistory, .ok (.device ⟨uuid₁.toString, "laptop", "computer", 1⟩), by simp⟩
  have hseparate : NonOverlapping s uuid₁ := by
    intro i j c c' hi hj _ _ hne
    rw [hcommits] at hi hj
    simp only [List.mem_cons, Prod.mk.injEq, List.not_mem_nil, or_false] at hi hj
    rcases hi with ⟨rfl, -⟩ | ⟨rfl, -⟩ <;> rcases hj with ⟨rfl, -⟩ | ⟨rfl, -⟩
    · exact absurd rfl hne
    · exact .inl hreal
    · exact .inr hreal
    · exact absurd rfl hne
  have horder := hall Table.empty 0 overtaking s uuid₁ (by decide) hrun hseparate
  have hdevice : ∀ r ∈ s.topic, r.device = some uuid₁ := by
    intro r hr
    rw [htopic, List.mem_cons, List.mem_singleton] at hr
    rcases hr with rfl | rfl <;> rw [Record.device, message_deviceID] <;>
      exact Uuid.parse_toString uuid₁
  rw [InCommitOrder, List.filter_eq_self.mpr fun r hr => decide_eq_true (hdevice r hr), htopic] at horder
  -- the record of the creation, the first commit, stands last
  have hnot := (List.rel_of_pairwise_cons horder (List.mem_singleton_self _)).1
  refine hnot (mem_earlier.mpr ⟨.inserted ⟨uuid₁, "laptop", "computer", 0⟩, ?_, rfl⟩)
  rw [hcommits]
  exact List.mem_cons_self

end AssetTracker.GoService
