import AssetTracker.Go.Publisher
import Mathlib.Order.Nat
import Mathlib.Data.Nat.Find

/-!
# Retries of transient errors (Go service)

`publish` writes at most three times; whether it goes on after an error is decided
by `isRetriable`, which looks for five phrases in the text of the error. kafka-go
reports a failed produce as the error of the protocol, whose text has the title of
the error in title case, or, after batching, as `WriteErrors`, whose text names no
error at all.

Results:
1. `isRetriable_protocol`, `not_isRetriable_writeErrors`: which transient errors are
   recognised by their texts.
2. `publish_stops`, `publish_exhausted`: a run of `publish`, alone.
3. `retried_iff`: transient errors are retried exactly when those that could end a call
   early are among the three whose titles `isRetriable` knows.
-/

namespace AssetTracker.GoService.Retries

open Encoding Effects

/-! ## Definitions -/

/-- The transient errors of the protocol: topic auto-creation races, leader elections,
and network timeouts. -/
inductive Transient where
  | unknownTopicOrPartition
  | leaderNotAvailable
  | notLeaderForPartition
  | requestTimedOut
  | networkException
deriving DecidableEq, Repr

def Transient.title : Transient → String
  | unknownTopicOrPartition => "Unknown Topic Or Partition"
  | leaderNotAvailable => "Leader Not Available"
  | notLeaderForPartition => "Not Leader For Partition"
  | requestTimedOut => "Request Timed Out"
  | networkException => "Network Exception"

/-- The other parts of the texts of kafka-go. -/
structure KafkaGo where
  code : Transient → Nat
  description : Transient → String

/-- `Error()` of an error of the protocol. -/
def KafkaGo.protocolText (lib : KafkaGo) (e : Transient) : String :=
  "[" ++ toString (lib.code e) ++ "] " ++ e.title ++ ": " ++ lib.description e

/-- `Error()` of `WriteErrors`, for that many messages that failed. -/
def writeErrorsText (failed total : Nat) : String :=
  "kafka write errors (" ++ toString failed ++ "/" ++ toString total ++ ")"

/-- What becomes of a `WriteMessages` call. A transient error is reported as it is, or as
one of `WriteErrors`. -/
inductive Outcome where
  | accepted
  | protocol (e : Transient)
  | writeErrors (e : Transient) (failed total : Nat)
  | other (message : String)

def Outcome.answer (lib : KafkaGo) : Outcome → Except String Unit
  | accepted => .ok ()
  | protocol e => .error (lib.protocolText e)
  | writeErrors _ failed total => .error (writeErrorsText failed total)
  | other message => .error message

def Outcome.transient : Outcome → Bool
  | protocol _ => true
  | writeErrors _ _ _ => true
  | _ => false

/-- The call failed with an error that `isRetriable` takes for transient. -/
def Outcome.retriable (lib : KafkaGo) (o : Outcome) : Bool :=
  match o.answer lib with
  | .ok () => false
  | .error message => isRetriable message

/-- `publish` alone: the state counts its calls of `WriteMessages`. -/
def alone (lib : KafkaGo) (outcomes : Nat → Outcome) (clock : Instant) :
    (e : PublishEffect) → Nat → e.Answer × Nat
  | .now, writes => (clock, writes)
  | .write _, writes => ((outcomes writes).answer lib, writes + 1)
  | .sleep _, writes => ((), writes)

/-- What a call of `publish` returns when every error that is transient is retried. -/
structure Retried (outcomes : Nat → Outcome) (result : Except Err Unit) (writes : Nat) : Prop where
  atMost : writes ≤ 3
  stops : ∀ k, outcomes k = .accepted → writes ≤ k + 1
  early : ∀ k, writes = k + 1 → k + 1 < 3 → result ≠ .ok () → (outcomes k).transient = false
  succeeds : ∀ k < 3, outcomes k = .accepted → (∀ j < k, (outcomes j).transient = true) →
    result = .ok ()

/-! ## 1. Texts -/

/-- The phrases of `isRetriable`. -/
def phrases : List String :=
  ["Unknown Topic Or Partition", "Leader Not Available", "Not Leader", "timed out", "network"]

theorem contains_iff {s sub : String} : contains s sub = true ↔ sub.toList <:+: s.toList :=
  decide_eq_true_iff

theorem isRetriable_iff {message : String} :
    isRetriable message = true ↔ ∃ phrase ∈ phrases, phrase.toList <:+: message.toList := by
  unfold isRetriable phrases
  simp only [Bool.or_eq_true, contains_iff, List.exists_mem_cons_iff, List.not_mem_nil, false_and,
    exists_false, or_false, or_assoc]

/-- A word without the separator stands on one side of it. -/
theorem infix_separated {w xs ys : List Char} {c : Char} (hc : c ∉ w) (h : w <:+: xs ++ c :: ys) :
    w <:+: xs ∨ w <:+: ys := by
  have hnil {v : List Char} (hv : c ∉ v) (hpre : v <+: c :: ys) : v = [] := by
    cases v with
    | nil => rfl
    | cons d v =>
      obtain ⟨rfl, -⟩ := List.cons_prefix_cons.mp hpre
      exact absurd List.mem_cons_self hv
  rcases List.infix_append_iff.mp h with h | h | ⟨v, v', rfl, hv, hv'⟩
  · exact .inl h
  · rcases List.infix_cons_iff.mp h with hpre | h
    · rw [hnil hc hpre]
      exact .inl List.nil_infix
    · exact .inr h
  · rw [hnil (fun hmem => hc (List.mem_append_right _ hmem)) hv', List.append_nil]
    exact .inl hv.isInfix

theorem toList_toString (n : Nat) : (toString n).toList = Nat.toDigits 10 n :=
  String.toList_ofList

theorem phrases_plain {phrase : String} (h : phrase ∈ phrases) :
    ']' ∉ phrase.toList ∧ ':' ∉ phrase.toList ∧
      ∃ c cs, phrase.toList = c :: cs ∧ c ≠ ' ' ∧ c ≠ '[' ∧ isDigit c = false := by
  unfold phrases at h
  simp only [List.mem_cons, List.not_mem_nil, or_false] at h
  rcases h with rfl | rfl | rfl | rfl | rfl
  all_goals exact ⟨by decide, by decide, _, _, rfl, by decide, by decide, by decide⟩

variable {lib : KafkaGo} {e : Transient}

theorem protocolText_toList :
    (lib.protocolText e).toList = ('[' :: Nat.toDigits 10 (lib.code e)) ++
      ']' :: ((' ' :: e.title.toList) ++ ':' :: ' ' :: (lib.description e).toList) := by
  unfold KafkaGo.protocolText
  simp only [String.toList_append, toList_toString]
  simp

/-- An error of the protocol is recognised by its title or by its description. -/
theorem isRetriable_protocol : isRetriable (lib.protocolText e) = true ↔
    isRetriable e.title = true ∨ isRetriable (lib.description e) = true := by
  have hspace {phrase : String} (h : phrase ∈ phrases) {cs : List Char}
      (hin : phrase.toList <:+: ' ' :: cs) : phrase.toList <:+: cs := by
    obtain ⟨-, -, c, cs', heq, hc, -, -⟩ := phrases_plain h
    rcases List.infix_cons_iff.mp hin with hpre | h
    · rw [heq] at hpre
      exact absurd (List.cons_prefix_cons.mp hpre).1 hc
    · exact h
  simp only [isRetriable_iff, protocolText_toList]
  constructor
  · rintro ⟨phrase, hmem, hin⟩
    obtain ⟨hbracket, hcolon, c, cs, heq, -, hc, hdigit⟩ := phrases_plain hmem
    rcases infix_separated hbracket hin with h | h
    · -- The code has no letter.
      have hcode : c ∈ '[' :: Nat.toDigits 10 (lib.code e) :=
        h.subset (heq ▸ List.mem_cons_self)
      rcases List.mem_cons.mp hcode with rfl | h
      · exact absurd rfl hc
      · exact absurd (JsonLemmas.isDigit_of_mem h) (by simp [hdigit])
    · rcases infix_separated hcolon h with h | h
      · exact .inl ⟨phrase, hmem, hspace hmem h⟩
      · exact .inr ⟨phrase, hmem, hspace hmem h⟩
  · rintro (⟨phrase, hmem, h⟩ | ⟨phrase, hmem, h⟩)
    · refine ⟨phrase, hmem, h.trans ⟨_, _, (?_ :
        ('[' :: Nat.toDigits 10 (lib.code e) ++ [']', ' ']) ++ e.title.toList ++
          (':' :: ' ' :: (lib.description e).toList) = _)⟩⟩
      simp
    · refine ⟨phrase, hmem, h.trans (List.IsSuffix.isInfix ⟨_, (?_ :
        ('[' :: Nat.toDigits 10 (lib.code e) ++ ']' :: ' ' :: e.title.toList ++ [':', ' ']) ++
          (lib.description e).toList = _)⟩)⟩
      simp

/-- `WriteErrors` is never recognised: its text counts the messages and names no error. -/
theorem not_isRetriable_writeErrors (failed total : Nat) :
    isRetriable (writeErrorsText failed total) = false := by
  have hletter {phrase : String} (h : phrase ∈ phrases) :
      ∃ c ∈ phrase.toList, c ∉ "kafka write errors (/)".toList ∧ isDigit c = false := by
    unfold phrases at h
    simp only [List.mem_cons, List.not_mem_nil, or_false] at h
    rcases h with rfl | rfl | rfl | rfl | rfl
    · exact ⟨'U', by decide⟩
    · exact ⟨'L', by decide⟩
    · exact ⟨'N', by decide⟩
    · exact ⟨'m', by decide⟩
    · exact ⟨'n', by decide⟩
  refine Bool.eq_false_iff.mpr fun h => ?_
  obtain ⟨phrase, hmem, hphrase⟩ := isRetriable_iff.mp h
  obtain ⟨c, hc, htext, hdigit⟩ := hletter hmem
  have hin : c ∈ (writeErrorsText failed total).toList := hphrase.subset hc
  unfold writeErrorsText at hin
  simp only [String.toList_append, toList_toString, List.mem_append] at hin
  have hfixed {s : String} (hs : s.toList ⊆ "kafka write errors (/)".toList) : c ∉ s.toList :=
    fun h => htext (hs h)
  have hcount {n : Nat} : c ∉ Nat.toDigits 10 n := fun h =>
    absurd (JsonLemmas.isDigit_of_mem h) (by simp [hdigit])
  rcases hin with (((h | h) | h) | h) | h
  · exact hfixed (by decide) h
  · exact hcount h
  · exact hfixed (by decide) h
  · exact hcount h
  · exact hfixed (by decide) h

/-- The library's own descriptions of the two errors of the network do not have one of
the phrases. -/
def KafkaGo.Plain (lib : KafkaGo) : Prop :=
  isRetriable (lib.description .requestTimedOut) = false ∧
    isRetriable (lib.description .networkException) = false

/-- The errors whose titles `isRetriable` looks for. -/
def Outcome.named : Outcome → Bool
  | protocol e => e ∈ [.unknownTopicOrPartition, .leaderNotAvailable, .notLeaderForPartition]
  | _ => false

/-- The phrases have the case of the first three titles only. -/
theorem isRetriable_title : isRetriable e.title = (Outcome.protocol e).named := by
  cases e <;> decide

theorem retriable_iff (hlib : lib.Plain) {o : Outcome} (h : o.transient = true) :
    o.retriable lib = true ↔ o.named = true := by
  unfold Outcome.retriable
  cases o with
  | accepted => exact absurd h Bool.false_ne_true
  | other => exact absurd h Bool.false_ne_true
  | writeErrors e failed total =>
    simp [Outcome.answer, Outcome.named, not_isRetriable_writeErrors]
  | protocol e =>
    simp only [Outcome.answer, isRetriable_protocol, isRetriable_title]
    cases e with
    | requestTimedOut => simp [Outcome.named, hlib.1]
    | networkException => simp [Outcome.named, hlib.2]
    | _ => simp [Outcome.named]

/-! ## 2. Runs -/

variable {outcomes : Nat → Outcome} {clock : Instant}

/-- What `publish` returns when it goes no further after an outcome. -/
def Outcome.result (lib : KafkaGo) (o : Outcome) : Except Err Unit :=
  match o.answer lib with
  | .ok () => .ok ()
  | .error message => .error (.wrap "write message" (.driver message))

theorem result_eq_ok {o : Outcome} : o.result lib = .ok () ↔ o = .accepted := by
  cases o <;> simp [Outcome.result, Outcome.answer]

/-- One round of the loop, when its outcome is retried. -/
theorem writeLoop_retried {m : Message} {rounds writes : Nat} {lastErr : Option String}
    (h : (outcomes writes).retriable lib = true) :
    ∃ message, (writeLoop m (rounds + 1) lastErr).run (alone lib outcomes clock) writes =
      (writeLoop m rounds (some message)).run (alone lib outcomes clock) (writes + 1) := by
  unfold Outcome.retriable at h
  split at h
  · exact absurd h Bool.false_ne_true
  next message hanswer =>
    refine ⟨message, ?_⟩
    rw [writeLoop, writeMessages, Prog.perform_bind, Prog.run_op, alone, hanswer]
    simp only [h]
    rfl

/-- One round of the loop, when its outcome ends it. -/
theorem writeLoop_stopped {m : Message} {rounds writes : Nat} {lastErr : Option String}
    (h : (outcomes writes).retriable lib = false) :
    (writeLoop m (rounds + 1) lastErr).run (alone lib outcomes clock) writes =
      ((outcomes writes).result lib, writes + 1) := by
  unfold Outcome.retriable at h
  unfold Outcome.result
  rw [writeLoop, writeMessages, Prog.perform_bind, Prog.run_op, alone]
  split at h
  next hanswer => rw [hanswer]; rfl
  next message hanswer =>
    rw [hanswer]
    simp only [h]
    rfl

theorem writeLoop_stops {m : Message} {k rounds writes : Nat} {lastErr : Option String}
    (hk : k < rounds) (hbefore : ∀ j < k, (outcomes (writes + j)).retriable lib = true)
    (hstop : (outcomes (writes + k)).retriable lib = false) :
    (writeLoop m rounds lastErr).run (alone lib outcomes clock) writes =
      ((outcomes (writes + k)).result lib, writes + k + 1) := by
  induction k generalizing rounds writes lastErr with
  | zero =>
    obtain ⟨rounds, rfl⟩ := Nat.exists_eq_succ_of_ne_zero (Nat.ne_zero_of_lt hk)
    exact writeLoop_stopped hstop
  | succ k ih =>
    obtain ⟨rounds, rfl⟩ := Nat.exists_eq_succ_of_ne_zero (Nat.ne_zero_of_lt hk)
    have hshift (j : Nat) : writes + 1 + j = writes + (j + 1) := by
      rw [Nat.add_assoc, Nat.add_comm 1 j]
    have hfirst : (outcomes writes).retriable lib = true := hbefore 0 (Nat.succ_pos k)
    obtain ⟨message, hround⟩ := writeLoop_retried hfirst
    rw [hround, ih (Nat.lt_of_succ_lt_succ hk), hshift]
    · intro j hj
      rw [hshift]
      exact hbefore (j + 1) (Nat.succ_lt_succ hj)
    · rw [hshift]
      exact hstop

theorem writeLoop_exhausted {m : Message} {rounds writes : Nat} {lastErr : Option String}
    (hall : ∀ j < rounds, (outcomes (writes + j)).retriable lib = true) :
    ∃ last, (writeLoop m rounds lastErr).run (alone lib outcomes clock) writes =
      (.error (retriesExhausted last), writes + rounds) := by
  induction rounds generalizing writes lastErr with
  | zero => exact ⟨lastErr, rfl⟩
  | succ rounds ih =>
    have hshift (j : Nat) : writes + 1 + j = writes + (j + 1) := by
      rw [Nat.add_assoc, Nat.add_comm 1 j]
    have hfirst : (outcomes writes).retriable lib = true := hall 0 (Nat.succ_pos rounds)
    obtain ⟨message, hround⟩ := writeLoop_retried hfirst
    rw [hround, ← Nat.add_assoc, Nat.add_right_comm]
    refine ih fun j hj => ?_
    rw [hshift]
    exact hall (j + 1) (Nat.succ_lt_succ hj)

/-- A call of `publish`, alone: what it returns, and how many times it wrote. -/
def published (lib : KafkaGo) (outcomes : Nat → Outcome) (clock : Instant)
    (eventType deviceID deviceName : String) (timestamp : ZonedTime) : Except Err Unit × Nat :=
  (publish eventType deviceID deviceName timestamp).run (alone lib outcomes clock) 0

variable {eventType deviceID deviceName : String} {timestamp : ZonedTime}

/-- `publish` ends with the first outcome that it does not retry. -/
theorem publish_stops {k : Nat} (hk : k < 3) (hbefore : ∀ j < k, (outcomes j).retriable lib = true)
    (hstop : (outcomes k).retriable lib = false) :
    published lib outcomes clock eventType deviceID deviceName timestamp =
      ((outcomes k).result lib, k + 1) := by
  have hshift (j : Nat) : outcomes (0 + j) = outcomes j := congrArg outcomes (Nat.zero_add j)
  calc published lib outcomes clock eventType deviceID deviceName timestamp
      = ((outcomes (0 + k)).result lib, 0 + k + 1) :=
        writeLoop_stops hk (by simpa only [hshift] using hbefore) (by rwa [hshift])
    _ = ((outcomes k).result lib, k + 1) := by rw [Nat.zero_add]

/-- Three outcomes that it retries are the end of it. -/
theorem publish_exhausted (hall : ∀ j < 3, (outcomes j).retriable lib = true) :
    ∃ last, published lib outcomes clock eventType deviceID deviceName timestamp =
      (.error (retriesExhausted last), 3) := by
  have hall' : ∀ j < maxRetries, (outcomes (0 + j)).retriable lib = true := by
    intro j hj
    rw [Nat.zero_add]
    exact hall j hj
  exact writeLoop_exhausted hall'

/-- Among the first three outcomes there is a first one that is not retried, or none. -/
theorem stops_or_exhausted (lib : KafkaGo) (outcomes : Nat → Outcome) :
    (∃ k < 3, (∀ j < k, (outcomes j).retriable lib = true) ∧
      (outcomes k).retriable lib = false) ∨ ∀ j < 3, (outcomes j).retriable lib = true := by
  by_cases hsome : ∃ k, k < 3 ∧ (outcomes k).retriable lib = false
  · obtain ⟨hk, hstop⟩ := Nat.find_spec hsome
    refine .inl ⟨Nat.find hsome, hk, fun j hj => ?_, hstop⟩
    by_contra hnot
    exact Nat.find_min hsome hj ⟨hj.trans hk, Bool.eq_false_iff.mpr hnot⟩
  · refine .inr fun j hj => ?_
    by_contra hnot
    exact hsome ⟨j, hj, Bool.eq_false_iff.mpr hnot⟩

/-! ## 3. The law -/

theorem retriable_of_accepted {k : Nat} (h : outcomes k = .accepted) :
    (outcomes k).retriable lib = false := by
  rw [h]
  rfl

/-- A call that ends with an outcome that it does not retry. -/
theorem retried_of_stops {k : Nat} (hk : k < 3)
    (hbefore : ∀ j < k, (outcomes j).retriable lib = true)
    (hstop : (outcomes k).retriable lib = false)
    (hdecides : ∀ i < 2, (∀ j < i, (outcomes j).retriable lib = true) →
      (outcomes i).transient = true → (outcomes i).retriable lib = true) :
    Retried outcomes ((outcomes k).result lib) (k + 1) := by
  have hle {i : Nat} (h : (outcomes i).retriable lib = false) : k ≤ i := by
    by_contra hlt
    rw [hbefore i (Nat.lt_of_not_le hlt)] at h
    exact Bool.noConfusion h
  refine ⟨hk, fun i hi => Nat.succ_le_succ (hle (retriable_of_accepted hi)), ?_, ?_⟩
  · intro i hi hlt _
    obtain rfl : k = i := Nat.succ.inj hi
    by_contra htransient
    rw [Bool.not_eq_false] at htransient
    rw [hdecides k (Nat.lt_of_succ_lt_succ hlt) hbefore htransient] at hstop
    exact Bool.noConfusion hstop
  · intro i hi haccepted htransient
    have hik : i ≤ k := by
      by_contra hlt
      have hlt : k < i := Nat.lt_of_not_le hlt
      rw [hdecides k (hlt.trans_le (Nat.le_of_lt_succ hi)) hbefore (htransient k hlt)] at hstop
      exact Bool.noConfusion hstop
    obtain rfl : k = i := Nat.le_antisymm (hle (retriable_of_accepted haccepted)) hik
    exact result_eq_ok.mpr haccepted

/-- A call that retries three times. -/
theorem retried_of_exhausted (hall : ∀ j < 3, (outcomes j).retriable lib = true) {e : Err} :
    Retried outcomes (.error e) 3 := by
  have hnot {k : Nat} (hk : k < 3) : outcomes k ≠ .accepted := by
    intro h
    exact Bool.false_ne_true ((retriable_of_accepted h).symm.trans (hall k hk))
  refine ⟨Nat.le_refl 3, fun k hk => ?_, fun k hk hlt => ?_, fun k hk h => absurd h (hnot hk)⟩
  · by_contra hlt
    exact hnot (Nat.lt_of_succ_lt (Nat.lt_of_not_le hlt)) hk
  · exact absurd hlt (hk ▸ Nat.lt_irrefl 3)

/-- A call that ends early ends with an outcome that is not transient, if and only if
those that decide are retried whenever they are. -/
theorem retried_iff_retriable :
    Retried outcomes (published lib outcomes clock eventType deviceID deviceName timestamp).1
        (published lib outcomes clock eventType deviceID deviceName timestamp).2 ↔
      ∀ k < 2, (∀ j < k, (outcomes j).retriable lib = true) → (outcomes k).transient = true →
        (outcomes k).retriable lib = true := by
  constructor
  · intro hretried k hk hbefore htransient
    by_contra hstop
    have hrun : published lib outcomes clock eventType deviceID deviceName timestamp =
        ((outcomes k).result lib, k + 1) :=
      publish_stops (Nat.lt_succ_of_lt hk) hbefore (Bool.eq_false_iff.mpr hstop)
    have hne : (outcomes k).result lib ≠ .ok () := by
      intro hok
      rw [result_eq_ok.mp hok] at htransient
      exact Bool.false_ne_true htransient
    rw [hrun] at hretried
    rw [hretried.early k rfl (Nat.succ_lt_succ hk) hne] at htransient
    exact Bool.false_ne_true htransient
  · intro hdecides
    rcases stops_or_exhausted lib outcomes with ⟨k, hk, hbefore, hstop⟩ | hall
    · rw [publish_stops hk hbefore hstop]
      exact retried_of_stops hk hbefore hstop hdecides
    · obtain ⟨last, hrun⟩ : ∃ last, published lib outcomes clock eventType deviceID deviceName
          timestamp = (.error (retriesExhausted last), 3) := publish_exhausted hall
      rw [hrun]
      exact retried_of_exhausted hall

/-- `publish` retries the transient errors exactly when those that could end it early,
its first outcome, and its second one after a retry, are among the three whose titles
`isRetriable` knows. -/
theorem retried_iff (hlib : lib.Plain) :
    Retried outcomes (published lib outcomes clock eventType deviceID deviceName timestamp).1
        (published lib outcomes clock eventType deviceID deviceName timestamp).2 ↔
      ∀ k < 2, (∀ j < k, (outcomes j).retriable lib = true) → (outcomes k).transient = true →
        (outcomes k).named = true := by
  rw [retried_iff_retriable]
  refine forall₂_congr fun k _ => forall_congr' fun _ => forall_congr' fun h => ?_
  exact retriable_iff hlib h

/-- The texts of kafka-go. -/
def kafkaGo : KafkaGo where
  code
    | .unknownTopicOrPartition => 3
    | .leaderNotAvailable => 5
    | .notLeaderForPartition => 6
    | .requestTimedOut => 7
    | .networkException => 13
  description
    | .unknownTopicOrPartition =>
      "the request is for a topic or partition that does not exist on this broker"
    | .leaderNotAvailable =>
      "the cluster is in the middle of a leadership election and there is currently no leader " ++
        "for this partition and hence it is unavailable for writes"
    | .notLeaderForPartition =>
      "the client attempted to send messages to a replica that is not the leader for some " ++
        "partition, the client's metadata are likely out of date"
    | .requestTimedOut => "the request exceeded the user-specified time limit in the request"
    | .networkException => "the server disconnected before a response was received"

theorem kafkaGo_plain : kafkaGo.Plain := by
  constructor <;> decide +kernel

/-- One error, and then a broker that takes the message. -/
def once (o : Outcome) : Nat → Outcome
  | 0 => o
  | _ + 1 => .accepted

/-- A call of `publish` whose first write has that outcome. -/
def publishedOnce (o : Outcome) : Except Err Unit × Nat :=
  published kafkaGo (once o) 0 "device.created" "d" "n" (.utc 0)

theorem retried_leaderNotAvailable :
    Retried (once (.protocol .leaderNotAvailable)) (publishedOnce (.protocol .leaderNotAvailable)).1
      (publishedOnce (.protocol .leaderNotAvailable)).2 := by
  refine (retried_iff kafkaGo_plain).mpr fun k _ _ htransient => ?_
  cases k with
  | zero => rfl
  | succ k => exact absurd htransient Bool.false_ne_true

/-- A request that timed out is written once, and the event is lost, although the broker
would have taken the second write. -/
theorem requestTimedOut_not_retried :
    (publishedOnce (.protocol .requestTimedOut)).2 = 1 ∧
      ¬ Retried (once (.protocol .requestTimedOut)) (publishedOnce (.protocol .requestTimedOut)).1
        (publishedOnce (.protocol .requestTimedOut)).2 := by
  have hrun : publishedOnce (.protocol .requestTimedOut) =
      ((Outcome.protocol .requestTimedOut).result kafkaGo, 1) :=
    publish_stops (k := 0) (Nat.succ_pos 2) (fun j hj => absurd hj (Nat.not_lt_zero j)) <|
      Bool.eq_false_iff.mpr fun h =>
        Bool.false_ne_true ((retriable_iff kafkaGo_plain rfl).mp h)
  rw [hrun]
  refine ⟨rfl, fun h => ?_⟩
  exact Bool.noConfusion (h.early 0 rfl (Nat.one_lt_succ_succ 1) nofun)

end AssetTracker.GoService.Retries
