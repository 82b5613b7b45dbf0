import AssetTracker.Lib.Decoder

/-!
# The first value of a stream

What a reader takes of a text it reads in the same way when something else follows,
unless what follows prolongs it. Only a number can be prolonged.

Results:
1. `read_takes`: what the readers take they read in the same way in front of other texts.
2. `firstValue_iff`: the texts that are no value but begin with one.
3. `decodeStrings_trailing`: the bodies that are no value and are decoded all the same.
-/

namespace Encoding

open Text

/-! ## Definitions -/

/-- `t` does not prolong what ended before `r`: it is empty, or it begins as `r` does. -/
def Ends (r t : List Char) : Prop := t = [] ∨ t.head? = r.head?

/-- The reader takes a part of `cs`, up to `r`, which it reads in the same way in front of
every text that is `ok`. -/
def Takes {α : Type} (read : List Char → Option (α × List Char)) (cs : List Char) (x : α)
    (r : List Char) (ok : List Char → Prop) : Prop :=
  ∃ p, cs = p ++ r ∧ ∀ t, ok t → read (p ++ t) = some (x, t)

/-- A value whose text shows where it ends. -/
def Json.Closed (v : Json) : Prop := ∀ d, v ≠ .num d

/-! ## 1. What the readers take -/

namespace StreamLemmas

theorem ends_append {r t : List Char} (h : Ends r t) (p : List Char) : Ends (p ++ r) (p ++ t) := by
  cases p with
  | nil => exact h
  | cons c p => exact .inr rfl

/-- What does not begin with `c` before, does not now. -/
theorem ends_ne {r t : List Char} {c : Char} (h : Ends r t) (hne : ∀ cs, r = c :: cs → False) :
    ∀ cs, t = c :: cs → False := by
  rintro cs rfl
  rcases h with h | h
  · cases h
  · obtain ⟨r', hr⟩ := List.head?_eq_some_iff.mp h.symm
    exact hne r' hr

theorem span_takes {q : Char → Bool} {cs ds r : List Char} (h : cs.span q = (ds, r)) :
    cs = ds ++ r ∧ ∀ t, Ends r t → (ds ++ t).span q = (ds, t) := by
  simp only [List.span_eq_takeWhile_dropWhile, Prod.mk.injEq] at h ⊢
  obtain ⟨rfl, rfl⟩ := h
  have hall : ∀ c ∈ cs.takeWhile q, q c = true := fun c hc => List.mem_takeWhile_imp hc
  refine ⟨List.takeWhile_append_dropWhile.symm, fun t ht => ?_⟩
  rw [List.takeWhile_append_of_pos hall, List.dropWhile_append_of_pos hall]
  cases t with
  | nil => simp
  | cons c t =>
    -- The first character after the span is the same, and it is not in it.
    have hc : q c = false := by
      have hhead := List.head?_dropWhile_not q cs
      rcases ht with ht | ht
      · cases ht
      · rw [← ht] at hhead
        simpa using hhead
    simp [hc]

theorem skipWs_takes (cs : List Char) :
    ∃ w, cs = w ++ skipWs cs ∧ ∀ t, skipWs (w ++ t) = skipWs t := by
  let space (c : Char) : Bool := c == ' ' || c == '\t' || c == '\n' || c == '\r'
  refine ⟨cs.takeWhile space, List.takeWhile_append_dropWhile.symm, fun t => ?_⟩
  exact List.dropWhile_append_of_pos fun c hc => (List.mem_takeWhile_imp hc : space c = true)

theorem skipWs_skipWs (cs : List Char) : skipWs (skipWs cs) = skipWs cs := by
  obtain ⟨w, heq, hskip⟩ := skipWs_takes cs
  rw [← hskip (skipWs cs), ← heq]

/-- White space before a character that is none. -/
theorem skipWs_takes_cons {cs r : List Char} {c : Char} (h : skipWs cs = c :: r) :
    ∃ w, cs = w ++ c :: r ∧ ∀ t, skipWs (w ++ c :: t) = c :: t := by
  obtain ⟨w, heq, hskip⟩ := skipWs_takes cs
  have hc : (c == ' ' || c == '\t' || c == '\n' || c == '\r') = false := by
    have hhead := List.head?_dropWhile_not
      (fun c => c == ' ' || c == '\t' || c == '\n' || c == '\r') cs
    rw [show cs.dropWhile _ = c :: r from h] at hhead
    simpa using hhead
  rw [h] at heq
  exact ⟨w, heq, fun t => by rw [hskip, JsonLemmas.skipWs_cons hc]⟩

theorem readString_prepend {us s : JsString} {p cs r : List Char}
    (hp : ∀ t, readString (p ++ t) = consUnits us (readString t))
    (ih : ∀ {s}, readString cs = some (s, r) → Takes readString cs s r fun _ => True)
    (h : consUnits us (readString cs) = some (s, r)) :
    Takes readString (p ++ cs) s r fun _ => True := by
  obtain ⟨s', hs'⟩ := JsonLemmas.consUnits_some h
  obtain ⟨q, rfl, hq⟩ := ih hs'
  refine ⟨p ++ q, (List.append_assoc ..).symm, fun t _ => ?_⟩
  rw [hs'] at h
  rw [List.append_assoc, hp, hq t trivial]
  cases h
  rfl

theorem readString_takes {cs r : List Char} {s : JsString} (h : readString cs = some (s, r)) :
    Takes readString cs s r fun _ => True := by
  fun_induction readString cs generalizing s with
  | case1 cs =>
    cases h
    exact ⟨['\x22'], rfl, fun t _ => by simp [readString]⟩
  | case2 a b c d cs u hu ih =>
    exact readString_prepend (p := ['\\', 'u', a, b, c, d])
      (fun t => JsonLemmas.readString_unit hu) ih h
  | case3 => cases h
  | case4 e cs _ u hu ih =>
    exact readString_prepend (p := ['\\', e]) (fun t => JsonLemmas.readString_escaped hu) ih h
  | case5 => cases h
  | case6 => cases h
  | case7 c cs hq _ _ hc ih =>
    rw [not_or] at hc
    exact readString_prepend (p := [c]) (fun t => JsonLemmas.readString_raw hq hc.2 hc.1) ih h
  | case8 => cases h

/-! Numbers -/

theorem readInt_takes {cs ds r : List Char} (h : readInt cs = some (ds, r)) :
    Takes readInt cs ds r (Ends r) := by
  unfold readInt at h
  split at h
  · cases h
  · next ds' r' hs =>
    -- After a zero there are no more digits.
    cases h
    obtain ⟨rfl, -⟩ := span_takes hs
    refine ⟨['0'], rfl, fun t _ => ?_⟩
    have hzero : isDigit '0' = true := by decide
    unfold readInt
    rw [List.span_eq_takeWhile_dropWhile, List.singleton_append,
      List.takeWhile_cons_of_pos hzero]
    rfl
  · next ds' r' hne hzero hs =>
    cases h
    obtain ⟨rfl, hspan⟩ := span_takes hs
    refine ⟨ds, rfl, fun t ht => ?_⟩
    simp only [readInt, hspan t ht]

theorem readFraction_takes {cs ds r : List Char} (h : readFraction cs = some (ds, r)) :
    Takes readFraction cs ds r (Ends r) := by
  unfold readFraction at h
  split at h
  · next cs' =>
    split at h
    · cases h
    · next hne hs =>
      cases h
      obtain ⟨rfl, hspan⟩ := span_takes hs
      refine ⟨'.' :: ds, rfl, fun t ht => ?_⟩
      simp only [List.cons_append, readFraction, hspan t ht]
  · next hne =>
    cases h
    refine ⟨[], rfl, fun t ht => ?_⟩
    rw [List.nil_append]
    rcases ht with rfl | ht
    · rfl
    · exact readFraction.eq_2 t (ends_ne (.inr ht) hne)

theorem readExponentDigits_takes {negative : Bool} {cs r : List Char} {e : Int}
    (h : readExponentDigits negative cs = some (e, r)) :
    Takes (readExponentDigits negative) cs e r (Ends r) := by
  unfold readExponentDigits at h
  split at h
  · cases h
  · next ds r' hne hs =>
    cases h
    obtain ⟨rfl, hspan⟩ := span_takes hs
    refine ⟨ds, rfl, fun t ht => ?_⟩
    simp only [readExponentDigits, hspan t ht]

theorem readExponent_takes {cs r : List Char} {e : Int} (h : readExponent cs = some (e, r)) :
    Takes readExponent cs e r (Ends r) := by
  unfold readExponent at h
  split at h
  · next c cs' =>
    split at h
    · next hc =>
      split at h
      · obtain ⟨p, rfl, hp⟩ := readExponentDigits_takes h
        refine ⟨c :: '-' :: p, rfl, fun t ht => ?_⟩
        simp only [List.cons_append, readExponent, if_pos hc]
        exact hp t ht
      · obtain ⟨p, rfl, hp⟩ := readExponentDigits_takes h
        refine ⟨c :: '+' :: p, rfl, fun t ht => ?_⟩
        simp only [List.cons_append, readExponent, if_pos hc]
        exact hp t ht
      · next hminus hplus =>
        obtain ⟨p, rfl, hp⟩ := readExponentDigits_takes h
        refine ⟨c :: p, rfl, fun t ht => ?_⟩
        have ht' := ends_append ht p
        rw [List.cons_append, readExponent.eq_3, if_pos hc]
        · exact hp t ht
        · exact ends_ne ht' hminus
        · exact ends_ne ht' hplus
    · next hc =>
      cases h
      refine ⟨[], rfl, fun t ht => ?_⟩
      rw [List.nil_append]
      rcases ht with rfl | ht
      · rfl
      · obtain ⟨t', rfl⟩ := List.head?_eq_some_iff.mp ht
        simp only [readExponent, if_neg hc]
  · cases h
    refine ⟨[], rfl, fun t ht => ?_⟩
    rcases ht with rfl | ht
    · rfl
    · rw [List.head?_eq_none_iff.mp ht]
      rfl

theorem readUnsigned_takes {negative : Bool} {cs r : List Char} {d : Decimal}
    (h : readUnsigned negative cs = some (d, r)) :
    Takes (readUnsigned negative) cs d r (Ends r) := by
  unfold readUnsigned at h
  simp only [Option.bind_eq_bind, Option.bind_eq_some_iff, Option.pure_def, Option.some.injEq,
    Prod.mk.injEq, Prod.exists] at h
  obtain ⟨int, cs₁, h₁, frac, cs₂, h₂, e, cs₃, h₃, rfl, rfl⟩ := h
  obtain ⟨p₁, rfl, hp₁⟩ := readInt_takes h₁
  obtain ⟨p₂, rfl, hp₂⟩ := readFraction_takes h₂
  obtain ⟨p₃, rfl, hp₃⟩ := readExponent_takes h₃
  refine ⟨p₁ ++ (p₂ ++ p₃), by simp, fun t ht => ?_⟩
  have hexponent := hp₃ t ht
  have hfraction := hp₂ _ (ends_append ht p₃)
  have hint := hp₁ _ (ends_append (ends_append ht p₃) p₂)
  simp only [List.append_assoc, readUnsigned, hint, hfraction, hexponent, Option.bind_eq_bind,
    Option.bind_some, Option.pure_def]

theorem readNumber_takes {cs r : List Char} {d : Decimal} (h : readNumber cs = some (d, r)) :
    Takes readNumber cs d r (Ends r) := by
  unfold readNumber at h
  split at h
  · obtain ⟨p, rfl, hp⟩ := readUnsigned_takes h
    exact ⟨'-' :: p, rfl, hp⟩
  · next hne =>
    obtain ⟨p, rfl, hp⟩ := readUnsigned_takes h
    refine ⟨p, rfl, fun t ht => ?_⟩
    rw [readNumber.eq_2 _ (ends_ne (ends_append ht p) hne)]
    exact hp t ht

/-! Values -/

variable {n : Nat}

theorem readValue_congr {cs cs' : List Char} (h : skipWs cs = skipWs cs') :
    readValue (n + 1) cs = readValue (n + 1) cs' := by
  simp only [readValue, h]

/-- A reader that shortens its text takes at least one character. -/
theorem takes_cons {α : Type} {read : List Char → Option (α × List Char)} {cs r : List Char}
    {x : α} {ok : List Char → Prop} (h : Takes read cs x r ok) (hshort : r.length < cs.length) :
    ∃ c p, cs = c :: (p ++ r) ∧ ∀ t, ok t → read (c :: (p ++ t)) = some (x, t) := by
  obtain ⟨p, rfl, hp⟩ := h
  cases p with
  | nil => exact absurd hshort (Nat.lt_irrefl _)
  | cons c p => exact ⟨c, p, rfl, hp⟩

theorem readValue_array (cs : List Char) : readValue (n + 1) ('[' :: cs) =
    if (skipWs cs).head? = some ']' then some (.arr [], (skipWs cs).tail)
    else (readElements n (skipWs cs)).map fun (vs, cs) => (.arr vs, cs) := by
  rw [readValue, JsonLemmas.skipWs_cons (by decide)]
  simp only
  split
  · next heq => simp [heq]
  · next hne =>
    refine (if_neg fun hhead => ?_).symm
    obtain ⟨r, hr⟩ := List.head?_eq_some_iff.mp hhead
    exact hne r hr

theorem readValue_object (cs : List Char) : readValue (n + 1) ('\x7b' :: cs) =
    if (skipWs cs).head? = some '\x7d' then some (.obj [], (skipWs cs).tail)
    else (readMembers n (skipWs cs)).map fun (ms, cs) => (.obj ms, cs) := by
  rw [readValue, JsonLemmas.skipWs_cons (by decide)]
  simp only
  split
  · next heq => simp [heq]
  · next hne =>
    refine (if_neg fun hhead => ?_).symm
    obtain ⟨r, hr⟩ := List.head?_eq_some_iff.mp hhead
    exact hne r hr

/-- What is read between brackets: white space, and then nothing, or what `read` takes. -/
theorem bracket_takes {α : Type} {read : List Char → Option (α × List Char)} {close : Char}
    {value : List Char → Option (Json × List Char)} {empty v : Json} {wrap : α → Json}
    {cs r : List Char}
    (hvalue : ∀ cs, value cs = if (skipWs cs).head? = some close then
      some (empty, (skipWs cs).tail) else (read (skipWs cs)).map fun (x, cs) => (wrap x, cs))
    (hread : ∀ {cs x r}, read cs = some (x, r) → Takes read cs x r fun _ => True)
    (hshort : ∀ {cs x r}, read cs = some (x, r) → r.length < cs.length)
    (h : value cs = some (v, r)) : Takes value cs v r fun _ => True := by
  rw [hvalue] at h
  split at h
  · next hhead =>
    cases h
    obtain ⟨r, hcs⟩ := List.head?_eq_some_iff.mp hhead
    rw [hcs, List.tail_cons]
    obtain ⟨w, rfl, hskip⟩ := skipWs_takes_cons hcs
    refine ⟨w ++ [close], by simp, fun t _ => ?_⟩
    rw [List.append_assoc, List.singleton_append, hvalue, hskip, List.head?_cons, if_pos rfl,
      List.tail_cons]
  · next hhead =>
    obtain ⟨⟨x, r'⟩, hx, heq⟩ := Option.map_eq_some_iff.mp h
    cases heq
    obtain ⟨c, p, hcs, htakes⟩ := takes_cons (hread hx) (hshort hx)
    rw [hcs, List.head?_cons] at hhead
    obtain ⟨w, rfl, hskip⟩ := skipWs_takes_cons hcs
    refine ⟨w ++ c :: p, by simp, fun t _ => ?_⟩
    rw [List.append_assoc, List.cons_append, hvalue, hskip, List.head?_cons, if_neg hhead,
      htakes t trivial]
    rfl

theorem readNumber_head {cs r : List Char} {d : Decimal} (h : readNumber cs = some (d, r)) :
    ∃ c cs', cs = c :: cs' ∧ (c = '-' ∨ isDigit c = true) := by
  unfold readNumber at h
  split at h
  · exact ⟨_, _, rfl, .inl rfl⟩
  · unfold readUnsigned readInt at h
    cases cs with
    | nil => cases h
    | cons c cs =>
      refine ⟨c, cs, rfl, .inr ?_⟩
      by_contra hc
      rw [List.span_eq_takeWhile_dropWhile, List.takeWhile_cons_of_neg hc] at h
      cases h

/-- A text that begins with a value, without white space before it. -/
theorem readValue_skipped {cs r : List Char} {v : Json}
    (ihe : ∀ {cs vs r}, readElements n cs = some (vs, r) →
      Takes (readElements n) cs vs r fun _ => True)
    (ihm : ∀ {cs ms r}, readMembers n cs = some (ms, r) →
      Takes (readMembers n) cs ms r fun _ => True)
    (hskip : skipWs cs = cs) (h : readValue (n + 1) cs = some (v, r)) :
    Takes (readValue (n + 1)) cs v r fun t => v.Closed ∨ Ends r t := by
  have hread := h
  rw [readValue, hskip] at h
  split at h
  · cases h
    exact ⟨['n', 'u', 'l', 'l'], rfl, fun t _ => rfl⟩
  · cases h
    exact ⟨['t', 'r', 'u', 'e'], rfl, fun t _ => rfl⟩
  · cases h
    exact ⟨['f', 'a', 'l', 's', 'e'], rfl, fun t _ => rfl⟩
  · next cs' =>
    obtain ⟨⟨s, r'⟩, hs, heq⟩ := Option.map_eq_some_iff.mp h
    cases heq
    obtain ⟨p, rfl, hp⟩ := readString_takes hs
    refine ⟨'\x22' :: p, rfl, fun t _ => ?_⟩
    rw [List.cons_append, readValue, JsonLemmas.skipWs_cons (by decide)]
    simp only [hp t trivial, Option.map_some]
  · next cs' =>
    obtain ⟨p, rfl, hp⟩ : Takes (fun cs => readValue (n + 1) ('[' :: cs)) cs' v r fun _ => True :=
      bracket_takes readValue_array ihe (JsonLemmas.read_shorter n).2.1 hread
    exact ⟨'[' :: p, rfl, fun t _ => hp t trivial⟩
  · next cs' =>
    obtain ⟨p, rfl, hp⟩ : Takes (fun cs => readValue (n + 1) ('\x7b' :: cs)) cs' v r fun _ => True :=
      bracket_takes readValue_object ihm (JsonLemmas.read_shorter n).2.2 hread
    exact ⟨'\x7b' :: p, rfl, fun t _ => hp t trivial⟩
  · obtain ⟨⟨d, r'⟩, hd, heq⟩ := Option.map_eq_some_iff.mp h
    cases heq
    obtain ⟨c, cs', rfl, hc⟩ := readNumber_head hd
    obtain ⟨c', p, hp, htakes⟩ := takes_cons (readNumber_takes hd) (JsonLemmas.readNumber_length hd)
    obtain ⟨rfl, rfl⟩ := List.cons.inj hp
    refine ⟨c :: p, rfl, fun t ht => ?_⟩
    have hends : Ends r t := ht.resolve_left fun hclosed => hclosed d rfl
    rw [List.cons_append, JsonLemmas.readValue_number n _ hc, htakes t hends]
    rfl

theorem readValue_takes {cs r : List Char} {v : Json}
    (ihe : ∀ {cs vs r}, readElements n cs = some (vs, r) →
      Takes (readElements n) cs vs r fun _ => True)
    (ihm : ∀ {cs ms r}, readMembers n cs = some (ms, r) →
      Takes (readMembers n) cs ms r fun _ => True)
    (h : readValue (n + 1) cs = some (v, r)) :
    Takes (readValue (n + 1)) cs v r fun t => v.Closed ∨ Ends r t := by
  obtain ⟨w, hw, hskip⟩ := skipWs_takes cs
  rw [readValue_congr (skipWs_skipWs cs).symm] at h
  obtain ⟨p, hp, htakes⟩ := readValue_skipped ihe ihm (skipWs_skipWs cs) h
  refine ⟨w ++ p, by rw [List.append_assoc, ← hp, ← hw], fun t ht => ?_⟩
  rw [List.append_assoc, readValue_congr (hskip (p ++ t)), htakes t ht]

/-- What is read before white space and a mark. -/
theorem takes_mark {α : Type} {read : List Char → Option (α × List Char)} {x : α}
    {cs r r' : List Char} {c : Char} {ok : List Char → Prop} (h : Takes read cs x r ok)
    (hok : ∀ t, Ends r t → ok t) (hc : skipWs r = c :: r') :
    ∃ p, cs = p ++ c :: r' ∧
      ∀ t, ∃ cs', read (p ++ c :: t) = some (x, cs') ∧ skipWs cs' = c :: t := by
  obtain ⟨p, rfl, hp⟩ := h
  obtain ⟨w, rfl, hskip⟩ := skipWs_takes_cons hc
  refine ⟨p ++ w, (List.append_assoc ..).symm, fun t => ⟨w ++ c :: t, ?_, hskip t⟩⟩
  rw [List.append_assoc]
  refine hp _ (hok _ ?_)
  cases w with
  | nil => exact .inr rfl
  | cons d w => exact .inr rfl

theorem readElements_takes {cs r : List Char} {vs : List Json}
    (ihv : ∀ {cs v r}, readValue n cs = some (v, r) →
      Takes (readValue n) cs v r fun t => v.Closed ∨ Ends r t)
    (ihe : ∀ {cs vs r}, readElements n cs = some (vs, r) →
      Takes (readElements n) cs vs r fun _ => True)
    (h : readElements (n + 1) cs = some (vs, r)) :
    Takes (readElements (n + 1)) cs vs r fun _ => True := by
  rw [readElements] at h
  split at h
  · cases h
  · next v cs₁ hv =>
    split at h
    · next cs₂ hc =>
      obtain ⟨p, rfl, hp⟩ := takes_mark (ihv hv) (fun _ => .inr) hc
      obtain ⟨⟨vs', r'⟩, hvs, heq⟩ := Option.map_eq_some_iff.mp h
      cases heq
      obtain ⟨p', rfl, hp'⟩ := ihe hvs
      refine ⟨p ++ ',' :: p', by simp, fun t _ => ?_⟩
      obtain ⟨cs', hread, hskip⟩ := hp (p' ++ t)
      rw [List.append_assoc, List.cons_append, readElements, hread]
      simp only [hskip, hp' t trivial, Option.map_some]
    · next hc =>
      cases h
      obtain ⟨p, rfl, hp⟩ := takes_mark (ihv hv) (fun _ => .inr) hc
      refine ⟨p ++ [']'], by simp, fun t _ => ?_⟩
      obtain ⟨cs', hread, hskip⟩ := hp t
      rw [List.append_assoc, List.singleton_append, readElements, hread]
      simp only [hskip]
    · cases h

theorem readMembers_takes {cs r : List Char} {ms : List (JsString × Json)}
    (ihv : ∀ {cs v r}, readValue n cs = some (v, r) →
      Takes (readValue n) cs v r fun t => v.Closed ∨ Ends r t)
    (ihm : ∀ {cs ms r}, readMembers n cs = some (ms, r) →
      Takes (readMembers n) cs ms r fun _ => True)
    (h : readMembers (n + 1) cs = some (ms, r)) :
    Takes (readMembers (n + 1)) cs ms r fun _ => True := by
  rw [readMembers] at h
  split at h
  · next cs₁ hq =>
    obtain ⟨w, rfl, hw⟩ := skipWs_takes_cons hq
    split at h
    · cases h
    · next k cs₂ hk =>
      split at h
      · next cs₃ hcolon =>
        obtain ⟨q, rfl, hq'⟩ := takes_mark (readString_takes hk) (fun _ _ => trivial) hcolon
        split at h
        · cases h
        · next v cs₄ hv =>
          split at h
          · next cs₅ hc =>
            obtain ⟨p, rfl, hp⟩ := takes_mark (ihv hv) (fun _ => .inr) hc
            obtain ⟨⟨ms', r'⟩, hms, heq⟩ := Option.map_eq_some_iff.mp h
            cases heq
            obtain ⟨p', rfl, hp'⟩ := ihm hms
            refine ⟨w ++ '\x22' :: (q ++ ':' :: (p ++ ',' :: p')), by simp, fun t _ => ?_⟩
            obtain ⟨cs', hread, hskip⟩ := hp (p' ++ t)
            obtain ⟨cs'', hread', hskip'⟩ := hq' (p ++ ',' :: (p' ++ t))
            simp only [List.append_assoc, List.cons_append, readMembers, hw, hread', hskip',
              hread, hskip, hp' t trivial, Option.map_some]
          · next hc =>
            cases h
            obtain ⟨p, rfl, hp⟩ := takes_mark (ihv hv) (fun _ => .inr) hc
            refine ⟨w ++ '\x22' :: (q ++ ':' :: (p ++ ['\x7d'])), by simp, fun t _ => ?_⟩
            obtain ⟨cs', hread, hskip⟩ := hp t
            obtain ⟨cs'', hread', hskip'⟩ := hq' (p ++ '\x7d' :: t)
            simp only [List.append_assoc, List.cons_append, List.nil_append, readMembers, hw,
              hread', hskip', hread, hskip]
          · cases h
      · cases h
  · cases h

end StreamLemmas

open StreamLemmas

/-- What the readers take they read in the same way by itself, and in front of other texts. -/
theorem read_takes (n : Nat) :
    (∀ {cs v r}, readValue n cs = some (v, r) →
      Takes (readValue n) cs v r fun t => v.Closed ∨ Ends r t) ∧
    (∀ {cs vs r}, readElements n cs = some (vs, r) →
      Takes (readElements n) cs vs r fun _ => True) ∧
    (∀ {cs ms r}, readMembers n cs = some (ms, r) →
      Takes (readMembers n) cs ms r fun _ => True) := by
  induction n with
  | zero => refine ⟨fun h => ?_, fun h => ?_, fun h => ?_⟩ <;> cases h
  | succ n ih =>
    obtain ⟨ihv, ihe, ihm⟩ := ih
    exact ⟨readValue_takes ihe ihm, readElements_takes ihv ihe, readMembers_takes ihv ihm⟩

/-! ## 2. The first value -/

theorem firstValue_eq_some {s : String} {v : Json} :
    firstValue s = some v ↔ ∃ r, readValue (2 * s.toList.length + 1) s.toList = some (v, r) := by
  unfold firstValue
  rw [Option.map_eq_some_iff]
  constructor
  · rintro ⟨⟨v', r⟩, hread, rfl⟩
    exact ⟨r, hread⟩
  · rintro ⟨r, hread⟩
    exact ⟨_, hread, rfl⟩

/-- What follows a text of a value is white space, or it makes the whole text no text
of a value. -/
theorem parse_of_readValue {s : String} {v : Json} {r : List Char}
    (h : readValue (2 * s.toList.length + 1) s.toList = some (v, r)) :
    parse s = none ↔ skipWs r ≠ [] := by
  unfold parse
  rw [h]
  dsimp only
  split
  · next hr => exact iff_of_false (fun h => nomatch h) (fun h => h hr)
  · next hr => exact iff_of_true rfl hr

/-- The texts that are not the text of one value but begin with the value `v`, no number:
those in which something other than white space follows a text of `v`. -/
theorem firstValue_iff {s : String} {v : Json} (hv : v.Closed) :
    firstValue s = some v ∧ parse s = none ↔
      ∃ p rest, s = p ++ rest ∧ parse p = some v ∧ skipWs rest.toList ≠ [] := by
  rw [firstValue_eq_some]
  constructor
  · rintro ⟨⟨r, hread⟩, hparse⟩
    obtain ⟨p, hp, htakes⟩ := (read_takes _).1 hread
    have hself : parse (String.ofList p) = some v := by
      have hp' := htakes [] (.inr (.inl rfl))
      rw [List.append_nil, ← String.toList_ofList (l := p)] at hp'
      exact parse_eq_some.mpr ⟨_, [], hp', rfl⟩
    refine ⟨String.ofList p, String.ofList r, ?_, hself, ?_⟩
    · rw [← String.ofList_append, ← hp, String.ofList_toList]
    · rw [String.toList_ofList]
      exact (parse_of_readValue hread).mp hparse
  · rintro ⟨p, rest, rfl, hparse, hrest⟩
    obtain ⟨n, ws, hread, hws⟩ := parse_eq_some.mp hparse
    obtain ⟨q, hq, htakes⟩ := (read_takes n).1 hread
    have hread' : readValue n (p ++ rest).toList = some (v, ws ++ rest.toList) := by
      rw [String.toList_append, hq, List.append_assoc]
      exact htakes _ (.inl hv)
    have hread'' := fuel_enough hread' (Nat.lt_succ_self _)
    refine ⟨⟨_, hread''⟩, (parse_of_readValue hread'').mpr ?_⟩
    obtain ⟨w, hw, hskip⟩ := skipWs_takes ws
    rw [hws, List.append_nil] at hw
    rw [hw, hskip]
    exact hrest

/-! ## 3. Decoding -/

/-- The text of a body. Bytes that are not UTF-8 are read as U+FFFD. -/
def bodyText (body : ByteArray) : String := decodeUtf8 (List.replicate · '\uFFFD') body

/-- What a value is decoded to, by `decodeStrings`. -/
def decodeFields (first second : String) : Json → Option (String × String)
  | .null => some ("", "")
  | .obj members =>
    if (Json.obj members).depth ≤ maxNestingDepth then
      match stringField first "" members, stringField second "" members with
      | some x, some y => some (x, y)
      | _, _ => none
    else none
  | _ => none

theorem decodeStrings_eq_some {first second : String} {body : ByteArray} {fields : String × String} :
    decodeStrings first second body = some fields ↔
      ∃ v, firstValue (bodyText body) = some v ∧ decodeFields first second v = some fields := by
  unfold decodeStrings bodyText
  cases firstValue (decodeUtf8 (List.replicate · '\uFFFD') body) with
  | none => simp
  | some v =>
    simp only [Option.some.injEq, exists_eq_left']
    cases v <;> exact Iff.rfl

theorem closed_of_decodeFields {first second : String} {v : Json} {fields : String × String}
    (h : decodeFields first second v = some fields) : v.Closed := by
  rintro d rfl
  cases h

/-- The bodies that are not the text of one value and are decoded all the same: something
follows a text of a value that is. -/
theorem decodeStrings_trailing {first second : String} {body : ByteArray} {fields : String × String}
    (hbody : parse (bodyText body) = none) :
    decodeStrings first second body = some fields ↔
      ∃ p rest v, bodyText body = p ++ rest ∧ parse p = some v ∧ skipWs rest.toList ≠ [] ∧
        decodeFields first second v = some fields := by
  rw [decodeStrings_eq_some]
  constructor
  · rintro ⟨v, hv, hfields⟩
    obtain ⟨p, rest, heq, hp, hrest⟩ :=
      (firstValue_iff (closed_of_decodeFields hfields)).mp ⟨hv, hbody⟩
    exact ⟨p, rest, v, heq, hp, hrest, hfields⟩
  · rintro ⟨p, rest, v, heq, hp, hrest, hfields⟩
    have h := (firstValue_iff (closed_of_decodeFields hfields)).mpr ⟨p, rest, heq, hp, hrest⟩
    exact ⟨v, h.1, hfields⟩

end Encoding
