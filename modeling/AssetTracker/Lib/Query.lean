import AssetTracker.Lib.Paths

/-!
# Query strings

The query of a URL: how a script writes it with `encodeURIComponent`, what the URL parser
escapes on top of that, and what `URLSearchParams` reads.

Results:
1. `formDecode_escape`: the reader takes back what is escaped.
2. `escape_escape`: two rounds of escapes are one.
3. `searchParams_queryText`: the parameters that were written are the ones that are read.
-/

namespace Http

open Text Encoding

/-! ## Writing -/

/-- `%` and two digits for each byte. -/
def percentEncode (bs : List UInt8) : List Char :=
  bs.flatMap fun b => ['%', upperHex (b.toNat / 16), upperHex (b.toNat % 16)]

/-- A text with all characters escaped but those that are kept. -/
def escapeUnless (keep : Char → Bool) (cs : List Char) : List Char :=
  cs.flatMap fun c => if keep c then [c] else percentEncode (String.utf8EncodeChar c)

/-- What `encodeURIComponent` keeps. -/
def isUnreserved (c : Char) : Bool := c.isAlphanum || c ∈ "-_.!~*'()".toList

/-- `encodeURIComponent`; it throws where a surrogate stands alone. -/
def encodeURIComponent (s : JsString) : Option String :=
  if utf16 (ofUtf16 s) = s then
    some (String.ofList (escapeUnless isUnreserved (ofUtf16 s).toList))
  else none

/-- What the query of a URL keeps, if its scheme is `http`. -/
def isQueryChar (c : Char) : Bool :=
  0x21 ≤ c.toNat && c.toNat ≤ 0x7E && c ∉ ['\x22', '#', '\'', '<', '>']

/-- The query of a parsed URL, for what stood between `?` and `#`. -/
def queryState (query : List Char) : List Char := escapeUnless isQueryChar query

/-- Parameters, joined. -/
def queryText (params : List (String × String)) : List Char :=
  ['&'].intercalate (params.map fun p => p.1.toList ++ '=' :: escapeUnless isUnreserved p.2.toList)

/-! ## Reading -/

/-- The bytes of a text, with `+` for a space and `%xx` for a byte. A `%` before something
else stands for itself. -/
def formBytes : List Char → List UInt8
  | '%' :: a :: b :: cs =>
    match hexVal a, hexVal b with
    | some x, some y => UInt8.ofNat (x.val * 16 + y.val) :: formBytes cs
    | _, _ => 0x25 :: formBytes (a :: b :: cs)
  | '+' :: cs => 0x20 :: formBytes cs
  | c :: cs => String.utf8EncodeChar c ++ formBytes cs
  | [] => []

def formDecode (cs : List Char) : String :=
  decodeUtf8 (fun _ => ['\uFFFD']) ⟨(formBytes cs).toArray⟩

/-- `searchParams` of a URL with this query. -/
def searchParams (query : List Char) : List (String × String) :=
  ((List.splitOn '&' query).filter fun part => part ≠ []).map fun part =>
    (formDecode (part.takeWhile (· ≠ '=')), formDecode ((part.dropWhile (· ≠ '=')).drop 1))

/-! ## 1. Escapes -/

namespace QueryLemmas

variable {keep : Char → Bool} {c : Char}

theorem hexVal_upperHex : ∀ n : Fin 16, hexVal (upperHex n.val) = some n := by decide

theorem upperHex_kept : ∀ n : Fin 16, (upperHex n.val).isAlphanum = true := by decide

/-- The two digits of a byte. -/
def digits (b : UInt8) : Fin 16 × Fin 16 :=
  (⟨b.toNat / 16, Nat.div_lt_of_lt_mul b.toNat_lt⟩, ⟨b.toNat % 16, Nat.mod_lt _ (by decide)⟩)

theorem percentEncode_cons (b : UInt8) (bs : List UInt8) : percentEncode (b :: bs) =
    '%' :: upperHex (digits b).1.val :: upperHex (digits b).2.val :: percentEncode bs := rfl

theorem formBytes_percentEncode (bs : List UInt8) (cs : List Char) :
    formBytes (percentEncode bs ++ cs) = bs ++ formBytes cs := by
  induction bs with
  | nil => rfl
  | cons b bs ih =>
    have hbyte : (digits b).1.val * 16 + (digits b).2.val = b.toNat := Nat.div_add_mod' b.toNat 16
    rw [percentEncode_cons, List.cons_append, List.cons_append, List.cons_append, formBytes,
      hexVal_upperHex, hexVal_upperHex]
    dsimp only
    rw [hbyte, UInt8.ofNat_toNat, ih, List.cons_append]

theorem formBytes_kept (hpercent : c ≠ '%') (hplus : c ≠ '+') (cs : List Char) :
    formBytes (c :: cs) = String.utf8EncodeChar c ++ formBytes cs := by
  rw [formBytes.eq_def]
  split
  · next h => exact absurd (List.cons.inj h).1 hpercent
  · next h => exact absurd (List.cons.inj h).1 hplus
  · next h =>
    obtain ⟨rfl, rfl⟩ := List.cons.inj h
    rfl
  · next h => cases h

theorem formBytes_escape (hpercent : keep '%' = false) (hplus : keep '+' = false)
    (cs : List Char) : formBytes (escapeUnless keep cs) = cs.flatMap String.utf8EncodeChar := by
  induction cs with
  | nil => rfl
  | cons c cs ih =>
    unfold escapeUnless at ih ⊢
    rw [List.flatMap_cons, List.flatMap_cons]
    split
    · next hkeep =>
      rw [List.singleton_append, formBytes_kept, ih]
      · rintro rfl
        rw [hpercent] at hkeep
        cases hkeep
      · rintro rfl
        rw [hplus] at hkeep
        cases hkeep
    · rw [formBytes_percentEncode, ih]

theorem escape_cons (c : Char) (cs : List Char) : escapeUnless keep (c :: cs) =
    (if keep c then [c] else percentEncode (String.utf8EncodeChar c)) ++ escapeUnless keep cs :=
  List.flatMap_cons

theorem escape_append (cs ds : List Char) :
    escapeUnless keep (cs ++ ds) = escapeUnless keep cs ++ escapeUnless keep ds :=
  List.flatMap_append

theorem escape_kept {cs : List Char} (h : ∀ c ∈ cs, keep c = true) : escapeUnless keep cs = cs := by
  induction cs with
  | nil => rfl
  | cons c cs ih =>
    rw [escape_cons, if_pos (h c List.mem_cons_self), List.singleton_append,
      ih fun d hd => h d (List.mem_cons_of_mem c hd)]

end QueryLemmas

open QueryLemmas

/-- A text that is escaped is read as it was, whatever else was kept than `%` and `+`. -/
theorem formDecode_escape {keep : Char → Bool} (hpercent : keep '%' = false)
    (hplus : keep '+' = false) (s : String) : formDecode (escapeUnless keep s.toList) = s := by
  have hbytes : (⟨(s.toList.flatMap String.utf8EncodeChar).toArray⟩ : ByteArray) = s.toUTF8 := by
    have hdata := List.data_toByteArray (l := s.toList.flatMap String.utf8EncodeChar)
    rw [← hdata]
    exact String.utf8Encode_toList
  rw [formDecode, formBytes_escape hpercent hplus, hbytes, decodeUtf8_toUTF8]

/-! ## 2. Two rounds -/

/-- A second round that keeps escapes does what one round does. -/
theorem escape_escape {keep keep' : Char → Bool}
    (hkept : ∀ c, c.isAlphanum = true ∨ c = '%' → keep' c = true) (cs : List Char) :
    escapeUnless keep' (escapeUnless keep cs) = escapeUnless (fun c => keep c && keep' c) cs := by
  have hencoded : ∀ bs, escapeUnless keep' (percentEncode bs) = percentEncode bs := by
    intro bs
    refine escape_kept fun c hc => ?_
    obtain ⟨b, -, hb⟩ := List.mem_flatMap.mp hc
    simp only [List.mem_cons, List.not_mem_nil, or_false] at hb
    rcases hb with rfl | rfl | rfl
    · exact hkept _ (.inr rfl)
    · exact hkept _ (.inl (upperHex_kept (digits b).1))
    · exact hkept _ (.inl (upperHex_kept (digits b).2))
  induction cs with
  | nil => rfl
  | cons c cs ih =>
    rw [escape_cons, escape_append, ih, escape_cons]
    cases hkeep : keep c with
    | true =>
      cases hkeep' : keep' c with
      | true => simp [escapeUnless, hkeep']
      | false => simp [escapeUnless, hkeep']
    | false => simp [hencoded]

/-! ## 3. Parameters -/

namespace QueryLemmas

/-- What is kept in both rounds. -/
def keptChar (c : Char) : Bool := isUnreserved c && isQueryChar c

theorem isQueryChar_alphanum {c : Char} (h : c.isAlphanum = true ∨ c = '%') :
    isQueryChar c = true := by
  rcases h with h | rfl
  · have hranges : (decide ('A'.val ≤ c.val ∧ c.val ≤ 'Z'.val) ||
        (decide ('a'.val ≤ c.val) && decide (c.val ≤ 'z'.val)) ||
        (decide ('0'.val ≤ c.val) && decide (c.val ≤ '9'.val))) = true := h
    simp only [Bool.or_eq_true, Bool.and_eq_true, decide_eq_true_eq, UInt32.le_iff_toNat_le] at hranges
    have hrange : 0x30 ≤ c.toNat ∧ c.toNat ≤ 0x7A := by
      rcases hranges with (⟨hl, hu⟩ | ⟨hl, hu⟩) | ⟨hl, hu⟩
      · exact ⟨le_trans (by decide) hl, le_trans hu (by decide)⟩
      · exact ⟨le_trans (by decide) hl, le_trans hu (by decide)⟩
      · exact ⟨le_trans (by decide) hl, le_trans hu (by decide)⟩
    have hne : c ∉ ['\x22', '#', '\'', '<', '>'] := by
      simp only [List.mem_cons, List.not_mem_nil, or_false]
      rintro (rfl | rfl | rfl | rfl | rfl) <;> exact absurd h (by decide)
    unfold isQueryChar
    rw [decide_eq_true (le_trans (by decide) hrange.1), decide_eq_true (le_trans hrange.2 (by decide)),
      decide_eq_true hne]
    rfl
  · decide

theorem not_mem_escape {keep : Char → Bool} {d : Char} (hkeep : keep d = false)
    (hd : d.isAlphanum = false) (hpercent : d ≠ '%') (cs : List Char) :
    d ∉ escapeUnless keep cs := by
  intro hmem
  obtain ⟨c, -, hc⟩ := List.mem_flatMap.mp hmem
  split at hc
  · next hkept =>
    rw [List.mem_singleton] at hc
    rw [hc, hkept] at hkeep
    cases hkeep
  · obtain ⟨b, -, hb⟩ := List.mem_flatMap.mp hc
    have hdigit : ∀ n : Fin 16, d ≠ upperHex n.val := by
      rintro n rfl
      rw [upperHex_kept n] at hd
      cases hd
    simp only [List.mem_cons, List.not_mem_nil, or_false] at hb
    rcases hb with rfl | rfl | rfl
    · exact hpercent rfl
    · exact hdigit (digits b).1 rfl
    · exact hdigit (digits b).2 rfl

/-- A name needs no escapes. -/
theorem escape_plain {name : String} (h : isPlain name = true) {keep : Char → Bool}
    (halphanum : ∀ c, c.isAlphanum = true → keep c = true) (hdash : keep '-' = true) :
    escapeUnless keep name.toList = name.toList := by
  refine escape_kept fun c hc => ?_
  rcases (PathLemmas.plain_chars h).2 c hc with hc | rfl
  · exact halphanum c hc
  · exact hdash

theorem isUnreserved_alphanum {c : Char} (h : c.isAlphanum = true) : isUnreserved c = true := by
  rw [isUnreserved, h]
  rfl

theorem formDecode_plain {name : String} (h : isPlain name = true) :
    formDecode name.toList = name := by
  have hescape : formDecode (escapeUnless isUnreserved name.toList) = name :=
    formDecode_escape (by decide) (by decide) name
  rwa [escape_plain h (fun c => isUnreserved_alphanum) (by decide)] at hescape

end QueryLemmas

/-- What the URL parser makes of parameters with plain names. -/
theorem queryState_queryText {params : List (String × String)}
    (h : ∀ p ∈ params, isPlain p.1 = true) : queryState (queryText params) =
      ['&'].intercalate (params.map fun p => p.1.toList ++ '=' :: escapeUnless keptChar p.2.toList) := by
  have hone : ∀ p ∈ params, queryState (p.1.toList ++ '=' :: escapeUnless isUnreserved p.2.toList) =
      p.1.toList ++ '=' :: escapeUnless keptChar p.2.toList := by
    intro p hp
    rw [queryState, escape_append, escape_cons, escape_escape fun c => isQueryChar_alphanum,
      escape_plain (h p hp) (fun c hc => isQueryChar_alphanum (.inl hc)) (by decide)]
    rfl
  have hjoin : ∀ ls : List (List Char), queryState (['&'].intercalate ls) =
      ['&'].intercalate (ls.map queryState) := by
    intro ls
    induction ls with
    | nil => rfl
    | cons l ls ih =>
      cases ls with
      | nil => simp [List.intercalate]
      | cons l' ls =>
        rw [List.map_cons] at ih
        rw [List.map_cons, List.map_cons, List.intercalate_cons_cons, List.intercalate_cons_cons,
          ← ih, queryState, escape_append, escape_append]
        rfl
  rw [queryText, hjoin, List.map_map]
  exact congrArg _ (List.map_congr_left hone)

/-- The parameters that were written are the ones that are read. -/
theorem searchParams_queryText {params : List (String × String)}
    (h : ∀ p ∈ params, isPlain p.1 = true) : searchParams (queryState (queryText params)) = params := by
  have hsplit : ((List.splitOn '&' (queryState (queryText params))).filter fun part => part ≠ []) =
      params.map fun p => p.1.toList ++ '=' :: escapeUnless keptChar p.2.toList := by
    rw [queryState_queryText h]
    cases params with
    | nil => rfl
    | cons p ps =>
      rw [List.splitOn_intercalate]
      · refine List.filter_eq_self.mpr fun part hpart => ?_
        obtain ⟨p', -, rfl⟩ := List.mem_map.mp hpart
        simp
      · intro part hpart
        obtain ⟨p', hp', rfl⟩ := List.mem_map.mp hpart
        rw [List.mem_append, List.mem_cons, not_or, not_or]
        exact ⟨PathLemmas.not_mem_plain (h p' hp') (by decide) (by decide), by decide,
          not_mem_escape (by decide) (by decide) (by decide) _⟩
      · exact List.cons_ne_nil _ _
  have hread : ∀ p ∈ params,
      (fun part : List Char => (formDecode (part.takeWhile (· ≠ '=')),
          formDecode ((part.dropWhile (· ≠ '=')).drop 1)))
        (p.1.toList ++ '=' :: escapeUnless keptChar p.2.toList) = p := by
    intro p hp
    have hname : ∀ c ∈ p.1.toList, decide (c ≠ '=') = true := by
      intro c hc
      refine decide_eq_true ?_
      rintro rfl
      exact PathLemmas.not_mem_plain (h p hp) (by decide) (by decide) hc
    dsimp only
    rw [List.takeWhile_append_of_pos hname, List.dropWhile_append_of_pos hname]
    refine Prod.ext ?_ ?_
    · simpa using formDecode_plain (h p hp)
    · exact formDecode_escape (by decide) (by decide) p.2
  rw [searchParams, hsplit, List.map_map]
  conv_rhs => rw [← List.map_id params]
  exact List.map_congr_left hread

/-- What is escaped needs no more escapes. -/
theorem isQueryChar_of_mem {c : Char} {query : List Char} (h : c ∈ queryState query) :
    isQueryChar c = true := by
  obtain ⟨d, -, hd⟩ := List.mem_flatMap.mp h
  split at hd
  · next hkept => exact (List.mem_singleton.mp hd) ▸ hkept
  · obtain ⟨b, -, hb⟩ := List.mem_flatMap.mp hd
    simp only [List.mem_cons, List.not_mem_nil, or_false] at hb
    rcases hb with rfl | rfl | rfl
    · decide
    · exact isQueryChar_alphanum (.inl (upperHex_kept (digits b).1))
    · exact isQueryChar_alphanum (.inl (upperHex_kept (digits b).2))

/-- The text that `encodeURIComponent` makes of a string without lone surrogates. -/
theorem encodeURIComponent_utf16 (s : String) : encodeURIComponent (utf16 s) =
    some (String.ofList (escapeUnless isUnreserved s.toList)) := by
  rw [encodeURIComponent, ofUtf16_utf16, if_pos rfl]

end Http
