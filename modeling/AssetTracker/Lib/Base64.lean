import AssetTracker.Lib.Text

/-!
# Base64

Three bytes are four groups of six bits (RFC 4648). The two alphabets spell the
groups 62 and 63 differently, and agree on all others.

Results:
1. `octets_sextets`: the groups of some bytes give these bytes back.
2. `decodeUrl_encodeUrl`: the URL alphabet, without padding, is decoded to what
   was encoded.
3. `atob_encodeUrl`: a decoder of the standard alphabet reads such a text
   exactly when no group is 62 or 63, and then reads the same bytes.
-/

namespace Base64

/-! ## 1. Groups of six bits -/

/-- The groups of six bits of some bytes, with zeros after the last bit. -/
def sextets : List UInt8 → List Nat
  | a :: b :: c :: bs =>
    a.toNat / 4 :: (a.toNat % 4 * 16 + b.toNat / 16) :: (b.toNat % 16 * 4 + c.toNat / 64) ::
      c.toNat % 64 :: sextets bs
  | [a, b] => [a.toNat / 4, a.toNat % 4 * 16 + b.toNat / 16, b.toNat % 16 * 4]
  | [a] => [a.toNat / 4, a.toNat % 4 * 16]
  | [] => []

/-- The bytes that groups of six bits hold. Bits that fill no byte are dropped. -/
def octets : List Nat → List UInt8
  | s :: t :: u :: v :: ss =>
    UInt8.ofNat (s * 4 + t / 16) :: UInt8.ofNat (t % 16 * 16 + u / 4) ::
      UInt8.ofNat (u % 4 * 64 + v) :: octets ss
  | [s, t, u] => [UInt8.ofNat (s * 4 + t / 16), UInt8.ofNat (t % 16 * 16 + u / 4)]
  | [s, t] => [UInt8.ofNat (s * 4 + t / 16)]
  | [_] => []
  | [] => []

theorem ofNat_toNat_eq {n : Nat} {b : UInt8} (h : n = b.toNat) : UInt8.ofNat n = b := by
  rw [h, UInt8.ofNat_toNat]

@[simp] theorem octets_sextets (bs : List UInt8) : octets (sextets bs) = bs := by
  fun_induction sextets bs with
  | case1 a b c bs ih =>
    have ha := a.toNat_lt
    have hb := b.toNat_lt
    have hc := c.toNat_lt
    rw [octets, ih, ofNat_toNat_eq (b := a) (by omega), ofNat_toNat_eq (b := b) (by omega),
      ofNat_toNat_eq (b := c) (by omega)]
  | case2 a b =>
    have ha := a.toNat_lt
    have hb := b.toNat_lt
    rw [octets, ofNat_toNat_eq (b := a) (by omega), ofNat_toNat_eq (b := b) (by omega)]
  | case3 a =>
    have ha := a.toNat_lt
    rw [octets, ofNat_toNat_eq (b := a) (by omega)]
  | case4 => rfl

theorem sextets_lt {bs : List UInt8} {n : Nat} (h : n ∈ sextets bs) : n < 64 := by
  induction bs using sextets.induct with
  | case1 a b c bs ih =>
    have ha := a.toNat_lt
    have hb := b.toNat_lt
    have hc := c.toNat_lt
    simp only [sextets, List.mem_cons] at h
    obtain rfl | rfl | rfl | rfl | h := h
    · omega
    · omega
    · omega
    · omega
    · exact ih h
  | case2 a b =>
    have ha := a.toNat_lt
    have hb := b.toNat_lt
    simp only [sextets, List.mem_cons, List.not_mem_nil, or_false] at h
    omega
  | case3 a =>
    have ha := a.toNat_lt
    simp only [sextets, List.mem_cons, List.not_mem_nil, or_false] at h
    omega
  | case4 => cases h

/-- No encoding ends in a single group. -/
theorem sextets_length (bs : List UInt8) : (sextets bs).length % 4 ≠ 1 := by
  fun_induction sextets bs with
  | case1 a b c bs ih =>
    simp only [List.length_cons]
    omega
  | case2 => simp
  | case3 => simp
  | case4 => simp

/-! ## 2. The URL alphabet -/

/-- The characters of both alphabets. -/
def letter (n : Nat) : Char :=
  if n < 26 then Char.ofNat (0x41 + n)
  else if n < 52 then Char.ofNat (0x61 + (n - 26))
  else Char.ofNat (0x30 + (n - 52))

def letterValue (c : Char) : Option Nat :=
  if 0x41 ≤ c.toNat ∧ c.toNat ≤ 0x5A then some (c.toNat - 0x41)
  else if 0x61 ≤ c.toNat ∧ c.toNat ≤ 0x7A then some (c.toNat - 0x61 + 26)
  else if 0x30 ≤ c.toNat ∧ c.toNat ≤ 0x39 then some (c.toNat - 0x30 + 52)
  else none

def urlChar (n : Nat) : Char := if n = 62 then '-' else if n = 63 then '_' else letter n

def urlValue (c : Char) : Option Nat :=
  if c = '-' then some 62 else if c = '_' then some 63 else letterValue c

/-- The unpadded text of some bytes, in the URL alphabet. -/
def encodeUrl (bs : List UInt8) : String := String.ofList ((sextets bs).map urlChar)

/-- The bytes of such a text. -/
def decodeUrl (s : String) : Option (List UInt8) := (s.toList.mapM urlValue).map octets

theorem urlValue_urlChar : ∀ n < 64, urlValue (urlChar n) = some n := by decide

/-- A decoder of some characters reads a text back when it has these characters only. -/
theorem mapM_map {α β : Type} {f : α → β} {g : β → Option α} {p : α → Prop} [DecidablePred p]
    {l : List α} (h : ∀ x ∈ l, g (f x) = if p x then some x else none) :
    (l.map f).mapM g = if ∀ x ∈ l, p x then some l else none := by
  induction l with
  | nil => rfl
  | cons x l ih =>
    rw [List.map_cons, List.mapM_cons, h x List.mem_cons_self,
      ih fun y hy => h y (List.mem_cons_of_mem x hy)]
    by_cases hx : p x
    · by_cases hl : ∀ y ∈ l, p y
      · rw [if_pos hx, if_pos hl, if_pos (List.forall_mem_cons.mpr ⟨hx, hl⟩)]
        rfl
      · rw [if_pos hx, if_neg hl, if_neg fun hall => hl (List.forall_mem_cons.mp hall).2]
        rfl
    · rw [if_neg hx, if_neg fun hall => hx (List.forall_mem_cons.mp hall).1]
      rfl

@[simp] theorem decodeUrl_encodeUrl (bs : List UInt8) : decodeUrl (encodeUrl bs) = some bs := by
  unfold decodeUrl encodeUrl
  rw [String.toList_ofList, mapM_map (p := fun _ => True)
    fun n hn => (urlValue_urlChar n (sextets_lt hn)).trans (if_pos trivial).symm]
  simp

/-- A character that no text in the URL alphabet has. -/
theorem not_mem_encodeUrl {c : Char} (h : ∀ n < 64, urlChar n ≠ c) (bs : List UInt8) :
    c ∉ (encodeUrl bs).toList := by
  unfold encodeUrl
  rw [String.toList_ofList, List.mem_map]
  rintro ⟨n, hn, hc⟩
  exact h n (sextets_lt hn) hc

theorem dot_not_mem (bs : List UInt8) : '.' ∉ (encodeUrl bs).toList :=
  not_mem_encodeUrl (by decide) bs

/-- Three texts with dots between them. -/
theorem splitOn_dot (as bs cs : List UInt8) :
    (encodeUrl as ++ "." ++ encodeUrl bs ++ "." ++ encodeUrl cs).toList.splitOn '.' =
      [(encodeUrl as).toList, (encodeUrl bs).toList, (encodeUrl cs).toList] := by
  have hdots : ∀ l ∈ [(encodeUrl as).toList, (encodeUrl bs).toList, (encodeUrl cs).toList],
      '.' ∉ l := by simp [dot_not_mem]
  have h := List.splitOn_intercalate '.' hdots (List.cons_ne_nil _ _)
  rw [← h]
  simp [List.intercalate]

theorem dotted_ne_empty (a b c : String) : a ++ "." ++ b ++ "." ++ c ≠ "" := by
  intro h
  have hnil := congrArg String.toList h
  simp at hnil

/-! ## 3. `atob` -/

def isAsciiSpace (c : Char) : Bool :=
  c == '\t' || c == '\n' || c == '\x0c' || c == '\r' || c == ' '

/-- The text without the one or two padding characters at its end. -/
def unpad (cs : List Char) : List Char :=
  match cs.reverse with
  | '=' :: '=' :: rest => rest.reverse
  | '=' :: rest => rest.reverse
  | _ => cs

def stdValue (c : Char) : Option Nat :=
  if c = '+' then some 62 else if c = '/' then some 63 else letterValue c

/-- The forgiving decoder of the standard alphabet: white space is ignored, padding is
optional. -/
def atob (s : String) : Option (List UInt8) :=
  let cs := s.toList.filter fun c => !isAsciiSpace c
  let cs := if cs.length % 4 = 0 then unpad cs else cs
  if cs.length % 4 = 1 then none else (cs.mapM stdValue).map octets

theorem unpad_of_not_mem {cs : List Char} (h : '=' ∉ cs) : unpad cs = cs := by
  unfold unpad
  split
  · next rest hrev => exact absurd (List.mem_reverse.mp (hrev ▸ List.mem_cons_self)) h
  · next rest _ hrev => exact absurd (List.mem_reverse.mp (hrev ▸ List.mem_cons_self)) h
  · rfl

theorem stdValue_urlChar : ∀ n < 64, stdValue (urlChar n) = if n < 62 then some n else none := by
  decide

theorem urlChar_not_space : ∀ n < 64, isAsciiSpace (urlChar n) = false := by decide

theorem atob_encodeUrl (bs : List UInt8) :
    atob (encodeUrl bs) = if ∀ n ∈ sextets bs, n < 62 then some bs else none := by
  have hfilter : (encodeUrl bs).toList.filter (fun c => !isAsciiSpace c) =
      (sextets bs).map urlChar := by
    unfold encodeUrl
    rw [String.toList_ofList, List.filter_eq_self]
    intro c hc
    obtain ⟨n, hn, rfl⟩ := List.mem_map.mp hc
    rw [urlChar_not_space n (sextets_lt hn), Bool.not_false]
  have hunpad : unpad ((sextets bs).map urlChar) = (sextets bs).map urlChar := by
    have hpad := not_mem_encodeUrl (c := '=') (by decide) bs
    rw [encodeUrl, String.toList_ofList] at hpad
    exact unpad_of_not_mem hpad
  unfold atob
  dsimp only
  rw [hfilter, hunpad, ite_self, List.length_map, if_neg (sextets_length bs)]
  rw [mapM_map (p := (· < 62)) fun n hn => stdValue_urlChar n (sextets_lt hn)]
  split
  · rw [Option.map_some, octets_sextets]
  · rfl

end Base64
