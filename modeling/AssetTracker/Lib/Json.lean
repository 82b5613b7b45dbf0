import Mathlib.Data.List.TakeDrop
import AssetTracker.Lib.Text

/-!
# JSON texts

Values, a reader of texts (RFC 8259), and the writer of flat objects of strings.
The reader returns the first value of a text with the characters after it, so it
serves both a parser of whole texts (`parse`) and a stream decoder. Strings are
read into UTF-16 code units, as escapes may spell unpaired surrogates.

Results:
1. `fuel_enough`: the reader's fuel never decides; more than twice the length of
   the text is always enough. `parse_eq_some`: `parse` is the reader, with any fuel.
2. `parse_objectText`: the text of an object is read as the object; in
   particular what `writeObject` writes (`parse_writeObject`).
3. `denotes_intText`: the digits of an integer are read as this integer.
-/

namespace Encoding

open Text

/-! ## Values -/

/-- A number as written: `digits * 10 ^ exponent`, with a sign. -/
structure Decimal where
  negative : Bool
  digits : Nat
  exponent : Int
deriving DecidableEq, Repr

inductive Json where
  | null
  | bool (b : Bool)
  | num (n : Decimal)
  | str (s : JsString)
  | arr (elems : List Json)
  | obj (members : List (JsString × Json))

/-- The value of a member; of several with one name the last one counts. -/
def lookup (key : JsString) : List (JsString × Json) → Option Json
  | [] => none
  | (k, v) :: ms => (lookup key ms).or (if k = key then some v else none)

/-! ## Reading -/

def skipWs (cs : List Char) : List Char :=
  cs.dropWhile fun c => c == ' ' || c == '\t' || c == '\n' || c == '\r'

def isDigit (c : Char) : Bool := 0x30 ≤ c.toNat && c.toNat ≤ 0x39

/-- A hexadecimal digit in either case. -/
def hexVal (c : Char) : Option (Fin 16) :=
  if h : 0x30 ≤ c.toNat ∧ c.toNat ≤ 0x39 then some ⟨c.toNat - 0x30, by omega⟩
  else if h : 0x41 ≤ c.toNat ∧ c.toNat ≤ 0x46 then some ⟨c.toNat - 0x37, by omega⟩
  else if h : 0x61 ≤ c.toNat ∧ c.toNat ≤ 0x66 then some ⟨c.toNat - 0x57, by omega⟩
  else none

/-- Four hexadecimal digits of an escape. -/
def hexUnit (a b c d : Char) : Option UInt16 :=
  match hexVal a, hexVal b, hexVal c, hexVal d with
  | some a, some b, some c, some d =>
    some (UInt16.ofNat (((a.val * 16 + b.val) * 16 + c.val) * 16 + d.val))
  | _, _, _, _ => none

/-- The character after a backslash, other than `u`. -/
def escaped (c : Char) : Option UInt16 :=
  if c = '\x22' ∨ c = '\\' ∨ c = '/' then some (UInt16.ofNat c.toNat)
  else if c = 'b' then some 8
  else if c = 'f' then some 12
  else if c = 'n' then some 10
  else if c = 'r' then some 13
  else if c = 't' then some 9
  else none

/-- Put the code units `us` in front of a string that was read. -/
def consUnits (us : JsString) : Option (JsString × List Char) → Option (JsString × List Char)
  | some (s, cs) => some (us ++ s, cs)
  | none => none

/-- The rest of a string, after its opening quotation mark. -/
def readString : List Char → Option (JsString × List Char)
  | '\x22' :: cs => some ([], cs)
  | '\\' :: 'u' :: a :: b :: c :: d :: cs =>
    match hexUnit a b c d with
    | some u => consUnits [u] (readString cs)
    | none => none
  | '\\' :: e :: cs =>
    match escaped e with
    | some u => consUnits [u] (readString cs)
    | none => none
  | c :: cs => if c.toNat < 0x20 ∨ c = '\\' then none else consUnits (encodeUtf16 c) (readString cs)
  | [] => none

def natOfDigits (ds : List Char) : Nat := ds.foldl (fun n c => n * 10 + (c.toNat - 0x30)) 0

/-- The digits before the point: a single `0`, or digits that do not start with one. -/
def readInt (cs : List Char) : Option (List Char × List Char) :=
  match cs.span isDigit with
  | ([], _) => none
  | ('0' :: _, _) => some (['0'], cs.tail)
  | (ds, rest) => some (ds, rest)

/-- The digits after the point, if there is one. -/
def readFraction : List Char → Option (List Char × List Char)
  | '.' :: cs =>
    match cs.span isDigit with
    | ([], _) => none
    | (ds, rest) => some (ds, rest)
  | cs => some ([], cs)

def readExponentDigits (negative : Bool) (cs : List Char) : Option (Int × List Char) :=
  match cs.span isDigit with
  | ([], _) => none
  | (ds, rest) => some (if negative then -(natOfDigits ds : Int) else natOfDigits ds, rest)

def readExponent : List Char → Option (Int × List Char)
  | e :: cs =>
    if e = 'e' ∨ e = 'E' then
      match cs with
      | '-' :: cs => readExponentDigits true cs
      | '+' :: cs => readExponentDigits false cs
      | cs => readExponentDigits false cs
    else some (0, e :: cs)
  | [] => some (0, [])

def readUnsigned (negative : Bool) (cs : List Char) : Option (Decimal × List Char) := do
  let (int, cs) ← readInt cs
  let (frac, cs) ← readFraction cs
  let (e, cs) ← readExponent cs
  return (⟨negative, natOfDigits (int ++ frac), e - frac.length⟩, cs)

def readNumber : List Char → Option (Decimal × List Char)
  | '-' :: cs => readUnsigned true cs
  | cs => readUnsigned false cs

mutual
/-- The first value of a text and what follows it. -/
def readValue : Nat → List Char → Option (Json × List Char)
  | 0, _ => none
  | fuel + 1, cs =>
    match skipWs cs with
    | 'n' :: 'u' :: 'l' :: 'l' :: cs => some (.null, cs)
    | 't' :: 'r' :: 'u' :: 'e' :: cs => some (.bool true, cs)
    | 'f' :: 'a' :: 'l' :: 's' :: 'e' :: cs => some (.bool false, cs)
    | '\x22' :: cs => (readString cs).map fun (s, cs) => (.str s, cs)
    | '[' :: cs =>
      match skipWs cs with
      | ']' :: cs => some (.arr [], cs)
      | cs => (readElements fuel cs).map fun (vs, cs) => (.arr vs, cs)
    | '\x7b' :: cs =>
      match skipWs cs with
      | '\x7d' :: cs => some (.obj [], cs)
      | cs => (readMembers fuel cs).map fun (ms, cs) => (.obj ms, cs)
    | cs => (readNumber cs).map fun (n, cs) => (.num n, cs)

/-- The elements of a non-empty array, up to its closing bracket. -/
def readElements : Nat → List Char → Option (List Json × List Char)
  | 0, _ => none
  | fuel + 1, cs =>
    match readValue fuel cs with
    | none => none
    | some (v, cs) =>
      match skipWs cs with
      | ',' :: cs => (readElements fuel cs).map fun (vs, cs) => (v :: vs, cs)
      | ']' :: cs => some ([v], cs)
      | _ => none

/-- The members of a non-empty object, up to its closing brace. -/
def readMembers : Nat → List Char → Option (List (JsString × Json) × List Char)
  | 0, _ => none
  | fuel + 1, cs =>
    match skipWs cs with
    | '\x22' :: cs =>
      match readString cs with
      | none => none
      | some (k, cs) =>
        match skipWs cs with
        | ':' :: cs =>
          match readValue fuel cs with
          | none => none
          | some (v, cs) =>
            match skipWs cs with
            | ',' :: cs => (readMembers fuel cs).map fun (ms, cs) => ((k, v) :: ms, cs)
            | '\x7d' :: cs => some ([(k, v)], cs)
            | _ => none
        | _ => none
    | _ => none
end

/-- The value of a whole text: one value between white space. -/
def parse (s : String) : Option Json :=
  match readValue (2 * s.toList.length + 1) s.toList with
  | some (v, cs) => if skipWs cs = [] then some v else none
  | none => none

/-! ## Writing -/

/-- A hexadecimal digit in lower case. -/
def hexChar (n : Fin 16) : Char := Char.ofNat (if n.val < 10 then 0x30 + n.val else 0x57 + n.val)

/-- The last hexadecimal digit of a number. -/
def lastDigit (n : Nat) : Fin 16 := ⟨n % 16, Nat.mod_lt n (by decide)⟩

theorem lastDigit_val (n : Nat) : (lastDigit n).val = n % 16 := rfl

/-- A character below U+0100, as an escape. -/
def unicodeEscape (c : Char) : List Char :=
  ['\\', 'u', '0', '0', hexChar (lastDigit (c.toNat / 16)), hexChar (lastDigit c.toNat)]

/-- A character inside a string. Control characters, the quotation mark and the
backslash must be escaped; `<`, `>`, `&` and the two line separators are, so
that the text can stand in a web page. -/
def escapeChar (c : Char) : List Char :=
  if c = '\x22' ∨ c = '\\' then ['\\', c]
  else if c = '\x08' then ['\\', 'b']
  else if c = '\x0c' then ['\\', 'f']
  else if c = '\n' then ['\\', 'n']
  else if c = '\r' then ['\\', 'r']
  else if c = '\t' then ['\\', 't']
  else if c.toNat < 0x20 ∨ c = '<' ∨ c = '>' ∨ c = '&' then unicodeEscape c
  else if c = '\u2028' then ['\\', 'u', '2', '0', '2', '8']
  else if c = '\u2029' then ['\\', 'u', '2', '0', '2', '9']
  else [c]

/-- A string with its quotation marks. -/
def writeString (s : String) : List Char := '\x22' :: s.toList.flatMap escapeChar ++ ['\x22']

def writeMember (field : String × String) : List Char :=
  writeString field.1 ++ ':' :: writeString field.2

def writeMembers : List (String × String) → List Char
  | [] => []
  | [f] => writeMember f
  | f :: fs => writeMember f ++ ',' :: writeMembers fs

/-- A flat object of strings. -/
def writeObject (fields : List (String × String)) : String :=
  String.ofList ('\x7b' :: writeMembers fields ++ ['\x7d'])

/-! ## 1. Fuel -/

namespace JsonLemmas

theorem skipWs_length_le (cs : List Char) : (skipWs cs).length ≤ cs.length :=
  (List.dropWhile_sublist _).length_le

theorem skipWs_length_lt {cs cs' : List Char} {c : Char} (h : skipWs cs = c :: cs') :
    cs'.length < cs.length := by
  have hle := skipWs_length_le cs
  rw [h, List.length_cons] at hle
  omega

theorem span_length {p : Char → Bool} {cs ds r : List Char} (h : cs.span p = (ds, r)) :
    ds.length + r.length = cs.length := by
  rw [List.span_eq_takeWhile_dropWhile, Prod.mk.injEq] at h
  obtain ⟨rfl, rfl⟩ := h
  rw [← List.length_append, List.takeWhile_append_dropWhile]

theorem readInt_length {cs ds r : List Char} (h : readInt cs = some (ds, r)) :
    r.length < cs.length := by
  unfold readInt at h
  split at h
  · cases h
  · next ds' r' hs =>
    have := span_length hs
    cases h
    simp only [List.length_cons, List.length_tail] at this ⊢
    omega
  · next ds' r' hne _ hs =>
    have := span_length hs
    cases h
    have hpos := List.length_pos_iff.mpr fun h₀ => hne h₀
    omega

theorem readFraction_length {cs ds r : List Char} (h : readFraction cs = some (ds, r)) :
    r.length ≤ cs.length := by
  unfold readFraction at h
  split at h
  · next cs' =>
    split at h
    · cases h
    · next hs =>
      have := span_length hs
      cases h
      rw [List.length_cons]
      omega
  · cases h
    exact Nat.le_refl _

theorem readExponentDigits_length {neg : Bool} {cs r : List Char} {e : Int}
    (h : readExponentDigits neg cs = some (e, r)) : r.length ≤ cs.length := by
  unfold readExponentDigits at h
  split at h
  · cases h
  · next hs =>
    have := span_length hs
    cases h
    omega

theorem readExponent_length {cs r : List Char} {e : Int} (h : readExponent cs = some (e, r)) :
    r.length ≤ cs.length := by
  unfold readExponent at h
  split at h
  · next c cs' =>
    split at h
    · rw [List.length_cons]
      split at h
      · have := readExponentDigits_length h
        rw [List.length_cons]
        omega
      · have := readExponentDigits_length h
        rw [List.length_cons]
        omega
      · have := readExponentDigits_length h
        omega
    · cases h
      exact Nat.le_refl _
  · cases h
    exact Nat.le_refl _

theorem readUnsigned_length {neg : Bool} {cs r : List Char} {n : Decimal}
    (h : readUnsigned neg cs = some (n, r)) : r.length < cs.length := by
  unfold readUnsigned at h
  simp only [Option.bind_eq_bind, Option.bind_eq_some_iff, Option.pure_def, Option.some.injEq,
    Prod.mk.injEq, Prod.exists] at h
  obtain ⟨int, cs₁, h₁, frac, cs₂, h₂, e, cs₃, h₃, -, rfl⟩ := h
  have := readInt_length h₁
  have := readFraction_length h₂
  have := readExponent_length h₃
  omega

theorem readNumber_length {cs r : List Char} {n : Decimal} (h : readNumber cs = some (n, r)) :
    r.length < cs.length := by
  unfold readNumber at h
  split at h
  · have := readUnsigned_length h
    rw [List.length_cons]
    omega
  · exact readUnsigned_length h

theorem consUnits_some {us : JsString} {o : Option (JsString × List Char)} {s : JsString}
    {r : List Char} (h : consUnits us o = some (s, r)) : ∃ s', o = some (s', r) := by
  cases o with
  | none => cases h
  | some p =>
    cases h
    exact ⟨p.1, rfl⟩

theorem readString_length {cs r : List Char} {s : JsString} (h : readString cs = some (s, r)) :
    r.length < cs.length := by
  fun_induction readString cs generalizing s with
  | case1 cs =>
    cases h
    rw [List.length_cons]
    omega
  | case2 a b c d cs u hu ih =>
    obtain ⟨s', hs'⟩ := consUnits_some h
    have := ih hs'
    simp only [List.length_cons]
    omega
  | case3 => cases h
  | case4 e cs _ u hu ih =>
    obtain ⟨s', hs'⟩ := consUnits_some h
    have := ih hs'
    simp only [List.length_cons]
    omega
  | case5 => cases h
  | case6 => cases h
  | case7 c cs _ _ _ _ ih =>
    obtain ⟨s', hs'⟩ := consUnits_some h
    have := ih hs'
    simp only [List.length_cons]
    omega
  | case8 => cases h

/-! Each reader leaves fewer characters than it is given. -/

theorem readValue_shorter {n : Nat}
    (ihe : ∀ {cs vs r}, readElements n cs = some (vs, r) → r.length < cs.length)
    (ihm : ∀ {cs ms r}, readMembers n cs = some (ms, r) → r.length < cs.length)
    {cs r : List Char} {v : Json} (h : readValue (n + 1) cs = some (v, r)) :
    r.length < cs.length := by
  refine Nat.lt_of_lt_of_le ?_ (skipWs_length_le cs)
  rw [readValue] at h
  generalize skipWs cs = cs' at h ⊢
  split at h
  · cases h
    simp only [List.length_cons]
    omega
  · cases h
    simp only [List.length_cons]
    omega
  · cases h
    simp only [List.length_cons]
    omega
  · obtain ⟨⟨s, r'⟩, hs, hr⟩ := Option.map_eq_some_iff.mp h
    have := readString_length hs
    cases hr
    rw [List.length_cons]
    omega
  · next cs₁ =>
    have := skipWs_length_le cs₁
    rw [List.length_cons]
    split at h
    · next hb =>
      have := skipWs_length_lt hb
      cases h
      omega
    · obtain ⟨⟨vs, r'⟩, hvs, hr⟩ := Option.map_eq_some_iff.mp h
      have := ihe hvs
      cases hr
      omega
  · next cs₁ =>
    have := skipWs_length_le cs₁
    rw [List.length_cons]
    split at h
    · next hb =>
      have := skipWs_length_lt hb
      cases h
      omega
    · obtain ⟨⟨ms, r'⟩, hms, hr⟩ := Option.map_eq_some_iff.mp h
      have := ihm hms
      cases hr
      omega
  · obtain ⟨⟨d, r'⟩, hd, hr⟩ := Option.map_eq_some_iff.mp h
    cases hr
    exact readNumber_length hd

theorem readElements_shorter {n : Nat}
    (ihv : ∀ {cs v r}, readValue n cs = some (v, r) → r.length < cs.length)
    (ihe : ∀ {cs vs r}, readElements n cs = some (vs, r) → r.length < cs.length)
    {cs r : List Char} {vs : List Json} (h : readElements (n + 1) cs = some (vs, r)) :
    r.length < cs.length := by
  rw [readElements] at h
  split at h
  · cases h
  · next hv =>
    have := ihv hv
    split at h
    · next hc =>
      have := skipWs_length_lt hc
      obtain ⟨⟨vs', r'⟩, hvs, hr⟩ := Option.map_eq_some_iff.mp h
      have := ihe hvs
      cases hr
      omega
    · next hc =>
      have := skipWs_length_lt hc
      cases h
      omega
    · cases h

theorem readMembers_shorter {n : Nat}
    (ihv : ∀ {cs v r}, readValue n cs = some (v, r) → r.length < cs.length)
    (ihm : ∀ {cs ms r}, readMembers n cs = some (ms, r) → r.length < cs.length)
    {cs r : List Char} {ms : List (JsString × Json)}
    (h : readMembers (n + 1) cs = some (ms, r)) : r.length < cs.length := by
  rw [readMembers] at h
  split at h
  · next hq =>
    have := skipWs_length_lt hq
    split at h
    · cases h
    · next hk =>
      have := readString_length hk
      split at h
      · next hcol =>
        have := skipWs_length_lt hcol
        split at h
        · cases h
        · next hv =>
          have := ihv hv
          split at h
          · next hc =>
            have := skipWs_length_lt hc
            obtain ⟨⟨ms', r'⟩, hms, hr⟩ := Option.map_eq_some_iff.mp h
            have := ihm hms
            cases hr
            omega
          · next hc =>
            have := skipWs_length_lt hc
            cases h
            omega
          · cases h
      · cases h
  · cases h

theorem read_shorter (n : Nat) :
    (∀ {cs v r}, readValue n cs = some (v, r) → r.length < cs.length) ∧
    (∀ {cs vs r}, readElements n cs = some (vs, r) → r.length < cs.length) ∧
    (∀ {cs ms r}, readMembers n cs = some (ms, r) → r.length < cs.length) := by
  induction n with
  | zero => refine ⟨fun h => ?_, fun h => ?_, fun h => ?_⟩ <;> cases h
  | succ n ih =>
    obtain ⟨ihv, ihe, ihm⟩ := ih
    exact ⟨readValue_shorter ihe ihm, readElements_shorter ihv ihe, readMembers_shorter ihv ihm⟩

/-! A reader that succeeds with `n` fuel succeeds in the same way with any fuel
over twice the number of characters. -/

theorem readValue_fuel {n : Nat}
    (ihe : ∀ {cs x m}, readElements n cs = some x → 2 * cs.length + 1 < m →
      readElements m cs = some x)
    (ihm : ∀ {cs x m}, readMembers n cs = some x → 2 * cs.length + 1 < m →
      readMembers m cs = some x)
    {cs : List Char} {x : Json × List Char} {m : Nat} (h : readValue (n + 1) cs = some x)
    (hm : 2 * cs.length < m) : readValue m cs = some x := by
  obtain ⟨k, rfl⟩ : ∃ k, m = k + 1 := ⟨m - 1, by omega⟩
  have hle := skipWs_length_le cs
  rw [readValue] at h ⊢
  generalize skipWs cs = cs' at h hle ⊢
  split at h
  · exact h
  · exact h
  · exact h
  · exact h
  · next cs₁ =>
    have hws := skipWs_length_le cs₁
    rw [List.length_cons] at hle
    generalize skipWs cs₁ = cs₂ at h hws ⊢
    split at h
    · exact h
    · obtain ⟨p, hp, rfl⟩ := Option.map_eq_some_iff.mp h
      rw [ihe (m := k) hp (by omega)]
      rfl
  · next cs₁ =>
    have hws := skipWs_length_le cs₁
    rw [List.length_cons] at hle
    generalize skipWs cs₁ = cs₂ at h hws ⊢
    split at h
    · exact h
    · obtain ⟨p, hp, rfl⟩ := Option.map_eq_some_iff.mp h
      rw [ihm (m := k) hp (by omega)]
      rfl
  · exact h

theorem readElements_fuel {n : Nat}
    (ihv : ∀ {cs x m}, readValue n cs = some x → 2 * cs.length < m → readValue m cs = some x)
    (ihe : ∀ {cs x m}, readElements n cs = some x → 2 * cs.length + 1 < m →
      readElements m cs = some x)
    {cs : List Char} {x : List Json × List Char} {m : Nat} (h : readElements (n + 1) cs = some x)
    (hm : 2 * cs.length + 1 < m) : readElements m cs = some x := by
  obtain ⟨k, rfl⟩ : ∃ k, m = k + 1 := ⟨m - 1, by omega⟩
  rw [readElements] at h ⊢
  cases hv : readValue n cs with
  | none =>
    rw [hv] at h
    cases h
  | some p =>
    obtain ⟨v, cs₁⟩ := p
    have hlen := (read_shorter n).1 hv
    have hws := skipWs_length_le cs₁
    rw [hv] at h
    rw [ihv (m := k) hv (by omega)]
    dsimp only at h ⊢
    generalize skipWs cs₁ = cs₂ at h hws ⊢
    split at h
    · obtain ⟨q, hq, rfl⟩ := Option.map_eq_some_iff.mp h
      rw [List.length_cons] at hws
      rw [ihe (m := k) hq (by omega)]
      rfl
    · exact h
    · cases h

theorem readMembers_fuel {n : Nat}
    (ihv : ∀ {cs x m}, readValue n cs = some x → 2 * cs.length < m → readValue m cs = some x)
    (ihm : ∀ {cs x m}, readMembers n cs = some x → 2 * cs.length + 1 < m →
      readMembers m cs = some x)
    {cs : List Char} {x : List (JsString × Json) × List Char} {m : Nat}
    (h : readMembers (n + 1) cs = some x) (hm : 2 * cs.length + 1 < m) :
    readMembers m cs = some x := by
  obtain ⟨k, rfl⟩ : ∃ k, m = k + 1 := ⟨m - 1, by omega⟩
  have hle := skipWs_length_le cs
  rw [readMembers] at h ⊢
  generalize skipWs cs = cs' at h hle ⊢
  split at h
  · next cs₁ =>
    cases hk : readString cs₁ with
    | none =>
      rw [hk] at h
      cases h
    | some p =>
      obtain ⟨key, cs₂⟩ := p
      have hlen := readString_length hk
      have hws := skipWs_length_le cs₂
      rw [List.length_cons] at hle
      rw [hk] at h
      dsimp only at h ⊢
      generalize skipWs cs₂ = cs₃ at h hws ⊢
      split at h
      · next cs₄ =>
        rw [List.length_cons] at hws
        cases hv : readValue n cs₄ with
        | none =>
          rw [hv] at h
          cases h
        | some q =>
          obtain ⟨v, cs₅⟩ := q
          have hlen' := (read_shorter n).1 hv
          have hws' := skipWs_length_le cs₅
          rw [hv] at h
          rw [ihv (m := k) hv (by omega)]
          dsimp only at h ⊢
          generalize skipWs cs₅ = cs₆ at h hws' ⊢
          split at h
          · obtain ⟨q, hq, rfl⟩ := Option.map_eq_some_iff.mp h
            rw [List.length_cons] at hws'
            rw [ihm (m := k) hq (by omega)]
            rfl
          · exact h
          · cases h
      · cases h
  · cases h

theorem read_fuel (n : Nat) :
    (∀ {cs x m}, readValue n cs = some x → 2 * cs.length < m → readValue m cs = some x) ∧
    (∀ {cs x m}, readElements n cs = some x → 2 * cs.length + 1 < m →
      readElements m cs = some x) ∧
    (∀ {cs x m}, readMembers n cs = some x → 2 * cs.length + 1 < m →
      readMembers m cs = some x) := by
  induction n with
  | zero => refine ⟨fun h _ => ?_, fun h _ => ?_, fun h _ => ?_⟩ <;> cases h
  | succ n ih =>
    obtain ⟨ihv, ihe, ihm⟩ := ih
    exact ⟨readValue_fuel ihe ihm, readElements_fuel ihv ihe, readMembers_fuel ihv ihm⟩

end JsonLemmas

open JsonLemmas

/-- More than twice as much fuel as there are characters is as good as any. -/
theorem fuel_enough {n m : Nat} {cs : List Char} {x : Json × List Char}
    (h : readValue n cs = some x) (hm : 2 * cs.length < m) : readValue m cs = some x :=
  (read_fuel n).1 h hm

/-- A text parses to `v` when the reader, with whatever fuel, reads `v` and
leaves only white space. -/
theorem parse_eq_some {s : String} {v : Json} :
    parse s = some v ↔ ∃ n cs, readValue n s.toList = some (v, cs) ∧ skipWs cs = [] := by
  unfold parse
  constructor
  · intro h
    split at h
    · next v' cs hr =>
      split at h
      · next hws =>
        cases h
        exact ⟨_, cs, hr, hws⟩
      · cases h
    · cases h
  · rintro ⟨n, cs, hr, hws⟩
    rw [fuel_enough hr (m := 2 * s.toList.length + 1) (by omega)]
    simp [hws]

/-! ## 2. Round trip -/

namespace JsonLemmas

@[simp] theorem hexVal_hexChar (n : Fin 16) : hexVal (hexChar n) = some n := by
  revert n
  decide

theorem readString_unit {a b c d : Char} {u : UInt16} {cs : List Char}
    (h : hexUnit a b c d = some u) :
    readString ('\\' :: 'u' :: a :: b :: c :: d :: cs) = consUnits [u] (readString cs) := by
  rw [readString, h]

theorem readString_escaped {c : Char} {u : UInt16} {cs : List Char} (h : escaped c = some u) :
    readString ('\\' :: c :: cs) = consUnits [u] (readString cs) := by
  have hu : c ≠ 'u' := by
    rintro rfl
    have hnone : escaped 'u' = none := by decide
    rw [hnone] at h
    cases h
  rw [readString.eq_3 _ _ (fun _ _ _ _ _ hc _ => hu hc), h]

theorem readString_raw {c : Char} {cs : List Char} (hq : c ≠ '\x22') (hb : c ≠ '\\')
    (hc : ¬ c.toNat < 0x20) :
    readString (c :: cs) = consUnits (encodeUtf16 c) (readString cs) := by
  rw [readString.eq_4 _ _ hq (fun _ _ _ _ _ h _ => hb h) (fun _ _ h _ => hb h),
    if_neg (not_or.mpr ⟨hc, hb⟩)]

theorem encodeUtf16_of_lt {c : Char} (h : c.toNat < 0x10000) :
    encodeUtf16 c = [UInt16.ofNat c.toNat] := if_pos h

theorem hexChar_ascii : ∀ n, (hexChar n).toNat < 0x80 := by decide

/-- A character of a string is escaped by a letter or by its number, or it stands for itself. -/
theorem escapeChar_cases (c : Char) :
    (∃ e u, escapeChar c = ['\\', e] ∧ e.toNat < 0x80 ∧ escaped e = some u ∧
      encodeUtf16 c = [u]) ∨
    (∃ x y z w u, escapeChar c = ['\\', 'u', x, y, z, w] ∧ (∀ d ∈ [x, y, z, w], d.toNat < 0x80) ∧
      hexUnit x y z w = some u ∧ encodeUtf16 c = [u]) ∨
    (escapeChar c = [c] ∧ c ≠ '\x22' ∧ c ≠ '\\' ∧ ¬ c.toNat < 0x20) := by
  by_cases hquote : c = '\x22' ∨ c = '\\'
  · refine .inl ?_
    rcases hquote with rfl | rfl <;> exact ⟨_, _, rfl, by decide, rfl, rfl⟩
  by_cases hshort : c ∈ ['\x08', '\x0c', '\n', '\r', '\t']
  · refine .inl ?_
    simp only [List.mem_cons, List.not_mem_nil, or_false] at hshort
    rcases hshort with rfl | rfl | rfl | rfl | rfl <;> exact ⟨_, _, rfl, by decide, rfl, rfl⟩
  by_cases hline : c = '\u2028' ∨ c = '\u2029'
  · refine .inr (.inl ?_)
    rcases hline with rfl | rfl <;> exact ⟨_, _, _, _, _, rfl, by simp, rfl, rfl⟩
  obtain ⟨hq, hback⟩ := not_or.mp hquote
  obtain ⟨h28, h29⟩ := not_or.mp hline
  simp only [List.mem_cons, List.not_mem_nil, or_false, not_or] at hshort
  obtain ⟨hb, hf, hn, hr, ht⟩ := hshort
  rw [escapeChar, if_neg hquote, if_neg hb, if_neg hf, if_neg hn, if_neg hr, if_neg ht,
    if_neg h28, if_neg h29]
  by_cases hnumber : c.toNat < 0x20 ∨ c = '<' ∨ c = '>' ∨ c = '&'
  · have hlt : c.toNat < 0x100 := by
      rcases hnumber with h | rfl | rfl | rfl
      · exact h.trans (by decide)
      · decide
      · decide
      · decide
    rw [if_pos hnumber]
    refine .inr (.inl ⟨_, _, _, _, _, rfl, ?_, ?_, encodeUtf16_of_lt (hlt.trans (by decide))⟩)
    · simp [hexChar_ascii]
    · -- the escape of a control character starts with two zeros
      have h0 : hexVal '0' = some 0 := by decide
      simp only [hexUnit, hexVal_hexChar, h0, lastDigit_val, Option.some.injEq]
      congr 1
      omega
  · rw [if_neg hnumber]
    exact .inr (.inr ⟨rfl, hq, hback, fun h => hnumber (.inl h)⟩)

theorem readString_escapeChar (c : Char) (cs : List Char) :
    readString (escapeChar c ++ cs) = consUnits (encodeUtf16 c) (readString cs) := by
  rcases escapeChar_cases c with ⟨e, u, heq, -, he, hu⟩ | ⟨x, y, z, w, u, heq, -, hunit, hu⟩ |
    ⟨heq, hq, hb, hc⟩
  · rw [heq, hu]
    exact readString_escaped he
  · rw [heq, hu]
    exact readString_unit hunit
  · rw [heq]
    exact readString_raw hq hb hc

theorem readString_flatMap (l cs : List Char) :
    readString (l.flatMap escapeChar ++ '\x22' :: cs) = some (l.flatMap encodeUtf16, cs) := by
  induction l with
  | nil => simp [readString]
  | cons c l ih =>
    rw [List.flatMap_cons, List.append_assoc, readString_escapeChar, ih]
    rfl

theorem readString_writeString (s : String) (cs : List Char) :
    readString ((writeString s).tail ++ cs) = some (utf16 s, cs) := by
  unfold writeString
  rw [List.cons_append, List.tail_cons, List.append_assoc, List.singleton_append,
    readString_flatMap]
  rfl

theorem writeString_eq (s : String) : writeString s = '\x22' :: (writeString s).tail := rfl

theorem skipWs_cons {c : Char} {cs : List Char}
    (h : (c == ' ' || c == '\t' || c == '\n' || c == '\r') = false) : skipWs (c :: cs) = c :: cs := by
  unfold skipWs
  rw [List.dropWhile_cons, if_neg (by simp [h])]

theorem readValue_writeString (n : Nat) (s : String) (cs : List Char) :
    readValue (n + 1) (writeString s ++ cs) = some (.str (utf16 s), cs) := by
  rw [writeString_eq, List.cons_append, readValue, skipWs_cons (by decide)]
  simp [readString_writeString]

end JsonLemmas

/-- A text that is read as the string `s`, after the opening quotation mark. -/
def Quotes (w : List Char) (s : JsString) : Prop := ∀ cs, readString (w ++ cs) = some (s, cs)

/-- A text that is read as `v` when a comma or a closing brace follows. -/
def Denotes (w : List Char) (v : Json) : Prop :=
  ∀ n c cs, c = ',' ∨ c = '\x7d' → readValue (n + 1) (w ++ c :: cs) = some (v, c :: cs)

/-- A member of an object with its text: the key after its opening quotation mark, and
the value. -/
structure MemberText where
  key : JsString
  value : Json
  keyText : List Char
  valueText : List Char
  quotes : Quotes keyText key
  denotes : Denotes valueText value

def MemberText.chars (m : MemberText) : List Char := '\x22' :: m.keyText ++ ':' :: m.valueText

def MemberText.member (m : MemberText) : JsString × Json := (m.key, m.value)

/-- The texts of members, with commas between them. -/
def membersText : List MemberText → List Char
  | [] => []
  | [m] => m.chars
  | m :: ms => m.chars ++ ',' :: membersText ms

def objectText (ms : List MemberText) : String :=
  String.ofList ('\x7b' :: membersText ms ++ ['\x7d'])

namespace JsonLemmas

theorem readMembers_member (n : Nat) (m : MemberText) (c : Char) (cs : List Char)
    (hc : c = ',' ∨ c = '\x7d') :
    readMembers (n + 2) (m.chars ++ c :: cs) =
      if c = ',' then (readMembers (n + 1) cs).map fun (ms, cs) => (m.member :: ms, cs)
      else some ([m.member], cs) := by
  unfold MemberText.chars MemberText.member
  rw [List.append_assoc, List.cons_append, readMembers, skipWs_cons (by decide)]
  simp only [List.cons_append, m.quotes _]
  rw [skipWs_cons (by decide)]
  simp only [m.denotes n c cs hc]
  obtain rfl | rfl := hc
  · rw [skipWs_cons (by decide)]
    rfl
  · rw [skipWs_cons (by decide)]
    rfl

theorem readMembers_membersText (ms : List MemberText) (hne : ms ≠ []) (n : Nat)
    (hn : ms.length < n) (cs : List Char) :
    readMembers n (membersText ms ++ '\x7d' :: cs) = some (ms.map MemberText.member, cs) := by
  induction ms generalizing n with
  | nil => exact absurd rfl hne
  | cons m ms ih =>
    obtain ⟨k, rfl⟩ : ∃ k, n = k + 2 := ⟨n - 2, by simp only [List.length_cons] at hn; omega⟩
    cases ms with
    | nil => exact readMembers_member k m _ cs (.inr rfl)
    | cons m' ms =>
      have hk : (m' :: ms).length < k + 1 := by
        simp only [List.length_cons] at hn ⊢
        omega
      rw [membersText, List.append_assoc, List.cons_append, readMembers_member k m _ _ (.inl rfl),
        if_pos rfl, ih (List.cons_ne_nil _ _) (k + 1) hk]
      · rfl
      · exact fun h => List.cons_ne_nil _ _ h

theorem membersText_cons (m : MemberText) (ms : List MemberText) :
    ∃ cs, membersText (m :: ms) = '\x22' :: cs := by
  cases ms with
  | nil => exact ⟨_, rfl⟩
  | cons m' ms => exact ⟨_, rfl⟩

theorem readValue_members (n : Nat) (cs : List Char) :
    readValue (n + 1) ('\x7b' :: '\x22' :: cs) =
      (readMembers n ('\x22' :: cs)).map fun (ms, cs) => (.obj ms, cs) := by
  rw [readValue, skipWs_cons (by decide)]
  rfl

end JsonLemmas

/-- The text of an object is read as the object of its members. -/
theorem parse_objectText (ms : List MemberText) :
    parse (objectText ms) = some (.obj (ms.map MemberText.member)) := by
  refine parse_eq_some.mpr ⟨ms.length + 2, [], ?_, rfl⟩
  unfold objectText
  rw [String.toList_ofList, List.cons_append]
  cases ms with
  | nil => rfl
  | cons m ms =>
    have h := readMembers_membersText (m :: ms) (List.cons_ne_nil _ _) (ms.length + 2)
      (by rw [List.length_cons]; omega) []
    obtain ⟨cs, hcs⟩ := membersText_cons m ms
    rw [hcs, List.cons_append] at h ⊢
    rw [List.length_cons, readValue_members, h]
    rfl

/-- The members that `writeMember` writes. -/
def stringMember (field : String × String) : MemberText where
  key := utf16 field.1
  value := .str (utf16 field.2)
  keyText := (writeString field.1).tail
  valueText := writeString field.2
  quotes := readString_writeString field.1
  denotes n c cs _ := readValue_writeString n field.2 (c :: cs)

theorem membersText_stringMember (fs : List (String × String)) :
    membersText (fs.map stringMember) = writeMembers fs := by
  induction fs with
  | nil => rfl
  | cons f fs ih =>
    cases fs with
    | nil => rfl
    | cons g fs =>
      rw [List.map_cons, List.map_cons, membersText, ← List.map_cons, ih]
      · rfl
      · exact fun h => List.cons_ne_nil _ _ h

/-- What `writeObject` writes is a text of the object of these members. -/
theorem parse_writeObject (fs : List (String × String)) :
    parse (writeObject fs) = some (.obj (fs.map fun f => (utf16 f.1, .str (utf16 f.2)))) := by
  rw [writeObject, ← membersText_stringMember]
  exact (parse_objectText (fs.map stringMember)).trans (by rw [List.map_map]; rfl)

/-! ## 3. Integers -/

/-- An integer, in digits without leading zeros. -/
def intText (n : Int) : List Char :=
  if n < 0 then '-' :: Nat.toDigits 10 n.natAbs else Nat.toDigits 10 n.natAbs

def ofInt (n : Int) : Json := .num ⟨decide (n < 0), n.natAbs, 0⟩

namespace JsonLemmas

theorem isDigit_of_mem {n : Nat} {c : Char} (h : c ∈ Nat.toDigits 10 n) : isDigit c = true := by
  have hdigit := Nat.isDigit_of_mem_toDigits (by decide) (by decide) h
  simp only [Char.isDigit, Bool.and_eq_true, decide_eq_true_eq] at hdigit
  simp only [isDigit, Bool.and_eq_true, decide_eq_true_eq]
  exact ⟨UInt32.le_iff_toNat_le.mp hdigit.1, UInt32.le_iff_toNat_le.mp hdigit.2⟩

theorem toDigits_head {n : Nat} (h : n ≠ 0) : ∃ d ds, Nat.toDigits 10 n = d :: ds ∧ d ≠ '0' := by
  induction n using Nat.strongRecOn with
  | ind n ih =>
    by_cases hlt : n < 10
    · refine ⟨_, _, Nat.toDigits_of_lt_base hlt, ?_⟩
      have hall : ∀ m < 10, m ≠ 0 → Nat.digitChar m ≠ '0' := by decide
      exact hall n hlt h
    · obtain ⟨d, ds, hd, hne⟩ := ih (n / 10) (by omega) (by omega)
      rw [Nat.toDigits_of_base_le (by decide) (by omega), hd]
      exact ⟨d, _, rfl, hne⟩

theorem natOfDigits_toDigits (n : Nat) : natOfDigits (Nat.toDigits 10 n) = n := by
  have h := Nat.ofDigitChars_ten_toDigits (n := n)
  simp only [Nat.ofDigitChars_eq_foldl, Nat.mul_comm 10] at h
  exact h

theorem readInt_toDigits (n : Nat) {c : Char} (hc : isDigit c = false) (cs : List Char) :
    readInt (Nat.toDigits 10 n ++ c :: cs) = some (Nat.toDigits 10 n, c :: cs) := by
  have hspan : (Nat.toDigits 10 n ++ c :: cs).span isDigit = (Nat.toDigits 10 n, c :: cs) := by
    rw [List.span_eq_takeWhile_dropWhile, List.takeWhile_append_of_pos fun _ => isDigit_of_mem,
      List.dropWhile_append_of_pos fun _ => isDigit_of_mem,
      List.takeWhile_cons_of_neg (by simp [hc]), List.dropWhile_cons_of_neg (by simp [hc]),
      List.append_nil]
  unfold readInt
  rw [hspan]
  by_cases hn : n = 0
  · subst hn
    rfl
  · obtain ⟨d, ds, hd, hne⟩ := toDigits_head hn
    rw [hd]
    split
    · next h => cases h
    · next h =>
      cases h
      exact absurd rfl hne
    · next h =>
      cases h
      rfl

theorem readUnsigned_toDigits (negative : Bool) (n : Nat) {c : Char} (cs : List Char)
    (hc : c = ',' ∨ c = '\x7d') :
    readUnsigned negative (Nat.toDigits 10 n ++ c :: cs) = some (⟨negative, n, 0⟩, c :: cs) := by
  have hdigit : isDigit c = false := by
    obtain rfl | rfl := hc <;> decide
  have hfraction : readFraction (c :: cs) = some ([], c :: cs) := by
    obtain rfl | rfl := hc <;> rfl
  have hexponent : readExponent (c :: cs) = some (0, c :: cs) := by
    obtain rfl | rfl := hc <;> rfl
  unfold readUnsigned
  rw [readInt_toDigits n hdigit]
  simp [hfraction, hexponent, natOfDigits_toDigits]

theorem readNumber_intText (n : Int) {c : Char} (cs : List Char) (hc : c = ',' ∨ c = '\x7d') :
    readNumber (intText n ++ c :: cs) = some (⟨decide (n < 0), n.natAbs, 0⟩, c :: cs) := by
  unfold intText
  split
  · next h =>
    show readUnsigned true (Nat.toDigits 10 n.natAbs ++ c :: cs) = _
    rw [readUnsigned_toDigits true _ cs hc, decide_eq_true h]
  · next h =>
    rw [← readUnsigned_toDigits (decide (n < 0)) _ cs hc, decide_eq_false h]
    unfold readNumber
    split
    · next ds hminus =>
      -- the first character is a digit
      have hmem : '-' ∈ Nat.toDigits 10 n.natAbs := by
        cases hd : Nat.toDigits 10 n.natAbs with
        | nil => exact absurd hd Nat.toDigits_ne_nil
        | cons d ds' =>
          rw [hd, List.cons_append] at hminus
          cases hminus
          exact List.mem_cons_self
      exact absurd (isDigit_of_mem hmem) (by decide)
    · rfl

theorem intText_head (n : Int) : ∃ d ds, intText n = d :: ds ∧ (d = '-' ∨ isDigit d = true) := by
  unfold intText
  split
  · exact ⟨_, _, rfl, .inl rfl⟩
  · cases hd : Nat.toDigits 10 n.natAbs with
    | nil => exact absurd hd Nat.toDigits_ne_nil
    | cons d ds => exact ⟨d, ds, rfl, .inr (isDigit_of_mem (hd ▸ List.mem_cons_self))⟩

theorem readValue_number (fuel : Nat) {d : Char} (cs : List Char) (hd : d = '-' ∨ isDigit d = true) :
    readValue (fuel + 1) (d :: cs) = (readNumber (d :: cs)).map fun (n, cs) => (.num n, cs) := by
  have hne : ∀ e : Char, e ≠ '-' → isDigit e = false → d ≠ e := by
    rintro e h₁ h₂ rfl
    obtain h | h := hd
    · exact h₁ h
    · rw [h₂] at h
      cases h
  rw [readValue, skipWs_cons (by
    simp [hne ' ' (by decide) (by decide), hne '\t' (by decide) (by decide),
      hne '\n' (by decide) (by decide), hne '\r' (by decide) (by decide)])]
  split
  · next h => exact absurd (List.cons.inj h).1 (hne _ (by decide) (by decide))
  · next h => exact absurd (List.cons.inj h).1 (hne _ (by decide) (by decide))
  · next h => exact absurd (List.cons.inj h).1 (hne _ (by decide) (by decide))
  · next h => exact absurd (List.cons.inj h).1 (hne _ (by decide) (by decide))
  · next h => exact absurd (List.cons.inj h).1 (hne _ (by decide) (by decide))
  · next h => exact absurd (List.cons.inj h).1 (hne _ (by decide) (by decide))
  · rfl

theorem denotes_intText (n : Int) : Denotes (intText n) (ofInt n) := by
  intro fuel c cs hc
  have hread := readNumber_intText n cs hc
  obtain ⟨d, ds, hd, hstart⟩ := intText_head n
  rw [hd, List.cons_append] at hread ⊢
  rw [readValue_number fuel _ hstart, hread]
  rfl

end JsonLemmas

/-- A member with an integer. -/
def intMember (field : String × Int) : MemberText where
  key := utf16 field.1
  value := ofInt field.2
  keyText := (writeString field.1).tail
  valueText := intText field.2
  quotes := readString_writeString field.1
  denotes := denotes_intText field.2

end Encoding
