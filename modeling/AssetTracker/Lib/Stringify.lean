import AssetTracker.Lib.Json

/-!
# `JSON.stringify` of objects of strings

The strings are JavaScript's: any code units. A surrogate without its partner is
written as an escape, so the text that comes out is well formed, and the reader
gets back the very code units.

`parse_stringify`: the object is read back, without its `undefined` members.
-/

namespace Encoding

open Text

/-! ## Writing -/

/-- Four hexadecimal digits, in lower case. -/
def hexEscape (u : UInt16) : List Char :=
  ['\\', 'u', hexChar (lastDigit (u.toNat / 4096)), hexChar (lastDigit (u.toNat / 256)),
    hexChar (lastDigit (u.toNat / 16)), hexChar (lastDigit u.toNat)]

/-- A code unit that stands alone. -/
def quoteUnit (u : UInt16) : List Char :=
  if u = 8 then ['\\', 'b']
  else if u = 9 then ['\\', 't']
  else if u = 10 then ['\\', 'n']
  else if u = 12 then ['\\', 'f']
  else if u = 13 then ['\\', 'r']
  else if u = 0x22 then ['\\', '\x22']
  else if u = 0x5C then ['\\', '\\']
  else if u.toNat < 0x20 ∨ (0xD800 ≤ u.toNat ∧ u.toNat ≤ 0xDFFF) then hexEscape u
  else [Char.ofNat u.toNat]

/-- `QuoteJSONString`, without the quotation marks. Surrogates that pair are one character. -/
def quoteUnits : JsString → List Char
  | [] => []
  | [u] => quoteUnit u
  | u :: v :: us =>
    if (0xD800 ≤ u.toNat ∧ u.toNat < 0xDC00) ∧ 0xDC00 ≤ v.toNat ∧ v.toNat < 0xE000 then
      Char.ofNat (0x10000 + (u.toNat - 0xD800) * 0x400 + (v.toNat - 0xDC00)) :: quoteUnits us
    else quoteUnit u ++ quoteUnits (v :: us)

/-! ## Reading back -/

namespace StringifyLemmas

open JsonLemmas

theorem readString_hexEscape (u : UInt16) (cs : List Char) :
    readString (hexEscape u ++ cs) = consUnits [u] (readString cs) := by
  refine readString_unit ?_
  simp only [hexUnit, hexVal_hexChar, lastDigit_val, Option.some.injEq]
  rw [← UInt16.toNat_inj, UInt16.toNat_ofNat']
  have := u.toNat_lt
  omega

/-- A code unit that is no surrogate is a character of its own. -/
theorem encodeUtf16_unit {u : UInt16} (h : ¬ (0xD800 ≤ u.toNat ∧ u.toNat ≤ 0xDFFF)) :
    (Char.ofNat u.toNat).toNat = u.toNat ∧ encodeUtf16 (Char.ofNat u.toNat) = [u] := by
  have hlt := u.toNat_lt
  have hnat : (Char.ofNat u.toNat).toNat = u.toNat :=
    toNat_charOfNat (by unfold Nat.isValidChar; omega)
  refine ⟨hnat, ?_⟩
  rw [encodeUtf16_of_lt (by omega), hnat]
  simp

theorem readString_quoteUnit (u : UInt16) (cs : List Char) :
    readString (quoteUnit u ++ cs) = consUnits [u] (readString cs) := by
  unfold quoteUnit
  split
  · next h => subst h; exact readString_escaped rfl
  split
  · next h => subst h; exact readString_escaped rfl
  split
  · next h => subst h; exact readString_escaped rfl
  split
  · next h => subst h; exact readString_escaped rfl
  split
  · next h => subst h; exact readString_escaped rfl
  split
  · next h => subst h; exact readString_escaped rfl
  split
  · next h => subst h; exact readString_escaped rfl
  split
  · exact readString_hexEscape u cs
  · next hq hb hc =>
    obtain ⟨hnat, henc⟩ := encodeUtf16_unit (u := u) (fun h => hc (.inr h))
    have hne (n : UInt16) (hn : n.toNat < 0xD800) (hu : u ≠ n) :
        Char.ofNat u.toNat ≠ Char.ofNat n.toNat := by
      intro heq
      have hval := congrArg Char.toNat heq
      rw [hnat, (encodeUtf16_unit (u := n) (by omega)).1] at hval
      exact hu (UInt16.toNat_inj.mp hval)
    rw [← henc]
    exact readString_raw (hne 0x22 (by decide) hq) (hne 0x5C (by decide) hb)
      (fun h => hc (.inl (hnat ▸ h)))

/-- A pair of surrogates is one character, and reads as the pair. -/
theorem readString_pair {u v : UInt16} (hu : 0xD800 ≤ u.toNat ∧ u.toNat < 0xDC00)
    (hv : 0xDC00 ≤ v.toNat ∧ v.toNat < 0xE000) (cs : List Char) :
    readString (Char.ofNat (0x10000 + (u.toNat - 0xD800) * 0x400 + (v.toNat - 0xDC00)) :: cs) =
      consUnits [u, v] (readString cs) := by
  have hnat := toNat_charOfNat
    (n := 0x10000 + (u.toNat - 0xD800) * 0x400 + (v.toNat - 0xDC00))
    (by unfold Nat.isValidChar; omega)
  generalize Char.ofNat (0x10000 + (u.toNat - 0xD800) * 0x400 + (v.toNat - 0xDC00)) = c at hnat ⊢
  have henc : encodeUtf16 c = [u, v] := by
    have hu' : 0xD800 + (c.toNat - 0x10000) / 0x400 = u.toNat := by omega
    have hv' : 0xDC00 + (c.toNat - 0x10000) % 0x400 = v.toNat := by omega
    rw [encodeUtf16, if_neg (by omega), hu', hv', UInt16.ofNat_toNat, UInt16.ofNat_toNat]
  have hne (d : Char) (hd : d.toNat < 0x10000) : c ≠ d := by
    rintro rfl
    omega
  rw [← henc]
  exact readString_raw (hne '\x22' (by decide)) (hne '\\' (by decide)) (by omega)

theorem consUnits_consUnits (us vs : JsString) (o : Option (JsString × List Char)) :
    consUnits us (consUnits vs o) = consUnits (us ++ vs) o := by
  cases o with
  | none => rfl
  | some p => exact congrArg some (Prod.ext (List.append_assoc _ _ _).symm rfl)

theorem readString_quoteUnits (s : JsString) (cs : List Char) :
    readString (quoteUnits s ++ cs) = consUnits s (readString cs) := by
  fun_induction quoteUnits s with
  | case1 =>
    rw [List.nil_append]
    obtain _ | p := readString cs <;> rfl
  | case2 u => exact readString_quoteUnit u cs
  | case3 u v us h ih =>
    rw [List.cons_append, readString_pair h.1 h.2, ih, consUnits_consUnits]
    rfl
  | case4 u v us h ih =>
    rw [List.append_assoc, readString_quoteUnit, ih, consUnits_consUnits]
    rfl

end StringifyLemmas

open StringifyLemmas

/-! ## Objects -/

theorem quotes_quoteUnits (s : JsString) : Quotes (quoteUnits s ++ ['\x22']) s := by
  intro cs
  rw [List.append_assoc, List.singleton_append, readString_quoteUnits, readString]
  simp [consUnits]

theorem denotes_quoteUnits (s : JsString) :
    Denotes ('\x22' :: quoteUnits s ++ ['\x22']) (.str s) := by
  intro n c cs _
  rw [List.cons_append, List.cons_append, readValue, JsonLemmas.skipWs_cons (by decide)]
  simp only [quotes_quoteUnits s _]
  rfl

/-- A member that is a string. -/
def jsMember (key value : JsString) : MemberText where
  key := key
  value := .str value
  keyText := quoteUnits key ++ ['\x22']
  valueText := '\x22' :: quoteUnits value ++ ['\x22']
  quotes := quotes_quoteUnits key
  denotes := denotes_quoteUnits value

/-- `JSON.stringify` of an object whose members are strings or `undefined`; the latter are
left out. -/
def stringify (members : List (JsString × Option JsString)) : String :=
  objectText (members.filterMap fun (k, v) => v.map (jsMember k))

/-- The object is read back, without its `undefined` members. -/
theorem parse_stringify (members : List (JsString × Option JsString)) :
    parse (stringify members) =
      some (.obj (members.filterMap fun (k, v) => v.map fun s => (k, .str s))) := by
  rw [stringify, parse_objectText, List.map_filterMap]
  congr 3
  funext ⟨k, v⟩
  cases v <;> rfl

end Encoding
