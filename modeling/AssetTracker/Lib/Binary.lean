import AssetTracker.Lib.Json

/-!
# Bytes taken for characters

A binary string has one code unit for each byte. The UTF-8 bytes of a JSON text,
taken for characters in this way, are again a JSON text: `binaryString_objectText`
reads it member by member. ASCII stays as it is (`binary_ascii`), and a string
stays a string, though not the same one (`denotes_binary_writeString`).
-/

namespace Encoding

open Text JsonLemmas

/-- One character a byte, of the same number. -/
def binaryString (bs : List UInt8) : String := String.ofList (bs.map fun b => Char.ofNat b.toNat)

/-- What becomes of a character whose bytes are taken for characters. -/
def byteChars (c : Char) : List Char := (String.utf8EncodeChar c).map fun b => Char.ofNat b.toNat

theorem binaryString_utf8 (s : String) :
    binaryString (utf8 s) = String.ofList (s.toList.flatMap byteChars) := by
  unfold binaryString utf8
  rw [List.map_flatMap]
  rfl

/-! ## Characters -/

def isAscii (c : Char) : Bool := decide (c.toNat < 0x80)

theorem ascii_of_all {cs : List Char} (h : cs.all isAscii = true) : ∀ c ∈ cs, c.toNat < 0x80 :=
  fun c hc => of_decide_eq_true (List.all_eq_true.mp h c hc)

theorem toNat_ofNat_byte (b : UInt8) : (Char.ofNat b.toNat).toNat = b.toNat := by
  have hb := b.toNat_lt
  exact toNat_charOfNat (.inl (by omega))

theorem byteChars_ascii {c : Char} (h : c.toNat < 0x80) : byteChars c = [c] := by
  have hv : c.val.toNat ≤ 0x7f := by
    show c.toNat ≤ 0x7f
    omega
  unfold byteChars String.utf8EncodeChar
  rw [if_pos hv]
  have hmod : (UInt8.ofNat c.val.toNat).toNat = c.toNat := by
    rw [UInt8.toNat_ofNat']
    exact Nat.mod_eq_of_lt (by omega)
  rw [List.map_singleton, hmod, Char.ofNat_toNat]

/-- The other characters become characters that are not ASCII either. -/
theorem byteChars_high {c d : Char} (h : 0x80 ≤ c.toNat) (hd : d ∈ byteChars c) :
    0x80 ≤ d.toNat := by
  unfold byteChars at hd
  obtain ⟨b, hb, rfl⟩ := List.mem_map.mp hd
  rw [toNat_ofNat_byte]
  have hv : ¬ c.val.toNat ≤ 0x7f := by
    show ¬ c.toNat ≤ 0x7f
    omega
  unfold String.utf8EncodeChar at hb
  rw [if_neg hv] at hb
  split at hb
  · simp only [List.mem_cons, List.not_mem_nil, or_false] at hb
    obtain rfl | rfl := hb <;> rw [UInt8.toNat_ofNat'] <;> omega
  · split at hb
    · simp only [List.mem_cons, List.not_mem_nil, or_false] at hb
      obtain rfl | rfl | rfl := hb <;> rw [UInt8.toNat_ofNat'] <;> omega
    · simp only [List.mem_cons, List.not_mem_nil, or_false] at hb
      obtain rfl | rfl | rfl | rfl := hb <;> rw [UInt8.toNat_ofNat'] <;> omega

theorem binary_ascii {cs : List Char} (h : ∀ c ∈ cs, c.toNat < 0x80) : cs.flatMap byteChars = cs := by
  induction cs with
  | nil => rfl
  | cons c cs ih =>
    rw [List.flatMap_cons, byteChars_ascii (h c List.mem_cons_self),
      ih fun d hd => h d (List.mem_cons_of_mem c hd)]
    rfl

/-! ## Texts -/

theorem readString_high {ds : List Char} (h : ∀ d ∈ ds, 0x80 ≤ d.toNat) (cs : List Char) :
    readString (ds ++ cs) = consUnits (ds.flatMap encodeUtf16) (readString cs) := by
  induction ds with
  | nil =>
    rw [List.nil_append, List.flatMap_nil]
    cases readString cs <;> rfl
  | cons d ds ih =>
    have hd := h d List.mem_cons_self
    have hquote : d ≠ '\x22' := by
      rintro rfl
      exact absurd hd (by decide)
    have hback : d ≠ '\\' := by
      rintro rfl
      exact absurd hd (by decide)
    rw [List.cons_append, readString_raw hquote hback (by omega),
      ih fun e he => h e (List.mem_cons_of_mem d he), List.flatMap_cons]
    cases readString cs <;> simp [consUnits]

/-- What an escape is made of is ASCII. -/
theorem escapeChar_ascii (c : Char) : escapeChar c = [c] ∨ ∀ d ∈ escapeChar c, d.toNat < 0x80 := by
  have hu : '\\'.toNat < 0x80 ∧ 'u'.toNat < 0x80 := by decide
  rcases escapeChar_cases c with ⟨e, u, heq, he, -⟩ | ⟨x, y, z, w, u, heq, hdigits, -⟩ | ⟨heq, -⟩
  · rw [heq, List.forall_mem_cons, List.forall_mem_singleton]
    exact .inr ⟨hu.1, he⟩
  · rw [heq, List.forall_mem_cons, List.forall_mem_cons]
    exact .inr ⟨hu.1, hu.2, hdigits⟩
  · exact .inl heq

/-- A character of a string, escaped or not, is read in some way. -/
theorem readString_binary_escapeChar (c : Char) :
    ∃ us, ∀ cs, readString ((escapeChar c).flatMap byteChars ++ cs) = consUnits us (readString cs) := by
  have hascii (h : ∀ d ∈ escapeChar c, d.toNat < 0x80) : ∃ us, ∀ cs,
      readString ((escapeChar c).flatMap byteChars ++ cs) = consUnits us (readString cs) :=
    ⟨_, fun cs => by rw [binary_ascii h, readString_escapeChar]⟩
  obtain hraw | hesc := escapeChar_ascii c
  · by_cases hc : c.toNat < 0x80
    · exact hascii (by simp [hraw, hc])
    · refine ⟨(byteChars c).flatMap encodeUtf16, fun cs => ?_⟩
      rw [hraw, List.flatMap_singleton]
      exact readString_high (fun d hd => byteChars_high (by omega) hd) cs
  · exact hascii hesc

/-- A string is still read as a string. -/
theorem denotes_binary_writeString (s : String) :
    ∃ v, Denotes ((writeString s).flatMap byteChars) (.str v) := by
  have hread : ∃ v, ∀ cs,
      readString ((s.toList.flatMap escapeChar).flatMap byteChars ++ '\x22' :: cs) = some (v, cs) := by
    induction s.toList with
    | nil => exact ⟨[], fun cs => rfl⟩
    | cons c l ih =>
      obtain ⟨v, hv⟩ := ih
      obtain ⟨us, hus⟩ := readString_binary_escapeChar c
      refine ⟨us ++ v, fun cs => ?_⟩
      rw [List.flatMap_cons, List.flatMap_append, List.append_assoc, hus, hv]
      rfl
  obtain ⟨v, hv⟩ := hread
  refine ⟨v, fun n c cs _ => ?_⟩
  have hquote : byteChars '\x22' = ['\x22'] := by decide
  unfold writeString
  rw [List.cons_append, List.flatMap_cons, List.flatMap_append, List.flatMap_singleton, hquote,
    List.append_assoc, List.append_assoc, List.singleton_append, readValue, skipWs_cons (by decide)]
  simp [hv]

theorem intText_ascii (n : Int) : ∀ c ∈ intText n, c.toNat < 0x80 := by
  have hdigits : ∀ c ∈ Nat.toDigits 10 n.natAbs, c.toNat < 0x80 := by
    intro c hc
    have hdigit := isDigit_of_mem hc
    simp only [isDigit, Bool.and_eq_true, decide_eq_true_eq] at hdigit
    omega
  unfold intText
  split
  · rw [List.forall_mem_cons]
    exact ⟨by decide, hdigits⟩
  · exact hdigits

/-! ## Objects -/

/-- The text of one member is that of another whose bytes are taken for characters. -/
def BinaryOf (m m' : MemberText) : Prop :=
  m'.keyText = m.keyText.flatMap byteChars ∧ m'.valueText = m.valueText.flatMap byteChars

theorem BinaryOf.chars {m m' : MemberText} (h : BinaryOf m m') :
    m.chars.flatMap byteChars = m'.chars := by
  have hquote : byteChars '\x22' = ['\x22'] := by decide
  have hcolon : byteChars ':' = [':'] := by decide
  unfold MemberText.chars
  rw [h.1, h.2, List.flatMap_append, List.flatMap_cons, List.flatMap_cons, hquote, hcolon]
  rfl

theorem membersText_binary {ms ms' : List MemberText} (h : List.Forall₂ BinaryOf ms ms') :
    (membersText ms).flatMap byteChars = membersText ms' := by
  induction h with
  | nil => rfl
  | @cons m m' ms ms' hm hms ih =>
    cases hms with
    | nil => exact hm.chars
    | cons hm₂ hms =>
      have hcomma : byteChars ',' = [','] := by decide
      rw [membersText, List.flatMap_append, List.flatMap_cons, ih, hm.chars, hcomma]
      · rfl
      · exact fun h => List.cons_ne_nil _ _ h

theorem binaryOf_intMember {name : String} (n : Int)
    (h : (writeString name).tail.all isAscii = true) :
    BinaryOf (intMember (name, n)) (intMember (name, n)) :=
  ⟨(binary_ascii (ascii_of_all h)).symm, (binary_ascii (intText_ascii n)).symm⟩

/-- The bytes of the text of an object are, as characters, the text of an object. -/
theorem binaryString_objectText {ms ms' : List MemberText} (h : List.Forall₂ BinaryOf ms ms') :
    binaryString (utf8 (objectText ms)) = objectText ms' := by
  have hopen : byteChars '\x7b' = ['\x7b'] := by decide
  have hclose : byteChars '\x7d' = ['\x7d'] := by decide
  rw [binaryString_utf8]
  unfold objectText
  rw [String.toList_ofList, List.cons_append, List.flatMap_cons, List.flatMap_append,
    List.flatMap_singleton, membersText_binary h, hopen, hclose]
  rfl

end Encoding
