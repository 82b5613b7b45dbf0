import Mathlib.Data.List.TakeWhile

/-!
# Strings of two languages

One side of a wire holds Unicode text (`String`), the other side strings of
UTF-16 code units (`JsString`), which may hold surrogates that pair with
nothing. Between them travel bytes.

1. `utf16`, the code units of a text; `utf16_injective`: they determine it.
   `ofUtf16` reads any code units as a text; `ofUtf16_utf16`: it takes back `utf16`.
2. `trim` and white space, in the sense of `String.prototype.trim`;
   `trim_utf16_eq_nil`: a text is blank there when all its characters are white space.
3. `decodeUtf8`, a total decoder: what is not UTF-8 becomes U+FFFD.
-/

namespace Text

/-! ## 1. UTF-16 -/

/-- A string of UTF-16 code units. -/
abbrev JsString := List UInt16

/-- One character: a code unit, or a surrogate pair from U+10000 on. -/
def encodeUtf16 (c : Char) : JsString :=
  if c.toNat < 0x10000 then [UInt16.ofNat c.toNat]
  else
    [UInt16.ofNat (0xD800 + (c.toNat - 0x10000) / 0x400),
      UInt16.ofNat (0xDC00 + (c.toNat - 0x10000) % 0x400)]

/-- The code units of a text. -/
def utf16 (s : String) : JsString := s.toList.flatMap encodeUtf16

theorem char_ranges (c : Char) : c.toNat < 0xD800 ∨ (0xDFFF < c.toNat ∧ c.toNat < 0x110000) :=
  c.valid

theorem toNat_charOfNat {n : Nat} (h : n.isValidChar) : (Char.ofNat n).toNat = n := by
  rw [Char.ofNat, dif_pos h]
  rfl

theorem encodeUtf16_ne_nil (c : Char) : encodeUtf16 c ≠ [] := by
  unfold encodeUtf16
  split <;> simp

/-- One code unit, or two that pair. -/
theorem encodeUtf16_cases (c : Char) :
    (∃ u : UInt16, encodeUtf16 c = [u] ∧ u.toNat = c.toNat ∧ (u.toNat < 0xD800 ∨ 0xDFFF < u.toNat)) ∨
    ∃ u v : UInt16, encodeUtf16 c = [u, v] ∧ 0xD800 ≤ u.toNat ∧ u.toNat < 0xDC00 ∧
      0xDC00 ≤ v.toNat ∧ v.toNat < 0xE000 ∧
      c.toNat = 0x10000 + (u.toNat - 0xD800) * 0x400 + (v.toNat - 0xDC00) := by
  have hc := char_ranges c
  unfold encodeUtf16
  split
  · next h =>
    refine .inl ⟨_, rfl, ?_, ?_⟩ <;> rw [UInt16.toNat_ofNat', Nat.mod_eq_of_lt h]
    omega
  · next h =>
    have hhigh : 0xD800 + (c.toNat - 0x10000) / 0x400 < 2 ^ 16 := by omega
    have hlow : 0xDC00 + (c.toNat - 0x10000) % 0x400 < 2 ^ 16 := by omega
    refine .inr ⟨_, _, rfl, ?_, ?_, ?_, ?_, ?_⟩ <;>
      simp only [UInt16.toNat_ofNat', Nat.mod_eq_of_lt hhigh, Nat.mod_eq_of_lt hlow] <;> omega

/-- The code units of a character end where they end. -/
theorem encodeUtf16_append_inj {c d : Char} {s t : JsString}
    (h : encodeUtf16 c ++ s = encodeUtf16 d ++ t) : c = d ∧ s = t := by
  rcases encodeUtf16_cases c with ⟨u, hu, huc, hur⟩ | ⟨u, v, hu, hu₁, hu₂, -, -, huc⟩ <;>
    rcases encodeUtf16_cases d with ⟨u', hu', hud, hur'⟩ | ⟨u', v', hu', hu₁', hu₂', -, -, hud⟩ <;>
    rw [hu, hu'] at h
  · simp only [List.cons_append, List.nil_append, List.cons.injEq] at h
    obtain ⟨rfl, rfl⟩ := h
    exact ⟨Char.toNat_inj.mp (huc.symm.trans hud), rfl⟩
  · -- a unit of its own is no high surrogate
    simp only [List.cons_append, List.nil_append, List.cons.injEq] at h
    obtain ⟨rfl, -⟩ := h
    omega
  · simp only [List.cons_append, List.nil_append, List.cons.injEq] at h
    obtain ⟨rfl, -⟩ := h
    omega
  · simp only [List.cons_append, List.nil_append, List.cons.injEq] at h
    obtain ⟨rfl, rfl, rfl⟩ := h
    exact ⟨Char.toNat_inj.mp (huc.trans hud.symm), rfl⟩

/-- Texts with the same code units are the same. -/
theorem utf16_injective {s t : String} (h : utf16 s = utf16 t) : s = t := by
  rw [← String.toList_inj]
  unfold utf16 at h
  generalize s.toList = cs at h ⊢
  generalize t.toList = ds at h ⊢
  induction cs generalizing ds with
  | nil =>
    cases ds with
    | nil => rfl
    | cons d ds => exact absurd (List.append_eq_nil_iff.mp h.symm).1 (encodeUtf16_ne_nil d)
  | cons c cs ih =>
    cases ds with
    | nil => exact absurd (List.append_eq_nil_iff.mp h).1 (encodeUtf16_ne_nil c)
    | cons d ds =>
      rw [List.flatMap_cons, List.flatMap_cons] at h
      obtain ⟨rfl, htail⟩ := encodeUtf16_append_inj h
      rw [ih ds htail]

/-- A code unit that stands alone. A surrogate becomes U+FFFD. -/
def unitChar (u : UInt16) : Char :=
  if 0xD800 ≤ u.toNat ∧ u.toNat ≤ 0xDFFF then '\uFFFD' else Char.ofNat u.toNat

/-- Surrogates that pair are one character. -/
def decodeUtf16 : JsString → List Char
  | [] => []
  | [u] => [unitChar u]
  | u :: v :: us =>
    if (0xD800 ≤ u.toNat ∧ u.toNat < 0xDC00) ∧ 0xDC00 ≤ v.toNat ∧ v.toNat < 0xE000 then
      Char.ofNat (0x10000 + (u.toNat - 0xD800) * 0x400 + (v.toNat - 0xDC00)) :: decodeUtf16 us
    else unitChar u :: decodeUtf16 (v :: us)

/-- Code units read as a text. -/
def ofUtf16 (s : JsString) : String := String.ofList (decodeUtf16 s)

theorem decodeUtf16_encodeUtf16 (c : Char) (s : JsString) :
    decodeUtf16 (encodeUtf16 c ++ s) = c :: decodeUtf16 s := by
  rcases encodeUtf16_cases c with ⟨u, hu, huc, hur⟩ | ⟨u, v, hu, hu₁, hu₂, hv₁, hv₂, huc⟩ <;>
    rw [hu]
  · have hchar : unitChar u = c := by
      rw [unitChar, if_neg (by omega), huc, Char.ofNat_toNat]
    cases s with
    | nil => exact congrArg (· :: []) hchar
    | cons v s =>
      show decodeUtf16 (u :: v :: s) = c :: decodeUtf16 (v :: s)
      rw [decodeUtf16, if_neg (by omega), hchar]
  · show decodeUtf16 (u :: v :: s) = c :: decodeUtf16 s
    rw [decodeUtf16, if_pos ⟨⟨hu₁, hu₂⟩, hv₁, hv₂⟩, ← huc, Char.ofNat_toNat]

@[simp] theorem ofUtf16_utf16 (s : String) : ofUtf16 (utf16 s) = s := by
  rw [← String.toList_inj, ofUtf16, String.toList_ofList, utf16]
  induction s.toList with
  | nil => rfl
  | cons c cs ih => rw [List.flatMap_cons, decodeUtf16_encodeUtf16, ih]

theorem ofUtf16_eq_empty {s : JsString} : ofUtf16 s = "" ↔ s = [] := by
  rw [← String.toList_inj, ofUtf16, String.toList_ofList]
  fun_cases decodeUtf16 s <;> simp

/-! ## 2. White space -/

/-- The code points that `trim` removes: WhiteSpace and LineTerminator. -/
def isSpacePoint (n : Nat) : Bool :=
  (0x9 ≤ n && n ≤ 0xD) || n == 0x20 || n == 0xA0 || n == 0x1680 ||
    (0x2000 ≤ n && n ≤ 0x200A) || n == 0x2028 || n == 0x2029 || n == 0x202F ||
    n == 0x205F || n == 0x3000 || n == 0xFEFF

def isSpace (u : UInt16) : Bool := isSpacePoint u.toNat

/-- A character that `trim` removes. All of them are single code units. -/
def isSpaceChar (c : Char) : Bool := isSpacePoint c.toNat

def trimStart (s : JsString) : JsString := s.dropWhile isSpace

/-- `String.prototype.trim`. -/
def trim (s : JsString) : JsString := (trimStart (trimStart s).reverse).reverse

theorem isSpacePoint_lt {n : Nat} (h : isSpacePoint n = true) : n < 0xFFFF := by
  simp only [isSpacePoint, Bool.or_eq_true, Bool.and_eq_true, decide_eq_true_eq, beq_iff_eq] at h
  omega

/-- Nothing is left after trimming exactly when there is nothing but white space. -/
theorem trim_eq_nil {s : JsString} : trim s = [] ↔ ∀ u ∈ s, isSpace u = true := by
  unfold trim trimStart
  rw [List.reverse_eq_nil_iff, List.dropWhile_eq_nil_iff]
  constructor
  · intro h u hu
    by_contra hne
    have hmem : u ∈ s.dropWhile isSpace ∨ u ∈ s.takeWhile isSpace := by
      rw [← List.takeWhile_append_dropWhile (p := isSpace) (l := s), List.mem_append] at hu
      exact hu.symm
    rcases hmem with hmem | hmem
    · exact hne (h u (List.mem_reverse.mpr hmem))
    · exact hne (List.mem_takeWhile_imp hmem)
  · intro h u hu
    exact h u ((List.dropWhile_sublist _).subset (List.mem_reverse.mp hu))

theorem encodeUtf16_isSpace {c : Char} :
    (∀ u ∈ encodeUtf16 c, isSpace u = true) ↔ isSpaceChar c = true := by
  unfold encodeUtf16 isSpaceChar isSpace
  split
  · next h => simp [Nat.mod_eq_of_lt h]
  · next h =>
    constructor
    · -- a high surrogate is not white space
      intro hall
      have hhigh := hall _ List.mem_cons_self
      have hlt := isSpacePoint_lt hhigh
      have hc := char_ranges c
      rw [UInt16.toNat_ofNat', Nat.mod_eq_of_lt (by omega)] at hhigh
      simp only [isSpacePoint, Bool.or_eq_true, Bool.and_eq_true, decide_eq_true_eq,
        beq_iff_eq] at hhigh
      omega
    · intro hc
      have := isSpacePoint_lt hc
      omega

/-- `trim` empties a text exactly when all its characters are white space. -/
theorem trim_utf16_eq_nil {s : String} :
    trim (utf16 s) = [] ↔ ∀ c ∈ s.toList, isSpaceChar c = true := by
  rw [trim_eq_nil]
  unfold utf16
  simp only [List.mem_flatMap, forall_exists_index, and_imp]
  constructor
  · intro h c hc
    exact encodeUtf16_isSpace.mp fun u hu => h u c hc hu
  · intro h u c hc hu
    exact encodeUtf16_isSpace.mpr (h c hc) u hu

theorem utf16_eq_nil {s : String} : utf16 s = [] ↔ s = "" := by
  unfold utf16
  rw [List.flatMap_eq_nil_iff]
  constructor
  · intro h
    rw [← String.toList_eq_nil_iff]
    exact List.eq_nil_iff_forall_not_mem.mpr fun c hc => encodeUtf16_ne_nil c (h c hc)
  · rintro rfl
    simp

/-! ## 3. UTF-8 -/

/-- The bytes of a text. -/
def utf8 (s : String) : List UInt8 := s.toList.flatMap String.utf8EncodeChar

/-- A sequence that has begun: the bits read, the number of bytes read and still
owed, and the range of the next byte. -/
structure Started where
  bits : Nat
  seen : Nat
  owed : Nat
  low : Nat
  high : Nat

/-- The first byte of a sequence of two or more bytes. -/
def startOf (b : Nat) : Option Started :=
  if 0xC2 ≤ b ∧ b ≤ 0xDF then some ⟨b % 0x20, 1, 1, 0x80, 0xBF⟩
  else if b = 0xE0 then some ⟨0, 1, 2, 0xA0, 0xBF⟩
  else if b = 0xED then some ⟨0xD, 1, 2, 0x80, 0x9F⟩
  else if 0xE1 ≤ b ∧ b ≤ 0xEF then some ⟨b % 0x10, 1, 2, 0x80, 0xBF⟩
  else if b = 0xF0 then some ⟨0, 1, 3, 0x90, 0xBF⟩
  else if 0xF1 ≤ b ∧ b ≤ 0xF3 then some ⟨b % 8, 1, 3, 0x80, 0xBF⟩
  else if b = 0xF4 then some ⟨4, 1, 3, 0x80, 0x8F⟩
  else none

/-- A byte between two characters: what it decodes to at once, and what it starts. -/
def firstByte (replace : Nat → List Char) (b : Nat) : List Char × Option Started :=
  if b ≤ 0x7F then ([Char.ofNat b], none)
  else match startOf b with
    | some st => ([], some st)
    | none => (replace 1, none)

/-- Decode byte by byte. `replace n` stands for `n` bytes that begin a sequence
which the next byte cannot continue. -/
def decodeBytes (replace : Nat → List Char) : Option Started → List UInt8 → List Char
  | none, [] => []
  | some st, [] => replace st.seen
  | none, b :: bs =>
    (firstByte replace b.toNat).1 ++ decodeBytes replace (firstByte replace b.toNat).2 bs
  | some st, b :: bs =>
    if st.low ≤ b.toNat ∧ b.toNat ≤ st.high then
      let bits := st.bits * 0x40 + b.toNat % 0x40
      if st.owed = 1 then Char.ofNat bits :: decodeBytes replace none bs
      else decodeBytes replace (some ⟨bits, st.seen + 1, st.owed - 1, 0x80, 0xBF⟩) bs
    else
      -- the byte does not belong to the sequence: it starts a new one
      replace st.seen ++ (firstByte replace b.toNat).1 ++
        decodeBytes replace (firstByte replace b.toNat).2 bs

/-- A total UTF-8 decoder. Bytes that are the encoding of a text give this text. -/
def decodeUtf8 (replace : Nat → List Char) (b : ByteArray) : String :=
  match String.fromUTF8? b with
  | some s => s
  | none => String.ofList (decodeBytes replace none b.toList)

theorem fromUTF8_toUTF8 (s : String) : String.fromUTF8? s.toUTF8 = some s := by
  have hv : s.toUTF8.IsValidUTF8 := s.isValidUTF8
  simp only [String.fromUTF8?, hv, ↓reduceDIte, String.fromUTF8]
  rfl

/-- Decoding takes back encoding, whatever replaces malformed bytes. -/
@[simp] theorem decodeUtf8_toUTF8 (replace : Nat → List Char) (s : String) :
    decodeUtf8 replace s.toUTF8 = s := by
  rw [decodeUtf8, fromUTF8_toUTF8]

end Text
