import AssetTracker.Lib.Json

/-!
# UUIDs as values and as texts

A UUID is a value of 128 bits with many spellings. `Uuid.toString` is the
canonical one (lower case, hyphens after 8, 12, 16 and 20 digits); `Uuid.parse`
reads the spellings that a database accepts for a column of UUIDs: either case,
optional braces around, an optional hyphen after every four digits. `isUuidV4`
is the pattern that programs test strings against.

Results:
1. `Uuid.parse_toString`: the canonical spelling is read back;
   `Uuid.toString_injective`.
2. `trim_of_isUuidV4`: a string of the pattern is not blank. `isUuidV4_toString`: the
   canonical spelling of a random UUID is of the pattern.
-/

namespace Encoding

open Text

/-! ## Values -/

/-- Four hexadecimal digits. -/
structure Quad where
  a : Fin 16
  b : Fin 16
  c : Fin 16
  d : Fin 16
deriving DecidableEq, Repr

/-- A UUID: 32 hexadecimal digits. -/
structure Uuid where
  q₀ : Quad
  q₁ : Quad
  q₂ : Quad
  q₃ : Quad
  q₄ : Quad
  q₅ : Quad
  q₆ : Quad
  q₇ : Quad
deriving DecidableEq, Repr

/-- The last four digits of a number. -/
def Quad.ofNat (n : Nat) : Quad :=
  ⟨lastDigit (n / 0x1000), lastDigit (n / 0x100), lastDigit (n / 0x10), lastDigit n⟩

/-- UUIDs of version 4 that differ in their last digits only. -/
def Uuid.numbered (n : Nat) : Uuid :=
  ⟨.ofNat 0, .ofNat 0, .ofNat 0, .ofNat 0x4000, .ofNat 0x8000, .ofNat 0, .ofNat 0, .ofNat n⟩

/-- A random UUID: version 4, variant `10`. -/
def Uuid.isV4 (u : Uuid) : Bool := u.q₃.a.val == 4 && 8 ≤ u.q₄.a.val && u.q₄.a.val ≤ 11

/-! ## Spellings -/

def Quad.chars (q : Quad) : List Char := [hexChar q.a, hexChar q.b, hexChar q.c, hexChar q.d]

def Uuid.chars (u : Uuid) : List Char :=
  u.q₀.chars ++ (u.q₁.chars ++ '-' :: (u.q₂.chars ++ '-' :: (u.q₃.chars ++ '-' ::
    (u.q₄.chars ++ '-' :: (u.q₅.chars ++ (u.q₆.chars ++ u.q₇.chars))))))

/-- The canonical spelling. -/
protected def Uuid.toString (u : Uuid) : String := String.ofList u.chars

def readQuad : List Char → Option (Quad × List Char)
  | a :: b :: c :: d :: cs =>
    match hexVal a, hexVal b, hexVal c, hexVal d with
    | some a, some b, some c, some d => some (⟨a, b, c, d⟩, cs)
    | _, _, _, _ => none
  | _ => none

def skipHyphen : List Char → List Char
  | '-' :: cs => cs
  | cs => cs

/-- `n` groups of four digits, with an optional hyphen between two of them. -/
def readQuads : Nat → List Char → Option (List Quad × List Char)
  | 0, cs => some ([], cs)
  | n + 1, cs =>
    match readQuad cs with
    | none => none
    | some (q, cs) =>
      match readQuads n (if n = 0 then cs else skipHyphen cs) with
      | none => none
      | some (qs, cs) => some (q :: qs, cs)

def Uuid.ofQuads : List Quad → Option Uuid
  | [q₀, q₁, q₂, q₃, q₄, q₅, q₆, q₇] => some ⟨q₀, q₁, q₂, q₃, q₄, q₅, q₆, q₇⟩
  | _ => none

/-- The eight groups, followed by exactly `close`. -/
def Uuid.parseClosed (close cs : List Char) : Option Uuid :=
  match readQuads 8 cs with
  | some (qs, rest) => if rest = close then Uuid.ofQuads qs else none
  | none => none

/-- The value of a spelling that the database accepts. -/
def Uuid.parse (s : String) : Option Uuid :=
  match s.toList with
  | '\x7b' :: cs => Uuid.parseClosed ['\x7d'] cs
  | cs => Uuid.parseClosed [] cs

/-! ## The pattern of version 4 -/

/-- `[0-9a-f]`, in either case. -/
def isHexUnit (u : UInt16) : Bool :=
  (0x30 ≤ u.toNat && u.toNat ≤ 0x39) || (0x41 ≤ u.toNat && u.toNat ≤ 0x46) ||
    (0x61 ≤ u.toNat && u.toNat ≤ 0x66)

/-- `[89ab]`, in either case. -/
def isVariantUnit (u : UInt16) : Bool :=
  u.toNat == 0x38 || u.toNat == 0x39 || u.toNat == 0x41 || u.toNat == 0x42 ||
    u.toNat == 0x61 || u.toNat == 0x62

def isHyphen (u : UInt16) : Bool := u.toNat == 0x2D

def isFour (u : UInt16) : Bool := u.toNat == 0x34

/-- The string is one unit for each class, in this order. -/
def matchesAll : List (UInt16 → Bool) → JsString → Bool
  | [], [] => true
  | p :: ps, u :: us => p u && matchesAll ps us
  | _, _ => false

def hexUnits (n : Nat) : List (UInt16 → Bool) := List.replicate n isHexUnit

/-- `/^[0-9a-f]{8}-[0-9a-f]{4}-4[0-9a-f]{3}-[89ab][0-9a-f]{3}-[0-9a-f]{12}$/i` -/
def isUuidV4 (s : JsString) : Bool :=
  matchesAll (hexUnits 8 ++ isHyphen :: hexUnits 4 ++ isHyphen :: isFour :: hexUnits 3 ++
    isHyphen :: isVariantUnit :: hexUnits 3 ++ isHyphen :: hexUnits 12) s

/-! ## 1. The canonical spelling -/

namespace UuidLemmas

@[simp] theorem readQuad_chars (q : Quad) (cs : List Char) :
    readQuad (q.chars ++ cs) = some (q, cs) := by
  simp [Quad.chars, readQuad]

theorem hexChar_ne_hyphen (n : Fin 16) : hexChar n ≠ '-' := by
  revert n
  decide

theorem hexChar_ne_brace (n : Fin 16) : hexChar n ≠ '\x7b' := by
  revert n
  decide

@[simp] theorem skipHyphen_chars (q : Quad) (cs : List Char) :
    skipHyphen (q.chars ++ cs) = q.chars ++ cs := by
  unfold skipHyphen
  split
  · next h =>
    simp only [Quad.chars, List.cons_append, List.cons.injEq] at h
    exact absurd h.1 (hexChar_ne_hyphen _)
  · rfl

@[simp] theorem skipHyphen_hyphen (cs : List Char) : skipHyphen ('-' :: cs) = cs := rfl

theorem readQuads_succ (n : Nat) (q : Quad) (cs : List Char) :
    readQuads (n + 1) (q.chars ++ cs) =
      (readQuads n (if n = 0 then cs else skipHyphen cs)).map fun (qs, cs) => (q :: qs, cs) := by
  rw [readQuads, readQuad_chars]
  dsimp only
  cases readQuads n (if n = 0 then cs else skipHyphen cs) <;> rfl

theorem readQuads_last (q : Quad) : readQuads 1 (skipHyphen q.chars) = some ([q], []) := by
  have h := readQuads_succ 0 q []
  have hs := skipHyphen_chars q []
  rw [List.append_nil] at h hs
  rw [hs, h]
  rfl

theorem readQuads_chars (u : Uuid) :
    readQuads 8 u.chars = some ([u.q₀, u.q₁, u.q₂, u.q₃, u.q₄, u.q₅, u.q₆, u.q₇], []) := by
  simp [Uuid.chars, readQuads_succ, readQuads_last]

end UuidLemmas

open UuidLemmas

/-- The canonical spelling of a UUID is accepted, as that UUID. -/
@[simp] theorem Uuid.parse_toString (u : Uuid) : Uuid.parse u.toString = some u := by
  unfold Uuid.parse Uuid.toString
  rw [String.toList_ofList]
  split
  · next h =>
    simp only [Uuid.chars, Quad.chars, List.cons_append, List.cons.injEq] at h
    exact absurd h.1 (hexChar_ne_brace _)
  · rw [Uuid.parseClosed, readQuads_chars]
    rfl

theorem Uuid.toString_injective {u v : Uuid} (h : u.toString = v.toString) : u = v := by
  have hu := Uuid.parse_toString u
  rw [h, Uuid.parse_toString] at hu
  exact (Option.some.inj hu).symm

/-! ## 2. The pattern -/

/-- A string of the pattern starts with a digit, which `trim` keeps. -/
theorem trim_of_isUuidV4 {s : JsString} (h : isUuidV4 s = true) : trim s ≠ [] := by
  cases s with
  | nil => cases h
  | cons u us =>
    have hu : isHexUnit u = true := by
      have h' : (isHexUnit u && _) = true := h
      exact (Bool.and_eq_true _ _ ▸ h').1
    rw [ne_eq, trim_eq_nil]
    intro hall
    have hs := hall u List.mem_cons_self
    simp only [isSpace, isSpacePoint, isHexUnit, Bool.or_eq_true, Bool.and_eq_true,
      decide_eq_true_eq, beq_iff_eq] at hs hu
    omega

namespace UuidLemmas

/-- The code unit of a digit. -/
def digitUnit (n : Fin 16) : UInt16 := UInt16.ofNat (hexChar n).toNat

theorem encodeUtf16_hexChar (n : Fin 16) : encodeUtf16 (hexChar n) = [digitUnit n] := by
  revert n
  decide

theorem isHexUnit_digit (n : Fin 16) : isHexUnit (digitUnit n) = true := by
  revert n
  decide

theorem isVariantUnit_digit (n : Fin 16) (h : 8 ≤ n.val ∧ n.val ≤ 11) :
    isVariantUnit (digitUnit n) = true := by
  revert n
  decide

theorem isFour_digit (n : Fin 16) (h : n.val = 4) : isFour (digitUnit n) = true := by
  revert n
  decide

end UuidLemmas

/-- The canonical spelling of a random UUID is of the pattern. -/
theorem isUuidV4_toString {u : Uuid} (h : u.isV4 = true) : isUuidV4 (utf16 u.toString) = true := by
  simp only [Uuid.isV4, Bool.and_eq_true, beq_iff_eq, decide_eq_true_eq] at h
  obtain ⟨⟨hfour, hlow⟩, hhigh⟩ := h
  have hunit : encodeUtf16 '-' = [0x2D] := by decide
  have hhyphen : isHyphen 0x2D = true := by decide
  rw [utf16, Uuid.toString, String.toList_ofList]
  simp [Uuid.chars, Quad.chars, encodeUtf16_hexChar, hunit, isUuidV4, hexUnits, matchesAll,
    isHexUnit_digit, hhyphen, isFour_digit _ hfour, isVariantUnit_digit _ ⟨hlow, hhigh⟩]

end Encoding
