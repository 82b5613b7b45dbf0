import AssetTracker.Lib.Json

/-!
# Integers at the front of a text

Two library functions read an integer from the front of a text and ignore what
follows: `fmt.Sscanf` with `%d`, and `parseInt` with radix 10. They agree on
sign and digits (`leadingInt`), but not on the white space before them, and only
the first one has a largest number.

`sscanfInt_parseInt`: where both read a number, it is the same one.
-/

namespace Encoding

open Text

/-! ## Sign and digits -/

def leadingNat (cs : List Char) : Option Nat :=
  match cs.takeWhile isDigit with
  | [] => none
  | d :: ds => some (natOfDigits (d :: ds))

/-- An optional sign and the longest run of digits after it; `none` without a digit. -/
def leadingInt : List Char → Option Int
  | '-' :: cs => (leadingNat cs).map fun n => -(n : Int)
  | '+' :: cs => (leadingNat cs).map fun n => (n : Int)
  | cs => (leadingNat cs).map fun n => (n : Int)

/-- A text that starts like an integer. -/
def isIntStart (c : Char) : Bool := c == '-' || c == '+' || isDigit c

theorem leadingInt_head {cs : List Char} {n : Int} (h : leadingInt cs = some n) :
    ∃ c ds, cs = c :: ds ∧ isIntStart c = true := by
  unfold leadingInt at h
  split at h
  · exact ⟨_, _, rfl, rfl⟩
  · exact ⟨_, _, rfl, rfl⟩
  · obtain ⟨n, h, -⟩ := Option.map_eq_some_iff.mp h
    cases cs with
    | nil => cases h
    | cons c cs =>
      refine ⟨c, cs, rfl, ?_⟩
      by_contra hc
      have hdigit : isDigit c = false := by simp_all [isIntStart]
      simp [leadingNat, hdigit] at h

/-! ## `Sscanf` and `parseInt` -/

/-- `isSpace` of the package `fmt`. -/
def isScanSpace (c : Char) : Bool :=
  let n := c.toNat
  (0x9 ≤ n && n ≤ 0xD) || n == 0x20 || n == 0x85 || n == 0xA0 || n == 0x1680 ||
    (0x2000 ≤ n && n ≤ 0x200A) || n == 0x2028 || n == 0x2029 || n == 0x202F ||
    n == 0x205F || n == 0x3000

/-- `SkipSpace`, where a newline is no space: it must match one in the format. -/
def skipSpace : List Char → Option (List Char)
  | [] => some []
  | c :: cs => if c = '\n' then none else if isScanSpace c then skipSpace cs else some (c :: cs)

/-- What `fmt.Sscanf(s, "%d", &n)` stores in an `int` of 64 bits; `none` for an error. -/
def sscanfInt (s : String) : Option Int := do
  let cs ← skipSpace s.toList
  let n ← leadingInt cs
  if -9223372036854775808 ≤ n ∧ n < 9223372036854775808 then some n else none

/-- `parseInt(s, 10)`; `none` for `NaN`. Doubles do not hold every integer, but the
nearest double is on the same side of any integer below 2^53. -/
def parseInt (s : String) : Option Int := leadingInt (s.toList.dropWhile isSpaceChar)

theorem skipSpace_some {cs ds : List Char} (h : skipSpace cs = some ds) :
    cs.dropWhile isScanSpace = ds := by
  induction cs with
  | nil =>
    cases h
    rfl
  | cons c cs ih =>
    rw [skipSpace] at h
    split at h
    · cases h
    · split at h
      · next hc => rw [List.dropWhile_cons_of_pos hc, ih h]
      · next hc =>
        cases h
        exact List.dropWhile_cons_of_neg hc

/-- An integer starts with a character that neither function skips. -/
theorem isIntStart_not_space {c : Char} (h : isIntStart c = true) :
    isScanSpace c = false ∧ isSpaceChar c = false := by
  have hc : c.toNat = 0x2D ∨ c.toNat = 0x2B ∨ (0x30 ≤ c.toNat ∧ c.toNat ≤ 0x39) := by
    simp only [isIntStart, isDigit, Bool.or_eq_true, beq_iff_eq, Bool.and_eq_true,
      decide_eq_true_eq] at h
    obtain (rfl | rfl) | h := h
    · exact .inl rfl
    · exact .inr (.inl rfl)
    · exact .inr (.inr h)
  simp only [isScanSpace, isSpaceChar, isSpacePoint, Bool.or_eq_false_iff, Bool.and_eq_false_iff,
    decide_eq_false_iff_not, beq_eq_false_iff_ne]
  omega

/-- Two ways of skipping that stop before the same kind of character stop at the same place. -/
theorem dropWhile_congr_start {p q start : Char → Bool}
    (hpq : ∀ c, start c = true → p c = false ∧ q c = false) {cs ds es : List Char} {c d : Char}
    (hp : cs.dropWhile p = c :: ds) (hc : start c = true)
    (hq : cs.dropWhile q = d :: es) (hd : start d = true) : c :: ds = d :: es := by
  induction cs with
  | nil => cases hp
  | cons x xs ih =>
    by_cases hpx : p x = true
    · by_cases hqx : q x = true
      · exact ih ((List.dropWhile_cons_of_pos hpx).symm.trans hp)
          ((List.dropWhile_cons_of_pos hqx).symm.trans hq)
      · -- `q` stops at `x`, which `p` skips
        rw [List.dropWhile_cons_of_neg hqx] at hq
        cases hq
        simp [(hpq d hd).1] at hpx
    · rw [List.dropWhile_cons_of_neg hpx] at hp
      cases hp
      exact (List.dropWhile_cons_of_neg (by simp [(hpq c hc).2])).symm.trans hq

/-- Where both functions read a number, they read the same one. -/
theorem sscanfInt_parseInt {s : String} {a b : Int} (ha : sscanfInt s = some a)
    (hb : parseInt s = some b) : a = b := by
  simp only [sscanfInt, Option.bind_eq_bind, Option.bind_eq_some_iff, Option.ite_none_right_eq_some,
    Option.some.injEq] at ha
  obtain ⟨cs, hcs, n, hn, -, rfl⟩ := ha
  obtain ⟨c, ds, rfl, hc⟩ := leadingInt_head hn
  obtain ⟨d, es, hes, hd⟩ := leadingInt_head hb
  have heq : c :: ds = d :: es :=
    dropWhile_congr_start (fun _ => isIntStart_not_space) (skipSpace_some hcs) hc hes hd
  rw [parseInt, hes, ← heq, hn] at hb
  exact Option.some.inj hb

example : sscanfInt " +12abc" = some 12 ∧ parseInt " +12abc" = some 12 := by decide
example : sscanfInt "\n7" = none ∧ parseInt "\n7" = some 7 := by decide

end Encoding
