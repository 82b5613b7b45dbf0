import AssetTracker.Lib.Base64
import AssetTracker.Lib.Binary
import AssetTracker.Node.Event

/-!
# The route guard (web UI)

`routes/__root.tsx`: `isTokenExpired` reads the payload of the stored token, and
`checkAuth` runs before every route. `localStorage` is taken not to throw.

Results:
1. `checkAuth_keeps`: when a stored token stays and the route is entered.
2. `isTokenExpired_payload`: the test of a token whose payload is in base64url.
-/

namespace AssetTracker.WebUi

open Encoding Text Base64
open NodeService (Value property)

/-- `Date.now()` at an instant. -/
def dateNow (t : Instant) : Int := t / 1000000

/-- A number is below an integer. -/
def isBelow (n : Decimal) (k : Int) : Bool :=
  let digits : Int := if n.negative then -(n.digits : Int) else n.digits
  if 0 ≤ n.exponent then digits * Nat.pow 10 n.exponent.toNat < k
  else digits < k * Nat.pow 10 (-n.exponent).toNat

/-- How a value that is no integer is multiplied by 1000: `none` when its conversion
throws, `some none` for `NaN`. No token of the service has such an expiry. -/
abbrev Product := Json → Option (Option Decimal)

/-- `v * 1000`. Doubles do not hold every integer, but they hold those that a clock shows,
and rounding keeps the order. -/
def timesThousand (product : Product) : Value → Option (Option Decimal)
  | none => some none
  | some (.num n) =>
    if 0 ≤ n.exponent then some (some { n with digits := n.digits * 1000 }) else product (.num n)
  | some v => product v

/-- The `try` block of `isTokenExpired`; `none` when it throws. -/
def tokenExpiry (product : Product) (now : Instant) (token : String) : Option Bool :=
  match token.toList.splitOn '.' with
  | [_, payloadStr, _] =>
    if payloadStr = [] then some true
    else do
      let bytes ← atob (String.ofList payloadStr)
      let payload ← parse (binaryString bytes)
      let exp ← (property payload "exp").toOption
      let millis ← timesThousand product exp
      -- comparing with `NaN` is false
      return millis.any fun n => isBelow n (dateNow now)
  | _ => some true

def isTokenExpired (product : Product) (now : Instant) (token : String) : Bool :=
  (tokenExpiry product now token).getD true

/-- The stored token after `checkAuth`, and where it redirects to. -/
def checkAuth (product : Product) (now : Instant) (pathname : String) (stored : Option String) :
    Option String × Option String :=
  let token := stored.getD ""
  if token ≠ "" ∧ isTokenExpired product now token = true then (none, some "/login")
  else if token = "" ∧ pathname ≠ "/login" then (stored, some "/login")
  else (stored, none)

/-! ## 1. What stays -/

variable {product : Product} {now : Instant}

/-- The guard keeps a token and lets the route be entered when the token is not found to be
expired. -/
theorem checkAuth_keeps {pathname token : String} (hne : token ≠ "") :
    checkAuth product now pathname (some token) = (some token, none) ↔
      isTokenExpired product now token = false := by
  unfold checkAuth
  dsimp only [Option.getD_some]
  cases h : isTokenExpired product now token with
  | true => simp [hne]
  | false => simp [hne]

/-! ## 2. Payloads in base64url -/

theorem isBelow_thousand (exp now : Int) :
    isBelow ⟨decide (exp < 0), exp.natAbs * 1000, 0⟩ now = decide (exp * 1000 < now) := by
  unfold isBelow
  rw [if_pos (Int.le_refl 0)]
  by_cases h : exp < 0
  · have habs : -((exp.natAbs * 1000 : Nat) : Int) = exp * 1000 := by omega
    simp only [h, decide_true, if_true, habs, Int.toNat_zero, Nat.pow_eq, Nat.pow_zero,
      Int.natCast_one, Int.mul_one]
  · have habs : ((exp.natAbs * 1000 : Nat) : Int) = exp * 1000 := by omega
    simp only [h, decide_false, Bool.false_eq_true, if_false, habs, Int.toNat_zero, Nat.pow_eq,
      Nat.pow_zero, Int.natCast_one, Int.mul_one]

theorem encodeUrl_ne_nil {bs : List UInt8} (h : bs ≠ []) : (encodeUrl bs).toList ≠ [] := by
  unfold encodeUrl
  rw [String.toList_ofList]
  fun_cases sextets bs <;> simp_all

/-- The test of a token with an expiry in seconds: `atob` must know every character of the
payload. -/
theorem isTokenExpired_payload {header payload signature : List UInt8}
    {members : List (JsString × Json)} {exp : Int}
    (hparse : parse (binaryString payload) = some (.obj members))
    (hexp : lookup (utf16 "exp") members = some (ofInt exp)) :
    isTokenExpired product now
        (encodeUrl header ++ "." ++ encodeUrl payload ++ "." ++ encodeUrl signature) = false ↔
      (∀ n ∈ sextets payload, n < 62) ∧ dateNow now ≤ exp * 1000 := by
  have hne : payload ≠ [] := by
    rintro rfl
    cases hparse
  unfold isTokenExpired tokenExpiry
  rw [splitOn_dot]
  dsimp only
  rw [if_neg (encodeUrl_ne_nil hne), String.ofList_toList, atob_encodeUrl]
  by_cases hstd : ∀ n ∈ sextets payload, n < 62
  · rw [if_pos hstd]
    simp only [Option.bind_eq_bind, Option.bind_some, hparse, property, Except.toOption, hexp, ofInt,
      timesThousand, Int.le_refl, if_true, Option.pure_def, Option.any_some, isBelow_thousand,
      Option.getD_some, decide_eq_false_iff_not, Int.not_lt]
    exact ⟨fun h => ⟨hstd, h⟩, fun h => h.2⟩
  · rw [if_neg hstd]
    simp [hstd]

end AssetTracker.WebUi
