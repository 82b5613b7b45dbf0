import AssetTracker.Go.Token
import AssetTracker.Web.Guard

/-!
# The tokens of the service in the browser

The Go service writes its tokens in base64url; the route guard of the web client
reads them with `atob`, which knows the standard alphabet only.

`token_kept_iff`: the guard keeps a token that the service still accepts exactly
when the payload is spelt alike in both alphabets.
-/

namespace AssetTracker.WebUi

open Encoding Text Base64 GoService

/-- `HandleLogin` answers a login at `t₀` with the token. -/
def Returned (jwt : Jwt) (config : AuthConfig) (t₀ : Instant) (token : String) : Prop :=
  ∃ r values response, handleLogin jwt config t₀ r values = .respond response ∧
    response.body = .object [("token", token)]

/-- `AuthMiddleware` lets a request with the token through at an instant, whatever handler
comes next. -/
def StillAccepted (jwt : Jwt) (config : AuthConfig) (t : Instant) (token : String) : Prop :=
  ∃ r, Bearer r token ∧
    ∀ next values, authMiddleware jwt config.jwtSecret next t r values = next t r values

/-- No group of six bits of the payload is spelt `-` or `_`, the two digits of base64url that
`atob` does not know. -/
def SpeltAlike (claims : Claims) : Prop := ∀ n ∈ sextets (utf8 claims.payload), n < 62

instance (claims : Claims) : Decidable (SpeltAlike claims) :=
  inferInstanceAs (Decidable (∀ n ∈ sextets (utf8 claims.payload), n < 62))

variable {jwt : Jwt} {config : AuthConfig} {t t₀ : Instant} {token : String}

/-- What goes through carries a token that is decoded and still valid. -/
theorem StillAccepted.validAt (h : StillAccepted jwt config t token) :
    ∃ parts, jwt.decode token = some parts ∧ jwt.validAt t parts = true := by
  obtain ⟨r, hbearer, hpass⟩ := h
  by_cases hauth : Authenticated jwt config.jwtSecret t r
  · obtain ⟨tokenStr, parts, sub, hbearer', hdecode, -, -, hvalid, -, -⟩ := hauth
    have hsame := (extractBearerToken_ok.mpr hbearer').symm.trans (extractBearerToken_ok.mpr hbearer)
    rw [Except.ok.inj hsame] at hdecode
    exact ⟨parts, hdecode, hvalid⟩
  · -- a refusal does not depend on the handler
    obtain ⟨message, hrefuse⟩ := authMiddleware_refuse hauth
    have hok := (hrefuse (fun _ _ _ => .respond (writeError 200 message)) []).symm.trans (hpass _ _)
    cases hok

/-- The guard's test of a token that the service wrote. -/
theorem isTokenExpired_signed (hcompact : jwt.Compact) {key : String} {claims : Claims}
    (hsign : jwt.signedString key claims = .ok token) (product : Product) :
    isTokenExpired product t token = false ↔ SpeltAlike claims ∧ dateNow t ≤ claims.exp * 1000 := by
  obtain ⟨header, signature, rfl⟩ := hcompact key claims token hsign
  obtain ⟨members, hparse, hexp⟩ := parse_binary_payload claims
  exact isTokenExpired_payload hparse hexp

/-- Milliseconds are read off a clock before the second is over. -/
theorem dateNow_le {now exp : Int} (h : now < exp * nanosPerSecond) : dateNow now ≤ exp * 1000 := by
  unfold nanosPerSecond at h
  unfold dateNow
  omega

theorem signed_ne_empty (hcompact : jwt.Compact) {key : String} {claims : Claims}
    (hsign : jwt.signedString key claims = .ok token) : token ≠ "" := by
  obtain ⟨header, signature, rfl⟩ := hcompact key claims token hsign
  exact dotted_ne_empty _ _ _

/-- A token that the service returned and still accepts is kept, and the route entered, exactly
when its payload is spelt alike in both alphabets. Of golang-jwt it is needed that it accepts
what it signs until `exp` (`hsigns`), and that it writes the claims as its second part
(`hcompact`), for the guard looks at this part only. -/
theorem token_kept_iff (hsigns : jwt.Signs) (hcompact : jwt.Compact)
    (hreturned : Returned jwt config t₀ token) (haccepted : StillAccepted jwt config t token)
    (product : Product) (pathname : String) :
    checkAuth product t pathname (some token) = (some token, none) ↔
      SpeltAlike (config.claims config.username t₀) := by
  obtain ⟨r, values, hlogin⟩ := hreturned
  obtain ⟨-, hsign⟩ := handleLogin_token.mp hlogin
  obtain ⟨parts, hdecode, hvalid⟩ := haccepted.validAt
  have hlive : dateNow t ≤ (config.claims config.username t₀).exp * 1000 := by
    obtain ⟨parts', hdecode', -, -, -, hexp⟩ := hsigns _ _ _ hsign
    rw [hdecode, Option.some.injEq] at hdecode'
    rw [hdecode', hexp, decide_eq_true_eq] at hvalid
    exact dateNow_le hvalid
  rw [checkAuth_keeps (signed_ne_empty hcompact hsign), isTokenExpired_signed hcompact hsign]
  exact and_iff_left hlive

/-! ## Two users -/

theorem admin_ne_empty : "admin" ≠ "" := by decide

/-- A configuration with one hour of expiration. -/
def hourConfig (username : String) (h : username ≠ "") : AuthConfig :=
  ⟨username, "admin", "secret", 3600000000000, h, admin_ne_empty⟩

/-- The token of a login of this user in November 2023. -/
def hourToken (username : String) : String :=
  encodeUrl plainHeader ++ "." ++
    encodeUrl (utf8 (Claims.payload ⟨username, 1700003600, 1700000000⟩)) ++ "." ++
    encodeUrl (utf8 "secret")

theorem hourConfig_claims {username : String} (h : username ≠ "") :
    (hourConfig username h).claims (hourConfig username h).username 1700000000000000000 =
      ⟨username, 1700003600, 1700000000⟩ := by
  have hexp : unixSeconds (1700000000000000000 + 3600000000000) = 1700003600 := by decide
  have hiat : unixSeconds 1700000000000000000 = 1700000000 := by decide
  unfold AuthConfig.claims hourConfig
  rw [hexp, hiat]

theorem hourToken_signed {username : String} (h : username ≠ "") :
    plainJwt.signedString (hourConfig username h).jwtSecret
        ((hourConfig username h).claims (hourConfig username h).username 1700000000000000000) =
      .ok (hourToken username) := by
  rw [hourConfig_claims]
  rfl

theorem hourToken_returned {username : String} (h : username ≠ "") :
    Returned plainJwt (hourConfig username h) 1700000000000000000 (hourToken username) := by
  refine ⟨⟨"POST", "/auth/login", "", [],
    (writeObject [("username", username), ("password", "admin")]).toUTF8, by decide⟩, [],
    handleLogin_token.mpr ⟨?_, hourToken_signed h⟩⟩
  unfold Credentials
  dsimp only [hourConfig]
  rw [decodeStrings_writeObject (by decide)]

def bearerRequest (token : String) : Http.Request :=
  ⟨"GET", "/devices", "", [("Authorization", "Bearer" ++ " " ++ token)], ⟨#[]⟩,
    devices_decodes⟩

theorem bearerRequest_bearer (token : String) : Bearer (bearerRequest token) token :=
  ⟨"Bearer", rfl, by decide⟩

theorem hourToken_accepted {username : String} (h : username ≠ "") :
    StillAccepted plainJwt (hourConfig username h) 1700000001000000000 (hourToken username) := by
  have hbearer := bearerRequest_bearer (hourToken username)
  obtain ⟨parts, hdecode, hhmac, hverify, hsub, hvalid⟩ := plainJwt_signs _ _ _ (hourToken_signed h)
  rw [hourConfig_claims] at hsub hvalid
  have hlive : plainJwt.validAt 1700000001000000000 parts = true := by
    have hlt : (1700000001000000000 : Instant) < 1700003600 * nanosPerSecond := by decide
    rw [hvalid]
    exact decide_eq_true hlt
  have hauth : Authenticated plainJwt (hourConfig username h).jwtSecret 1700000001000000000
      (bearerRequest (hourToken username)) :=
    ⟨hourToken username, parts, username, hbearer, hdecode, hhmac, hverify, hlive, hsub, h⟩
  exact ⟨_, hbearer, fun next values => authMiddleware_pass hauth next values⟩

theorem token_kept_admin :
    checkAuth (fun _ => none) 1700000001000000000 "/devices" (some (hourToken "admin")) =
      (some (hourToken "admin"), none) :=
  (token_kept_iff plainJwt_signs plainJwt_compact (hourToken_returned (by decide))
    (hourToken_accepted (by decide)) _ "/devices").mpr (by rw [hourConfig_claims]; decide)

theorem so_euro_ne : "so€" ≠ "" := by decide

/-- The payload of the user `so€` has a group 62: his token is thrown away at once. -/
theorem token_thrown_away :
    plainJwt.Signs ∧ plainJwt.Compact ∧
    Returned plainJwt (hourConfig "so€" so_euro_ne) 1700000000000000000 (hourToken "so€") ∧
    StillAccepted plainJwt (hourConfig "so€" so_euro_ne) 1700000001000000000 (hourToken "so€") ∧
    ∀ product, checkAuth product 1700000001000000000 "/devices" (some (hourToken "so€")) =
      (none, some "/login") := by
  have hsigned := hourToken_signed so_euro_ne
  have hexpired (product : Product) :
      isTokenExpired product 1700000001000000000 (hourToken "so€") = true := by
    rw [← Bool.not_eq_false]
    intro h
    have halike := ((isTokenExpired_signed plainJwt_compact hsigned product).mp h).1
    rw [hourConfig_claims] at halike
    exact absurd halike (by decide)
  refine ⟨plainJwt_signs, plainJwt_compact, hourToken_returned so_euro_ne,
    hourToken_accepted so_euro_ne, fun product => ?_⟩
  unfold checkAuth
  rw [Option.getD_some, if_pos ⟨signed_ne_empty plainJwt_compact hsigned, hexpired product⟩]

end AssetTracker.WebUi
