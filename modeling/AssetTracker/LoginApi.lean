import AssetTracker.DeviceApi
import AssetTracker.Tokens

/-!
# Logins, from the browser to the service and back

`login` of `lib/api/auth.ts` against `HandleLogin`, and the calls of the device API with the
token that it resolves to.

Results:
1. `login_settles`: what a login comes to. `login_shown`: what the login page shows of it.
2. `login_opens`: the token opens the device API until it expires.
-/

namespace AssetTracker.LoginApi

open Encoding Text Base64 GoService Server WebUi DeviceApi
open Http (Decodes isPlain plainPath pathSegments cleanPath pathSegments_plainPath cleanPath_plainPath
  decodes_plainPath)

/-! ## Definitions -/

/-- The request that the Go service gets for a login. -/
def loginCall (username password : JsString) (proxy : Proxy) (added : List (String × String)) :
    Option Http.Request :=
  (proxy.path apiBase (apiBase ++ "/auth/login")).bind fun path =>
    if h : Decodes path then some
      { method := "POST"
        path := path
        query := ""
        header := ("Content-Type", "application/json") :: added
        body := body [("username", some username), ("password", some password)]
        decodes := h }
    else none

/-- What `login` makes of a response. It raises no `auth:logout`. -/
def settleLogin (status : Nat) (text : String) : Promise :=
  match parse text with
  | none => .rejected
  | some v => if 200 ≤ status ∧ status ≤ 299 then .value v else .thrown status v

/-- `response.token`. -/
def tokenOf : Json → Option String
  | .obj members =>
    match lookup (utf16 "token") members with
    | some (.str token) => some (ofUtf16 token)
    | _ => none
  | _ => none

/-- `errorMessage` of the login page. -/
def errorMessage : Promise → Option String
  | .thrown status _ => some (if status = 401 then "Invalid credentials" else "An error occurred")
  | .rejected => some "An error occurred"
  | _ => none

def tokenBody (token : String) : Json := objectOf [stringMember ("token", token)]

section

variable (jwt : Jwt) (config : AuthConfig)

/-- The promise of a login at an instant, for what arrives of its two texts. -/
def granted (t : Instant) (username password : String) : Promise :=
  if username = "" ∨ password = "" then
    .thrown 400 (errorBody "username and password are required")
  else if username ≠ config.username ∨ password ≠ config.password then
    .thrown 401 (errorBody "invalid credentials")
  else
    match jwt.signedString config.jwtSecret (config.claims username t) with
    | .error _ => .thrown 500 (errorBody "internal server error")
    | .ok token => .value (tokenBody token)

/-- The first instant at which a token of a login is refused. -/
def expiry (t : Instant) : Instant := unixSeconds (t + config.expiration) * nanosPerSecond

end

variable {jwt : Jwt} {config : AuthConfig} {t t₀ : Instant} {monitor : Response}
  {username password : JsString} {proxy : Proxy} {added : List (String × String)}
  {r : Http.Request} {token : String}

/-! ## 1. A login -/

namespace LoginApiLemmas

theorem login_decodes : Decodes (plainPath ["auth", "login"]) := by decide

/-- A login is always sent, to the same path through either proxy. -/
theorem loginCall_eq (username password : JsString) (proxy : Proxy)
    (added : List (String × String)) : loginCall username password proxy added = some
      { method := "POST"
        path := plainPath ["auth", "login"]
        query := ""
        header := ("Content-Type", "application/json") :: added
        body := body [("username", some username), ("password", some password)]
        decodes := login_decodes } := by
  have hurl : apiBase ++ "/auth/login" = apiBase ++ plainPath ["auth", "login"] := by decide
  have hpath : proxy.path apiBase (apiBase ++ plainPath ["auth", "login"]) =
      some (plainPath ["auth", "login"]) := ApiLemmas.proxy_path proxy apiBase _
  unfold loginCall
  rw [hurl, hpath, Option.bind_some, dif_pos login_decodes]

theorem loginCall_request (h : loginCall username password proxy added = some r) :
    loginPattern.Matches r [] ∧
      decodeStrings "username" "password" r.body = some (ofUtf16 username, ofUtf16 password) := by
  have hplain : ∀ s ∈ ["auth", "login"], isPlain s = true := by decide
  rw [loginCall_eq] at h
  cases h
  refine ⟨⟨.inr (.inl rfl), .inl ?_, ?_⟩, decodeStrings_stringify (by decide)⟩
  · exact cleanPath_plainPath hplain (List.cons_ne_nil _ _)
  · rw [pathSegments_plainPath hplain (List.cons_ne_nil _ _)]
    decide

theorem settleLogin_error {zone : Device → Int} {status : Nat} {message : String}
    (h : 300 ≤ status) :
    settleLogin status ((writeError status message).body.encode zone) =
      .thrown status (errorBody message) := by
  have hok : ¬ (200 ≤ status ∧ status ≤ 299) := fun hboth => absurd (h.trans hboth.2) (by decide)
  rw [settleLogin, parse_encode]
  exact if_neg hok

theorem settleLogin_token (zone : Device → Int) (token : String) :
    settleLogin 200 ((writeJSON 200 (.object [("token", token)])).body.encode zone) =
      .value (tokenBody token) := by
  rw [settleLogin, parse_encode]
  rfl

end LoginApiLemmas

open LoginApiLemmas

/-- The service sees the two texts with a surrogate that stands alone replaced. -/
theorem login_settles (h : loginCall username password proxy added = some r) :
    ∃ response, serve jwt config monitor t r = .respond response ∧
      ∀ zone, settleLogin response.status (response.body.encode zone) =
        granted jwt config t (ofUtf16 username) (ofUtf16 password) := by
  obtain ⟨hmatches, hbody⟩ := loginCall_request h
  rw [serve_login hmatches]
  unfold handleLogin granted
  rw [hbody]
  dsimp only
  by_cases hempty : ofUtf16 username = "" ∨ ofUtf16 password = ""
  · rw [if_pos hempty, if_pos hempty]
    exact ⟨_, rfl, fun zone => settleLogin_error (show 300 ≤ 400 by decide)⟩
  · rw [if_neg hempty, if_neg hempty]
    by_cases hother : ofUtf16 username ≠ config.username ∨ ofUtf16 password ≠ config.password
    · rw [if_pos hother, if_pos hother]
      exact ⟨_, rfl, fun zone => settleLogin_error (show 300 ≤ 401 by decide)⟩
    · rw [if_neg hother, if_neg hother]
      cases jwt.signedString config.jwtSecret (config.claims (ofUtf16 username) t) with
      | error e => exact ⟨_, rfl, fun zone => settleLogin_error (show 300 ≤ 500 by decide)⟩
      | ok token => exact ⟨_, rfl, fun zone => settleLogin_token zone token⟩

/-- A login is granted for the configured texts only. -/
theorem granted_value {username password : String} {v : Json}
    (h : granted jwt config t username password = .value v) :
    username = config.username ∧ password = config.password ∧ ∃ token, v = tokenBody token ∧
      jwt.signedString config.jwtSecret (config.claims username t) = .ok token := by
  unfold granted at h
  split at h
  · cases h
  · split at h
    · cases h
    · next hsame =>
      rw [not_or, not_not, not_not] at hsame
      split at h
      · cases h
      · next hsign =>
        cases h
        exact ⟨hsame.1, hsame.2, _, rfl, hsign⟩

theorem granted_shown (username password : String) :
    errorMessage (granted jwt config t username password) = some "Invalid credentials" ↔
      username ≠ "" ∧ password ≠ "" ∧
        (username ≠ config.username ∨ password ≠ config.password) := by
  have hmessage : "An error occurred" ≠ "Invalid credentials" := by decide
  unfold granted
  by_cases hempty : username = "" ∨ password = ""
  · rw [if_pos hempty]
    exact iff_of_false (fun h => hmessage (Option.some.inj h))
      fun h => hempty.elim h.1 h.2.1
  · rw [if_neg hempty]
    rw [not_or] at hempty
    by_cases hother : username ≠ config.username ∨ password ≠ config.password
    · rw [if_pos hother]
      exact iff_of_true rfl ⟨hempty.1, hempty.2, hother⟩
    · rw [if_neg hother]
      refine iff_of_false ?_ fun h => hother h.2.2
      cases jwt.signedString config.jwtSecret (config.claims username t) with
      | error e => exact fun h => hmessage (Option.some.inj h)
      | ok token => exact fun h => absurd h (Option.some_ne_none _).symm

/-- The login page calls the credentials invalid when both texts are there and one of them is
not the configured one. -/
theorem login_shown (h : loginCall username password proxy added = some r) :
    ∃ response, serve jwt config monitor t r = .respond response ∧ ∀ zone,
      (errorMessage (settleLogin response.status (response.body.encode zone)) =
          some "Invalid credentials" ↔
        ofUtf16 username ≠ "" ∧ ofUtf16 password ≠ "" ∧
          (ofUtf16 username ≠ config.username ∨ ofUtf16 password ≠ config.password)) := by
  obtain ⟨response, hserve, hsettles⟩ :=
    @login_settles jwt config t monitor username password proxy added r h
  refine ⟨response, hserve, fun zone => ?_⟩
  rw [hsettles zone]
  exact granted_shown _ _

theorem tokenOf_tokenBody (token : String) : tokenOf (tokenBody token) = some token := by
  simp [tokenOf, tokenBody, objectOf, MemberText.member, stringMember, lookup]

/-! ## 2. What it opens -/

namespace LoginApiLemmas

/-- A character that a header value keeps, wherever it stands. -/
def isKept (c : Char) : Bool :=
  !isHttpSpace c && c.toNat ≤ 0xFF && c != '\x00' && c != '\n' && c != '\r'

theorem urlChar_kept : ∀ n < 64, isKept (urlChar n) = true := by decide

theorem encodeUrl_kept (bs : List UInt8) : ∀ c ∈ (encodeUrl bs).toList, isKept c = true := by
  unfold encodeUrl
  rw [String.toList_ofList]
  intro c hc
  obtain ⟨n, hn, rfl⟩ := List.mem_map.mp hc
  exact urlChar_kept n (sextets_lt hn)

theorem signed_kept (hcompact : jwt.Compact) {key : String} {claims : Claims}
    (hsign : jwt.signedString key claims = .ok token) : ∀ c ∈ token.toList, isKept c = true := by
  obtain ⟨header, signature, rfl⟩ := hcompact key claims token hsign
  have hdot : ".".toList.all isKept = true := by decide
  rw [List.all_eq_true] at hdot
  intro c hc
  simp only [String.toList_append, List.mem_append] at hc
  obtain (((hc | hc) | hc) | hc) | hc := hc
  · exact encodeUrl_kept _ c hc
  · exact hdot c hc
  · exact encodeUrl_kept _ c hc
  · exact hdot c hc
  · exact encodeUrl_kept _ c hc

theorem kept_trimmed (hkept : ∀ c ∈ token.toList, isKept c = true) (hne : token ≠ "")
    (cs : List Char) :
    (cs ++ token.toList).reverse.dropWhile isHttpSpace = (cs ++ token.toList).reverse := by
  obtain ⟨front, last, htoken⟩ : ∃ front last, token.toList = front ++ [last] := by
    rcases List.eq_nil_or_concat token.toList with hnil | ⟨front, last, h⟩
    · exact absurd (String.toList_eq_nil_iff.mp hnil) hne
    · exact ⟨front, last, h.trans List.concat_eq_append⟩
  have hlast : isHttpSpace last = false := by
    have := hkept last (by simp [htoken])
    simp only [isKept, Bool.and_eq_true, Bool.not_eq_true'] at this
    exact this.1.1.1.1
  rw [htoken, ← List.append_assoc, List.reverse_append, List.reverse_singleton,
    List.singleton_append]
  exact List.dropWhile_cons_of_neg (by simp [hlast])

/-- Nothing is trimmed, for the text begins with the scheme and ends with a kept character. -/
theorem headerValue_bearer (hkept : ∀ c ∈ token.toList, isKept c = true) (hne : token ≠ "") :
    headerValue ("Bearer " ++ token) = some ("Bearer " ++ token) := by
  have hbearer : ("Bearer ".toList.all fun c =>
      c.toNat ≤ 0xFF && c != '\x00' && c != '\n' && c != '\r') = true := by decide
  have hstart : "Bearer ".toList = 'B' :: "earer ".toList := by decide
  have hfront : ("Bearer " ++ token).toList.dropWhile isHttpSpace =
      "Bearer ".toList ++ token.toList := by
    rw [String.toList_append, hstart, List.cons_append]
    exact List.dropWhile_cons_of_neg (by decide)
  have hbytes : ("Bearer ".toList ++ token.toList).all (fun c =>
      c.toNat ≤ 0xFF && c != '\x00' && c != '\n' && c != '\r') = true := by
    rw [List.all_append, hbearer, Bool.true_and, List.all_eq_true]
    intro c hc
    have := hkept c hc
    simp only [isKept, Bool.and_assoc, Bool.and_eq_true] at this ⊢
    exact this.2
  unfold headerValue
  dsimp only
  rw [hfront, kept_trimmed hkept hne, List.reverse_reverse, if_pos hbytes,
    ← String.toList_append, String.ofList_toList]

/-- A call with a token of the service is sent with the token as it is. -/
theorem request_bearer {c : ApiCall} (hplain : c.id?.all isPlain = true)
    (hkept : ∀ c ∈ token.toList, isKept c = true) (hne : token ≠ "") (proxy : Proxy)
    (added : List (String × String)) :
    ∃ r, c.request proxy token added = some r ∧ Bearer r token := by
  obtain ⟨r, hr⟩ : ∃ r, c.request proxy token added = some r := by
    have hpath : proxy.path apiBase (apiBase ++ plainPath c.names) = some (plainPath c.names) :=
      ApiLemmas.proxy_path proxy apiBase _
    have hdecodes : Decodes (plainPath c.names) := decodes_plainPath (names_plain hplain)
    unfold ApiCall.request
    rw [if_pos hplain, headerValue_bearer hkept hne, fetch_url, hpath]
    exact ⟨_, dif_pos hdecodes⟩
  obtain ⟨-, -, -, -, hauth⟩ := request_path hr
  rw [headerValue_bearer hkept hne] at hauth
  exact ⟨r, hr, "Bearer", Option.some.inj hauth, by decide⟩

/-- A token of a login is accepted up to its expiry. -/
theorem authenticated_iff (hsigns : jwt.Signs) (hbearer : Bearer r token)
    (hsign : jwt.signedString config.jwtSecret (config.claims config.username t₀) = .ok token) :
    Authenticated jwt config.jwtSecret t r ↔ t < expiry config t₀ := by
  obtain ⟨parts, hdecode, hhmac, hverify, hsub, hvalid⟩ := hsigns _ _ _ hsign
  constructor
  · rintro ⟨token', parts', sub, hbearer', hdecode', -, -, hvalid', -, -⟩
    have hsame :=
      (extractBearerToken_ok.mpr hbearer').symm.trans (extractBearerToken_ok.mpr hbearer)
    rw [Except.ok.inj hsame, hdecode, Option.some.injEq] at hdecode'
    rw [← hdecode', hvalid] at hvalid'
    exact of_decide_eq_true hvalid'
  · intro h
    exact ⟨token, parts, config.username, hbearer, hdecode, hhmac, hverify,
      (hvalid t).trans (decide_eq_true h), hsub, config.username_ne⟩

end LoginApiLemmas

/-- Every call of the device API with the token is sent; up to this instant it comes to its use
case, and from then on it is refused, which the session is told. The ids are of letters, digits
and hyphens, as those of devices are: others may come to another path. -/
def OpensUntil (jwt : Jwt) (config : AuthConfig) (token : String) (last : Instant) : Prop :=
  ∀ (c : ApiCall) (proxy : Proxy) (added : List (String × String)), c.id?.all isPlain = true →
    ∃ r, c.request proxy token added = some r ∧ ∀ t monitor,
      (t < last → ∃ answer, serve jwt config monitor t r = .call (useCase c) answer ∧
        ∀ zone result, settled zone (answer result) = (promised zone c result, false)) ∧
      (last ≤ t → ∃ response, serve jwt config monitor t r = .respond response ∧
        ∃ message, ∀ zone, settled zone response = (.thrown 401 (errorBody message), true))

theorem signed_opens (hsigns : jwt.Signs) (hcompact : jwt.Compact)
    (hsign : jwt.signedString config.jwtSecret (config.claims config.username t₀) = .ok token) :
    OpensUntil jwt config token (expiry config t₀) := by
  intro c proxy added hplain
  obtain ⟨r, hr, hbearer⟩ := request_bearer hplain (signed_kept hcompact hsign)
    (signed_ne_empty hcompact hsign) proxy added
  refine ⟨r, hr, fun t monitor => ?_⟩
  obtain ⟨hopen, hclosed⟩ := @call_settles jwt config t monitor c proxy token added r hr
  have hiff := @authenticated_iff jwt config t t₀ r token hsigns hbearer hsign
  exact ⟨fun h => hopen (hiff.mpr h),
    fun h => hclosed fun hauth => absurd (hiff.mp hauth) (not_lt.mpr h)⟩

/-- A login that resolves was made with the configured texts, and it resolves to a token that
opens the device API until it expires, and no longer. The texts are compared as they arrive: a
surrogate that stands alone is replaced on the way, so two texts of a browser may be one to the
service. Of golang-jwt it is needed that it accepts what it signs (`hsigns`), and that a token
is a text that a header can carry (`hcompact`). -/
theorem login_opens {jwt : Jwt} {config : AuthConfig} (hsigns : jwt.Signs) (hcompact : jwt.Compact)
    {username password : JsString} {proxy : Proxy} {added : List (String × String)}
    {monitor response : Response} {t : Instant} {r : Http.Request} {zone : Device → Int} {v : Json}
    (hcall : loginCall username password proxy added = some r)
    (hserve : serve jwt config monitor t r = .respond response)
    (hvalue : settleLogin response.status (response.body.encode zone) = .value v) :
    ofUtf16 username = config.username ∧ ofUtf16 password = config.password ∧
      ∃ token, tokenOf v = some token ∧ OpensUntil jwt config token (expiry config t) := by
  obtain ⟨response', hserve', hsettles⟩ :=
    @login_settles jwt config t monitor username password proxy added r hcall
  cases hserve'.symm.trans hserve
  obtain ⟨husername, hpassword, token, rfl, hsign⟩ :=
    granted_value ((hsettles zone).symm.trans hvalue)
  rw [husername] at hsign
  exact ⟨husername, hpassword, token, tokenOf_tokenBody token, signed_opens hsigns hcompact hsign⟩

/-- The login of the user `admin`. -/
theorem login_opens_admin : ∃ r response v token,
    loginCall (utf16 "admin") (utf16 "admin") .nginx [] = some r ∧
    serve plainJwt (hourConfig "admin" admin_ne_empty) (writeError 404 "") 1700000000000000000 r =
      .respond response ∧
    settleLogin response.status (response.body.encode fun _ => 0) = .value v ∧
    tokenOf v = some token ∧
    OpensUntil plainJwt (hourConfig "admin" admin_ne_empty) token 1700003600000000000 := by
  have hcall := loginCall_eq (utf16 "admin") (utf16 "admin") .nginx []
  obtain ⟨response, hserve, hsettles⟩ :=
    @login_settles plainJwt (hourConfig "admin" admin_ne_empty) 1700000000000000000
      (writeError 404 "") _ _ _ _ _ hcall
  have hgranted : granted plainJwt (hourConfig "admin" admin_ne_empty) 1700000000000000000
      "admin" "admin" = .value (tokenBody (hourToken "admin")) := by
    have hsign := hourToken_signed admin_ne_empty
    rw [show (hourConfig "admin" admin_ne_empty).username = "admin" from rfl] at hsign
    unfold granted
    rw [if_neg (by decide), if_neg (by decide), hsign]
  have hvalue := hsettles fun _ => 0
  rw [ofUtf16_utf16, hgranted] at hvalue
  obtain ⟨-, -, token, htoken, hopens⟩ :=
    login_opens plainJwt_signs plainJwt_compact hcall hserve hvalue
  exact ⟨_, response, _, token, hcall, hserve, hvalue, htoken, hopens⟩

end AssetTracker.LoginApi
