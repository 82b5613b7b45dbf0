import AssetTracker.Go.Handlers

/-!
# Login and bearer tokens (Go service)

`internal/interfaces/auth_handler.go` and `auth_middleware.go`, over golang-jwt,
of which only the calls that the service makes are known.

Results:
1. `extractBearerToken_ok`: a scheme, one space, a token.
2. `authMiddleware_pass`, `authMiddleware_refuse`: a request goes through exactly
   when it is authenticated, and is answered in the same way as every other time
   when it is not.
3. `handleLogin_token`: a token is returned exactly for the configured credentials.
-/

namespace AssetTracker.GoService

open Encoding Http

/-! ## golang-jwt -/

/-- The `jwt.MapClaims` of a login: `exp` and `iat` in seconds. -/
structure Claims where
  sub : String
  exp : Int
  iat : Int
deriving DecidableEq, Repr

/-- golang-jwt/v5, as far as the service calls it. -/
structure Jwt where
  /-- A token with its three parts decoded. -/
  Token : Type
  /-- `ParseUnverified`. -/
  decode : String → Option Token
  /-- The method is a `*jwt.SigningMethodHMAC`. -/
  isHmac : Token → Bool
  /-- `Method.Verify`, under a key. -/
  verify : String → Token → Bool
  /-- The registered claims are valid at an instant. -/
  validAt : Instant → Token → Bool
  /-- The claim `sub`, if it is a string. -/
  sub : Token → Option String
  /-- `SignedString` of a token of the method HS256. -/
  signedString : String → Claims → Except String String

/-- What is assumed of golang-jwt: a token that it signs is decoded to a token of an HMAC
method that verifies under the same key, keeps the subject, and is valid up to `exp`. -/
def Jwt.Signs (jwt : Jwt) : Prop :=
  ∀ (key : String) (claims : Claims) (s : String), jwt.signedString key claims = .ok s →
    ∃ token, jwt.decode s = some token ∧ jwt.isHmac token = true ∧ jwt.verify key token = true ∧
      jwt.sub token = some claims.sub ∧
      ∀ t, jwt.validAt t token = decide (t < claims.exp * nanosPerSecond)

/-- `ParseWithClaims` at an instant: the key comes from `keyfunc`, the signature is
verified, then the claims. -/
def Jwt.parseWithClaims (jwt : Jwt) (t : Instant) (tokenStr : String)
    (keyfunc : jwt.Token → Except String String) : Except String jwt.Token :=
  match jwt.decode tokenStr with
  | none => .error "token is malformed"
  | some token =>
    match keyfunc token with
    | .error e => .error e
    | .ok key =>
      if jwt.verify key token = false then .error "token signature is invalid"
      else if jwt.validAt t token = false then .error "token has invalid claims"
      else .ok token

/-! ## `AuthHandler` -/

/-- What `main` reads from the environment. `expiration` is a `time.Duration`. -/
structure AuthConfig where
  username : String
  password : String
  jwtSecret : String
  expiration : Int
  username_ne : username ≠ ""
  password_ne : password ≠ ""

/-- The defaults of `main`; without a secret there is no service. -/
def AuthConfig.fromEnv (username password jwtSecret : String) (expiration : Int) :
    Option AuthConfig :=
  if jwtSecret = "" then none
  else some {
    username := if username = "" then "admin" else username
    password := if password = "" then "admin" else password
    jwtSecret := jwtSecret
    expiration := expiration
    username_ne := by split <;> simp_all
    password_ne := by split <;> simp_all }

/-- The claims of a login at an instant. -/
def AuthConfig.claims (config : AuthConfig) (username : String) (now : Instant) : Claims where
  sub := username
  exp := unixSeconds (now + config.expiration)
  iat := unixSeconds now

def handleLogin (jwt : Jwt) (config : AuthConfig) : Handler := fun t r _ =>
  match decodeStrings "username" "password" r.body with
  | none => .respond (writeError 400 "invalid request body")
  | some (username, password) =>
    if username = "" ∨ password = "" then
      .respond (writeError 400 "username and password are required")
    else if username ≠ config.username ∨ password ≠ config.password then
      .respond (writeError 401 "invalid credentials")
    else
      match jwt.signedString config.jwtSecret (config.claims username t) with
      | .error _ => .respond (writeError 500 "internal server error")
      | .ok signedToken => .respond (writeJSON 200 (.object [("token", signedToken)]))

/-! ## The middleware -/

/-- `strings.SplitN(s, sep, 2)`, for a separator of one character. -/
def splitTwo (sep : Char) (s : String) : List String :=
  match s.toList.span (· != sep) with
  | (_, []) => [s]
  | (first, _ :: rest) => [String.ofList first, String.ofList rest]

def errMissingAuthHeader : String := "missing authorization header"

def errMalformedAuthHeader : String := "malformed authorization header"

def extractBearerToken (r : Request) : Except String String :=
  let auth := r.get "Authorization"
  if auth = "" then .error errMissingAuthHeader
  else
    match splitTwo ' ' auth with
    | [scheme, token] =>
      if equalFold scheme "Bearer" then .ok token else .error errMalformedAuthHeader
    | _ => .error errMalformedAuthHeader

def writeAuthError (message : String) : Response :=
  ⟨401, [("Content-Type", "application/json")], .object [("error", message)]⟩

/-- The key function: only HMAC methods get the key. -/
def keyFunc (jwt : Jwt) (jwtSecret : String) (token : jwt.Token) : Except String String :=
  if jwt.isHmac token then .ok jwtSecret else .error "signature is invalid"

/-- The handler that `NewAuthMiddleware` makes. No handler reads the user name that it
leaves in the context. -/
def authMiddleware (jwt : Jwt) (jwtSecret : String) (next : Handler) : Handler :=
  fun t r values =>
    match extractBearerToken r with
    | .error e => .respond (writeAuthError e)
    | .ok tokenStr =>
      match jwt.parseWithClaims t tokenStr (keyFunc jwt jwtSecret) with
      | .error _ => .respond (writeAuthError "invalid or expired token")
      | .ok token =>
        match jwt.sub token with
        | none => .respond (writeAuthError "invalid token payload")
        | some sub =>
          if sub = "" then .respond (writeAuthError "invalid token payload")
          else next t r values

/-! ## 1. The header -/

/-- The Authorization header is a scheme equal to `Bearer` up to case, one space, and the
token. -/
def Bearer (r : Request) (token : String) : Prop :=
  ∃ scheme, r.get "Authorization" = scheme ++ " " ++ token ∧ equalFold scheme "Bearer" = true

namespace AuthLemmas

theorem space_not_mem {scheme : String} (h : equalFold scheme "Bearer" = true) :
    ' ' ∉ scheme.toList := by
  intro hmem
  rw [equalFold, beq_iff_eq] at h
  have hfold : foldChar ' ' ∈ foldName scheme := List.mem_map_of_mem hmem
  rw [h] at hfold
  exact absurd hfold (by decide)

theorem splitTwo_eq {sep : Char} {s first rest : String} :
    splitTwo sep s = [first, rest] ↔
      sep ∉ first.toList ∧ s.toList = first.toList ++ sep :: rest.toList := by
  unfold splitTwo
  rw [List.span_eq_takeWhile_dropWhile]
  constructor
  · intro h
    have happ := List.takeWhile_append_dropWhile (p := (· != sep)) (l := s.toList)
    generalize hfirst : s.toList.takeWhile (· != sep) = cs at h happ
    generalize hrest : s.toList.dropWhile (· != sep) = ds at h happ
    cases ds with
    | nil => cases h
    | cons d ds =>
      cases h
      -- the rest starts at the first separator
      have hd : d = sep := by
        have hhead := List.head?_dropWhile_not (· != sep) s.toList
        rw [hrest] at hhead
        simpa using hhead
      refine ⟨fun hmem => ?_, ?_⟩
      · rw [String.toList_ofList, ← hfirst] at hmem
        simpa using List.mem_takeWhile_imp hmem
      · rw [String.toList_ofList, String.toList_ofList, ← happ, hd]
  · rintro ⟨hnot, hs⟩
    have hall : ∀ c ∈ first.toList, (c != sep) = true := fun c hc =>
      bne_iff_ne.mpr fun heq => hnot (heq ▸ hc)
    rw [hs, List.takeWhile_append_of_pos hall, List.dropWhile_append_of_pos hall]
    simp

end AuthLemmas

open AuthLemmas

theorem extractBearerToken_ok {r : Request} {token : String} :
    extractBearerToken r = .ok token ↔ Bearer r token := by
  unfold extractBearerToken Bearer
  dsimp only
  generalize r.get "Authorization" = auth
  constructor
  · intro h
    split at h
    · cases h
    · split at h
      · next scheme token' hsplit =>
        split at h
        · next hfold =>
          cases h
          refine ⟨scheme, ?_, hfold⟩
          rw [← String.toList_inj, (splitTwo_eq.mp hsplit).2]
          simp
        · cases h
      · cases h
  · rintro ⟨scheme, rfl, hfold⟩
    have hsplit : splitTwo ' ' (scheme ++ " " ++ token) = [scheme, token] :=
      splitTwo_eq.mpr ⟨space_not_mem hfold, by simp⟩
    have hne : scheme ++ " " ++ token ≠ "" := by
      intro h
      rw [← String.toList_inj] at h
      simp at h
    rw [if_neg hne, hsplit]
    exact if_pos hfold

/-! ## 2. Who goes through -/

/-- The Authorization header carries a token that the middleware accepts at an instant. -/
def Authenticated (jwt : Jwt) (jwtSecret : String) (t : Instant) (r : Request) : Prop :=
  ∃ tokenStr token sub, Bearer r tokenStr ∧ jwt.decode tokenStr = some token ∧
    jwt.isHmac token = true ∧ jwt.verify jwtSecret token = true ∧ jwt.validAt t token = true ∧
    jwt.sub token = some sub ∧ sub ≠ ""

variable {jwt : Jwt} {jwtSecret : String} {t : Instant} {r : Request}

theorem parseWithClaims_ok {tokenStr : String} {token : jwt.Token} :
    jwt.parseWithClaims t tokenStr (keyFunc jwt jwtSecret) = .ok token ↔
      jwt.decode tokenStr = some token ∧ jwt.isHmac token = true ∧
        jwt.verify jwtSecret token = true ∧ jwt.validAt t token = true := by
  constructor
  · intro h
    unfold Jwt.parseWithClaims keyFunc at h
    split at h
    · cases h
    · next token' hdecode =>
      by_cases hhmac : jwt.isHmac token' = true
      · rw [if_pos hhmac] at h
        dsimp only at h
        split at h
        · cases h
        · next hverify =>
          split at h
          · cases h
          · next hvalid =>
            cases h
            rw [Bool.not_eq_false] at hverify hvalid
            exact ⟨hdecode, hhmac, hverify, hvalid⟩
      · rw [if_neg hhmac] at h
        cases h
  · rintro ⟨hdecode, hhmac, hverify, hvalid⟩
    unfold Jwt.parseWithClaims keyFunc
    rw [hdecode]
    simp [hhmac, hverify, hvalid]

/-- An authenticated request goes through. -/
theorem authMiddleware_pass (h : Authenticated jwt jwtSecret t r) (next : Handler)
    (values : List String) : authMiddleware jwt jwtSecret next t r values = next t r values := by
  obtain ⟨tokenStr, token, sub, hbearer, hdecode, hhmac, hverify, hvalid, hsub, hne⟩ := h
  unfold authMiddleware
  rw [extractBearerToken_ok.mpr hbearer]
  dsimp only
  rw [parseWithClaims_ok.mpr ⟨hdecode, hhmac, hverify, hvalid⟩]
  dsimp only
  rw [hsub]
  exact if_neg hne

/-- Any other request is answered, whatever it was meant for. -/
theorem authMiddleware_refuse (h : ¬ Authenticated jwt jwtSecret t r) :
    ∃ message, ∀ (next : Handler) (values : List String),
      authMiddleware jwt jwtSecret next t r values = .respond (writeAuthError message) := by
  unfold authMiddleware
  cases hbearer : extractBearerToken r with
  | error e => exact ⟨e, fun _ _ => rfl⟩
  | ok tokenStr =>
    dsimp only
    cases hparse : jwt.parseWithClaims t tokenStr (keyFunc jwt jwtSecret) with
    | error e => exact ⟨_, fun _ _ => rfl⟩
    | ok token =>
      obtain ⟨hdecode, hhmac, hverify, hvalid⟩ := parseWithClaims_ok.mp hparse
      dsimp only
      cases hsub : jwt.sub token with
      | none => exact ⟨_, fun _ _ => rfl⟩
      | some sub =>
        have hempty : sub = "" := by
          by_contra hne
          exact h ⟨tokenStr, token, sub, extractBearerToken_ok.mp hbearer, hdecode, hhmac,
            hverify, hvalid, hsub, hne⟩
        exact ⟨_, fun _ _ => if_pos hempty⟩

/-! ## 3. Logins -/

/-- The body carries the configured username and password. -/
def Credentials (config : AuthConfig) (r : Request) : Prop :=
  decodeStrings "username" "password" r.body = some (config.username, config.password)

theorem writeError_no_token {status : Nat} {message token : String} :
    (writeError status message).body ≠ .object [("token", token)] := by
  simp [writeError, writeJSON]

/-- A token is returned for the configured credentials, if it can be signed. -/
theorem handleLogin_token {config : AuthConfig} {values : List String} {token : String} :
    (∃ response, handleLogin jwt config t r values = .respond response ∧
        response.body = .object [("token", token)]) ↔
      Credentials config r ∧
        jwt.signedString config.jwtSecret (config.claims config.username t) = .ok token := by
  unfold handleLogin Credentials
  constructor
  · rintro ⟨response, h, htoken⟩
    split at h
    · cases h
      exact absurd htoken writeError_no_token
    · next username password hbody =>
      split at h
      · cases h
        exact absurd htoken writeError_no_token
      · split at h
        · cases h
          exact absurd htoken writeError_no_token
        · next hsame =>
          rw [not_or, not_not, not_not] at hsame
          obtain ⟨rfl, rfl⟩ := hsame
          split at h
          · cases h
            exact absurd htoken writeError_no_token
          · next hsign =>
            cases h
            cases htoken
            exact ⟨hbody, hsign⟩
  · rintro ⟨hbody, hsign⟩
    refine ⟨writeJSON 200 (.object [("token", token)]), ?_, rfl⟩
    rw [hbody]
    dsimp only
    rw [if_neg (not_or.mpr ⟨config.username_ne, config.password_ne⟩), if_neg (by simp), hsign]

/-- A login is answered without a use case. -/
theorem handleLogin_respond (jwt : Jwt) (config : AuthConfig) (t : Instant) (r : Request)
    (values : List String) : ∃ response, handleLogin jwt config t r values = .respond response := by
  unfold handleLogin
  split
  · exact ⟨_, rfl⟩
  · split
    · exact ⟨_, rfl⟩
    · split
      · exact ⟨_, rfl⟩
      · split <;> exact ⟨_, rfl⟩

end AssetTracker.GoService
