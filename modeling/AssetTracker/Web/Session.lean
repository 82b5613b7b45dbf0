import AssetTracker.Lib.Machine
import AssetTracker.Web.Guard

/-!
# The session of a tab (web UI)

`context/AuthContext.tsx` keeps the token in the state of `AuthProvider` and a
copy in `localStorage`. Requests go out through `authFetch` (the same function in
`lib/api/devices.ts` and `lib/api/events.ts`); a 401 raises an event that names
no request. The route guard works on the copy only.

Results:
1. `Session.call_agrees`: what `AuthProvider` does by itself keeps token and copy equal.
2. `ends_own_iff`: a session is ended by `logout` and by its own 401 only, exactly
   when no 401 for another token arrives while it is open.
3. `agrees_iff`: token and copy are equal after every operation exactly when the
   guard never finds the copy expired.
-/

namespace AssetTracker.WebUi

open Encoding Text Base64

/-! ## `AuthProvider` -/

/-- The state of `AuthProvider`, the copy of its token under `auth_token`, and the page. -/
structure Session where
  token : Option String
  isLoading : Bool
  stored : Option String
  location : String
deriving DecidableEq, Repr

def Session.isAuthenticated (s : Session) : Bool := s.token.isSome

/-- `AuthProvider` starts with what is stored. -/
def Session.mounted (stored : Option String) (location : String) : Session :=
  ⟨stored, false, stored, location⟩

/-- What happens to `AuthProvider`. A login is a call and, later, the answer of the
service; several may wait for theirs. -/
inductive Call where
  | mount
  | login
  | loggedIn (token : String)
  | loginFailed
  | logout
deriving DecidableEq, Repr

def Session.call (s : Session) : Call → Session
  | .mount => .mounted s.stored s.location
  | .login => { s with isLoading := true }
  | .loggedIn token => { s with token := some token, stored := some token, isLoading := false }
  | .loginFailed => { s with isLoading := false }
  | .logout => { s with token := none, stored := none }

/-- The listener of `auth:logout`. -/
def Session.handleLogout (s : Session) : Session :=
  { s with token := none, stored := none, location := "/login" }

/-! ## `authFetch` -/

/-- What `authFetch` looks at in a response. -/
structure FetchResponse where
  status : Nat
  isJson : Bool
deriving DecidableEq, Repr

def FetchResponse.ok (r : FetchResponse) : Bool := 200 ≤ r.status && r.status ≤ 299

inductive Fetched where
  | null
  | body
  /-- Thrown with the status and the body. -/
  | failed (status : Nat)
  /-- `fetch` or `response.json` rejects. -/
  | rejected
deriving DecidableEq, Repr

/-- What `authFetch` makes of a response (`none` when there is none), and whether it raises
`auth:logout` before. -/
def authFetch : Option FetchResponse → Fetched × Bool
  | none => (.rejected, false)
  | some r =>
    if r.status = 204 then (.null, false)
    else if r.isJson = false then (.rejected, false)
    else if r.ok = false then (.failed r.status, r.status == 401)
    else (.body, false)

/-- The response is a 401 with its JSON body. -/
def Unauthorized (response : Option FetchResponse) : Prop := response = some ⟨401, true⟩

theorem authFetch_logout {response : Option FetchResponse} :
    (authFetch response).2 = true ↔ Unauthorized response := by
  unfold Unauthorized
  cases response with
  | none => simp [authFetch]
  | some r =>
    obtain ⟨status, isJson⟩ := r
    rw [Option.some.injEq, FetchResponse.mk.injEq]
    unfold authFetch
    by_cases h204 : status = 204
    · simp [h204]
    · cases isJson with
      | false => simp [h204]
      | true =>
        dsimp only
        rw [if_neg h204, if_neg Bool.noConfusion]
        by_cases h401 : status = 401
        · subst h401
          decide
        · split <;> simp [h401]

/-! ## Requests and their responses -/

/-- A tab with the tokens of the requests that are on their way. -/
structure Tab where
  session : Session
  requests : List String
deriving DecidableEq, Repr

def Tab.mounted (stored : Option String) (location : String) : Tab := ⟨.mounted stored location, []⟩

inductive Action where
  | call (c : Call)
  /-- A hook passes on the token of the render in which it was made. -/
  | send (token : String)
  /-- The response to one of the requests, or none. -/
  | receive (i : Nat) (response : Option FetchResponse)
deriving DecidableEq, Repr

def Tab.step (s : Tab) : Action → Option Tab
  | .call c => some { s with session := s.session.call c }
  | .send token => some { s with requests := s.requests ++ [token] }
  | .receive i response =>
    if i < s.requests.length then
      some ⟨if (authFetch response).2 then s.session.handleLogout else s.session,
        s.requests.eraseIdx i⟩
    else none

/-! ## 1. Token and copy -/

/-- The token of the context is the stored one, so that the user counts as authenticated
when a token is stored. -/
structure Agrees (s : Session) : Prop where
  token_eq : s.token = s.stored
  isAuthenticated_iff : s.isAuthenticated = true ↔ s.stored ≠ none

theorem agrees_iff_eq {s : Session} : Agrees s ↔ s.token = s.stored := by
  refine ⟨fun h => h.token_eq, fun h => ⟨h, ?_⟩⟩
  unfold Session.isAuthenticated
  rw [h, Option.isSome_iff_ne_none]

theorem mounted_agrees (stored : Option String) (location : String) :
    Agrees (.mounted stored location) := agrees_iff_eq.mpr rfl

/-- Whatever happens to the provider, token and copy change together. -/
theorem Session.call_agrees {s : Session} (h : Agrees s) (c : Call) : Agrees (s.call c) := by
  rw [agrees_iff_eq] at h ⊢
  cases c with
  | mount => rfl
  | login => exact h
  | loggedIn token => rfl
  | loginFailed => exact h
  | logout => rfl

theorem handleLogout_agrees (s : Session) : Agrees s.handleLogout := agrees_iff_eq.mpr rfl

variable {s s' : Tab} {a : Action} {as : List Action} {stored : Option String} {location : String}

/-- What a step does. -/
theorem step_cases (h : s.step a = some s') :
    (∃ c, a = .call c ∧ s' = ⟨s.session.call c, s.requests⟩) ∨
    (∃ token, a = .send token ∧ s' = ⟨s.session, s.requests ++ [token]⟩) ∨
    ∃ i response token, a = .receive i response ∧ s.requests[i]? = some token ∧
      (Unauthorized response ∧ s' = ⟨s.session.handleLogout, s.requests.eraseIdx i⟩ ∨
        ¬ Unauthorized response ∧ s' = ⟨s.session, s.requests.eraseIdx i⟩) := by
  cases a with
  | call c => exact .inl ⟨c, rfl, (Option.some.inj h).symm⟩
  | send token => exact .inr (.inl ⟨token, rfl, (Option.some.inj h).symm⟩)
  | receive i response =>
    rw [Tab.step] at h
    split at h
    · next hlt =>
      refine .inr (.inr ⟨i, response, s.requests[i], rfl, List.getElem?_eq_getElem hlt, ?_⟩)
      rw [← authFetch_logout]
      cases hraise : (authFetch response).2 with
      | true =>
        rw [hraise] at h
        exact .inl ⟨rfl, (Option.some.inj h).symm⟩
      | false =>
        rw [hraise] at h
        exact .inr ⟨Bool.false_ne_true, (Option.some.inj h).symm⟩
    · cases h

theorem run_agrees (h : Machine.run Tab.step (.mounted stored location) as = some s) :
    Agrees s.session := by
  refine Machine.invariant_run (I := fun s : Tab => Agrees s.session) ?_ (mounted_agrees _ _) h
  intro s a s' hi hs
  obtain ⟨c, -, rfl⟩ | ⟨token, -, rfl⟩ | ⟨i, response, token, -, -, ⟨-, rfl⟩ | ⟨-, rfl⟩⟩ :=
    step_cases hs
  · exact Session.call_agrees hi c
  · exact hi
  · exact handleLogout_agrees _
  · exact hi

/-! ## 2. What ends a session -/

/-- The step ends the session by `logout` or by a 401 for the token of the session, if it
ends it at all; and the response to a request with another token leaves it as it is. -/
def EndsOwn (s : Tab) (a : Action) (s' : Tab) : Prop :=
  ∀ token, s.session.token = some token →
    (s'.session.token = none → a = .call .logout ∨
      ∃ i response, a = .receive i response ∧ Unauthorized response ∧ s.requests[i]? = some token) ∧
    ∀ i response other, a = .receive i response → s.requests[i]? = some other → other ≠ token →
      s'.session = s.session

/-- No 401 arrives for a request with another token than that of an open session. -/
def NoForeign401 (s : Tab) (a : Action) : Prop :=
  ∀ i response other token, a = .receive i response → Unauthorized response →
    s.requests[i]? = some other → s.session.token = some token → other = token

/-- One step, from a state in which token and copy are equal. -/
theorem endsOwn_iff (hagrees : Agrees s.session) (h : s.step a = some s') :
    EndsOwn s a s' ↔ NoForeign401 s a := by
  constructor
  · rintro hown i response other token rfl hunauth hreq htoken
    by_contra hne
    have hkeep := (hown token htoken).2 i response other rfl hreq hne
    obtain ⟨c, hc, -⟩ | ⟨t, ht, -⟩ | ⟨i', response', t, heq, -, ⟨-, rfl⟩ | ⟨hnot, -⟩⟩ := step_cases h
    · cases hc
    · cases ht
    · rw [← hkeep] at htoken
      cases htoken
    · cases heq
      exact hnot hunauth
  · intro hno token htoken
    obtain ⟨c, rfl, rfl⟩ | ⟨t, rfl, rfl⟩ | ⟨i, response, t, rfl, hreq, ⟨hunauth, rfl⟩ | ⟨-, rfl⟩⟩ :=
      step_cases h
    · refine ⟨fun hnone => ?_, fun i response other heq => by cases heq⟩
      cases c with
      | mount =>
        -- the provider starts again with the same token
        exact absurd (hnone.symm.trans (hagrees.token_eq.symm.trans htoken)) (by simp)
      | login => exact absurd (hnone.symm.trans htoken) (by simp)
      | loggedIn token' => cases hnone
      | loginFailed => exact absurd (hnone.symm.trans htoken) (by simp)
      | logout => exact .inl rfl
    · refine ⟨fun hnone => absurd (hnone.symm.trans htoken) (by simp), ?_⟩
      exact fun i response other heq => by cases heq
    · have hsame := hno i response t token rfl hunauth hreq htoken
      subst hsame
      refine ⟨fun _ => .inr ⟨i, response, rfl, hunauth, hreq⟩, ?_⟩
      rintro i' response' other heq hother hne
      cases heq
      exact absurd (Option.some.inj (hother.symm.trans hreq)) hne
    · exact ⟨fun hnone => absurd (hnone.symm.trans htoken) (by simp), fun _ _ _ _ _ _ => rfl⟩

/-- In an interleaving of logins, logouts, requests and responses every step ends none but
its own session exactly when no step brings a 401 for another token than that of the open
session. -/
theorem ends_own_iff :
    (∀ bs a cs s s', as = bs ++ a :: cs →
      Machine.run Tab.step (.mounted stored location) bs = some s → s.step a = some s' →
        EndsOwn s a s') ↔
      Machine.Guarded Tab.step NoForeign401 (.mounted stored location) as := by
  rw [Machine.guarded_iff]
  constructor
  · intro h bs a cs s heq hrun
    cases hs : s.step a with
    | none =>
      -- a response to no request
      rintro i response other token rfl - hreq -
      rw [Tab.step, if_pos (List.getElem?_eq_some_iff.mp hreq).1] at hs
      cases hs
    | some s' => exact (endsOwn_iff (run_agrees hrun) hs).mp (h bs a cs s s' heq hrun hs)
  · intro h bs a cs s s' heq hrun hs
    exact (endsOwn_iff (run_agrees hrun) hs).mpr (h bs a cs s heq hrun)

/-- A request is sent with one token, the user logs out and in again, and the 401 to the
request ends the new session. -/
theorem foreign_401_ends_session :
    ∃ s s' : Tab, Machine.run Tab.step (.mounted none "/login")
        [.call .login, .call (.loggedIn "first"), .send "first", .call .logout, .call .login,
          .call (.loggedIn "second")] = some s ∧
      s.step (.receive 0 (some ⟨401, true⟩)) = some s' ∧ s.session.token = some "second" ∧
      s.requests[0]? = some "first" ∧ s'.session.token = none ∧
      ¬ EndsOwn s (.receive 0 (some ⟨401, true⟩)) s' := by
  refine ⟨_, _, rfl, rfl, rfl, rfl, rfl, fun h => ?_⟩
  have hkeep := (h "second" rfl).2 0 _ "first" rfl rfl (by decide)
  cases hkeep

/-! ## 3. The route guard -/

/-- The operations on the session of one tab. -/
inductive Operation where
  | call (c : Call)
  /-- The event `auth:logout`. -/
  | authLogout
  /-- A navigation to a path at an instant. -/
  | checkAuth (pathname : String) (now : Instant)

def Session.operate (product : Product) (s : Session) : Operation → Session
  | .call c => s.call c
  | .authLogout => s.handleLogout
  | .checkAuth pathname now =>
    let result := checkAuth product now pathname s.stored
    { s with stored := result.1, location := result.2.getD pathname }

/-- The session after some operations. -/
def Session.after (product : Product) (s : Session) (ops : List Operation) : Session :=
  ops.foldl (Session.operate product) s

/-- The guard does not find the stored token expired. When it does, it removes the token, and
the context is not told. -/
def FoundLive (product : Product) (s : Session) (o : Operation) : Prop :=
  ∀ pathname now token, o = .checkAuth pathname now → s.stored = some token → token ≠ "" →
    isTokenExpired product now token = false

/-- The guard removes what it finds expired, and nothing else. -/
theorem checkAuth_stored (product : Product) (now : Instant) (pathname : String)
    (stored : Option String) :
    (checkAuth product now pathname stored).1 = stored ∨
      (checkAuth product now pathname stored).1 = none ∧
        ∃ token, stored = some token ∧ token ≠ "" ∧ isTokenExpired product now token = true := by
  unfold checkAuth
  dsimp only
  split
  · next h =>
    cases stored with
    | none => exact absurd rfl h.1
    | some token => exact .inr ⟨rfl, token, rfl, h⟩
  · split
    · exact .inl rfl
    · exact .inl rfl

theorem checkAuth_expired {product : Product} {now : Instant} {token : String}
    (hne : token ≠ "") (h : isTokenExpired product now token = true) (pathname : String) :
    checkAuth product now pathname (some token) = (none, some "/login") :=
  if_pos ⟨hne, h⟩

/-- One operation, from a state in which token and copy are equal. -/
theorem operate_agrees {product : Product} {s : Session} (h : Agrees s) (o : Operation) :
    Agrees (s.operate product o) ↔ FoundLive product s o := by
  cases o with
  | call c => exact iff_of_true (Session.call_agrees h c) fun _ _ _ heq => by cases heq
  | authLogout => exact iff_of_true (handleLogout_agrees s) fun _ _ _ heq => by cases heq
  | checkAuth pathname now =>
    rw [agrees_iff_eq] at h ⊢
    show s.token = (checkAuth product now pathname s.stored).1 ↔ _
    constructor
    · rintro heq pathname' now' token hop hstored hne
      cases hop
      by_contra hexpired
      rw [Bool.not_eq_false] at hexpired
      rw [h, hstored, checkAuth_expired hne hexpired pathname] at heq
      cases heq
    · intro hlive
      obtain hkeep | ⟨-, token, hstored, hne, hexpired⟩ :=
        checkAuth_stored product now pathname s.stored
      · rw [hkeep, h]
      · rw [hlive pathname now token rfl hstored hne] at hexpired
        cases hexpired

theorem after_snoc (product : Product) (s : Session) (ops : List Operation) (o : Operation) :
    s.after product (ops ++ [o]) = (s.after product ops).operate product o := by
  unfold Session.after
  rw [List.foldl_append]
  rfl

/-- From the mounting of the provider on, the context agrees with `localStorage` after every
operation, exactly when the guard never finds the stored token expired. The operations are in
any order and at any times, and the token that is stored at the start is any text. -/
theorem agrees_iff (product : Product) (stored : Option String) (location : String)
    (ops : List Operation) :
    (∀ done rest, ops = done ++ rest →
        Agrees ((Session.mounted stored location).after product done)) ↔
      ∀ done o rest, ops = done ++ o :: rest →
        FoundLive product ((Session.mounted stored location).after product done) o := by
  constructor
  · intro h done o rest heq
    have hnext := h (done ++ [o]) rest (by rw [heq, List.append_assoc]; rfl)
    rw [after_snoc] at hnext
    exact (operate_agrees (h done (o :: rest) heq) o).mp hnext
  · intro h done
    induction done using List.reverseRecOn with
    | nil => exact fun _ _ => mounted_agrees stored location
    | append_singleton done o ih =>
      intro rest heq
      rw [List.append_assoc] at heq
      rw [after_snoc]
      exact (operate_agrees (ih (o :: rest) heq) o).mpr (h done o rest heq)

/-- A token that expired in 1970. -/
def staleToken : String :=
  encodeUrl (utf8 "\x7b\x7d") ++ "." ++ encodeUrl (utf8 (objectText [intMember ("exp", 0)])) ++ "." ++
    encodeUrl (utf8 "signature")

theorem staleToken_expired (product : Product) :
    isTokenExpired product 1700000000000000000 staleToken = true := by
  have htext : binaryString (utf8 (objectText [intMember ("exp", 0)])) =
      objectText [intMember ("exp", 0)] :=
    binaryString_objectText (.cons (binaryOf_intMember 0 (by decide)) .nil)
  have hparse : parse (binaryString (utf8 (objectText [intMember ("exp", 0)]))) =
      some (.obj [(utf16 "exp", ofInt 0)]) := by
    rw [htext, parse_objectText]
    rfl
  have hexp : lookup (utf16 "exp") [(utf16 "exp", ofInt 0)] = some (ofInt 0) := by simp [lookup]
  have hlate : ¬ dateNow 1700000000000000000 ≤ 0 * 1000 := by decide
  unfold staleToken
  rw [← Bool.not_eq_false, isTokenExpired_payload hparse hexp]
  exact fun h => hlate h.2

/-- A page is loaded with a token that has expired, and the guard runs: the provider still
has the token and counts the user as authenticated. -/
theorem guard_leaves_context :
    ∃ s, (Session.mounted (some staleToken) "/devices").after (fun _ => none)
        [.checkAuth "/devices" 1700000000000000000] = s ∧
      s.token = some staleToken ∧ s.isAuthenticated = true ∧ s.stored = none ∧ ¬ Agrees s := by
  have hne : staleToken ≠ "" := dotted_ne_empty _ _ _
  have hremoved := checkAuth_expired hne (staleToken_expired fun _ => none) "/devices"
  refine ⟨⟨some staleToken, false, none, "/login"⟩, ?_, rfl, rfl, rfl, fun h => ?_⟩
  · rw [← List.nil_append [_], after_snoc]
    unfold Session.after Session.operate Session.mounted
    dsimp only [List.foldl_nil]
    rw [hremoved, Option.getD_some]
  · cases h.token_eq

end AssetTracker.WebUi
