import AssetTracker.Lib.Stream
import AssetTracker.Go.Server

/-!
# Malformed bodies (Go service)

The handlers that read a body decode the first JSON value of it, and whatever follows
this value stays unread.

Results:
1. `serve_refused`, `serve_accepted`: what a request with a body comes to.
2. `malformed_refused_iff`: which of the bodies that are not one JSON value are refused.
-/

namespace AssetTracker.Server

open Text Encoding Http GoService

/-! ## Definitions -/

/-- The routes whose handlers read the body. -/
inductive BodyRoute where
  | create
  | update
  | login
deriving DecidableEq, Repr

namespace BodyRoute

def pattern : BodyRoute → Pattern
  | create => Route.create.pattern
  | update => Route.update.pattern
  | login => loginPattern

/-- The body, as the handler decodes it. -/
def decode (route : BodyRoute) (body : ByteArray) : Option (String × String) :=
  match route with
  | create => decodeStrings "name" "type" body
  | update => decodeStrings "name" "type" body
  | login => decodeStrings "username" "password" body

/-- What a value is decoded to. -/
def fields : BodyRoute → Json → Option (String × String)
  | create => decodeFields "name" "type"
  | update => decodeFields "name" "type"
  | login => decodeFields "username" "password"

/-- The handler goes on with what it decoded: a login needs both fields. -/
def goesOn : BodyRoute → String × String → Bool
  | create, _ => true
  | update, _ => true
  | login, (username, password) => username ≠ "" ∧ password ≠ ""

/-- The request gets to the handler. -/
def Reached (jwt : Jwt) (config : AuthConfig) (t : Instant) (r : Request) : BodyRoute → Prop
  | create => Authenticated jwt config.jwtSecret t r
  | update => Authenticated jwt config.jwtSecret t r
  | login => True

end BodyRoute

/-- The body is exactly one JSON value, between white space. -/
def OneValue (body : ByteArray) : Prop := parse (bodyText body) ≠ none

/-- The response is a 400 that only names the error, and nothing else happened. -/
def Refused (s s' : State) (r : Request) (t : Instant) : Prop :=
  ∃ message, s' = { s with log := s.log ++ [⟨r, t, withCors (writeError 400 message)⟩] }

/-! ## 1. Requests with a body -/

variable {jwt : Jwt} {config : AuthConfig} {t : Instant} {r : Request} {monitor : Response}
  {values : List String} {route : BodyRoute} {s s' : State}

/-- A request whose body cannot be decoded, or a login that lacks a field. -/
theorem serve_refused (hroute : route.pattern.Matches r values)
    (hreached : route.Reached jwt config t r)
    (h : ∀ fields, route.decode r.body = some fields → route.goesOn fields = false) :
    ∃ message, serve jwt config monitor t r = .respond (withCors (writeError 400 message)) := by
  have hnone (hall : ∀ fields, route.goesOn fields = true) : route.decode r.body = none := by
    by_contra hsome
    obtain ⟨fields, hfields⟩ := Option.ne_none_iff_exists'.mp hsome
    exact Bool.false_ne_true ((h fields hfields).symm.trans (hall fields))
  cases route with
  | create =>
    have hroute : Route.create.pattern.Matches r values := hroute
    have hdecode : decodeStrings "name" "type" r.body = none := hnone fun _ => rfl
    rw [serve_route hroute, authMiddleware_pass hreached, Route.handler,
      handleCreate_refused t values hdecode]
    exact ⟨_, rfl⟩
  | update =>
    have hroute : Route.update.pattern.Matches r values := hroute
    have hdecode : decodeStrings "name" "type" r.body = none := hnone fun _ => rfl
    rw [serve_route hroute, authMiddleware_pass hreached, Route.handler,
      handleUpdate_refused t values hdecode]
    exact ⟨_, rfl⟩
  | login =>
    rw [serve_login hroute, handleLogin]
    cases hdecode : decodeStrings "username" "password" r.body with
    | none => exact ⟨_, rfl⟩
    | some fields =>
      obtain ⟨username, password⟩ := fields
      have hempty : username = "" ∨ password = "" := by
        have hgoes := h _ hdecode
        rw [BodyRoute.goesOn, decide_eq_false_iff_not] at hgoes
        by_contra hne
        exact hgoes (not_or.mp hne)
      dsimp only
      rw [if_pos hempty]
      exact ⟨_, rfl⟩

/-- Any other one is handed to the use case, or its credentials are checked. -/
theorem serve_accepted {fields : String × String} (hroute : route.pattern.Matches r values)
    (hreached : route.Reached jwt config t r) (hdecode : route.decode r.body = some fields)
    (h : route.goesOn fields = true) (message : String) :
    serve jwt config monitor t r ≠ .respond (withCors (writeError 400 message)) := by
  intro hserve
  cases route with
  | create =>
    have hroute : Route.create.pattern.Matches r values := hroute
    have hdecode : decodeStrings "name" "type" r.body = some fields := hdecode
    obtain ⟨answer, hcall, -⟩ := handleCreate_call t values hdecode
    rw [serve_route hroute, authMiddleware_pass hreached, Route.handler, hcall] at hserve
    cases hserve
  | update =>
    have hroute : Route.update.pattern.Matches r values := hroute
    have hdecode : decodeStrings "name" "type" r.body = some fields := hdecode
    obtain ⟨answer, hcall, -⟩ := handleUpdate_call t values hdecode
    rw [serve_route hroute, authMiddleware_pass hreached, Route.handler, hcall] at hserve
    cases hserve
  | login =>
    have hdecode : decodeStrings "username" "password" r.body = some fields := hdecode
    have hne : ¬ (fields.1 = "" ∨ fields.2 = "") := not_or.mpr (of_decide_eq_true h)
    rw [serve_login hroute, handleLogin, hdecode] at hserve
    dsimp only at hserve
    rw [if_neg hne] at hserve
    split at hserve
    · cases hserve
    · split at hserve
      · cases hserve
      · cases hserve

theorem refused_iff_serve (hstep : step jwt config s (.request r t monitor) = some s') :
    Refused s s' r t ↔
      ∃ message, serve jwt config monitor t r = .respond (withCors (writeError 400 message)) := by
  rcases step_cases hstep with ⟨_, _, _, response, ha, hserve, rfl⟩ |
    ⟨_, _, _, op, answer, service, ha, hserve, -, rfl⟩ | ⟨_, _, ha, -⟩
  · cases ha
    rw [hserve]
    constructor
    · rintro ⟨message, h⟩
      have hlog := congrArg State.log h
      simp only [List.append_cancel_left_eq, List.cons.injEq, and_true, Exchange.mk.injEq,
        true_and] at hlog
      exact ⟨message, congrArg _ hlog⟩
    · rintro ⟨message, h⟩
      exact ⟨message, by rw [Outcome.respond.inj h]⟩
  · cases ha
    rw [hserve]
    constructor
    · rintro ⟨message, h⟩
      -- There is one more caller.
      have hcallers := congrArg State.callers h
      simp at hcallers
    · rintro ⟨message, h⟩
      cases h
  · cases ha

/-- A body is refused if it cannot be decoded, or if a login lacks a field. -/
theorem refused_iff_decode (hroute : route.pattern.Matches r values)
    (hreached : route.Reached jwt config t r)
    (hstep : step jwt config s (.request r t monitor) = some s') :
    Refused s s' r t ↔
      ¬ ∃ fields, route.decode r.body = some fields ∧ route.goesOn fields = true := by
  rw [refused_iff_serve hstep]
  constructor
  · rintro ⟨message, hserve⟩ ⟨fields, hdecode, hgoes⟩
    exact serve_accepted hroute hreached hdecode hgoes message hserve
  · intro hnot
    refine serve_refused hroute hreached fun fields hdecode => ?_
    by_contra hgoes
    exact hnot ⟨fields, hdecode, Bool.not_eq_false _ ▸ hgoes⟩

/-! ## 2. Malformed bodies -/

theorem decode_trailing {body : ByteArray} {fields : String × String} (h : ¬ OneValue body) :
    route.decode body = some fields ↔
      ∃ p rest v, bodyText body = p ++ rest ∧ parse p = some v ∧ skipWs rest.toList ≠ [] ∧
        route.fields v = some fields := by
  have hbody : parse (bodyText body) = none := not_not.mp h
  cases route with
  | create => exact decodeStrings_trailing hbody
  | update => exact decodeStrings_trailing hbody
  | login => exact decodeStrings_trailing hbody

/-- A body that is not one JSON value is refused, unless it begins with a JSON value that the
handler can use: `Decode` reads one value and does not look at what follows. The request must
come as far as the handler, past the middleware (`hroute`, `hreached`). -/
theorem malformed_refused_iff (hroute : route.pattern.Matches r values)
    (hreached : route.Reached jwt config t r) (hmalformed : ¬ OneValue r.body)
    (hstep : step jwt config s (.request r t monitor) = some s') :
    Refused s s' r t ↔
      ¬ ∃ p rest v fields, bodyText r.body = p ++ rest ∧ parse p = some v ∧
        skipWs rest.toList ≠ [] ∧ route.fields v = some fields ∧ route.goesOn fields = true := by
  rw [refused_iff_decode hroute hreached hstep]
  refine not_congr ?_
  simp only [decode_trailing hmalformed]
  constructor
  · rintro ⟨fields, ⟨p, rest, v, heq, hp, hrest, hfields⟩, hgoes⟩
    exact ⟨p, rest, v, fields, heq, hp, hrest, hfields, hgoes⟩
  · rintro ⟨p, rest, v, fields, heq, hp, hrest, hfields, hgoes⟩
    exact ⟨fields, ⟨p, rest, v, heq, hp, hrest, hfields⟩, hgoes⟩

/-! Two bodies for `POST /devices`, with the token of a login at time 0. -/

def createRequest (body : String) : Request :=
  ⟨"POST", "/devices", "", [("Authorization", "bearer " ++ adminToken)], body.toUTF8,
    devices_decodes⟩

theorem createRequest_matches (body : String) :
    BodyRoute.create.pattern.Matches (createRequest body) [] := by
  have hclean : cleanPath "/devices" = "/devices" := by decide
  have hpath : Route.create.pattern.matchPath (pathSegments "/devices") = some [] := by decide
  exact ⟨.inr (.inl rfl), .inl hclean, hpath⟩

theorem createRequest_authenticated (body : String) :
    Authenticated clearJwt adminConfig.jwtSecret 1 (createRequest body) :=
  adminToken_authenticated ⟨"bearer", rfl, by decide⟩

theorem bodyText_toUTF8 (s : String) : bodyText s.toUTF8 = s := decodeUtf8_toUTF8 _ s

theorem createRequest_step (body : String) : ∃ s',
    step clearJwt adminConfig (.start Table.empty 0)
      (.request (createRequest body) 1 (writeError 404 "")) = some s' :=
  step_request rfl Phase.noConfusion _ _ _

/-- The body of the handlers' tests begins with no value, and it is refused. -/
theorem invalid_refused : ∃ s',
    step clearJwt adminConfig (.start Table.empty 0)
      (.request (createRequest "\x7binvalid json\x7d") 1 (writeError 404 "")) = some s' ∧
    Refused (.start Table.empty 0) s' (createRequest "\x7binvalid json\x7d") 1 := by
  obtain ⟨s', hstep⟩ := createRequest_step "\x7binvalid json\x7d"
  have hmalformed : ¬ OneValue (createRequest "\x7binvalid json\x7d").body := by
    rw [OneValue, not_not, ← Option.isNone_iff_eq_none]
    decide +kernel
  refine ⟨s', hstep, (malformed_refused_iff (createRequest_matches _)
    (createRequest_authenticated _) hmalformed hstep).mpr ?_⟩
  rintro ⟨p, rest, v, fields, heq, hp, hrest, hfields, -⟩
  have hdecode := (decode_trailing hmalformed).mpr ⟨p, rest, v, heq, hp, hrest, hfields⟩
  have hnone : BodyRoute.create.decode (createRequest "\x7binvalid json\x7d").body = none := by
    decide +kernel
  rw [hnone] at hdecode
  cases hdecode

/-- The object of a device, and something after it. -/
def trailingBody : String := writeObject [("name", "a"), ("type", "b")] ++ " x"

/-- The body is no JSON value, and the device is created. -/
theorem trailing_not_refused : ∃ s',
    step clearJwt adminConfig (.start Table.empty 0)
      (.request (createRequest trailingBody) 1 (writeError 404 "")) = some s' ∧
    BodyRoute.create.Reached clearJwt adminConfig 1 (createRequest trailingBody) ∧
    ¬ OneValue (createRequest trailingBody).body ∧
    ¬ Refused (.start Table.empty 0) s' (createRequest trailingBody) 1 ∧
    Invokes (.start Table.empty 0) s' (.create "a" "b") := by
  obtain ⟨s', hstep⟩ := createRequest_step trailingBody
  have hparse := parse_writeObject [("name", "a"), ("type", "b")]
  obtain ⟨hfirst, hnone⟩ := (firstValue_iff (s := trailingBody) (fun d hd => by cases hd)).mpr
    ⟨_, " x", rfl, hparse, by decide⟩
  have htext : bodyText (createRequest trailingBody).body = trailingBody := bodyText_toUTF8 _
  have hdecode : decodeStrings "name" "type" (createRequest trailingBody).body =
      some ("a", "b") := by
    refine decodeStrings_eq_some.mpr ⟨_, by rw [htext]; exact hfirst, ?_⟩
    decide +kernel
  refine ⟨s', hstep, createRequest_authenticated _, fun h => h (by rw [htext, hnone]), ?_, ?_⟩
  · rw [refused_iff_decode (createRequest_matches _)
      (createRequest_authenticated _) hstep, not_not]
    exact ⟨_, hdecode, rfl⟩
  · refine (invokes_iff hstep).mpr (serve_call_iff.mpr ⟨?_, createRequest_authenticated _⟩)
    exact .create (createRequest_matches _) hdecode

end AssetTracker.Server
