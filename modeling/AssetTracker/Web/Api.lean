import AssetTracker.Lib.JsonLines
import AssetTracker.Lib.Paths
import AssetTracker.Web.Schemas
import AssetTracker.Web.Session

/-!
# The calls of the device API (web UI)

`lib/api/devices.ts`: every function sends one request by `authFetch`. The request comes to
the Go service through a proxy, Vite's in development and nginx in production, which takes
the first part of its path away.

Results:
1. `request_path`: both proxies make the same path of a call.
2. `settle_authFetch`: the promise of a call, as `authFetch` of `Session` sees it.
-/

namespace AssetTracker.WebUi

open Encoding Text Http

/-! ## Calls -/

/-- The functions of `lib/api/devices.ts`, without the token. -/
inductive ApiCall where
  | getDevices
  | getDevice (id : String)
  | createDevice (name type : JsString)
  | updateDevice (id : String) (name type : Option JsString)
  | deleteDevice (id : String)
deriving DecidableEq

structure FetchOptions where
  method : String
  body : Option ByteArray

def apiBase : String := "/api/go"

/-- The URL and the options that `authFetch` is called with. -/
def ApiCall.fetch : ApiCall → String × FetchOptions
  | getDevices => (apiBase ++ "/devices", ⟨"GET", none⟩)
  | getDevice id => (apiBase ++ "/devices/" ++ id, ⟨"GET", none⟩)
  | createDevice name type =>
    (apiBase ++ "/devices", ⟨"POST", some (body [("name", some name), ("type", some type)])⟩)
  | updateDevice id name type =>
    (apiBase ++ "/devices/" ++ id, ⟨"PUT", some (body [("name", name), ("type", type)])⟩)
  | deleteDevice id => (apiBase ++ "/devices/" ++ id, ⟨"DELETE", none⟩)

def ApiCall.id? : ApiCall → Option String
  | getDevices => none
  | getDevice id => some id
  | createDevice .. => none
  | updateDevice id _ _ => some id
  | deleteDevice id => some id

/-! ## Requests -/

def isHttpSpace (c : Char) : Bool := c == ' ' || c == '\t' || c == '\n' || c == '\r'

/-- A header value as `fetch` sends it: trimmed, and of bytes; `fetch` rejects any other. -/
def headerValue (s : String) : Option String :=
  let cs := ((s.toList.dropWhile isHttpSpace).reverse.dropWhile isHttpSpace).reverse
  if cs.all fun c => c.toNat ≤ 0xFF && c != '\x00' && c != '\n' && c != '\r' then
    some (String.ofList cs)
  else none

/-- What follows `start`, if the text begins with it. -/
def after : List Char → List Char → Option (List Char)
  | [], cs => some cs
  | _ :: _, [] => none
  | s :: start, c :: cs => if s = c then after start cs else none

inductive Proxy where
  | vite
  | nginx
deriving DecidableEq

/-- The target that the service under `base` is sent, if the proxy sends it there. For
`/api/go` that is `p.replace(/^\/api\/go/, "")`, and `proxy_pass` for the location `/api/go/`. -/
def Proxy.path (proxy : Proxy) (base url : String) : Option String :=
  match proxy with
  | vite => (after base.toList url.toList).map String.ofList
  | nginx => (after (base.toList ++ ['/']) url.toList).map fun rest => String.ofList ('/' :: rest)

/-- The request that the handlers of the Go service get for a call. `added` are the headers of the
browser and of the proxy. Calls with an id that would be escaped on its way are left out. -/
def ApiCall.request (c : ApiCall) (proxy : Proxy) (token : String)
    (added : List (String × String)) : Option Request :=
  if c.id?.all isPlain then do
    let authorization ← headerValue ("Bearer " ++ token)
    let path ← proxy.path apiBase c.fetch.1
    if hpath : Decodes path then
      return {
        method := c.fetch.2.method
        path := path
        query := ""
        header := [("Content-Type", "application/json"), ("Authorization", authorization)] ++ added
        body := c.fetch.2.body.getD ByteArray.empty
        decodes := hpath }
    else none
  else none

/-! ## Responses -/

/-- How the promise of a call is settled. -/
inductive Promise where
  | null
  | value (v : Json)
  /-- `authFetch` throws the status and the body. -/
  | thrown (status : Nat) (body : Json)
  /-- `fetch` or `response.json` rejects. -/
  | rejected

/-- The body of a failure, from either service. -/
def errorBody (message : String) : Json := objectOf [stringMember ("error", message)]

/-- What `authFetch` makes of a response, and whether it raises `auth:logout` before. -/
def settle (status : Nat) (text : String) : Promise × Bool :=
  if status = 204 then (.null, false)
  else
    match parse text with
    | none => (.rejected, false)
    | some v =>
      if 200 ≤ status ∧ status ≤ 299 then (.value v, false) else (.thrown status v, status == 401)

/-! ## 1. Paths -/

namespace ApiLemmas

theorem after_append (start cs : List Char) : after start (start ++ cs) = some cs := by
  induction start with
  | nil => rfl
  | cons s start ih => exact (if_pos rfl).trans ih

/-- Both proxies take the base away from what begins with it and a slash. -/
theorem proxy_path (proxy : Proxy) (base : String) (rest : List Char) :
    proxy.path base (base ++ String.ofList ('/' :: rest)) = some (String.ofList ('/' :: rest)) := by
  cases proxy with
  | vite => rw [Proxy.path, String.toList_append, String.toList_ofList, after_append, Option.map_some]
  | nginx =>
    have h : base.toList ++ '/' :: rest = (base.toList ++ ['/']) ++ rest := by
      rw [List.append_assoc, List.singleton_append]
    rw [Proxy.path, String.toList_append, String.toList_ofList, h, after_append, Option.map_some]

end ApiLemmas

open ApiLemmas

/-- The names in the path of a call. -/
def ApiCall.names (c : ApiCall) : List String := "devices" :: c.id?.toList

theorem names_plain {c : ApiCall} (h : c.id?.all isPlain = true) :
    ∀ s ∈ c.names, isPlain s = true := by
  intro s hs
  rcases List.mem_cons.mp hs with rfl | hs
  · decide
  · have hid : c.id? = some s := Option.mem_toList.mp hs
    rwa [hid] at h

theorem fetch_url (c : ApiCall) : c.fetch.1 = apiBase ++ plainPath c.names := by
  have hone : plainPath ["devices"] = "/devices" := by decide
  have htwo : ∀ id, apiBase ++ plainPath ["devices", id] = apiBase ++ "/devices/" ++ id := by
    intro id
    rw [← String.toList_inj]
    simp [plainPath, List.intercalate_cons_cons, String.toList_append]
  cases c with
  | getDevices => exact congrArg (apiBase ++ ·) hone.symm
  | getDevice id => exact (htwo id).symm
  | createDevice name type => exact congrArg (apiBase ++ ·) hone.symm
  | updateDevice id name type => exact (htwo id).symm
  | deleteDevice id => exact (htwo id).symm

/-- Through either proxy, a call comes to the path of its names. -/
theorem request_path {c : ApiCall} {proxy : Proxy} {token : String}
    {added : List (String × String)} {r : Request} (h : c.request proxy token added = some r) :
    c.id?.all isPlain = true ∧ r.path = plainPath c.names ∧ r.method = c.fetch.2.method ∧
      r.body = c.fetch.2.body.getD ByteArray.empty ∧
      some (r.get "Authorization") = headerValue ("Bearer " ++ token) := by
  unfold ApiCall.request at h
  split at h
  · next hplain =>
    obtain ⟨authorization, hauth, h⟩ := Option.bind_eq_some_iff.mp h
    obtain ⟨path, hpath, h⟩ := Option.bind_eq_some_iff.mp h
    rw [fetch_url, plainPath, proxy_path] at hpath
    cases hpath
    split at h
    · cases h
      exact ⟨hplain, rfl, rfl, rfl, hauth.symm⟩
    · cases h
  · cases h

/-! ## 2. Promises -/

def Promise.fetched : Promise → Fetched
  | null => .null
  | value _ => .body
  | thrown status _ => .failed status
  | rejected => .rejected

theorem settle_authFetch (status : Nat) (text : String) :
    authFetch (some ⟨status, (parse text).isSome⟩) =
      ((settle status text).1.fetched, (settle status text).2) := by
  unfold authFetch settle
  dsimp only
  by_cases h204 : status = 204
  · rw [if_pos h204, if_pos h204]
    rfl
  · rw [if_neg h204, if_neg h204]
    cases parse text with
    | none => rfl
    | some v =>
      by_cases hok : 200 ≤ status ∧ status ≤ 299
      · simp [FetchResponse.ok, hok, Promise.fetched]
      · simp [FetchResponse.ok, hok, Promise.fetched]

end AssetTracker.WebUi
