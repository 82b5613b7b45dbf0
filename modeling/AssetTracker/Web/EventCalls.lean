import AssetTracker.Lib.Query
import AssetTracker.Web.Api

/-!
# The calls of the events API (web UI)

`lib/api/events.ts`: every function sends one request by its own copy of `authFetch`. The
browser sends the path of the URL and its query, which the URL parser has escaped; a proxy
takes the first part of the path away.

Results:
1. `target_fetch`: the target that the Node service is sent.
-/

namespace AssetTracker.WebUi

open Encoding Text Http

/-! ## Calls -/

/-- The functions of `lib/api/events.ts`, without the token. The fields of an event are texts. -/
inductive EventCall where
  | getEvents (deviceId : JsString)
  | createEvent (type deviceId name : String) (actor description : Option String)
  | getDeletedDevices
deriving DecidableEq

def nodeBase : String := "/api/node"

/-- The URL and the options that `authFetch` is called with; `none` if `encodeURIComponent`
throws. -/
def EventCall.fetch : EventCall → Option (String × FetchOptions)
  | getEvents deviceId =>
    (encodeURIComponent deviceId).map fun encoded =>
      (nodeBase ++ "/events?deviceId=" ++ encoded, ⟨"GET", none⟩)
  | createEvent type deviceId name actor description =>
    some (nodeBase ++ "/events", ⟨"POST", some (body
      [("type", some (utf16 type)), ("deviceId", some (utf16 deviceId)), ("name", some (utf16 name)),
        ("actor", actor.map utf16), ("description", description.map utf16)])⟩)
  | getDeletedDevices => some (nodeBase ++ "/events?type=device.deleted", ⟨"GET", none⟩)

/-! ## Requests -/

/-- What the request line has of a URL whose path needs no escapes. -/
def urlTarget (url : String) : String :=
  String.ofList (url.toList.takeWhile (· ≠ '?') ++
    match url.toList.dropWhile (· ≠ '?') with
    | [] => []
    | _ :: query => '?' :: queryState query)

/-- The target that the Node service is sent for a call. -/
def EventCall.target (c : EventCall) (proxy : Proxy) : Option String :=
  c.fetch.bind fun f => proxy.path nodeBase (urlTarget f.1)

def EventCall.method : EventCall → String
  | getEvents _ => "GET"
  | createEvent .. => "POST"
  | getDeletedDevices => "GET"

def EventCall.body? (c : EventCall) : Option ByteArray := c.fetch.bind fun f => f.2.body

/-- The parameters in the query of a call. -/
def EventCall.params : EventCall → List (String × String)
  | getEvents deviceId => [("deviceId", ofUtf16 deviceId)]
  | createEvent .. => []
  | getDeletedDevices => [("type", "device.deleted")]

/-! ## 1. Targets -/

namespace EventCallLemmas

/-- The target for a path that begins with the base, and for a query. -/
theorem urlTarget_query {path query : List Char} (h : '?' ∉ path) :
    urlTarget (String.ofList (path ++ '?' :: query)) =
      String.ofList (path ++ '?' :: queryState query) := by
  have hpath : ∀ c ∈ path, decide (c ≠ '?') = true := by
    intro c hc
    refine decide_eq_true ?_
    rintro rfl
    exact h hc
  rw [urlTarget, String.toList_ofList, List.takeWhile_append_of_pos hpath,
    List.dropWhile_append_of_pos hpath]
  simp

theorem urlTarget_path {path : String} (h : '?' ∉ path.toList) : urlTarget path = path := by
  have hpath : ∀ c ∈ path.toList, decide (c ≠ '?') = true := by
    intro c hc
    refine decide_eq_true ?_
    rintro rfl
    exact h hc
  rw [urlTarget, List.takeWhile_eq_self_iff.mpr hpath, List.dropWhile_eq_nil_iff.mpr hpath,
    List.append_nil, String.ofList_toList]

/-- The target of a query under the base. -/
theorem query_target (proxy : Proxy) (query : List Char) :
    proxy.path nodeBase (urlTarget (nodeBase ++ "/events?" ++ String.ofList query)) =
      some (String.ofList ("/events".toList ++ '?' :: queryState query)) := by
  have hurl : nodeBase ++ "/events?" ++ String.ofList query =
      String.ofList ("/api/node/events".toList ++ '?' :: query) := by
    rw [← String.toList_inj]
    simp [nodeBase]
  have htarget : String.ofList ("/api/node/events".toList ++ '?' :: queryState query) =
      nodeBase ++ String.ofList ('/' :: ("events".toList ++ '?' :: queryState query)) := by
    rw [← String.toList_inj]
    simp [nodeBase]
  rw [hurl, urlTarget_query (by decide), htarget, ApiLemmas.proxy_path]
  rfl

end EventCallLemmas

open EventCallLemmas

/-- Both proxies make the same target of a call: the path, and the parameters if it has some. -/
theorem target_fetch (c : EventCall) (proxy : Proxy) : c.target proxy =
    c.fetch.map fun _ => String.ofList ("/events".toList ++
      if c.params = [] then [] else '?' :: queryState (queryText c.params)) := by
  cases c with
  | getEvents deviceId =>
    rw [EventCall.target, EventCall.fetch, encodeURIComponent]
    split
    · have hquery : nodeBase ++ "/events?deviceId=" ++
            String.ofList (escapeUnless isUnreserved (ofUtf16 deviceId).toList) =
          nodeBase ++ "/events?" ++ String.ofList (queryText [("deviceId", ofUtf16 deviceId)]) := by
        rw [← String.toList_inj]
        simp [queryText]
      rw [Option.map_some, Option.bind_some, hquery, query_target]
      rfl
    · rfl
  | createEvent type deviceId name actor description =>
    have hpath : nodeBase ++ "/events" = nodeBase ++ String.ofList ('/' :: "events".toList) := by
      decide
    have hurl : urlTarget (nodeBase ++ "/events") = nodeBase ++ "/events" :=
      urlTarget_path (by decide)
    rw [EventCall.target, EventCall.fetch, Option.bind_some, hurl, hpath, ApiLemmas.proxy_path]
    rfl
  | getDeletedDevices =>
    have hquery : nodeBase ++ "/events?type=device.deleted" =
        nodeBase ++ "/events?" ++ String.ofList (queryText [("type", "device.deleted")]) := by
      decide
    rw [EventCall.target, EventCall.fetch, Option.bind_some, hquery, query_target]
    rfl

theorem target_eq {c : EventCall} {proxy : Proxy} {target : String}
    (h : c.target proxy = some target) : target = String.ofList ("/events".toList ++
      if c.params = [] then [] else '?' :: queryState (queryText c.params)) := by
  rw [target_fetch] at h
  obtain ⟨-, -, rfl⟩ := Option.map_eq_some_iff.mp h
  rfl

/-- A call that can be sent has a target. -/
theorem exists_target {c : EventCall} (h : (c.fetch).isSome = true) (proxy : Proxy) :
    ∃ target, c.target proxy = some target := by
  obtain ⟨f, hf⟩ := Option.isSome_iff_exists.mp h
  exact ⟨_, (target_fetch c proxy).trans (congrArg _ hf)⟩

end AssetTracker.WebUi
