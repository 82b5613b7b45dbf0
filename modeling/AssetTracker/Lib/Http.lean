import AssetTracker.Lib.Text
import AssetTracker.Lib.Json

/-!
# Requests and the router of a Go HTTP server

A request as a handler sees it, and `http.ServeMux`: patterns with an optional
method, literal segments, wildcards for one segment, and a trailing slash for
everything below. Header values are byte strings; a byte above 127 is shown as
the character with its number.

Results:
1. `Mux.route_found`: a handler is found only under a pattern that matches.
2. `Mux.route_eq_found`: it is found when all patterns that match lead to it.
-/

namespace Http

open Text Encoding

/-! ## Requests -/

/-- Bytes with their escapes `%xx` replaced; `none` when a `%` stands before something else. -/
def unescapeBytes : List UInt8 → Option (List UInt8)
  | [] => some []
  | b :: bs =>
    if b = 0x25 then
      match bs with
      | x :: y :: bs =>
        match hexVal (Char.ofNat x.toNat), hexVal (Char.ofNat y.toNat) with
        | some x, some y => (unescapeBytes bs).map (UInt8.ofNat (x.val * 16 + y.val) :: ·)
        | _, _ => none
      | _ => none
    else (unescapeBytes bs).map (b :: ·)

/-- Every `%` of the path begins an escape. -/
def Decodes (path : String) : Prop :=
  '%' ∈ path.toList → (unescapeBytes path.toUTF8.data.toList).isSome = true

instance (path : String) : Decidable (Decodes path) :=
  inferInstanceAs (Decidable (_ → _))

/-- A request, as a handler is given it. `path` is the path of the request line as it was sent
(escaped), `query` what follows its question mark. Header names are in canonical form. The server
answers 400 to a path that it cannot decode, and calls no handler. -/
structure Request where
  method : String
  path : String
  query : String
  header : List (String × String)
  body : ByteArray
  decodes : Decodes path

/-- `Header.Get`: the first value under a name, or nothing. -/
def Request.get (r : Request) (name : String) : String := (r.header.lookup name).getD ""

/-! ## Paths -/

/-- A segment unescaped, or as it stands when that fails. Malformed bytes become U+FFFD. -/
def pathUnescape (s : String) : String :=
  if '%' ∈ s.toList then
    match unescapeBytes s.toUTF8.data.toList with
    | some bs => decodeUtf8 (List.replicate · '\uFFFD') ⟨bs.toArray⟩
    | none => s
  else s

/-- The segments of a path, without the slash before each. A trailing slash is the segment `/`. -/
def pathSegments (path : String) : List String :=
  match path.toList with
  | [] => []
  | _ :: cs =>
    let segs := List.splitOn '/' cs
    segs.dropLast.map (fun s => pathUnescape (String.ofList s)) ++
      [match segs.getLast? with
        | some (c :: s) => pathUnescape (String.ofList (c :: s))
        | _ => "/"]

/-- The elements of a rooted path without `.`, `..` and empty ones. -/
def cleanElems (elems : List (List Char)) : List (List Char) :=
  (elems.foldl (fun acc e =>
    if e = [] ∨ e = ['.'] then acc else if e = ['.', '.'] then acc.tail else e :: acc) []).reverse

/-- `cleanPath`: `path.Clean` of the path, rooted, with its trailing slash. -/
def cleanPath (path : String) : String :=
  let elems := cleanElems (List.splitOn '/' path.toList)
  String.ofList ('/' :: ['/'].intercalate elems ++
    if path.toList.getLast? = some '/' ∧ elems ≠ [] then ['/'] else [])

/-- The path that a mux looks up. Only a `CONNECT` may have one that is not clean. -/
def Request.muxPath (r : Request) : String :=
  if r.method = "CONNECT" ∧ r.path ≠ "" then r.path else cleanPath r.path

/-- The characters that stand for themselves in the path of a URL. -/
def isPathChar (c : Char) : Bool := c.isAlphanum || c ∈ "-_.~$&+,/:;=@".toList

def upperHex (n : Nat) : Char := Char.ofNat (if n < 10 then 0x30 + n else 0x37 + n)

/-- `url.URL.String` of a path and a query. -/
def urlString (path query : String) : String :=
  String.ofList (path.toUTF8.data.toList.flatMap fun b =>
      if isPathChar (Char.ofNat b.toNat) then [Char.ofNat b.toNat]
      else ['%', upperHex (b.toNat / 16), upperHex (b.toNat % 16)]) ++
    if query = "" then "" else "?" ++ query

/-! ## Patterns -/

inductive Segment where
  | literal (s : String)
  | wildcard
deriving DecidableEq, Repr

/-- A pattern; without a method it is for all of them. `subtree` is the trailing slash. -/
structure Pattern where
  method : Option String
  segments : List Segment
  subtree : Bool := false
deriving DecidableEq, Repr

/-- The values of the wildcards, when the segments match. A wildcard takes any segment
but a trailing slash (a slash that was escaped counts as one), the trailing slash of a
pattern any path that goes on. -/
def matchSegments (subtree : Bool) : List Segment → List String → Option (List String)
  | [], [] => if subtree then none else some []
  | [], _ :: _ => if subtree then some [] else none
  | _ :: _, [] => none
  | .literal l :: ps, s :: ss => if l = s then matchSegments subtree ps ss else none
  | .wildcard :: ps, s :: ss =>
    if s = "/" then none else (matchSegments subtree ps ss).map (s :: ·)

def Pattern.matchPath (p : Pattern) (segs : List String) : Option (List String) :=
  matchSegments p.subtree p.segments segs

/-- The pattern is for the method. `GET` is for `HEAD` too. -/
def Pattern.ForMethod (p : Pattern) (method : String) : Prop :=
  p.method = some method ∨ (p.method = some "GET" ∧ method = "HEAD")

/-- The request matches the pattern, with these values of its wildcards. -/
structure Pattern.Matches (p : Pattern) (r : Request) (values : List String) : Prop where
  method : p.method = none ∨ p.ForMethod r.method
  canonical : cleanPath r.path = r.path ∨ r.method = "CONNECT"
  path : p.matchPath (pathSegments r.path) = some values

/-- Only a pattern that is for `CONNECT` matches a path that is not clean. -/
theorem Pattern.Matches.clean {p : Pattern} {r : Request} {values : List String} {method : String}
    (h : p.Matches r values) (hm : p.method = some method) (hne : method ≠ "CONNECT") :
    cleanPath r.path = r.path := by
  refine h.canonical.resolve_right fun hconnect => ?_
  rcases h.method with hany | hexact | ⟨-, hhead⟩
  · rw [hm] at hany
    cases hany
  · rw [hm, hconnect] at hexact
    exact hne (Option.some.inj hexact)
  · rw [hconnect] at hhead
    exact absurd hhead (by decide)

theorem matchSegments_nil {ss values : List String} (h : matchSegments false [] ss = some values) :
    ss = [] ∧ values = [] := by
  cases ss with
  | nil =>
    cases h
    exact ⟨rfl, rfl⟩
  | cons s ss => cases h

theorem matchSegments_literal {subtree : Bool} {l : String} {ps : List Segment}
    {ss values : List String} (h : matchSegments subtree (.literal l :: ps) ss = some values) :
    ∃ ss', ss = l :: ss' ∧ matchSegments subtree ps ss' = some values := by
  cases ss with
  | nil => cases h
  | cons s ss =>
    rw [matchSegments] at h
    split at h
    · next heq => exact ⟨ss, by rw [heq], h⟩
    · cases h

theorem matchSegments_first {subtree : Bool} {l s : String} {ps : List Segment}
    {ss values : List String}
    (h : matchSegments subtree (.literal l :: ps) (s :: ss) = some values) : l = s := by
  obtain ⟨ss', heq, -⟩ := matchSegments_literal h
  exact (List.cons.inj heq).1.symm

theorem matchSegments_wildcard {subtree : Bool} {ps : List Segment} {ss values : List String}
    (h : matchSegments subtree (.wildcard :: ps) ss = some values) :
    ∃ s ss' values', ss = s :: ss' ∧ values = s :: values' ∧
      matchSegments subtree ps ss' = some values' := by
  cases ss with
  | nil => cases h
  | cons s ss =>
    rw [matchSegments] at h
    split at h
    · cases h
    · obtain ⟨values', hvalues, rfl⟩ := Option.map_eq_some_iff.mp h
      exact ⟨s, ss, values', rfl, rfl, hvalues⟩

/-- Without a trailing slash a pattern is as long as the path. -/
theorem matchSegments_length {ps : List Segment} {ss values : List String}
    (h : matchSegments false ps ss = some values) : ps.length = ss.length := by
  induction ps generalizing ss values with
  | nil =>
    rw [(matchSegments_nil h).1]
    rfl
  | cons p ps ih =>
    cases p with
    | literal l =>
      obtain ⟨ss', rfl, h'⟩ := matchSegments_literal h
      rw [List.length_cons, List.length_cons, ih h']
    | wildcard =>
      obtain ⟨s, ss', values', rfl, -, h'⟩ := matchSegments_wildcard h
      rw [List.length_cons, List.length_cons, ih h']

/-! ## `ServeMux` -/

/-- The patterns of a mux. Of two patterns with one method that match the same path the
more specific one stands first. -/
abbrev Mux (H : Type) := List (Pattern × H)

/-- What a mux makes of a request. -/
inductive Routed (H : Type) where
  | found (h : H) (values : List String)
  | redirect (location : String)
  | badRequest
  | notAllowed (methods : List String)
  | notFound

namespace Mux

variable {H : Type}

/-- The first pattern for exactly this method that matches the path. -/
def matchMethod (m : Mux H) (method : Option String) (segs : List String) :
    Option (H × List String) :=
  m.findSome? fun (p, h) => if p.method = method then (p.matchPath segs).map (h, ·) else none

/-- Patterns with the method of the request come first, those without a method last. -/
def find (m : Mux H) (method : String) (segs : List String) : Option (H × List String) :=
  (m.matchMethod (some method) segs).or
    ((if method = "HEAD" then m.matchMethod (some "GET") segs else none).or
      (m.matchMethod none segs))

/-- The methods with which the path would match, sorted. -/
def allowed (m : Mux H) (segs : List String) : List String :=
  let methods := m.filterMap fun (p, _) => if (p.matchPath segs).isSome then p.method else none
  ((if "GET" ∈ methods then "HEAD" :: methods else methods).eraseDups).mergeSort (· ≤ ·)

/-- `findHandler`. -/
def route (m : Mux H) (r : Request) : Routed H :=
  if r.path = "*" then .badRequest
  else if r.muxPath ≠ r.path then .redirect (urlString r.muxPath r.query)
  else
    match m.find r.method (pathSegments r.path) with
    | some (h, values) => .found h values
    | none =>
      match m.allowed (pathSegments r.path) with
      | [] => .notFound
      | methods => .notAllowed methods

/-! ## 1. What is found -/

theorem matchMethod_some {m : Mux H} {method : Option String} {segs values : List String} {h : H}
    (hm : m.matchMethod method segs = some (h, values)) :
    ∃ p, (p, h) ∈ m ∧ p.method = method ∧ p.matchPath segs = some values := by
  obtain ⟨⟨p, h'⟩, hmem, hp⟩ := List.exists_of_findSome?_eq_some hm
  dsimp only at hp
  split at hp
  · next hmethod =>
    obtain ⟨vs, hvs, heq⟩ := Option.map_eq_some_iff.mp hp
    cases heq
    exact ⟨p, hmem, hmethod, hvs⟩
  · cases hp

theorem matchMethod_none {m : Mux H} {method : Option String} {segs : List String}
    (hm : m.matchMethod method segs = none) {p : Pattern} {h : H} (hmem : (p, h) ∈ m)
    (hmethod : p.method = method) : p.matchPath segs = none := by
  have hp := List.findSome?_eq_none_iff.mp hm (p, h) hmem
  dsimp only at hp
  rwa [if_pos hmethod, Option.map_eq_none_iff] at hp

theorem matchMethod_forMethod {m : Mux H} {method : String} {segs : List String}
    (hexact : m.matchMethod (some method) segs = none)
    (hget : (if method = "HEAD" then m.matchMethod (some "GET") segs else none) = none)
    {p : Pattern} {h : H} (hmem : (p, h) ∈ m) (hmethod : p.ForMethod method) :
    p.matchPath segs = none := by
  rcases hmethod with hmethod | ⟨hmethod, hhead⟩
  · exact matchMethod_none hexact hmem hmethod
  · rw [if_pos hhead] at hget
    exact matchMethod_none hget hmem hmethod

/-- A pattern that is found is for the method, or for all methods when no other matches. -/
theorem find_some {m : Mux H} {method : String} {segs values : List String} {h : H}
    (hf : m.find method segs = some (h, values)) :
    ∃ p, (p, h) ∈ m ∧ p.matchPath segs = some values ∧
      (p.ForMethod method ∨ p.method = none ∧
        ∀ q g, (q, g) ∈ m → q.ForMethod method → q.matchPath segs = none) := by
  unfold find at hf
  rcases Option.or_eq_some_iff.mp hf with hm | ⟨hexact, hf⟩
  · obtain ⟨p, hmem, hmethod, hp⟩ := matchMethod_some hm
    exact ⟨p, hmem, hp, .inl (.inl hmethod)⟩
  · rcases Option.or_eq_some_iff.mp hf with hm | ⟨hget, hm⟩
    · split at hm
      · next hhead =>
        obtain ⟨p, hmem, hmethod, hp⟩ := matchMethod_some hm
        exact ⟨p, hmem, hp, .inl (.inr ⟨hmethod, hhead⟩)⟩
      · cases hm
    · obtain ⟨p, hmem, hmethod, hp⟩ := matchMethod_some hm
      exact ⟨p, hmem, hp, .inr ⟨hmethod, fun q g hq => matchMethod_forMethod hexact hget hq⟩⟩

theorem find_none {m : Mux H} {method : String} {segs : List String}
    (hf : m.find method segs = none) {p : Pattern} {h : H} (hmem : (p, h) ∈ m)
    (hmethod : p.method = none ∨ p.ForMethod method) : p.matchPath segs = none := by
  unfold find at hf
  rw [Option.or_eq_none_iff, Option.or_eq_none_iff] at hf
  obtain ⟨hexact, hget, hany⟩ := hf
  rcases hmethod with hmethod | hmethod
  · exact matchMethod_none hany hmem hmethod
  · exact matchMethod_forMethod hexact hget hmem hmethod

/-- A handler is found only under a pattern that the request matches. -/
theorem route_found {m : Mux H} {r : Request} {h : H} {values : List String}
    (hr : m.route r = .found h values) : ∃ p, (p, h) ∈ m ∧ p.Matches r values := by
  unfold route at hr
  split at hr
  · cases hr
  · split at hr
    · cases hr
    · next hpath =>
      split at hr
      · next hf =>
        cases hr
        obtain ⟨p, hmem, hp, hmethod⟩ := find_some hf
        refine ⟨p, hmem, hmethod.symm.imp_left And.left, ?_, hp⟩
        rw [not_not, Request.muxPath] at hpath
        split at hpath
        · next hconnect => exact .inr hconnect.1
        · exact .inl hpath
      · split at hr <;> cases hr

/-! ## 2. When it is found -/

/-- A clean path begins with a slash. -/
theorem cleanPath_ne_star (path : String) : cleanPath path ≠ "*" := by
  intro h
  have hchars := congrArg String.toList h
  rw [cleanPath, String.toList_ofList] at hchars
  cases hchars

/-- When a pattern matches, and all others that do lead to the same handler with the same
values, then to this one the request goes. A pattern for all methods counts only next to
its like. -/
theorem route_eq_found {m : Mux H} {r : Request} {p : Pattern} {h : H} {values : List String}
    (hmem : (p, h) ∈ m) (hp : p.Matches r values) (hclean : cleanPath r.path = r.path)
    (huniq : ∀ p' h' values', (p', h') ∈ m → p'.Matches r values' →
      (p'.method = none → p.method = none) → h' = h ∧ values' = values) :
    m.route r = .found h values := by
  have hpath : r.muxPath = r.path := by rw [Request.muxPath, hclean, ite_self]
  have hstar : r.path ≠ "*" := hclean ▸ cleanPath_ne_star r.path
  unfold route
  rw [if_neg hstar, if_neg (not_not.mpr hpath)]
  cases hf : m.find r.method (pathSegments r.path) with
  | none =>
    have hnone := find_none hf hmem hp.method
    rw [hp.path] at hnone
    cases hnone
  | some found =>
    obtain ⟨h', values'⟩ := found
    obtain ⟨p', hmem', hp', hmethod'⟩ := find_some hf
    have hmatches : p'.Matches r values' := ⟨hmethod'.symm.imp_left And.left, .inl hclean, hp'⟩
    have hprior : p'.method = none → p.method = none := fun hnone => by
      rcases hmethod' with hmethod' | ⟨-, hothers⟩
      · rcases hmethod' with hsome | ⟨hsome, -⟩ <;> rw [hsome] at hnone <;> cases hnone
      · by_contra hsome
        have hnot := hothers p h hmem (hp.method.resolve_left hsome)
        rw [hp.path] at hnot
        cases hnot
    obtain ⟨rfl, rfl⟩ := huniq p' h' values' hmem' hmatches hprior
    rfl

end Mux

example : cleanPath "/devices/./x//../y/" = "/devices/y/" := by decide
example : pathSegments "/devices/x/" = ["devices", "x", "/"] := by decide

end Http
