import AssetTracker.Lib.JsonLines
import AssetTracker.Lib.Stringify
import AssetTracker.Node.Requests

/-!
# The texts of responses (Node service)

What `handlePost` and `handleGet` write with `JSON.stringify`: an event, an array of events,
or an error.

Results:
1. `parse_created`, `parse_events`, `parse_failed`: a reader of JSON gets the events, when
   their fields are texts or null.
-/

namespace AssetTracker.NodeService

open Encoding Text NodeShutdown NodeRequests

/-! ## Writing -/

theorem denotes_null : Denotes "null".toList .null := by
  rintro n c cs (rfl | rfl) <;> rfl

def nullMember (key : JsString) : MemberText where
  key := key
  value := .null
  keyText := quoteUnits key ++ ['\x22']
  valueText := "null".toList
  quotes := quotes_quoteUnits key
  denotes := denotes_null

/-- The member for a field, none if it is `undefined`. Other values than texts and null are
left out. -/
def fieldMembers (key : String) : Value → Option (List MemberText)
  | none => some []
  | some .null => some [nullMember (utf16 key)]
  | some (.str s) => some [jsMember (utf16 key) s]
  | some _ => none

def Event.fields (e : Event) : List (String × Value) :=
  [("id", e.id), ("type", e.type), ("deviceId", e.deviceId), ("name", e.name),
    ("timestamp", e.timestamp), ("actor", e.actor), ("description", e.description)]

def Event.members (e : Event) : Option (List MemberText) :=
  (e.fields.mapM fun f => fieldMembers f.1 f.2).map List.flatten

def errorText (message : String) : String := objectText [jsMember (utf16 "error") (utf16 message)]

/-- The text of a response to a request for `/events`. -/
def replyText : Reply → Option String
  | .posted (.created e) => e.members.map objectText
  | .posted (.failed _ error) => some (errorText error)
  | .events es => (es.mapM Event.members).map arrayText
  | .failed _ error => some (errorText error)
  | .other _ => none

/-! ## Reading -/

/-- The event as a reader gets it. -/
def Event.json (e : Event) : Json :=
  .obj (e.fields.filterMap fun f => f.2.map fun v => (utf16 f.1, v))

/-- A text, null, or `undefined`. -/
def isTextual : Value → Bool
  | none => true
  | some .null => true
  | some (.str _) => true
  | some _ => false

def Event.Textual (e : Event) : Prop := ∀ f ∈ e.fields, isTextual f.2 = true

/-! ## 1. Round trips -/

namespace ResponseLemmas

theorem fieldMembers_textual {key : String} {v : Value} (h : isTextual v = true) :
    ∃ ms, fieldMembers key v = some ms ∧
      ms.map MemberText.member = (v.map fun v => (utf16 key, v)).toList := by
  cases v with
  | none => exact ⟨[], rfl, rfl⟩
  | some v =>
    cases v with
    | null => exact ⟨_, rfl, rfl⟩
    | str s => exact ⟨_, rfl, rfl⟩
    | bool | num | arr | obj => cases h

theorem members_textual {fs : List (String × Value)} (h : ∀ f ∈ fs, isTextual f.2 = true) :
    ∃ mss, fs.mapM (fun f => fieldMembers f.1 f.2) = some mss ∧
      mss.flatten.map MemberText.member = fs.filterMap fun f => f.2.map fun v => (utf16 f.1, v) := by
  induction fs with
  | nil => exact ⟨[], rfl, rfl⟩
  | cons f fs ih =>
    obtain ⟨ms, hms, hread⟩ := @fieldMembers_textual f.1 f.2 (h f List.mem_cons_self)
    obtain ⟨mss, hmss, hreads⟩ := ih fun g hg => h g (List.mem_cons_of_mem f hg)
    refine ⟨ms :: mss, ?_, ?_⟩
    · rw [List.mapM_cons, hms, Option.bind_eq_bind, Option.bind_some, hmss]
      rfl
    · rw [List.flatten_cons, List.map_append, hread, hreads, List.filterMap_cons]
      cases f.2 <;> rfl

end ResponseLemmas

open ResponseLemmas

theorem Event.members_eq {e : Event} (h : e.Textual) :
    ∃ ms, e.members = some ms ∧ objectOf ms = e.json := by
  obtain ⟨mss, hmss, hread⟩ := members_textual h
  exact ⟨mss.flatten, congrArg (Option.map List.flatten) hmss, congrArg Json.obj hread⟩

theorem parse_created {e : Event} (h : e.Textual) :
    ∃ text, replyText (.posted (.created e)) = some text ∧ parse text = some e.json := by
  obtain ⟨ms, hms, hjson⟩ := Event.members_eq h
  refine ⟨objectText ms, congrArg (Option.map objectText) hms, ?_⟩
  rw [parse_objectText, ← hjson]
  rfl

theorem parse_events {es : List Event} (h : ∀ e ∈ es, e.Textual) :
    ∃ text, replyText (.events es) = some text ∧ parse text = some (.arr (es.map Event.json)) := by
  have hall : ∃ os, es.mapM Event.members = some os ∧ os.map objectOf = es.map Event.json := by
    induction es with
    | nil => exact ⟨[], rfl, rfl⟩
    | cons e es ih =>
      obtain ⟨ms, hms, hjson⟩ := Event.members_eq (h e List.mem_cons_self)
      obtain ⟨os, hos, hjsons⟩ := ih fun e' he' => h e' (List.mem_cons_of_mem e he')
      refine ⟨ms :: os, ?_, ?_⟩
      · rw [List.mapM_cons, hms, Option.bind_eq_bind, Option.bind_some, hos]
        rfl
      · rw [List.map_cons, List.map_cons, hjson, hjsons]
  obtain ⟨os, hos, hjson⟩ := hall
  refine ⟨arrayText os, congrArg (Option.map arrayText) hos, ?_⟩
  rw [parse_arrayText, hjson]

theorem parse_failed (message : String) :
    parse (errorText message) = some (objectOf [stringMember ("error", message)]) :=
  parse_objectText _

/-- A field of an event, as a reader gets it. -/
theorem lookup_fields {fs : List (String × Value)} (hnodup : (fs.map Prod.fst).Nodup) {key : String}
    {v : Value} (h : (key, v) ∈ fs) :
    lookup (utf16 key) (fs.filterMap fun f => f.2.map fun v => (utf16 f.1, v)) = v := by
  have hnone : ∀ fs : List (String × Value), key ∉ fs.map Prod.fst →
      lookup (utf16 key) (fs.filterMap fun f => f.2.map fun v => (utf16 f.1, v)) = none := by
    intro fs
    induction fs with
    | nil => exact fun _ => rfl
    | cons f fs ih =>
      intro hkey
      rw [List.map_cons, List.mem_cons, not_or] at hkey
      rw [List.filterMap_cons]
      cases hf : f.2 with
      | none => exact ih hkey.2
      | some v =>
        have hne : utf16 f.1 ≠ utf16 key := fun heq => hkey.1 (utf16_injective heq).symm
        rw [Option.map_some, lookup, ih hkey.2, if_neg hne]
        rfl
  induction fs with
  | nil => cases h
  | cons f fs ih =>
    rw [List.map_cons, List.nodup_cons] at hnodup
    rw [List.filterMap_cons]
    rcases List.mem_cons.mp h with rfl | h
    · cases v with
      | none => exact hnone fs hnodup.1
      | some v =>
        rw [Option.map_some, lookup, hnone fs hnodup.1, if_pos rfl]
        rfl
    · have hrest := ih hnodup.2 h
      cases hf : f.2 with
      | none => exact hrest
      | some v' =>
        have hne : utf16 f.1 ≠ utf16 key := fun heq => hnodup.1 <| by
          rw [utf16_injective heq]
          exact List.mem_map_of_mem h
        rw [Option.map_some, lookup, hrest, if_neg hne, Option.or_none]

/-! Events that the service stores for messages and for objects of texts are textual. -/

theorem project_textual {e : Event} (h : e.Textual) : (project e).Textual := by
  have hnull : ∀ v : Value, isTextual v = true → isTextual (orNull v) = true := by
    intro v hv
    cases v with
    | none => rfl
    | some v => exact hv
  simp only [Event.Textual, Event.fields, List.forall_mem_cons] at h ⊢
  obtain ⟨hid, htype, hdevice, hname, htime, hactor, hdescription, -⟩ := h
  exact ⟨hid, htype, hdevice, hname, htime, hnull _ hactor, hnull _ hdescription, by simp⟩

theorem created_textual {uuid : Uuid} {now : Instant} {p : Params} {e : Event}
    (h : createEvent uuid now p = .ok e) (htime : isTextual p.timestamp = true)
    (hactor : isTextual p.actor = true) (hdescription : isTextual p.description = true) :
    e.Textual := by
  obtain ⟨⟨t, d, n, ht, hd, hn, -⟩, rfl⟩ := createEvent_ok.mp h
  have hdefault : ∀ v : Value, isTextual v = true → isTextual (orDefault v .null) = true := by
    intro v hv
    cases v with
    | none => rfl
    | some v => exact hv
  simp only [Event.Textual, Event.fields, List.forall_mem_cons]
  refine ⟨rfl, ?_, ?_, ?_, ?_, hdefault _ hactor, hdefault _ hdescription, by simp⟩
  · exact congrArg isTextual ht
  · exact congrArg isTextual hd
  · exact congrArg isTextual hn
  · dsimp only [Params.event]
    split
    · exact htime
    · rfl

theorem stored_textual {env : Env} {m : KafkaMessage} {e : Event} (h : stored env m = some e) :
    e.Textual := by
  unfold stored at h
  split at h
  · obtain ⟨f, -, rfl⟩ := Option.map_eq_some_iff.mp h
    simp [Event.Textual, Event.fields, Fields.event, isTextual, text]
  · cases h

end AssetTracker.NodeService
