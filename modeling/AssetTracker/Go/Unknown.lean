import AssetTracker.Go.Server

/-!
# Unknown devices (Go service)

`GET`, `PUT` and `DELETE /devices/{id}` for an id that no device has, from the request to
the response. The repository looks for the rows of the id; an id that is no UUID is an
error of the driver before there are rows to look for.

Results:
1. `handled_unknown`: the response, and that nothing else happens.
2. `unknown_404_iff`: it is 404 exactly if the id can be read as a UUID.
-/

namespace AssetTracker.Server

open Encoding Effects Http GoService

/-! ## Definitions -/

/-- The device that a call is about. -/
def target : Op → Option String
  | .create _ _ => none
  | .list => none
  | .get id => some id
  | .update id _ _ => some id
  | .delete id => some id

/-- What surrounds a request: the statements for which the database fails, the order of
`ORDER BY`, and the draws. -/
structure Surroundings where
  fault : Stmt → Option Fault
  order : Table → List Row
  fresh : Fresh

def Surroundings.sound (env : Surroundings) : Prop := ∀ stmt, env.fault stmt = none

/-- What is left behind: the table, and the publishes that were started. -/
structure Trail where
  table : Table
  published : List PublishCall

/-- The effects of a request with nothing else going on. -/
def perform (env : Surroundings) (e : GoService.Effect) (s : Trail) : e.Answer × Trail :=
  match e with
  | .draw => (env.fresh, s)
  | .sql stmt =>
    match env.fault stmt with
    | some fault => (.error fault, s)
    | none =>
      match s.table.exec (env.order s.table) stmt with
      | .error fault => (.error fault, s)
      | .ok d => (.ok d.answer, { s with table := d.table })
  | .go call => ((), { s with published := s.published ++ [call] })

/-- The response to a request, and its trail. -/
def handled (jwt : Jwt) (config : AuthConfig) (monitor : Response) (t : Instant) (r : Request)
    (env : Surroundings) (table : Table) : Response × Trail :=
  match serve jwt config monitor t r with
  | .respond response => (response, ⟨table, []⟩)
  | .call op answer =>
    let (result, trail) := op.prog.run (perform env) ⟨table, []⟩
    (answer result, trail)

/-- No device of the table is identified by the text, which need not be that of a UUID. -/
def UnknownId (table : Table) (id : String) : Prop :=
  ∀ u, Uuid.parse id = some u → table.find u = none

/-- An unknown device is a 404, whatever the surroundings; a 500 blames the database. -/
def Is404 (table : Table) (after : Surroundings → Response × Trail) : Prop :=
  ∀ env, (after env).2 = ⟨table, []⟩ ∧ (env.sound → (after env).1.status = 404) ∧
    ((after env).1.status = 500 → ¬ env.sound)

/-! ## 1. One statement -/

variable {jwt : Jwt} {config : AuthConfig} {monitor : Response} {t : Instant} {r : Request}
  {table : Table} {id : String} {op : Op}

/-- The call begins with the lookup of its device, and ends with it if there is none. -/
theorem prog_lookup (h : target op = some id) : ∃ k, op.prog = .op (.sql (.selectById id)) k ∧
    k (.ok none) = .pure (.error .notFound) ∧
    ∀ fault : Fault, k (.error fault) =
      .pure (.error (.wrap "find device by id" (.driver fault.message))) := by
  rw [Op.prog_eq_start, Stage.prog_eq]
  cases op with
  | create _ _ => cases h
  | list => cases h
  | get _ | update _ _ _ | delete _ =>
    cases h
    exact ⟨_, rfl, rfl, fun _ => rfl⟩

/-- An authenticated request calls its use case, and the answers to the two errors. -/
theorem serve_target (config : AuthConfig) (monitor : Response) (hasks : Asks r op)
    (htarget : target op = some id) (hauth : Authenticated jwt config.jwtSecret t r) : ∃ answer,
    serve jwt config monitor t r = .call op answer ∧
      answer (.error .notFound) = withCors (writeError 404 "device not found") ∧
      ∀ context message, answer (.error (.wrap context (.driver message))) =
        withCors (writeError 500 "internal server error") := by
  cases hasks with
  | create _ _ => cases htarget
  | list _ => cases htarget
  | get hroute | delete hroute =>
    rw [serve_route hroute, authMiddleware_pass hauth]
    exact ⟨_, rfl, rfl, fun _ _ => rfl⟩
  | @update id' _ _ hroute hbody =>
    obtain ⟨answer, hcall, herror⟩ := handleUpdate_call t [id'] hbody
    rw [serve_route hroute, authMiddleware_pass hauth, Route.handler, hcall]
    exact ⟨_, rfl, congrArg withCors (herror _), fun _ _ => congrArg withCors (herror _)⟩

/-- The lookup of an unknown device. -/
theorem perform_lookup (env : Surroundings) (hunknown : UnknownId table id)
    (published : List PublishCall) :
    perform env (.sql (.selectById id)) ⟨table, published⟩ =
      (match env.fault (.selectById id) with
        | some fault => .error fault
        | none => if (Uuid.parse id).isSome then .ok none else .error (.statement (invalidUuid id)),
        ⟨table, published⟩) := by
  unfold perform
  dsimp only
  cases env.fault (.selectById id) with
  | some fault => rfl
  | none =>
    dsimp only [Table.exec, uuidArg]
    cases hparse : Uuid.parse id with
    | none => rfl
    | some u =>
      show (Except.ok (table.find u), _) = _
      rw [hunknown u hparse]
      rfl

/-- The response to a request for an unknown device. -/
theorem handled_unknown (hasks : Asks r op) (htarget : target op = some id)
    (hauth : Authenticated jwt config.jwtSecret t r) (hunknown : UnknownId table id)
    (env : Surroundings) : handled jwt config monitor t r env table =
      (withCors (if env.fault (.selectById id) = none ∧ (Uuid.parse id).isSome
        then writeError 404 "device not found" else writeError 500 "internal server error"),
        ⟨table, []⟩) := by
  obtain ⟨k, hprog, hnone, herror⟩ := prog_lookup htarget
  obtain ⟨answer, hserve, hnotFound, hfailed⟩ :=
    serve_target config monitor hasks htarget hauth
  unfold handled
  rw [hserve]
  dsimp only
  rw [hprog, Prog.run_op, perform_lookup env hunknown]
  cases env.fault (.selectById id) with
  | some fault =>
    dsimp only
    rw [herror, Prog.run_pure, hfailed, if_neg (fun h => nomatch h.1)]
  | none =>
    dsimp only
    cases hparse : (Uuid.parse id).isSome with
    | true =>
      rw [if_pos rfl, hnone, Prog.run_pure, hnotFound, if_pos ⟨rfl, rfl⟩]
    | false =>
      rw [if_neg Bool.false_ne_true, herror, Prog.run_pure, hfailed, if_neg (fun h => nomatch h.2)]

/-! ## 2. When it is 404 -/

/-- An unknown device is a 404 exactly if its id can be read as a UUID. Any other text is refused
by PostgreSQL, which the repository takes for a failure. The request must pass the middleware
(`hauth`) and name the device (`hasks`, `htarget`); what the database does is in `Is404`. -/
theorem unknown_404_iff (hasks : Asks r op) (htarget : target op = some id)
    (hauth : Authenticated jwt config.jwtSecret t r) (hunknown : UnknownId table id) :
    Is404 table (fun env => handled jwt config monitor t r env table) ↔
      ∃ u, Uuid.parse id = some u := by
  rw [← Option.isSome_iff_exists]
  constructor
  · intro h
    -- the database is sound, and so it is the id
    obtain ⟨-, h404, -⟩ := h ⟨fun _ => none, fun t => t.rows, ⟨Uuid.numbered 0, 0⟩⟩
    have hstatus := h404 fun _ => rfl
    dsimp only at hstatus
    rw [handled_unknown hasks htarget hauth hunknown] at hstatus
    by_contra hparse
    rw [if_neg fun hboth => hparse hboth.2] at hstatus
    exact absurd (show (500 : Nat) = 404 from hstatus) (by decide)
  · intro hparse env
    dsimp only
    rw [handled_unknown hasks htarget hauth hunknown]
    refine ⟨rfl, fun hsound => ?_, fun hstatus hsound => ?_⟩
    · rw [if_pos ⟨hsound _, hparse⟩]
      rfl
    · rw [if_pos ⟨hsound _, hparse⟩] at hstatus
      exact absurd (show (404 : Nat) = 500 from hstatus) (by decide)

/-! ## An id that is no UUID -/

/-- `GET /devices/…`, with a token that was signed at time 0. -/
def getRequest {id : String} (h : Decodes ("/devices/" ++ id)) : Request :=
  ⟨"GET", "/devices/" ++ id, "", [("Authorization", "bearer " ++ adminToken)], ⟨#[]⟩, h⟩

theorem getRequest_authenticated {id : String} (h : Decodes ("/devices/" ++ id)) :
    Authenticated clearJwt adminConfig.jwtSecret 1 (getRequest h) :=
  adminToken_authenticated ⟨"bearer", rfl, by decide⟩

theorem empty_unknown (id : String) : UnknownId Table.empty id := fun _ _ => rfl

theorem nonexistent_decodes : Decodes ("/devices/" ++ "nonexistent") := by decide

theorem nonexistent_asks : Asks (getRequest nonexistent_decodes) (.get "nonexistent") :=
  .get ⟨.inr (.inl rfl), .inl (by decide), by decide⟩

/-- The id of the handler's own test is answered with 500, and the database is sound. -/
theorem nonexistent_not_404 : Authenticated clearJwt adminConfig.jwtSecret 1
      (getRequest nonexistent_decodes) ∧ UnknownId Table.empty "nonexistent" ∧
    ¬ Is404 Table.empty fun env => handled clearJwt adminConfig (writeError 404 "") 1
      (getRequest nonexistent_decodes) env Table.empty := by
  refine ⟨getRequest_authenticated _, empty_unknown _, fun h => ?_⟩
  obtain ⟨-, h404, -⟩ := h ⟨fun _ => none, fun t => t.rows, ⟨Uuid.numbered 0, 0⟩⟩
  have hstatus := h404 fun _ => rfl
  dsimp only at hstatus
  rw [handled_unknown nonexistent_asks rfl (getRequest_authenticated _) (empty_unknown _),
    if_neg fun hboth => absurd hboth.2 (by decide)] at hstatus
  exact absurd (show (500 : Nat) = 404 from hstatus) (by decide)

theorem zero_decodes : Decodes ("/devices/" ++ "00000000-0000-0000-0000-000000000000") := by decide

theorem zero_asks : Asks (getRequest zero_decodes)
    (.get "00000000-0000-0000-0000-000000000000") :=
  .get ⟨.inr (.inl rfl), .inl (by decide), by decide⟩

/-- The id of no device. -/
theorem zero_404 : Is404 Table.empty fun env => handled clearJwt adminConfig (writeError 404 "") 1
    (getRequest zero_decodes) env Table.empty :=
  (unknown_404_iff zero_asks rfl (getRequest_authenticated _) (empty_unknown _)).mpr
    (Option.isSome_iff_exists.mp (by decide))

end AssetTracker.Server
