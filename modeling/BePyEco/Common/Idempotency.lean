import BePyEco.Common.Auth

/-!
# Idempotency keys

The stored-response primitive and its use by a view.  A record is found by actor, action and
key; the body of the request is compared through its digest, the URL is not part of either.

The lookup and the insert of the record are separate statements, and what a view does in between
is in no transaction with either.
-/

namespace BePyEco

open Library

/-! ## The stored responses -/

/-- `IDEMPOTENCY_RECORD_TTL`. -/
def idempotencyRecordTtl : Time := days 7

/-- `_hash_request(data)`. -/
def hashRequest (data : Json) : Sha256 Json := sha256 data.canonical

/-- `IdempotencyRecord.objects.get(...)`, `none` for a record there is not. -/
def findRecord (scope : IdempotencyScope) : Statement (Option IdempotencyRecord) :=
  (do let record ← Objects.get fun r : IdempotencyRecord => decide (r.scope = scope)
      return some record : Statement (Option IdempotencyRecord)).handling .doesNotExist (pure none)

/-- `record.delete()`. -/
def deleteRecord (record : IdempotencyRecord) : Statement Unit :=
  Objects.delete fun r : IdempotencyRecord => decide (r.id = record.id)

/-- What `get_cached_response` makes of a record that it found and that has not expired. -/
def replayRecord (requestData : Json) (record : IdempotencyRecord) :
    Service (Option (ℕ × Option Json)) := do
  Program.require (decide (record.requestHash = hashRequest requestData)) .idempotencyKeyConflict
  return some (record.responseStatus, record.responseBody)

/-- What `get_cached_response` makes of a record that it found. -/
def useRecord (requestData : Json) (record : IdempotencyRecord) :
    Service (Option (ℕ × Option Json)) := do
  let now ← timezoneNow
  if record.expiresAt < now then
    deleteRecord record
    return none
  else replayRecord requestData record

def getCachedResponse (scope : IdempotencyScope) (requestData : Json) :
    Service (Option (ℕ × Option Json)) := do
  match ← findRecord scope with
  | none => return none
  | some record => useRecord requestData record

/-- The record that `store_response` creates. -/
def storedRecord (scope : IdempotencyScope) (requestData : Json) (responseStatus : ℕ)
    (responseBody : Option Json) (now : Time) (id : Id) : IdempotencyRecord where
  id := id
  actorType := scope.actorType
  actorId := scope.actorId
  action := scope.action
  idempotencyKey := scope.idempotencyKey
  requestHash := hashRequest requestData
  responseStatus := responseStatus
  responseBody := responseBody
  expiresAt := now + idempotencyRecordTtl

def storeResponse (scope : IdempotencyScope) (requestData : Json) (responseStatus : ℕ)
    (responseBody : Option Json) : Statement IdempotencyRecord := do
  let now ← timezoneNow
  Objects.create (storedRecord scope requestData responseStatus responseBody now)

/-! ### What the lookup and the insert do -/

section Runs

variable {scope : IdempotencyScope} {data : Json} {w : World}

lemma findRecord_run_of_none (h : ∀ r ∈ w.db.idempotencyRecords.rows, r.scope ≠ scope) :
    (findRecord scope).run w = .ok (none, w) := by
  refine (Tx.run_handling_error ?_).trans rfl
  rw [Tx.run_bind, Objects.run_get_of_error
    (Table.get_eq_doesNotExist_iff.2 fun r hr => decide_eq_false (h r hr))]

lemma findRecord_run_of_mem {record : IdempotencyRecord}
    (hmem : record ∈ w.db.idempotencyRecords.rows) :
    (findRecord record.scope).run w = .ok (some record, w) := by
  refine Tx.run_handling_ok ?_
  have hget : w.db.idempotencyRecords.get
      (fun r : IdempotencyRecord => decide (r.scope = record.scope)) = .ok record := by
    refine Table.get_of_unique hmem (decide_eq_true rfl) fun r hr hscope => ?_
    exact w.db.idempotencyRecords.eq_of_conflicts hr hmem hscope
  rw [Tx.run_bind, Objects.run_get_of_ok hget]
  rfl

lemma findRecord_ok {scope : IdempotencyScope} {w w' : World} {found : Option IdempotencyRecord}
    (h : (findRecord scope).run w = .ok (found, w')) :
    w' = w ∧ ((found = none ∧ ∀ r ∈ w.db.idempotencyRecords.rows, r.scope ≠ scope) ∨
      ∃ record ∈ w.db.idempotencyRecords.rows, found = some record ∧ record.scope = scope) := by
  by_cases hnone : ∀ r ∈ w.db.idempotencyRecords.rows, r.scope ≠ scope
  · rw [findRecord_run_of_none hnone] at h
    cases h
    exact ⟨rfl, Or.inl ⟨rfl, hnone⟩⟩
  · push Not at hnone
    obtain ⟨record, hmem, rfl⟩ := hnone
    rw [findRecord_run_of_mem hmem] at h
    cases h
    exact ⟨rfl, Or.inr ⟨record, hmem, rfl, rfl⟩⟩

lemma getCachedResponse_run_of_none (h : ∀ r ∈ w.db.idempotencyRecords.rows, r.scope ≠ scope) :
    (getCachedResponse scope data).run w = (.ok none, w) := by
  rw [getCachedResponse, Program.run_bind, Program.liftM_eq, Program.run_exec,
    Tx.exec_ok (findRecord_run_of_none h)]
  rfl

/-- A record of the same body that has not expired is replayed. -/
lemma getCachedResponse_run_of_mem {record : IdempotencyRecord}
    (hmem : record ∈ w.db.idempotencyRecords.rows) (hhash : record.requestHash = hashRequest data)
    (halive : w.now ≤ record.expiresAt) :
    (getCachedResponse record.scope data).run w =
      (.ok (some (record.responseStatus, record.responseBody)), w) := by
  have huse : (useRecord data record).run w =
      (.ok (some (record.responseStatus, record.responseBody)), w) := by
    rw [useRecord, Program.run_bind, Program.liftM_eq, Program.run_exec,
      Tx.exec_ok (run_timezoneNow w)]
    dsimp only
    rw [if_neg (Nat.not_lt.2 halive), replayRecord, decide_eq_true hhash, Program.require_true,
      Program.done_ok_bind]
    rfl
  rw [getCachedResponse, Program.run_bind, Program.liftM_eq, Program.run_exec,
    Tx.exec_ok (findRecord_run_of_mem hmem)]
  exact huse

/-- The record that a response was stored in, and the world after it. -/
structure Remembered (scope : IdempotencyScope) (data : Json) (status : ℕ) (body : Option Json)
    (record : IdempotencyRecord) (w w' : World) : Prop where
  row : ∃ id, record = storedRecord scope data status body w.now id
  rows : w'.db.idempotencyRecords.rows = w.db.idempotencyRecords.rows ++ [record]
  staff : w'.db.staff = w.db.staff
  auditLog : w'.db.auditLog = w.db.auditLog

lemma storeResponse_ok {scope : IdempotencyScope} {data : Json} {status : ℕ}
    {body : Option Json} {w w' : World} {record : IdempotencyRecord}
    (h : (storeResponse scope data status body).run w = .ok (record, w')) :
    Remembered scope data status body record w w' := by
  obtain ⟨now, w₁, hnow, hcreate⟩ := Tx.bind_ok h
  cases hnow
  obtain ⟨t, hinsert, rfl⟩ := Objects.create_ok hcreate
  obtain ⟨hrow, hrows, -⟩ := Table.insert_spec hinsert
  exact ⟨⟨_, hrow⟩, hrows, rfl, rfl⟩

/-- The insert takes no time. -/
lemma storeResponse_now {scope : IdempotencyScope} {data : Json} {status : ℕ}
    {body : Option Json} {w w' : World} {record : IdempotencyRecord}
    (h : (storeResponse scope data status body).run w = .ok (record, w')) : w'.now = w.now := by
  obtain ⟨now, w₁, hnow, hcreate⟩ := Tx.bind_ok h
  cases hnow
  obtain ⟨t, -, rfl⟩ := Objects.create_ok hcreate
  rfl

/-- The first response of a scope is stored. -/
lemma storeResponse_run {status : ℕ} {body : Option Json} (haction : scope.action.length ≤ 100)
    (hkey : scope.idempotencyKey.length ≤ 255) (hstatus : status ≤ maxPositiveSmallInteger)
    (hnone : ∀ r ∈ w.db.idempotencyRecords.rows, r.scope ≠ scope) :
    ∃ record w', (storeResponse scope data status body).run w = .ok (record, w') := by
  let mk : ℕ → IdempotencyRecord := storedRecord scope data status body w.now
  have hpk : ∀ i, Model.pk (mk i) = i := fun _ => rfl
  have hfits : Model.fits (mk w.db.idempotencyRecords.next) = true := by
    simp [mk, storedRecord, Model.fits, haction, hkey, hstatus]
  have hfree : ∀ r ∈ w.db.idempotencyRecords.rows,
      Model.conflicts r (mk w.db.idempotencyRecords.next) = false :=
    fun r hr => decide_eq_false (hnone r hr)
  obtain ⟨t, hrun, -⟩ := @Objects.run_create_of_free _ ApiError _ _ _ mk hpk w hfits hfree
  exact ⟨_, _, hrun⟩

/-- A key that does not fit its column is refused. -/
lemma storeResponse_run_of_long {status : ℕ} {body : Option Json}
    (hkey : 255 < scope.idempotencyKey.length) :
    (storeResponse scope data status body).run w = .error (.db .dataError) := by
  let mk : ℕ → IdempotencyRecord := storedRecord scope data status body w.now
  have hpk : ∀ i, Model.pk (mk i) = i := fun _ => rfl
  have hfits : Model.fits (mk w.db.idempotencyRecords.next) = false := by
    simp [mk, storedRecord, Model.fits, hkey]
  exact @Objects.run_create_of_too_wide _ ApiError _ _ _ mk hpk w hfits

end Runs

/-! ## Protected views -/

/-- An authenticated staff request: `user` is the row that authentication loaded. -/
structure Request where
  user : Staff
  idempotencyKey : Option String
  data : Json
  context : RequestContext
  deriving DecidableEq

structure Response where
  status : ℕ
  data : Option Json := none
  deriving DecidableEq, Repr

/-- `require_idempotency_key(request)`; a blank header counts as missing. -/
def requireIdempotencyKey (request : Request) : Except ApiError String :=
  match request.idempotencyKey with
  | some key => if key = "" then .error .idempotencyKeyRequired else .ok key
  | none => .error .idempotencyKeyRequired

/-- The scope of a request to the endpoint of an action. -/
def Request.scope (request : Request) (action idempotencyKey : String) : IdempotencyScope where
  actorType := .staff
  actorId := request.user.id
  action := action
  idempotencyKey := idempotencyKey

def replayIfCached (request : Request) (action idempotencyKey : String) :
    Service (Option Response) := do
  let cached ← getCachedResponse (request.scope action idempotencyKey) request.data
  return cached.map fun (status, body) => { status := status, data := body }

def rememberResponse (request : Request) (action idempotencyKey : String)
    (response : Response) : Statement IdempotencyRecord :=
  storeResponse (request.scope action idempotencyKey) request.data response.status response.data

/-- `success_envelope(data, request=request)`. -/
def successEnvelope (data : Json) (context : RequestContext) : Json :=
  .obj [("data", data), ("meta", .obj [("request_id", .str (toString context.id))])]

end BePyEco
