import BePyEco.Common.Values
import BePyEco.Library.Table

/-!
# Rows of the shared tables

The idempotency records, the audit log and the outbox, with the width limits and unique
constraints their models declare.
-/

namespace BePyEco

open Library

/-- One remembered response of an idempotent endpoint. -/
structure IdempotencyRecord where
  id : Id
  actorType : ActorType
  actorId : Id
  action : String
  idempotencyKey : String
  requestHash : Sha256 Json
  responseStatus : ℕ
  responseBody : Option Json
  expiresAt : Time
  deriving DecidableEq, Repr

/-- The columns of `unique_idempotency_key_per_actor_action`. -/
structure IdempotencyScope where
  actorType : ActorType
  actorId : Id
  action : String
  idempotencyKey : String
  deriving DecidableEq, Repr

def IdempotencyRecord.scope (r : IdempotencyRecord) : IdempotencyScope where
  actorType := r.actorType
  actorId := r.actorId
  action := r.action
  idempotencyKey := r.idempotencyKey

/-- The largest value of a `PositiveSmallIntegerField`. -/
def maxPositiveSmallInteger : ℕ := 32767

instance : Model IdempotencyRecord where
  pk := IdempotencyRecord.id
  fits r := decide (r.action.length ≤ 100) && decide (r.idempotencyKey.length ≤ 255) &&
    decide (r.responseStatus ≤ maxPositiveSmallInteger)
  conflicts a b := decide (a.scope = b.scope)
  conflicts_symm a b := by simp [eq_comm]

/-- One entry of the audit log.  `actorId` and `resourceId` are ids stored as text; a blank
`request_id` is `none`. -/
structure AuditLogEntry where
  id : Id
  actorType : ActorType
  actorId : Id
  action : String
  resourceType : String
  resourceId : Id
  before : Json
  after : Json
  reason : String
  ipAddress : Option String
  requestId : Option Id
  deriving DecidableEq, Repr

instance : Model AuditLogEntry where
  pk := AuditLogEntry.id
  fits e := decide (e.action.length ≤ 100) && decide (e.resourceType.length ≤ 100) &&
    decide (e.reason.length ≤ 255)
  conflicts _ _ := false
  conflicts_symm _ _ := rfl

/-- One event of the transactional outbox; nothing reads `dispatched_at` yet. -/
structure OutboxEvent where
  id : Id
  eventType : String
  payload : Json
  deriving DecidableEq, Repr

instance : Model OutboxEvent where
  pk := OutboxEvent.id
  fits e := decide (e.eventType.length ≤ 100)
  conflicts _ _ := false
  conflicts_symm _ _ := rfl

end BePyEco
