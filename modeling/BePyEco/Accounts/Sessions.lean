import BePyEco.Common.Auth

/-!
# Refresh sessions

Issuing, rotating and revoking the sessions behind refresh tokens.  Only the digest of a token's
`jti` is stored.  `rotateRefreshToken` is a lookup, a check in memory, a save and, through
`issueSession`, an insert, each a statement of its own.
-/

namespace BePyEco

open Library

variable [PyText]

/-- `_hash_jti(jti)`. -/
def hashJti (jti : Jti) : Sha256 Jti := sha256 jti

/-- `Session.objects.create(...)` for a token that was minted. -/
def createSession (customerId : Id) (refresh : RefreshToken) : Statement Session := do
  let now ← timezoneNow
  Objects.create fun id => {
    id := id
    customerId := customerId
    refreshTokenHash := hashJti refresh.jti
    expiresAt := now + refreshTokenLifetime }

/-- Mint a refresh token with the customer claim. -/
def mintCustomerToken (customerId : Id) : Statement RefreshToken := do
  let refresh ← RefreshToken.forUser customerId
  return { refresh with actorType := some .customer }

def issueSession (customerId : Id) : Service (AccessToken × RefreshToken) := do
  let refresh ← mintCustomerToken customerId
  let _ ← createSession customerId refresh
  return (refresh.accessToken, refresh)

/-- `RefreshToken(raw)` and the check of its actor claim. -/
def decodeCustomerToken (raw : RawRefreshToken) : Statement RefreshToken := do
  let now ← timezoneNow
  match decodeRefreshToken raw now with
  | none => Tx.raise (.app .invalidRefreshToken)
  | some oldRefresh =>
    Tx.require (decide (oldRefresh.actorType = some .customer)) .invalidRefreshToken
    return oldRefresh

/-- `Session.objects.select_related("customer").get(refresh_token_hash=...)`. -/
def lookupSession (oldRefresh : RefreshToken) : Statement Session :=
  (Objects.get fun s : Session => decide (s.refreshTokenHash = hashJti oldRefresh.jti)).handling
    .doesNotExist (Tx.raise (.app .invalidRefreshToken))

/-- `if not session.is_active: raise`. -/
def checkSession (session : Session) : Statement Unit := do
  let now ← timezoneNow
  Tx.require (session.isActive now) .invalidRefreshToken

/-- `session.revoked_at = timezone.now()` and its save. -/
def saveRevokedAt (session : Session) : Statement Unit := do
  let now ← timezoneNow
  Objects.save session.id (Session.setRevokedAt now)

def rotateRefreshToken (rawRefreshToken : RawRefreshToken) :
    Service (AccessToken × RefreshToken) := do
  let oldRefresh ← decodeCustomerToken rawRefreshToken
  let session ← lookupSession oldRefresh
  checkSession session
  saveRevokedAt session
  issueSession session.customerId

/-- The filter of `revoke_session`. -/
def revocable (customerId sessionId : Id) (s : Session) : Bool :=
  decide (s.id = sessionId) && decide (s.customerId = customerId) && decide (s.revokedAt = none)

/-- The `UPDATE` of `revoke_session`; returns how many rows it matched. -/
def revokeOwn (customerId sessionId : Id) : Statement ℕ := do
  let now ← timezoneNow
  Objects.update (revocable customerId sessionId) (Session.setRevokedAt now)

def revokeSession (customer : Customer) (sessionId : Id) (request : Option RequestContext) :
    Service Unit := do
  let updated ← revokeOwn customer.id sessionId
  Program.require (decide (updated ≠ 0)) .sessionNotFound
  let _ ← writeAuditLog .customer customer.id "accounts.revoke_session" "session" sessionId
    [("revoked_at", .null)] [("revoked_at", .str "now")] "" (clientIp request) (requestId request)
  return ()

/-- The filter of `revoke_all_sessions`. -/
def unrevokedOf (customerId : Id) (s : Session) : Bool :=
  decide (s.customerId = customerId) && decide (s.revokedAt = none)

/-- The `UPDATE` of `revoke_all_sessions`. -/
def revokeUnrevoked (customerId : Id) : Statement ℕ := do
  let now ← timezoneNow
  Objects.update (unrevokedOf customerId) (Session.setRevokedAt now)

def revokeAllSessions (customerId : Id) : Service Unit := do
  let _ ← revokeUnrevoked customerId
  return ()

/-! ## What the statements do -/

omit [PyText] in
/-- A revocation of unrevoked sessions changes the table unless it matches none. -/
lemma revoke_eq_self_iff {t : Table Session} {p : Session → Bool} (now : Time)
    (hp : ∀ s, p s = true → s.revokedAt = none) :
    t.update p (Session.setRevokedAt now) = t ↔ ∀ s ∈ t.rows, p s = false := by
  rw [Table.update_eq_self_iff]
  constructor
  · intro h s hs
    by_contra hmatch
    rw [Bool.not_eq_false] at hmatch
    have hsame := h s hs
    rw [Assignment.on_pos _ hmatch] at hsame
    have hrevoked : some now = s.revokedAt := congrArg Session.revokedAt hsame
    rw [hp s hmatch] at hrevoked
    cases hrevoked
  · intro h s hs
    exact Assignment.on_neg _ (h s hs)

omit [PyText] in
lemma revokedAt_of_unrevokedOf {customerId : Id} {s : Session}
    (h : unrevokedOf customerId s = true) : s.revokedAt = none := by
  simp only [unrevokedOf, Bool.and_eq_true, decide_eq_true_eq] at h
  exact h.2

omit [PyText] in
lemma revokeOwn_run (customerId sessionId : Id) (w : World) :
    ∃ k w', (revokeOwn customerId sessionId).run w = .ok (k, w') ∧
      (k = 0 ↔ ∀ s ∈ w.db.sessions.rows, revocable customerId sessionId s = false) ∧
      (w'.db = w.db ↔ ∀ s ∈ w.db.sessions.rows, revocable customerId sessionId s = false) ∧
      w'.db.auditLog = w.db.auditLog := by
  have hunrevoked : ∀ s, revocable customerId sessionId s = true → s.revokedAt = none := by
    intro s hs
    simp only [revocable, Bool.and_eq_true, decide_eq_true_eq] at hs
    exact hs.2
  refine ⟨_, _, rfl, Table.count_eq_zero_iff _, ?_, rfl⟩
  rw [← revoke_eq_self_iff w.now hunrevoked]
  constructor
  · intro h
    exact congrArg Database.sessions h
  · intro h
    exact congrArg (fun t => { w.db with sessions := t }) h

/-! ## Guarantees -/

section Guarantees

variable {R : World → World → Prop}

lemma revokeSession_guarantees (haudit : ∀ w (t : Table AuditLogEntry), R w (Stored.put t w))
    [Std.Refl R] {customer : Customer} {sessionId : Id} {request : Option RequestContext}
    (hrevoke : (revokeOwn customer.id sessionId).Guarantees R) :
    (revokeSession customer sessionId request).Guarantees R := by
  refine (Program.guarantees_exec hrevoke).bind fun updated => ?_
  refine (Program.guarantees_require _ _).bind fun _ => ?_
  exact (Program.guarantees_exec (writeAuditLog_guarantees haudit)).bind fun _ => trivial

omit [PyText] in
lemma revokeAllSessions_guarantees [Std.Refl R] {customerId : Id}
    (hrevoke : (revokeUnrevoked customerId).Guarantees R) :
    (revokeAllSessions customerId).Guarantees R :=
  (Program.guarantees_exec hrevoke).bind fun _ => trivial

end Guarantees

/-! ## A customer to work with -/

/-- `Customer.objects.create(email=...)`, as the examples begin. -/
def insertCustomer (email : String) : Statement Customer :=
  Objects.create fun id => { id := id, email := email }

end BePyEco
