import BePyEco.Database

/-!
# Tokens, permissions and the audit log

The JWTs that the login flows hand out and the authentication that looks their actor up, the
permission table behind `check_policy`, and `write_audit_log`.

A token is the record of its claims: tokens are unforgeable, so a string either is a signed
token, which decodes to its claims, or is malformed.  The library mints tokens for inactive
users too (it only logs a warning), and `refresh.access_token` builds a new access token on
every access, copying the custom claims.
-/

namespace BePyEco

open Library

/-! ## Tokens -/

/-- The claims of a refresh token.  `exp` is in seconds, as the claim is. -/
structure RefreshToken where
  jti : Jti
  userId : Id
  actorType : Option ActorType
  currentTime : Time
  exp : ℕ
  deriving DecidableEq, Repr

/-- The claims of an access token. -/
structure AccessToken where
  userId : Id
  actorType : Option ActorType
  exp : ℕ
  deriving DecidableEq, Repr

/-- What a client presents as a refresh token. -/
inductive RawRefreshToken
  | malformed
  | signed (token : RefreshToken)
  deriving DecidableEq, Repr

/-- `SIMPLE_JWT["REFRESH_TOKEN_LIFETIME"]`. -/
def refreshTokenLifetime : Time := days 30

/-- `SIMPLE_JWT["ACCESS_TOKEN_LIFETIME"]`. -/
def accessTokenLifetime : Time := minutes 15

/-- `RefreshToken.for_user(user)`. -/
def RefreshToken.forUser (userId : Id) : Statement RefreshToken := do
  let jti ← drawRandom
  let now ← timezoneNow
  return {
    jti := jti
    userId := userId
    actorType := none
    currentTime := now
    exp := (now + refreshTokenLifetime) / second }

/-- `refresh.access_token`. -/
def RefreshToken.accessToken (refresh : RefreshToken) : AccessToken where
  userId := refresh.userId
  actorType := refresh.actorType
  exp := (refresh.currentTime + accessTokenLifetime) / second

/-- `StaffRefreshToken.lifetime`. -/
def staffRefreshTokenLifetime : Time := days 7

/-- `StaffAccessToken.lifetime`. -/
def staffAccessTokenLifetime : Time := minutes 10

/-- `StaffRefreshToken.for_user(staff)`. -/
def RefreshToken.forStaff (staffId : Id) : Statement RefreshToken := do
  let jti ← drawRandom
  let now ← timezoneNow
  return {
    jti := jti
    userId := staffId
    actorType := none
    currentTime := now
    exp := (now + staffRefreshTokenLifetime) / second }

/-- `refresh.access_token` of a `StaffRefreshToken`. -/
def RefreshToken.staffAccessToken (refresh : RefreshToken) : AccessToken where
  userId := refresh.userId
  actorType := refresh.actorType
  exp := (refresh.currentTime + staffAccessTokenLifetime) / second

/-- The check of the `exp` claim. -/
def RefreshToken.isExpired (token : RefreshToken) (now : Time) : Bool :=
  decide (token.exp * second ≤ now)

/-- `RefreshToken(raw_refresh_token)`: `none` is a `TokenError`. -/
def decodeRefreshToken (raw : RawRefreshToken) (now : Time) : Option RefreshToken :=
  match raw with
  | .malformed => none
  | .signed token => if token.isExpired now then none else some token

lemma decodeRefreshToken_eq_some {raw : RawRefreshToken} {now : Time} {token : RefreshToken}
    (h : decodeRefreshToken raw now = some token) : raw = .signed token := by
  cases raw with
  | malformed => cases h
  | signed decoded =>
      rw [decodeRefreshToken] at h
      split at h
      · cases h
      · rw [Option.some.inj h]

/-! ## Authentication -/

/-- `request.user`. -/
inductive Actor
  | customer (customer : Customer)
  | staff (staff : Staff)
  deriving DecidableEq, Repr

/-- `Customer.objects.get(id=actor_id, is_active=True)`. -/
def authenticateCustomer (actorId : Id) : Statement Actor :=
  (do let customer ← Objects.get fun c : Customer => decide (c.id = actorId) && c.isActive
      return .customer customer : Statement Actor).handling .doesNotExist
    (Tx.raise (.app .invalidToken))

/-- `Staff.objects.get(id=actor_id, is_active=True)`. -/
def authenticateStaff (actorId : Id) : Statement Actor :=
  (do let staff ← Objects.get fun s : Staff => decide (s.id = actorId) && s.isActive
      return .staff staff : Statement Actor).handling .doesNotExist
    (Tx.raise (.app .invalidToken))

/-- `JWTAuthentication.get_user`. -/
def getUser (validatedToken : AccessToken) : Statement Actor :=
  match validatedToken.actorType with
  | some .customer => authenticateCustomer validatedToken.userId
  | some .staff => authenticateStaff validatedToken.userId
  | none => Tx.raise (.app .invalidToken)

/-- `IsStaff.has_permission`. -/
def isStaff : Actor → Bool
  | .customer _ => false
  | .staff _ => true

/-! ## Permissions -/

/-- `ROLE_PERMISSIONS`. -/
def rolePermissions : Role → List String
  | .masterAdmin =>
    ["accounts.create_staff", "accounts.disable_customer", "accounts.reset_staff_mfa"]
  | .storeManager => ["accounts.disable_customer"]
  | .orderStaff => []

def hasPermission (role : Role) (codename : String) : Bool :=
  (rolePermissions role).contains codename

/-- `check_policy` without an object check. -/
def checkPolicy (role : Role) (codename : String) : Bool := hasPermission role codename

/-! ## The audit log -/

/-- `REDACTED_KEYS`. -/
def redactedKeys : List String :=
  ["password", "password_hash", "token", "token_hash", "secret", "key"]

/-- `REDACTED_PLACEHOLDER`. -/
def redactedPlaceholder : Json := .str "<redacted>"

/-- `_redact(data)`. -/
def redact [PyText] (data : List (String × Json)) : List (String × Json) :=
  data.map fun field =>
    (field.1,
      if redactedKeys.contains (PyText.lower field.1) then redactedPlaceholder else field.2)

/-- `write_audit_log(...)`. -/
def writeAuditLog [PyText] (actorType : ActorType) (actorId : Id) (action resourceType : String)
    (resourceId : Id) (before after : List (String × Json)) (reason : String)
    (ipAddress : Option String) (requestId : Option Id) : Statement AuditLogEntry :=
  Objects.create fun id => {
    id := id
    actorType := actorType
    actorId := actorId
    action := action
    resourceType := resourceType
    resourceId := resourceId
    before := .obj (redact before)
    after := .obj (redact after)
    reason := reason
    ipAddress := ipAddress
    requestId := requestId }

section Entries

variable [PyText] {w : World} {actorType : ActorType} {actorId : Id}
  {action resourceType : String} {resourceId : Id} {before after : List (String × Json)}
  {reason : String} {ipAddress : Option String} {requestId : Option Id}

/-- An entry whose reason fits its column is appended. -/
lemma writeAuditLog_run (haction : action.length ≤ 100) (hresource : resourceType.length ≤ 100)
    (hreason : reason.length ≤ 255) :
    ∃ entry w', (writeAuditLog actorType actorId action resourceType resourceId before after reason
        ipAddress requestId).run w = .ok (entry, w') ∧ entry.action = action ∧
      entry.actorId = actorId ∧ entry.resourceId = resourceId ∧
      w'.db.auditLog.rows = w.db.auditLog.rows ++ [entry] := by
  let mk : ℕ → AuditLogEntry := fun id => ⟨id, actorType, actorId, action, resourceType, resourceId,
    .obj (redact before), .obj (redact after), reason, ipAddress, requestId⟩
  have hfits : Model.fits (mk w.db.auditLog.next) = true := by
    simp [mk, Model.fits, haction, hresource, hreason]
  have hpk : ∀ i, Model.pk (mk i) = i := fun _ => rfl
  have hfree : ∀ r ∈ w.db.auditLog.rows, Model.conflicts r (mk w.db.auditLog.next) = false :=
    fun _ _ => rfl
  obtain ⟨t, hrun, hrows⟩ := @Objects.run_create_of_free _ ApiError _ _ _ mk hpk w hfits hfree
  exact ⟨_, _, hrun, rfl, rfl, rfl, hrows⟩

/-- An entry whose reason does not fit is refused. -/
lemma writeAuditLog_run_of_long (hreason : 255 < reason.length) :
    (writeAuditLog actorType actorId action resourceType resourceId before after reason
      ipAddress requestId).run w = .error (.db .dataError) := by
  refine Objects.run_create_of_too_wide ?_
  simp [Model.fits, hreason]

/-- What an entry that was written says. -/
lemma writeAuditLog_ok {w' : World} {entry : AuditLogEntry}
    (h : (writeAuditLog actorType actorId action resourceType resourceId before after reason
      ipAddress requestId).run w = .ok (entry, w')) :
    reason.length ≤ 255 ∧ entry.action = action ∧ entry.actorId = actorId ∧
      entry.resourceId = resourceId ∧
      w'.db.auditLog.rows = w.db.auditLog.rows ++ [entry] := by
  obtain ⟨t, hinsert, rfl⟩ := Objects.create_ok h
  obtain ⟨rfl, hrows, -, hfits, -⟩ := Table.insert_spec hinsert
  simp only [Model.fits, Bool.and_eq_true, decide_eq_true_eq] at hfits
  exact ⟨hfits.2, rfl, rfl, rfl, hrows⟩

/-- The values in an entry are the redacted ones. -/
lemma writeAuditLog_values {w' : World} {entry : AuditLogEntry}
    (h : (writeAuditLog actorType actorId action resourceType resourceId before after reason
      ipAddress requestId).run w = .ok (entry, w')) :
    entry.before = .obj (redact before) ∧ entry.after = .obj (redact after) := by
  obtain ⟨t, hinsert, rfl⟩ := Objects.create_ok h
  obtain ⟨rfl, -⟩ := Table.insert_spec hinsert
  exact ⟨rfl, rfl⟩

end Entries

/-- The audit log is all that an audit entry touches. -/
lemma writeAuditLog_guarantees [PyText] {R : World → World → Prop}
    (h : ∀ w (t : Table AuditLogEntry), R w (Stored.put t w)) {actorType : ActorType}
    {actorId : Id} {action resourceType : String} {resourceId : Id}
    {before after : List (String × Json)} {reason : String} {ipAddress : Option String}
    {requestId : Option Id} :
    (writeAuditLog actorType actorId action resourceType resourceId before after reason ipAddress
      requestId).Guarantees R :=
  Objects.guarantees_create h

end BePyEco
