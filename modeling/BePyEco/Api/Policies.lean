import BePyEco.Api.WritePolicy

/-!
# What each piece of work may write, and by what right

`Work.policy` says which tables an endpoint, an internal service or a command writes, what it does
to their rows, and which mail it sends.  It depends on the databases that the work has found so far:
a row is only written for a caller who has signed in, who knows the password, who holds the token
that was mailed, and so on, and the evidence for it is in one of those databases.
-/

namespace BePyEco

open Library

/-! ## Rows and their changes -/

/-- A customer as `create` makes one. -/
def Customer.IsNew (c : Customer) : Prop :=
  c.isActive = true ∧ c.preferredLocale = "" ∧ c.preferredCurrency = ""

def Customer.Verifies (c c' : Customer) : Prop := ∃ t, c' = { c with emailVerifiedAt := some t }

def Customer.Readdresses (email : String) (c c' : Customer) : Prop := ∃ t, c' = setEmail email t c

def Customer.Prefers (locale currency : String) (c c' : Customer) : Prop :=
  c' = setPreference locale currency c

def Customer.Disables (c c' : Customer) : Prop := c' = { c with isActive := false }

def LoginMethod.Rehashes (password : String) (m m' : LoginMethod) : Prop :=
  m' = { m with passwordHash := some (makePassword password) }

def Session.Revokes (s s' : Session) : Prop := ∃ t, s' = { s with revokedAt := some t }

def VerificationToken.Consumes (t t' : VerificationToken) : Prop :=
  ∃ now, t' = { t with consumedAt := some now }

def StaffTOTPDevice.Confirms (d d' : StaffTOTPDevice) : Prop :=
  ∃ t, d' = { d with confirmedAt := some t }

def Product.Changes (status : ProductStatus) (p p' : Product) : Prop :=
  p' = { p with status := status }

def Variant.Archives (v v' : Variant) : Prop := v' = { v with isArchived := true }

def Variant.Rekeys (v v' : Variant) : Prop := ∃ key, v' = { v with attributeCombinationKey := key }

def TranslationEntry.Approves (e e' : TranslationEntry) : Prop := e' = { e with isApproved := true }

def MediaUpload.IsNew (m : MediaUpload) : Prop := m.status = .pending ∧ m.productId = none

/-- A verdict of the validation. -/
def MediaUpload.Judges (m m' : MediaUpload) : Prop :=
  (∃ reason, m' = m.reject reason) ∨
    ∃ webpKey avifKey thumbnailKey, m' = m.makeReady webpKey avifKey thumbnailKey

def MediaUpload.Attaches (m m' : MediaUpload) : Prop :=
  ∃ productId, m' = { m with productId := some productId }

/-! ## Evidence -/

section Evidence

variable (request : HttpRequest) (found : Set World)

/-- The request comes from a staff member whose role has the permission, and who has a confirmed
device. -/
structure AuthorizedTo (action : String) (staff : Staff) : Prop where
  signedIn : SignedIn request found (.staff staff)
  permitted : checkPolicy staff.role action = true
  confirmed : ∃ w ∈ found, ConfirmedMfa w { staff := staff }

/-- A database was found without the customer, whose id is the next one there. -/
def NewCustomer (customerId : Id) : Prop := ∃ w ∈ found, w.db.customers.next = customerId

/-- The email address belongs to the customer, who is active. -/
def AddressOf [PyText] (email : String) (customerId : Id) : Prop :=
  ∃ w ∈ found, ∃ c ∈ w.db.customers.rows, activeByEmail (normalizeEmail email) c = true ∧
    c.id = customerId

/-- The password is that of the customer. -/
def PasswordOf (password : String) (customerId : Id) : Prop :=
  ∃ w ∈ found, ∃ m ∈ w.db.loginMethods.rows, loginMethodOf customerId .password m = true ∧
    checkPassword password m.passwordHash = true

/-- The address was found to be that of the customer. -/
def HasAddress (customerId : Id) (address : String) : Prop :=
  ∃ w ∈ found, ∃ c ∈ w.db.customers.rows, c.id = customerId ∧ c.email = address

/-- The mail carries a token that was found stored, and is such a token. -/
def Carries (p : VerificationToken → Prop) (m : Mail) : Prop :=
  ∃ w ∈ found, ∃ t ∈ w.db.verificationTokens.rows, t.tokenHash = sha256 m.token ∧ p t

variable [Libraries]

/-- The raw token that a request to the consumer of a purpose presents. -/
def presentedToken (data : Json) : Purpose → Option RawToken
  | .emailVerification => ((verifyEmailSerializer data).toOption).map TokenTexts.readRaw
  | .passwordReset =>
    ((confirmPasswordResetSerializer data).toOption).map fun fields => TokenTexts.readRaw fields.1
  | .emailChange => ((confirmEmailChangeSerializer data).toOption).map TokenTexts.readRaw

/-- The request presents a token that is stored, is not consumed and has not expired. -/
structure Presents (purpose : Purpose) (token : VerificationToken) : Prop where
  stored : ∃ rawToken, presentedToken request.data purpose = some rawToken ∧
    ∃ w ∈ found, token ∈ w.db.verificationTokens.rows ∧ consumable purpose rawToken token = true
  fresh : ∃ w ∈ found, w.now ≤ token.expiresAt

omit [Libraries] in
/-- The customer was found stored, and the token is theirs. -/
def OwnerOf (token : VerificationToken) (customer : Customer) : Prop :=
  customer.id = token.customerId ∧ ∃ w ∈ found, customer ∈ w.db.customers.rows

/-- The request presents the refresh token of an active session. -/
structure Refreshes (session : Session) : Prop where
  stored : ∃ text token, refreshTokenSerializer request.data = .ok text ∧
    TokenTexts.readRefresh text = .signed token ∧ token.actorType = some .customer ∧
    ∃ w ∈ found, session ∈ w.db.sessions.rows ∧ session.refreshTokenHash = hashJti token.jti
  active : ∃ w ∈ found, session.isActive w.now = true

/-- The request presents the ID token of a Google account. -/
def GoogleAccount (clientId : String) (tokeninfo : String → TokeninfoReply)
    (profile : GoogleProfile) : Prop :=
  ∃ idToken, googleLoginSerializer request.data = .ok idToken ∧
    verifyIdToken clientId (tokeninfo idToken) = .ok profile

omit [Libraries] in
/-- The login block makes the customer of the Google account. -/
def GoogleResolves (profile : GoogleProfile) (customerId : Id) : Prop :=
  ∃ w ∈ found, ∃ customer w', (googleBlock profile).run w = .ok (customer, w') ∧
    customer.id = customerId

/-- The request presents the code of the device, which the staff member had. -/
structure ProvesDevice (staff : Staff) (device : StaffTOTPDevice) : Prop where
  stored : ∃ w ∈ found, device ∈ w.db.staffTotpDevices.rows ∧ device.staffId = staff.id
  verified : ∃ token, confirmMfaSerializer request.data = .ok token ∧
    ∃ w ∈ found, (verifyToken device token).run w = .ok (true, w)

omit [Libraries] in
/-- A supported country offers the locale and the currency. -/
def Offered (locale currency : String) : Prop :=
  ∃ w ∈ found, ∃ country ∈ w.db.supportedCountries.rows, country.isActive = true ∧
    locale ∈ country.allowedLocales ∧ currency ∈ country.allowedCurrencies

/-- An entry of the actor about the action has been added to the log that was found. -/
def Entered (actorType : ActorType) (actorId : Id) (action : String)
    (reports : AuditLogEntry → Prop) : Prop :=
  ∃ w ∈ found, ∃ w' ∈ found, ∃ e ∈ w'.db.auditLog.rows, e ∉ w.db.auditLog.rows ∧
    (e.actorType = actorType ∧ e.actorId = actorId ∧ e.action = action) ∧ reports e

/-! What an audit entry reports was found to be so. -/

/-- The customer of the entry is disabled. -/
def ReportsDisabled (customerId : Id) (e : AuditLogEntry) : Prop :=
  e.resourceId = customerId ∧
    ∃ w ∈ found, ∃ c ∈ w.db.customers.rows, c.id = customerId ∧ c.isActive = false

/-- The staff member of the entry is stored, with the address and the role that it gives. -/
def ReportsCreated (e : AuditLogEntry) : Prop :=
  ∃ w ∈ found, ∃ s ∈ w.db.staff.rows, s.id = e.resourceId ∧
    e.after = .obj (redact [("email", .str s.email), ("role", .str s.role.value)])

/-- The staff member of the entry has no device. -/
def ReportsReset (staffId : Id) (e : AuditLogEntry) : Prop :=
  e.resourceId = staffId ∧
    ∃ w ∈ found, ∀ d ∈ w.db.staffTotpDevices.rows, d.staffId ≠ staffId

/-- The session of the entry is the customer's, and revoked. -/
def ReportsRevoked (customerId sessionId : Id) (e : AuditLogEntry) : Prop :=
  e.resourceId = sessionId ∧ ∃ w ∈ found, ∃ s ∈ w.db.sessions.rows, s.id = sessionId ∧
    s.customerId = customerId ∧ s.revokedAt ≠ none

end Evidence

/-! ### Evidence is kept -/

section Mono

variable {request : HttpRequest} {found visited : Set World}

lemma AuthorizedTo.mono {action : String} {staff : Staff}
    (h : AuthorizedTo request found action staff) (hsub : found ⊆ visited) :
    AuthorizedTo request visited action staff := by
  obtain ⟨w, hw, hconfirmed⟩ := h.confirmed
  exact ⟨h.signedIn.mono hsub, h.permitted, w, hsub hw, hconfirmed⟩

lemma AddressOf.mono [PyText] {email : String} {customerId : Id}
    (h : AddressOf found email customerId) (hsub : found ⊆ visited) :
    AddressOf visited email customerId := by
  obtain ⟨w, hw, haddress⟩ := h
  exact ⟨w, hsub hw, haddress⟩

lemma HasAddress.mono {customerId : Id} {address : String}
    (h : HasAddress found customerId address) (hsub : found ⊆ visited) :
    HasAddress visited customerId address := by
  obtain ⟨w, hw, hcustomer⟩ := h
  exact ⟨w, hsub hw, hcustomer⟩

lemma Carries.mono {p : VerificationToken → Prop} {m : Mail} (h : Carries found p m)
    (hsub : found ⊆ visited) : Carries visited p m := by
  obtain ⟨w, hw, hcarries⟩ := h
  exact ⟨w, hsub hw, hcarries⟩

lemma Carries.imp {p q : VerificationToken → Prop} {m : Mail} (h : Carries found p m)
    (hpq : ∀ t, p t → q t) : Carries found q m := by
  obtain ⟨w, hw, t, ht, hhash, hp⟩ := h
  exact ⟨w, hw, t, ht, hhash, hpq t hp⟩

lemma Entered.mono {actorType : ActorType} {actorId : Id} {action : String}
    {reports reports' : AuditLogEntry → Prop} (h : Entered found actorType actorId action reports)
    (hsub : found ⊆ visited) (hreports : ∀ e, reports e → reports' e) :
    Entered visited actorType actorId action reports' := by
  obtain ⟨w, hw, w', hw', e, he, hnew, hentry, hreport⟩ := h
  exact ⟨w, hsub hw, w', hsub hw', e, he, hnew, hentry, hreports e hreport⟩

lemma ReportsDisabled.mono {customerId : Id} {e : AuditLogEntry}
    (h : ReportsDisabled found customerId e) (hsub : found ⊆ visited) :
    ReportsDisabled visited customerId e := by
  obtain ⟨hresource, w, hw, hdisabled⟩ := h
  exact ⟨hresource, w, hsub hw, hdisabled⟩

lemma ReportsReset.mono {staffId : Id} {e : AuditLogEntry} (h : ReportsReset found staffId e)
    (hsub : found ⊆ visited) : ReportsReset visited staffId e := by
  obtain ⟨hresource, w, hw, hreset⟩ := h
  exact ⟨hresource, w, hsub hw, hreset⟩

lemma OwnerOf.mono {token : VerificationToken} {customer : Customer}
    (h : OwnerOf found token customer) (hsub : found ⊆ visited) :
    OwnerOf visited token customer := by
  obtain ⟨hid, w, hw, hstored⟩ := h
  exact ⟨hid, w, hsub hw, hstored⟩

lemma PasswordOf.mono {password : String} {customerId : Id}
    (h : PasswordOf found password customerId) (hsub : found ⊆ visited) :
    PasswordOf visited password customerId := by
  obtain ⟨w, hw, hpassword⟩ := h
  exact ⟨w, hsub hw, hpassword⟩

lemma GoogleResolves.mono {profile : GoogleProfile} {customerId : Id}
    (h : GoogleResolves found profile customerId) (hsub : found ⊆ visited) :
    GoogleResolves visited profile customerId := by
  obtain ⟨w, hw, hresolves⟩ := h
  exact ⟨w, hsub hw, hresolves⟩

variable [Libraries]

lemma ReportsCreated.mono {e : AuditLogEntry} (h : ReportsCreated found e)
    (hsub : found ⊆ visited) : ReportsCreated visited e := by
  obtain ⟨w, hw, hstored⟩ := h
  exact ⟨w, hsub hw, hstored⟩

lemma Presents.mono {purpose : Purpose} {token : VerificationToken}
    (h : Presents request found purpose token) (hsub : found ⊆ visited) :
    Presents request visited purpose token := by
  obtain ⟨rawToken, hraw, w, hw, hstored⟩ := h.stored
  obtain ⟨w', hw', hfresh⟩ := h.fresh
  exact ⟨⟨rawToken, hraw, w, hsub hw, hstored⟩, w', hsub hw', hfresh⟩

lemma Refreshes.mono {session : Session} (h : Refreshes request found session)
    (hsub : found ⊆ visited) : Refreshes request visited session := by
  obtain ⟨text, token, htext, hsigned, hkind, w, hw, hstored⟩ := h.stored
  obtain ⟨w', hw', hactive⟩ := h.active
  exact ⟨⟨text, token, htext, hsigned, hkind, w, hsub hw, hstored⟩, w', hsub hw', hactive⟩

lemma ProvesDevice.mono {staff : Staff} {device : StaffTOTPDevice}
    (h : ProvesDevice request found staff device) (hsub : found ⊆ visited) :
    ProvesDevice request visited staff device := by
  obtain ⟨w, hw, hstored⟩ := h.stored
  obtain ⟨token, htoken, w', hw', hverified⟩ := h.verified
  exact ⟨⟨w, hsub hw, hstored⟩, token, htoken, w', hsub hw', hverified⟩

end Mono

/-! ## The policies -/

section Policies

variable (request : HttpRequest) (found : Set World)

/-- What a signed-in customer may do. -/
def byCustomer (policy : Customer → WorldPolicy) : WorldPolicy :=
  .union fun customer : { c : Customer // SignedIn request found (.customer c) } => policy customer

/-- What a signed-in staff member may do. -/
def byStaff (policy : Staff → WorldPolicy) : WorldPolicy :=
  .union fun staff : { s : Staff // SignedIn request found (.staff s) } => policy staff

/-- The scope of the record that the key of the request gives. -/
def OwnScope (action : String) (staff : Staff) (scope : IdempotencyScope) : Prop :=
  ∃ key, requireIdempotencyKey (request.ofStaff staff) = .ok key ∧
    scope = (request.ofStaff staff).scope action key

/-- What an audited action of a staff member writes: its effect, audit entries that report it, and,
when one of these has been added to the log, the record of its response.  A record with its scope
that was found expired is deleted. -/
def auditedPolicy (action : String) (reports : AuditLogEntry → Prop) (effect : WorldPolicy)
    (staff : Staff) : WorldPolicy where
  tables
    | .auditLog =>
      { add := fun e =>
          (e.actorType = .staff ∧ e.actorId = staff.id ∧ e.action = action) ∧ reports e }
    | .idempotencyRecords =>
      { add := fun r => OwnScope request action staff r.scope ∧
          r.requestHash = hashRequest request.data ∧ Entered found .staff staff.id action reports
        remove := fun r => ∃ w ∈ found, ∃ record ∈ w.db.idempotencyRecords.rows,
          record.id = r.id ∧ OwnScope request action staff record.scope ∧
            ∃ w' ∈ found, record.expiresAt < w'.now }
    | name => effect name
  mails := effect.mails

/-- What a sensitive endpoint may do. -/
def sensitivePolicy (action : String) (reports : AuditLogEntry → Prop) (effect : WorldPolicy) :
    WorldPolicy :=
  .union fun staff : { s : Staff // AuthorizedTo request found action s } =>
    auditedPolicy request found action reports effect staff

/-- A session for the customer. -/
def sessionPolicy (customerId : Id) : WorldPolicy := .writing fun
  | .sessions => { add := fun s => s.customerId = customerId ∧ s.revokedAt = none }
  | _ => {}

/-- A rotation: the session is revoked, and another one is issued. -/
def rotationPolicy (session : Session) : WorldPolicy := .writing fun
  | .sessions =>
    { add := fun s => s.customerId = session.customerId ∧ s.revokedAt = none
      change := fun s s' => s.id = session.id ∧ s.Revokes s' }
  | _ => {}

/-- What a Google login writes: the customer of the account, the link and a session. -/
def googlePolicy [PyText] (profile : GoogleProfile) : WorldPolicy := .writing fun
  | .customers =>
    { add := fun c => c.IsNew ∧ c.email = profile.email
      change := fun c c' => GoogleResolves found profile c.id ∧ profile.emailVerified = true ∧
        c.Verifies c' }
  | .loginMethods =>
    { add := fun m => m.provider = .google ∧ m.providerSubjectId = profile.subjectId ∧
        GoogleResolves found profile m.customerId }
  | .sessions => { add := fun s => GoogleResolves found profile s.customerId ∧ s.revokedAt = none }
  | _ => {}

/-- What the consumer of a token writes: its effect, and that the token is consumed. -/
def consumerPolicy (effect : VerificationToken → WorldPolicy) (token : VerificationToken) :
    WorldPolicy where
  tables
    | .verificationTokens => { change := fun t t' => t.id = token.id ∧ t.Consumes t' }
    | name => effect token name
  mails := (effect token).mails

variable [Libraries]

/-- What the holder of a verification token may do. -/
def byToken (purpose : Purpose) (effect : VerificationToken → WorldPolicy) : WorldPolicy :=
  .union fun token : { t : VerificationToken // Presents request found purpose t } =>
    consumerPolicy effect token

def Endpoint.policy : Endpoint → WorldPolicy
  | register => {
      tables := fun
        | .customers => { add := fun c => c.IsNew ∧ c.emailVerifiedAt = none }
        | .loginMethods =>
          { add := fun m => m.provider = .password ∧ NewCustomer found m.customerId }
        | .verificationTokens =>
          { add := fun t => t.purpose = .emailVerification ∧ t.consumedAt = none ∧
              NewCustomer found t.customerId }
        | _ => {}
      mails := fun m => ∃ customerId, NewCustomer found customerId ∧
        HasAddress found customerId m.recipient ∧
        Carries found (fun t => t.purpose = .emailVerification ∧ t.customerId = customerId) m }
  | verifyEmail => byToken request found .emailVerification fun token => .writing fun
    | .customers => { change := fun c c' => c.id = token.customerId ∧ c.Verifies c' }
    | _ => {}
  | login => .union fun id : { id : Id // ∃ email password,
      loginSerializer request.data = .ok (email, password) ∧ AddressOf found email id ∧
        PasswordOf found password id } => sessionPolicy id
  | googleLogin clientId tokeninfo =>
    .union fun profile : { p : GoogleProfile // GoogleAccount request clientId tokeninfo p } =>
      googlePolicy found profile
  | refreshToken =>
    .union fun session : { s : Session // Refreshes request found s } => rotationPolicy session
  | updateLocalePreference => byCustomer request found fun customer => .writing fun
    | .customers =>
      { change := fun c c' => c.id = customer.id ∧ ∃ locale currency,
          updateLocalePreferenceSerializer request.data = .ok (locale, currency) ∧
            Offered found locale currency ∧ c.Prefers locale currency c' }
    | _ => {}
  | sessionRevoke sessionId => byCustomer request found fun customer => .writing fun
    | .sessions =>
      { change := fun s s' => s.id = sessionId ∧ s.customerId = customer.id ∧ s.Revokes s' }
    | .auditLog =>
      { add := fun e => (e.actorType = .customer ∧ e.actorId = customer.id ∧
          e.action = "accounts.revoke_session") ∧ ReportsRevoked found customer.id sessionId e }
    | _ => {}
  | sessionRevokeAll => byCustomer request found fun customer => .writing fun
    | .sessions => { change := fun s s' => s.customerId = customer.id ∧ s.Revokes s' }
    | _ => {}
  | requestPasswordReset => {
      tables := fun
        | .verificationTokens =>
          { add := fun t => t.purpose = .passwordReset ∧ t.consumedAt = none ∧ ∃ email,
              requestPasswordResetSerializer request.data = .ok email ∧
                AddressOf found email t.customerId }
        | _ => {}
      mails := fun m => ∃ email customerId,
        requestPasswordResetSerializer request.data = .ok email ∧
        AddressOf found email customerId ∧ HasAddress found customerId m.recipient ∧
        Carries found (fun t => t.purpose = .passwordReset ∧ t.customerId = customerId) m }
  | confirmPasswordReset => byToken request found .passwordReset fun token => .writing fun
    | .loginMethods =>
      { add := fun m => m.customerId = token.customerId ∧ m.provider = .password
        change := fun m m' => m.customerId = token.customerId ∧ ∃ text password,
          confirmPasswordResetSerializer request.data = .ok (text, password) ∧
            m.Rehashes password m' }
    | _ => {}
  | requestEmailChange => byCustomer request found fun customer => {
      tables := fun
        | .verificationTokens =>
          { add := fun t => t.purpose = .emailChange ∧ t.consumedAt = none ∧
              t.customerId = customer.id }
        | _ => {}
      mails := fun m => ∃ email, requestEmailChangeSerializer request.data = .ok email ∧
        m.recipient = normalizeEmail email ∧ Carries found (fun t =>
          t.purpose = .emailChange ∧ t.customerId = customer.id ∧ t.newEmail = m.recipient) m }
  | confirmEmailChange => byToken request found .emailChange fun token => .writing fun
    | .customers =>
      { change := fun c c' => c.id = token.customerId ∧ c.Readdresses token.newEmail c' }
    | _ => {}
  | createStaff => sensitivePolicy request found "accounts.create_staff"
    (ReportsCreated found) <| .writing fun
    | .staff =>
      { add := fun s => ∃ email password role,
          createStaffSerializer request.data = .ok (email, password, role) ∧
            s = ⟨s.id, normalizeEmail email, makePassword password, role, true⟩ }
    | _ => {}
  | mfaSetup => byStaff request found fun staff => .writing fun
    | .staffTotpDevices => { add := fun d => d.staffId = staff.id ∧ d.confirmedAt = none }
    | _ => {}
  | mfaConfirm => byStaff request found fun staff => .writing fun
    | .staffTotpDevices =>
      { change := fun d d' => (∃ device, ProvesDevice request found staff device ∧
          d.id = device.id) ∧ d.Confirms d' }
    | _ => {}
  | resetStaffMfa staffId => sensitivePolicy request found "accounts.reset_staff_mfa"
    (ReportsReset found staffId) <| .writing fun
    | .staffTotpDevices => { remove := fun d => d.staffId = staffId }
    | _ => {}
  | disableCustomer customerId => sensitivePolicy request found "accounts.disable_customer"
    (ReportsDisabled found customerId) <| .writing fun
    | .customers => { change := fun c c' => c.id = customerId ∧ c.Disables c' }
    | .sessions => { change := fun s s' => s.customerId = customerId ∧ s.Revokes s' }
    | _ => {}
  | productPublish productId => byStaff request found fun _ => .writing fun
    | .products => { change := fun p p' => p.id = productId ∧ p.Changes .active p' }
    | .outboxEvents => { add := fun e => e.eventType = productPublishedEvent }
    | _ => {}
  | requestUpload => byStaff request found fun _ => .writing fun
    | .mediaUploads =>
      { add := fun m => m.IsNew ∧ 1 ≤ m.declaredSizeBytes ∧
          m.declaredSizeBytes ≤ maxUploadSizeBytes }
    | _ => {}
  | me => .nothing
  | sessionList => .nothing
  | productList _ => .nothing
  | productDetail _ _ => .nothing
  | localeSuggestion _ => .nothing
  | staffLogin => .nothing
  | categoryDetail _ _ => .nothing

end Policies

def CatalogCall.policy : CatalogCall → WorldPolicy
  | createProduct _ _ _ => .writing fun
    | .products => { add := fun p => p.status = .draft }
    | .productCategories => { add := fun _ => True }
    | _ => {}
  | createVariant product _ _ _ _ => .writing fun
    | .variants => { add := fun v => v.productId = product.id ∧ v.isArchived = false }
    | _ => {}
  | setVariantAttributes variant _ => .writing fun
    | .variants => { change := fun v v' => v.id = variant.id ∧ v.Rekeys v' }
    | .variantAttributeValues =>
      { add := fun a => a.variantId = variant.id, remove := fun a => a.variantId = variant.id }
    | _ => {}
  | archiveVariant variant => .writing fun
    | .variants => { change := fun v v' => v.id = variant.id ∧ v.Archives v' }
    | _ => {}
  | archiveProduct product => .writing fun
    | .products => { change := fun p p' => p.id = product.id ∧ p.Changes .archived p' }
    | _ => {}
  | publishProduct product => .writing fun
    | .products => { change := fun p p' => p.id = product.id ∧ p.Changes .active p' }
    | .outboxEvents => { add := fun e => e.eventType = productPublishedEvent }
    | _ => {}
  | setTranslation entity locale field value isAiGenerated => .writing fun
    | .translationEntries =>
      { add := fun e => e.slot = ⟨entity, locale, field⟩ ∧ e.value = value ∧
          e.isApproved = !isAiGenerated
        change := fun e e' => e.slot = ⟨entity, locale, field⟩ ∧
          e' = (TranslationEntry.setValue value isAiGenerated).apply e }
    | _ => {}
  | approveTranslation entryId => .writing fun
    | .translationEntries => { change := fun e e' => e.id = entryId ∧ e.Approves e' }
    | _ => {}
  | requestUpload _ _ => .writing fun
    | .mediaUploads => { add := MediaUpload.IsNew }
    | _ => {}
  | validateUpload _ mediaUploadId => .writing fun
    | .mediaUploads => { change := fun m m' => m.id = mediaUploadId ∧ m.Judges m' }
    | _ => {}
  | attachMediaToProduct mediaUpload _ => .writing fun
    | .mediaUploads => { change := fun m m' => m.id = mediaUpload.id ∧ m.Attaches m' }
    | _ => {}

/-- What a piece of work may write, having found these databases. -/
def Work.policy [Libraries] (found : Set World) : Work → WorldPolicy
  | http endpoint request => endpoint.policy request found
  | internal call => call.policy
  | createMasterAdmin email password => .writing fun
    | .staff =>
      { add := fun s =>
          s = ⟨s.id, normalizeEmail email, makePassword password, .masterAdmin, true⟩ }
    | _ => {}
  | seedSupportedCountries uuid => .writing fun
    | .supportedCountries => { add := fun c => ∃ id, c = vietnam uuid id }
    | _ => {}

/-- The surroundings create categories and move them. -/
def surroundingsPolicy : WorldPolicy := .writing fun
  | .categories =>
    { add := fun _ => True, change := fun c c' => ∃ parentId, c' = { c with parentId := parentId } }
  | _ => {}

/-! ## The services keep to their policies -/

section Services

variable {P : WorldPolicy}

/-- The block of a consumer writes its effect, and that the token is consumed. -/
lemma consumeBlock_allows {policy : VerificationToken → WorldPolicy}
    {effect : VerificationToken → Customer → Statement Customer} {token : VerificationToken}
    {customer : Customer}
    (heffect : (effect token customer).Guarantees (consumerPolicy policy token).Allows) :
    (consumeBlock effect token customer).Guarantees (consumerPolicy policy token).Allows := by
  have hconsumes : ∀ t t' : VerificationToken, t.id = token.id ∧ t.Consumes t' →
      (consumerPolicy policy token .verificationTokens).change t t' := fun _ _ h => h
  refine allows_timezoneNow.bind fun now => ?_
  exact (allows_save fun t ht => hconsumes t _ ⟨ht, now, rfl⟩).bind fun _ => heffect

lemma generateToken_allows : generateToken.Guarantees P.Allows :=
  allows_drawRandom.bind fun _ => Tx.guarantees_pure _

lemma createVerificationToken_allows {customerId : Id} {purpose : Purpose}
    {tokenHash : Sha256 RawToken} {newEmail : String} {ttl : Time}
    (h : ∀ t : VerificationToken, t.purpose = purpose ∧ t.consumedAt = none ∧
      t.customerId = customerId → (P .verificationTokens).add t) :
    (createVerificationToken customerId purpose tokenHash newEmail ttl).Guarantees P.Allows :=
  allows_timezoneNow.bind fun _ => allows_create fun _ => h _ ⟨rfl, rfl, rfl⟩

lemma mintCustomerToken_allows (customerId : Id) :
    (mintCustomerToken customerId).Guarantees P.Allows := by
  refine Tx.Guarantees.bind ?_ fun _ => Tx.guarantees_pure _
  exact allows_drawRandom.bind fun _ => allows_timezoneNow.bind fun _ => Tx.guarantees_pure _

/-- Issuing a session adds one for the customer that is not revoked. -/
lemma issueSession_allows {customerId : Id}
    (h : ∀ s : Session, s.customerId = customerId ∧ s.revokedAt = none → (P .sessions).add s) :
    (issueSession customerId).Guarantees P.Allows := by
  have hcreate : ∀ refresh, (createSession customerId refresh).Guarantees P.Allows := fun refresh =>
    allows_timezoneNow.bind fun _ => allows_create fun _ => h _ ⟨rfl, rfl⟩
  refine (Program.guarantees_exec (mintCustomerToken_allows _)).bind fun refresh => ?_
  exact (Program.guarantees_exec (hcreate refresh)).bind fun _ => trivial

lemma verifyEmailNow_allows {customer : Customer}
    (h : ∀ c c' : Customer, c.id = customer.id ∧ c.Verifies c' → (P .customers).change c c') :
    (verifyEmailNow customer).Guarantees P.Allows := by
  refine allows_timezoneNow.bind fun now => ?_
  exact (allows_save fun c hc => h c _ ⟨hc, now, rfl⟩).bind fun _ => Tx.guarantees_pure _

lemma firstActiveCountry_allows : firstActiveCountry.Guarantees P.Allows :=
  (Tx.guarantees_read _).bind fun _ => Tx.guarantees_pure _

lemma findTotpDevice_allows (staffId : Id) : (findTotpDevice staffId).Guarantees P.Allows := by
  refine Tx.Guarantees.handling ?_ _ (Tx.guarantees_pure _)
  exact (Objects.guarantees_get _).bind fun _ => Tx.guarantees_pure _

/-- An audit entry is added to the log. -/
lemma writeAuditLog_allows [PyText] {actorType : ActorType} {actorId : Id}
    {action resourceType : String} {resourceId : Id} {before after : List (String × Json)}
    {reason : String} {ipAddress : Option String} {requestId : Option Id}
    (h : ∀ e : AuditLogEntry, (e.actorType = actorType ∧ e.actorId = actorId ∧ e.action = action) ∧
      e.resourceId = resourceId ∧ e.after = .obj (redact after) → (P .auditLog).add e) :
    (writeAuditLog actorType actorId action resourceType resourceId before after reason ipAddress
      requestId).Guarantees P.Allows :=
  allows_create fun _ => h _ ⟨⟨rfl, rfl, rfl⟩, rfl, rfl⟩

lemma revokeAllSessions_allows {customerId : Id}
    (h : ∀ s s' : Session, s.customerId = customerId ∧ s.Revokes s' → (P .sessions).change s s') :
    (revokeAllSessions customerId).Guarantees P.Allows := by
  refine revokeAllSessions_guarantees (allows_timezoneNow.bind fun now => ?_)
  refine allows_update fun s hs => h s _ ⟨?_, now, rfl⟩
  simp only [unrevokedOf, Bool.and_eq_true, decide_eq_true_eq] at hs
  exact hs.1

end Services

end BePyEco
