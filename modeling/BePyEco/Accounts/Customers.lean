import BePyEco.Accounts.Sessions
import BePyEco.Localization.Countries

/-!
# Customer accounts

Registration, password and Google login, and the flows that a mailed verification token
completes: email verification, password reset and email change.  Last, the locale preference.

The three consumers of a token are one definition, `consumeToken`, applied to the purpose and to
the effect of each.  The token is looked up, and its expiry checked, before the transaction that
marks it consumed.
-/

namespace BePyEco

open Library

variable [PyText]

/-! ## Verification tokens -/

/-- `generate_token()`. -/
def generateToken : Statement (RawToken × Sha256 RawToken) := do
  let rawToken ← drawRandom
  return (rawToken, sha256 rawToken)

/-- `VerificationToken.objects.create(...)`. -/
def createVerificationToken (customerId : Id) (purpose : Purpose) (tokenHash : Sha256 RawToken)
    (newEmail : String) (ttl : Time) : Statement VerificationToken := do
  let now ← timezoneNow
  Objects.create fun id => {
    id := id
    customerId := customerId
    purpose := purpose
    tokenHash := tokenHash
    newEmail := newEmail
    expiresAt := now + ttl }

/-- `EMAIL_VERIFICATION_TOKEN_TTL`. -/
def emailVerificationTokenTtl : Time := hours 24

/-- `PASSWORD_RESET_TOKEN_TTL`. -/
def passwordResetTokenTtl : Time := hours 1

/-- `EMAIL_CHANGE_TOKEN_TTL`. -/
def emailChangeTokenTtl : Time := hours 24

/-- The rows that `customer.id = customer_id` joins. -/
def customerOf (customerId : Id) (c : Customer) : Bool := decide (c.id = customerId)

/-- The filter of a consumer: the digest, the purpose, and not consumed. -/
def consumable (purpose : Purpose) (rawToken : RawToken) (t : VerificationToken) : Bool :=
  decide (t.tokenHash = sha256 rawToken) && decide (t.purpose = purpose) &&
    decide (t.consumedAt = none)

/-- `VerificationToken.objects.select_related("customer").get(...)`. -/
def lookupToken (purpose : Purpose) (rawToken : RawToken) :
    Statement (VerificationToken × Customer) :=
  (do let token ← Objects.get (consumable purpose rawToken)
      let customer ← Objects.get (customerOf token.customerId)
      return (token, customer) : Statement (VerificationToken × Customer)).handling
    .doesNotExist (Tx.raise (.app .invalidVerificationToken))

/-- `if token.expires_at < timezone.now(): raise`. -/
def checkTokenExpiry (token : VerificationToken) : Statement Unit := do
  let now ← timezoneNow
  Tx.require (!decide (token.expiresAt < now)) .invalidVerificationToken

/-- The transaction block of a consumer: mark the token consumed, then its effect. -/
def consumeBlock (effect : VerificationToken → Customer → Statement Customer)
    (token : VerificationToken) (customer : Customer) : Statement Customer := do
  let now ← timezoneNow
  Objects.save token.id (VerificationToken.setConsumedAt now)
  effect token customer

/-- A consumer of verification tokens. -/
def consumeToken (purpose : Purpose)
    (effect : VerificationToken → Customer → Statement Customer) (rawToken : RawToken) :
    Service Customer := do
  let (token, customer) ← lookupToken purpose rawToken
  checkTokenExpiry token
  consumeBlock effect token customer

/-! ## Registration and email verification -/

/-- The transaction block of `register_customer`. -/
def registerBlock (email password : String) : Statement (Customer × RawToken) := do
  let customer ← Objects.create fun id => ({ id := id, email := normalizeEmail email } : Customer)
  let _ ← Objects.create fun id => ({
    id := id
    customerId := customer.id
    provider := .password
    passwordHash := some (makePassword password) } : LoginMethod)
  let (rawToken, tokenHash) ← generateToken
  let _ ← createVerificationToken customer.id .emailVerification tokenHash ""
    emailVerificationTokenTtl
  return (customer, rawToken)

def registerCustomer (email password : String) : Service (Customer × RawToken) := do
  let (customer, rawToken) ← registerBlock email password
  sendMail customer.email rawToken
  return (customer, rawToken)

/-- `customer.email_verified_at = timezone.now()` and its save. -/
def verifyEmailNow (customer : Customer) : Statement Customer := do
  let now ← timezoneNow
  Objects.save customer.id (Customer.setEmailVerifiedAt now)
  return { customer with emailVerifiedAt := some now }

/-- The effect of `verify_email`. -/
def markEmailVerified (_ : VerificationToken) (customer : Customer) : Statement Customer :=
  verifyEmailNow customer

def verifyEmail (rawToken : RawToken) : Service Customer :=
  consumeToken .emailVerification markEmailVerified rawToken

/-! ## Login -/

/-- `Customer.objects.get(email=..., is_active=True)`. -/
def activeByEmail (email : String) (c : Customer) : Bool :=
  decide (c.email = email) && c.isActive

/-- `customer.login_methods.get(provider=...)`. -/
def loginMethodOf (customerId : Id) (provider : Provider) (m : LoginMethod) : Bool :=
  decide (m.customerId = customerId) && decide (m.provider = provider)

def getActiveCustomer (email : String) : Statement Customer :=
  (Objects.get (activeByEmail email)).handling .doesNotExist
    (Tx.raise (.app .invalidCredentials))

def getPasswordMethod (customerId : Id) : Statement LoginMethod :=
  (Objects.get (loginMethodOf customerId .password)).handling .doesNotExist
    (Tx.raise (.app .invalidCredentials))

def loginCustomer (email password : String) :
    Service (Customer × AccessToken × RefreshToken) := do
  let customer ← getActiveCustomer (normalizeEmail email)
  let loginMethod ← getPasswordMethod customer.id
  Program.require (checkPassword password loginMethod.passwordHash) .invalidCredentials
  let tokens ← issueSession customer.id
  return (customer, tokens)

/-- What the request to Google's `tokeninfo` endpoint came to. -/
inductive TokeninfoReply
  /-- `httpx.HTTPError`. -/
  | unreachable
  /-- A response; the payload of a 200 has string values only. -/
  | response (status : ℕ) (payload : List (String × String))
  deriving DecidableEq, Repr

structure GoogleProfile where
  subjectId : String
  email : String
  emailVerified : Bool
  deriving DecidableEq, Repr

/-- `payload[key]`. -/
def payloadItem (payload : List (String × String)) (key : String) : Except ApiError String :=
  match payload.lookup key with
  | some value => .ok value
  | none => .error (.keyError key)

/-- `HttpGoogleOAuthClient.verify_id_token`; a `GoogleOAuthError` is already the
`InvalidGoogleTokenError` that the service raises for it. -/
def verifyIdToken (clientId : String) : TokeninfoReply → Except ApiError GoogleProfile
  | .unreachable => .error .invalidGoogleToken
  | .response status payload =>
    if status ≠ 200 then .error .invalidGoogleToken
    else if payload.lookup "aud" ≠ some clientId then .error .invalidGoogleToken
    else do
      let subjectId ← payloadItem payload "sub"
      let email ← payloadItem payload "email"
      return {
        subjectId := subjectId
        email := normalizeEmail email
        emailVerified := decide (payload.lookup "email_verified" = some "true") }

/-- The login method of a Google subject. -/
def googleMethod (subjectId : String) (m : LoginMethod) : Bool :=
  decide (m.provider = .google) && decide (m.providerSubjectId = subjectId)

def byEmail (email : String) (c : Customer) : Bool := decide (c.email = email)

/-- `Customer.objects.get_or_create(email=..., defaults=...)`. -/
def getOrCreateCustomer (email : String) (emailVerified : Bool) :
    Statement (Customer × Bool) :=
  (do let customer ← Objects.get (byEmail email)
      return (customer, false) : Statement (Customer × Bool)).handling .doesNotExist
    (do let now ← timezoneNow
        let customer ← Objects.create fun id => ({
          id := id
          email := email
          emailVerifiedAt := if emailVerified then some now else none } : Customer)
        return (customer, true))

/-- Google has verified the address of a customer who was there and had not. -/
def verifyLinkedEmail (customer : Customer) (created emailVerified : Bool) :
    Statement Customer :=
  if !created && emailVerified && !customer.isEmailVerified then verifyEmailNow customer
  else pure customer

/-- `LoginMethod.objects.create(...)` of `login_with_google`. -/
def createGoogleMethod (customerId : Id) (subjectId : String) : Statement LoginMethod :=
  Objects.create fun id => {
    id := id
    customerId := customerId
    provider := .google
    providerSubjectId := subjectId }

/-- The first login with a Google identity: find or create the customer, and link. -/
def linkGoogle (profile : GoogleProfile) : Statement Customer := do
  let (customer, created) ← getOrCreateCustomer profile.email profile.emailVerified
  -- an address that Google has not verified is never linked to an account that exists
  Tx.require (created || profile.emailVerified) .googleEmailNotVerified
  let customer ← verifyLinkedEmail customer created profile.emailVerified
  let _ ← createGoogleMethod customer.id profile.subjectId
  return customer

/-- The customer a known Google identity belongs to. -/
def getGoogleCustomer (subjectId : String) : Statement Customer := do
  let loginMethod ← Objects.get (googleMethod subjectId)
  Objects.get (customerOf loginMethod.customerId)

/-- The transaction block of `login_with_google`. -/
def googleBlock (profile : GoogleProfile) : Statement Customer :=
  (getGoogleCustomer profile.subjectId).handling .doesNotExist (linkGoogle profile)

def loginWithGoogle (clientId : String) (reply : TokeninfoReply) :
    Service (Customer × AccessToken × RefreshToken) := do
  let profile ← Program.ofExcept (verifyIdToken clientId reply)
  let customer ← googleBlock profile
  let tokens ← issueSession customer.id
  return (customer, tokens)

/-! ## Password reset -/

/-- `Customer.objects.get(email=..., is_active=True)`, `none` for a customer there is not. -/
def findActiveCustomer (email : String) : Statement (Option Customer) :=
  (do let customer ← Objects.get (activeByEmail email)
      return some customer : Statement (Option Customer)).handling .doesNotExist (pure none)

/-- Generate a token and store its digest. -/
def issueVerificationToken (customerId : Id) (purpose : Purpose) (newEmail : String)
    (ttl : Time) : Service RawToken := do
  let (rawToken, tokenHash) ← generateToken
  let _ ← createVerificationToken customerId purpose tokenHash newEmail ttl
  return rawToken

def requestPasswordReset (email : String) : Service Unit := do
  match ← findActiveCustomer (normalizeEmail email) with
  | none => return ()
  | some customer =>
    let rawToken ← issueVerificationToken customer.id .passwordReset "" passwordResetTokenTtl
    sendMail customer.email rawToken

/-- `LoginMethod.objects.update_or_create(...)` of the password method. -/
def setPassword (customerId : Id) (newPassword : String) : Statement Unit :=
  (do let loginMethod ← Objects.get (loginMethodOf customerId .password)
      Objects.save loginMethod.id
        (LoginMethod.setPasswordHash (makePassword newPassword)) : Statement Unit).handling
    .doesNotExist
    (do let _ ← Objects.create fun id => ({
          id := id
          customerId := customerId
          provider := .password
          passwordHash := some (makePassword newPassword) } : LoginMethod)
        return ())

/-- The effect of `confirm_password_reset`. -/
def resetPassword (newPassword : String) (_ : VerificationToken) (customer : Customer) :
    Statement Customer := do
  setPassword customer.id newPassword
  return customer

def confirmPasswordReset (rawToken : RawToken) (newPassword : String) : Service Customer :=
  consumeToken .passwordReset (resetPassword newPassword) rawToken

/-! ## Email change -/

/-- `Customer.objects.filter(email=...).exclude(id=...).exists()`. -/
def emailTakenByOther (email : String) (customerId : Id) : Statement Bool :=
  Objects.exists? fun c : Customer => decide (c.email = email) && !decide (c.id = customerId)

def requestEmailChange (customer : Customer) (newEmail : String) : Service Unit := do
  let normalizedEmail := normalizeEmail newEmail
  let taken ← emailTakenByOther normalizedEmail customer.id
  Program.require (!taken) .emailAlreadyTaken
  let rawToken ← issueVerificationToken customer.id .emailChange normalizedEmail
    emailChangeTokenTtl
  sendMail normalizedEmail rawToken

/-- The columns `email` and `email_verified_at`. -/
def setEmail (email : String) (t : Time) (c : Customer) : Customer :=
  { c with email := email, emailVerifiedAt := some t }

/-- The effect of `confirm_email_change`. -/
def changeEmail (token : VerificationToken) (customer : Customer) : Statement Customer := do
  let now ← timezoneNow
  (Objects.saveChecked customer.id (setEmail token.newEmail now) fun _ => rfl).handling
    .integrityError (Tx.raise (.app .emailAlreadyTaken))
  return setEmail token.newEmail now customer

def confirmEmailChange (rawToken : RawToken) : Service Customer :=
  consumeToken .emailChange changeEmail rawToken

/-! ## Locale preference -/

/-- The columns `preferred_locale` and `preferred_currency`. -/
def setPreference (locale currency : String) (c : Customer) : Customer :=
  { c with preferredLocale := locale, preferredCurrency := currency }

/-- `customer.save(update_fields=["preferred_locale", "preferred_currency"])`. -/
def savePreference (customerId : Id) (locale currency : String) : Statement Unit :=
  Objects.saveChecked customerId (setPreference locale currency) fun _ => rfl

def updateLocalePreference (customer : Customer) (locale currency : String) :
    Service Customer := do
  let _ ← validateLocaleAndCurrency locale currency
  let customer := setPreference locale currency customer
  savePreference customer.id locale currency
  return customer

/-! ## Guarantees

Each service moves the world as the statements do that it is made of. -/

section Guarantees

variable {R : World → World → Prop} [Std.Refl R] [IsTrans World R]

omit [PyText]

/-- A consumer moves the world as the save of its token and its effect do. -/
lemma consumeToken_guarantees {purpose : Purpose}
    {effect : VerificationToken → Customer → Statement Customer} {rawToken : RawToken}
    (htokens : ∀ w (t : Table VerificationToken), R w (Stored.put t w))
    (heffect : ∀ token customer, (effect token customer).Guarantees R) :
    (consumeToken purpose effect rawToken).Guarantees R := by
  have hlookup : (lookupToken purpose rawToken).Guarantees R := by
    refine Tx.Guarantees.handling ?_ _ (Tx.guarantees_raise _)
    refine (Objects.guarantees_get _).bind fun _ => ?_
    exact (Objects.guarantees_get _).bind fun _ => Tx.guarantees_pure _
  have hcheck : ∀ token, (checkTokenExpiry token).Guarantees R := fun token =>
    (Tx.guarantees_read _).bind fun _ => Tx.guarantees_require _ _
  have hblock : ∀ token customer, (consumeBlock effect token customer).Guarantees R := by
    intro token customer
    refine (Tx.guarantees_read _).bind fun _ => ?_
    exact (Objects.guarantees_save fun w => htokens w _).bind fun _ => heffect token customer
  refine (Program.guarantees_exec hlookup).bind fun r => ?_
  refine (Program.guarantees_exec (hcheck _)).bind fun _ => ?_
  exact Program.guarantees_exec (hblock _ _)

lemma setPassword_guarantees {customerId : Id} {newPassword : String}
    (hmethods : ∀ w (t : Table LoginMethod), R w (Stored.put t w)) :
    (setPassword customerId newPassword).Guarantees R := by
  refine Tx.Guarantees.handling ?_ _ ?_
  · exact (Objects.guarantees_get _).bind fun _ => Objects.guarantees_save fun w => hmethods w _
  · exact (Objects.guarantees_create hmethods).bind fun _ => Tx.guarantees_pure _

lemma createVerificationToken_guarantees {customerId : Id} {purpose : Purpose}
    {tokenHash : Sha256 RawToken} {newEmail : String} {ttl : Time}
    (htokens : ∀ w (t : Table VerificationToken), R w (Stored.put t w)) :
    (createVerificationToken customerId purpose tokenHash newEmail ttl).Guarantees R :=
  (Tx.guarantees_read _).bind fun _ => Objects.guarantees_create htokens

lemma issueVerificationToken_guarantees {customerId : Id} {purpose : Purpose} {newEmail : String}
    {ttl : Time} (htokens : ∀ w (t : Table VerificationToken), R w (Stored.put t w))
    (hdraw : drawRandom.Guarantees R) :
    (issueVerificationToken customerId purpose newEmail ttl).Guarantees R := by
  have hgenerate : generateToken.Guarantees R := hdraw.bind fun _ => Tx.guarantees_pure _
  refine (Program.guarantees_exec hgenerate).bind fun _ => ?_
  exact (Program.guarantees_exec (createVerificationToken_guarantees htokens)).bind fun _ => trivial

end Guarantees

section Guarantees

variable {R : World → World → Prop} [Std.Refl R] [IsTrans World R]

lemma registerCustomer_guarantees {email password : String}
    (hcreate : ∀ email, (Objects.create fun id => ({ id := id, email := email } : Customer) :
      Statement Customer).Guarantees R)
    (hmethods : ∀ w (t : Table LoginMethod), R w (Stored.put t w))
    (htokens : ∀ w (t : Table VerificationToken), R w (Stored.put t w))
    (hdraw : drawRandom.Guarantees R)
    (hmail : ∀ address token, (sendMail address token).Guarantees R) :
    (registerCustomer email password).Guarantees R := by
  refine (Program.guarantees_exec ?_).bind fun _ => ?_
  · refine (hcreate _).bind fun _ => ?_
    refine (Objects.guarantees_create hmethods).bind fun _ => ?_
    refine Tx.Guarantees.bind (hdraw.bind fun _ => Tx.guarantees_pure _) fun _ => ?_
    exact (createVerificationToken_guarantees htokens).bind fun _ => Tx.guarantees_pure _
  · exact (Program.guarantees_exec (hmail _ _)).bind fun _ => trivial

lemma requestPasswordReset_guarantees {email : String}
    (htokens : ∀ w (t : Table VerificationToken), R w (Stored.put t w))
    (hdraw : drawRandom.Guarantees R)
    (hmail : ∀ address token, (sendMail address token).Guarantees R) :
    (requestPasswordReset email).Guarantees R := by
  have hfind : (findActiveCustomer (normalizeEmail email)).Guarantees R := by
    refine Tx.Guarantees.handling ?_ _ (Tx.guarantees_pure _)
    exact (Objects.guarantees_get _).bind fun _ => Tx.guarantees_pure _
  refine (Program.guarantees_exec hfind).bind fun found => ?_
  cases found with
  | none => trivial
  | some customer =>
      refine (issueVerificationToken_guarantees htokens hdraw).bind fun _ => ?_
      exact Program.guarantees_exec (hmail _ _)

lemma requestEmailChange_guarantees {customer : Customer} {newEmail : String}
    (htokens : ∀ w (t : Table VerificationToken), R w (Stored.put t w))
    (hdraw : drawRandom.Guarantees R)
    (hmail : ∀ address token, (sendMail address token).Guarantees R) :
    (requestEmailChange customer newEmail).Guarantees R := by
  refine (Program.guarantees_exec (Tx.guarantees_read _)).bind fun _ => ?_
  refine (Program.guarantees_require _ _).bind fun _ => ?_
  refine (issueVerificationToken_guarantees htokens hdraw).bind fun _ => ?_
  exact Program.guarantees_exec (hmail _ _)

end Guarantees

end BePyEco
