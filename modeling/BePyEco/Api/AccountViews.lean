import BePyEco.Accounts.MfaEnrolment
import BePyEco.Accounts.RegisterView
import BePyEco.Api.Authentication

/-!
# Views of the accounts API

The remaining views of the storefront and of the admin part, behind their serializers.  The views of
a signed-in customer only ask for an authenticated user: a staff member passes, and the handler then
fails on what a `Staff` instance does not have.

How tokens are written as text and read back is the business of libraries, and a parameter.
-/

namespace BePyEco

open Library

/-- The texts of the tokens.  `readRefresh` and `readRaw` are what a text stands for that a client
presents. -/
class TokenTexts where
  access : AccessToken → String
  refresh : RefreshToken → String
  readRefresh : String → RawRefreshToken
  readRaw : String → RawToken

/-- The text of a provisioning URI. -/
class UriTexts where
  provisioningUri : ProvisioningUri → String

/-! ## Serializers -/

section Serializers

variable [SerializerFields]

/-- A serializer whose only field is `CharField()`. -/
def charSerializer (field : String) (data : Json) : Except ApiError String := do
  let _ ← bodyFields data
  match SerializerFields.charField true (data.field field) with
  | some value => .ok value
  | none => .error (.validationError [field])

/-- `VerifyEmailSerializer`. -/
def verifyEmailSerializer (data : Json) : Except ApiError String := charSerializer "token" data

/-- `RefreshTokenSerializer`. -/
def refreshTokenSerializer (data : Json) : Except ApiError String := charSerializer "refresh" data

/-- `GoogleLoginSerializer`. -/
def googleLoginSerializer (data : Json) : Except ApiError String := charSerializer "id_token" data

/-- `ConfirmEmailChangeSerializer`. -/
def confirmEmailChangeSerializer (data : Json) : Except ApiError String :=
  charSerializer "token" data

/-- `ConfirmMfaSerializer`. -/
def confirmMfaSerializer (data : Json) : Except ApiError String := charSerializer "token" data

/-- A serializer whose only field is `EmailField()`. -/
def emailSerializer (field : String) (data : Json) : Except ApiError String := do
  let _ ← bodyFields data
  match SerializerFields.emailField (data.field field) with
  | some value => .ok value
  | none => .error (.validationError [field])

/-- `RequestPasswordResetSerializer`. -/
def requestPasswordResetSerializer (data : Json) : Except ApiError String :=
  emailSerializer "email" data

/-- `RequestEmailChangeSerializer`. -/
def requestEmailChangeSerializer (data : Json) : Except ApiError String :=
  emailSerializer "new_email" data

/-- The values of a serializer with two fields, when none was refused. -/
def bothFields (first second : String) (value value' : Option String) :
    Except ApiError (String × String) :=
  match value, value' with
  | some value, some value' => .ok (value, value')
  | _, _ => .error (.validationError (refused [(first, value.isSome), (second, value'.isSome)]))

/-- `LoginSerializer`, and `StaffLoginSerializer`, which has the same fields. -/
def loginSerializer (data : Json) : Except ApiError (String × String) := do
  let _ ← bodyFields data
  bothFields "email" "password" (SerializerFields.emailField (data.field "email"))
    (SerializerFields.charField false (data.field "password"))

/-- `ConfirmPasswordResetSerializer`. -/
def confirmPasswordResetSerializer (data : Json) : Except ApiError (String × String) := do
  let _ ← bodyFields data
  bothFields "token" "new_password" (SerializerFields.charField true (data.field "token"))
    ((SerializerFields.charField false (data.field "new_password")).filter
      SerializerFields.validatePassword)

/-- `UpdateLocalePreferenceSerializer`. -/
def updateLocalePreferenceSerializer (data : Json) : Except ApiError (String × String) := do
  let _ ← bodyFields data
  bothFields "locale" "currency" (SerializerFields.charField true (data.field "locale"))
    (SerializerFields.charField true (data.field "currency"))

end Serializers

/-! ## Responses -/

/-- A 200 with data. -/
def okResponse (data : Json) (context : RequestContext) : Response where
  status := 200
  data := some (successEnvelope data context)

/-- `_customer_representation(customer)` in a 200. -/
def customerResponse (customer : Customer) (context : RequestContext) : Response :=
  okResponse (customerRepresentation customer) context

/-- `{"access": access, "refresh": refresh}` in a 200. -/
def tokenResponse [TokenTexts] (access : AccessToken) (refresh : RefreshToken)
    (context : RequestContext) : Response :=
  okResponse (.obj [("access", .str (TokenTexts.access access)),
    ("refresh", .str (TokenTexts.refresh refresh))]) context

/-! ## Views without authentication -/

section Anonymous

variable [SerializerFields] [TokenTexts] [PyText]

/-- `VerifyEmailView.post`. -/
def VerifyEmailView.post (request : HttpRequest) : Service Response := do
  let token ← Program.ofExcept (verifyEmailSerializer request.data)
  let customer ← verifyEmail (TokenTexts.readRaw token)
  return customerResponse customer request.context

/-- `LoginView.post`. -/
def LoginView.post (request : HttpRequest) : Service Response := do
  let (email, password) ← Program.ofExcept (loginSerializer request.data)
  let (_, access, refresh) ← loginCustomer email password
  return tokenResponse access refresh request.context

/-- `GoogleLoginView.post`; `tokeninfo` is Google's endpoint. -/
def GoogleLoginView.post (clientId : String) (tokeninfo : String → TokeninfoReply)
    (request : HttpRequest) : Service Response := do
  let idToken ← Program.ofExcept (googleLoginSerializer request.data)
  let (_, access, refresh) ← loginWithGoogle clientId (tokeninfo idToken)
  return tokenResponse access refresh request.context

/-- `RefreshTokenView.post`. -/
def RefreshTokenView.post (request : HttpRequest) : Service Response := do
  let refresh ← Program.ofExcept (refreshTokenSerializer request.data)
  let (access, refresh) ← rotateRefreshToken (TokenTexts.readRefresh refresh)
  return tokenResponse access refresh request.context

/-- `RequestPasswordResetView.post`. -/
def RequestPasswordResetView.post (request : HttpRequest) : Service Response := do
  let email ← Program.ofExcept (requestPasswordResetSerializer request.data)
  requestPasswordReset email
  return { status := 202 }

/-- `ConfirmPasswordResetView.post`. -/
def ConfirmPasswordResetView.post (request : HttpRequest) : Service Response := do
  let (token, newPassword) ← Program.ofExcept (confirmPasswordResetSerializer request.data)
  let customer ← confirmPasswordReset (TokenTexts.readRaw token) newPassword
  return customerResponse customer request.context

/-- `ConfirmEmailChangeView.post`. -/
def ConfirmEmailChangeView.post (request : HttpRequest) : Service Response := do
  let token ← Program.ofExcept (confirmEmailChangeSerializer request.data)
  let customer ← confirmEmailChange (TokenTexts.readRaw token)
  return customerResponse customer request.context

/-- `StaffLoginView.post`. -/
def StaffLoginView.post (request : HttpRequest) : Service Response := do
  let (email, password) ← Program.ofExcept (loginSerializer request.data)
  let (_, access, refresh) ← loginStaff email password
  return tokenResponse access refresh request.context

end Anonymous

/-! ## Views of a signed-in customer -/

/-- `MeView.get`; a `Staff` has no `is_email_verified`. -/
def MeView.get (request : HttpRequest) : Actor → Service Response
  | .customer customer => return customerResponse customer request.context
  | .staff _ => Program.raise (.libraryError "AttributeError")

/-- `UpdateLocalePreferenceView.patch`; the columns are not those of `Staff`, which the save
notices. -/
def UpdateLocalePreferenceView.patch [SerializerFields] (request : HttpRequest) :
    Actor → Service Response
  | .customer customer => do
    let (locale, currency) ← Program.ofExcept (updateLocalePreferenceSerializer request.data)
    let customer ← updateLocalePreference customer locale currency
    return customerResponse customer request.context
  | .staff _ => do
    let (locale, currency) ← Program.ofExcept (updateLocalePreferenceSerializer request.data)
    let _ ← validateLocaleAndCurrency locale currency
    Program.raise (.libraryError "ValueError")

/-- `Session.objects.filter(customer=customer, revoked_at__isnull=True).order_by("-created_at")`.
The newest session is the one that was inserted last. -/
def unrevokedSessions (customerId : Id) : Statement (List Session) :=
  Tx.read fun w => (w.db.sessions.rows.filter (unrevokedOf customerId)).reverse

/-- `s.is_active` looks at the clock. -/
def activeSessions (sessions : List Session) : Statement (List Session) := do
  let now ← timezoneNow
  return sessions.filter (Session.isActive now)

/-- One item of `SessionListView`; `created_at` is left out. -/
def sessionRepresentation (session : Session) : Json :=
  .obj [("id", .str (toString session.id)), ("expires_at", .int session.expiresAt)]

/-- `SessionListView.get`; a query for the sessions of a `Staff` is refused. -/
def SessionListView.get (request : HttpRequest) : Actor → Service Response
  | .customer customer => do
    let sessions ← unrevokedSessions customer.id
    let sessions ← activeSessions sessions
    return okResponse (.arr (sessions.map sessionRepresentation)) request.context
  | .staff _ => Program.raise (.libraryError "ValueError")

section SignedIn

variable [SerializerFields] [PyText]

omit [SerializerFields] in
/-- `SessionRevokeView.post`. -/
def SessionRevokeView.post (sessionId : Id) (request : HttpRequest) : Actor → Service Response
  | .customer customer => do
    revokeSession customer sessionId (some request.context)
    return { status := 204 }
  | .staff _ => Program.raise (.libraryError "ValueError")

omit [SerializerFields] [PyText] in
/-- `SessionRevokeAllView.post`. -/
def SessionRevokeAllView.post : Actor → Service Response
  | .customer customer => do
    revokeAllSessions customer.id
    return { status := 204 }
  | .staff _ => Program.raise (.libraryError "ValueError")

/-- `RequestEmailChangeView.post`; the token of a `Staff` is generated but cannot be stored. -/
def RequestEmailChangeView.post (request : HttpRequest) : Actor → Service Response
  | .customer customer => do
    let newEmail ← Program.ofExcept (requestEmailChangeSerializer request.data)
    requestEmailChange customer newEmail
    return { status := 202 }
  | .staff staff => do
    let newEmail ← Program.ofExcept (requestEmailChangeSerializer request.data)
    let taken ← emailTakenByOther (normalizeEmail newEmail) staff.id
    Program.require (!taken) .emailAlreadyTaken
    let _ ← generateToken
    Program.raise (.libraryError "ValueError")

end SignedIn

/-! ## Views of staff -/

/-- The request as the sensitive endpoints see it. -/
def HttpRequest.ofStaff (request : HttpRequest) (user : Staff) : Request where
  user := user
  idempotencyKey := request.idempotencyKey
  data := request.data
  context := request.context

/-- `MfaSetupView.post`. -/
def MfaSetupView.post [UriTexts] (request : HttpRequest) (user : Staff) : Service Response := do
  let uri ← mfaSetupView (.staff user)
  return okResponse (.obj [("provisioning_uri", .str (UriTexts.provisioningUri uri))])
    request.context

/-- `MfaConfirmView.post`. -/
def MfaConfirmView.post [SerializerFields] [Totp] (request : HttpRequest) (user : Staff) :
    Service Response := do
  let token ← Program.ofExcept (confirmMfaSerializer request.data)
  mfaConfirmView (.staff user) token
  return { status := 204 }

end BePyEco
