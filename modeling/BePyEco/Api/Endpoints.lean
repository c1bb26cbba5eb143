import BePyEco.Api.CatalogViews
import BePyEco.Catalog.Calls
import BePyEco.Commands

/-!
# The application

All the endpoints of the URL configuration behind their permission classes, and with them what else
works on the database: the services that no endpoint reaches yet, the task that validates uploads,
and the management commands.

`apiPool` is any number of such pieces of work on one database, and `ApiRun` their interleavings,
statement by statement.  A transaction block is one step, that of `login_with_google` and that of
`set_variant_attributes` too.  What the surroundings do meanwhile is to let time pass and to move
categories about.
-/

namespace BePyEco

open Library

/-- The libraries that the application calls. -/
class Libraries extends PyText, SerializerFields, IntegerFields, TokenTexts, UriTexts, Totp,
  PresignedPosts, ImageLibraries

/-! ## Endpoints -/

/-- The views, with what the URL, the query and the headers other than `Authorization` and
`Idempotency-Key` say. -/
inductive Endpoint
  -- api/v1/storefront/accounts/
  | register
  | verifyEmail
  | login
  | googleLogin (clientId : String) (tokeninfo : String → TokeninfoReply)
  | refreshToken
  | me
  | updateLocalePreference
  | sessionList
  | sessionRevoke (sessionId : Id)
  | sessionRevokeAll
  | requestPasswordReset
  | confirmPasswordReset
  | requestEmailChange
  | confirmEmailChange
  -- api/v1/storefront/catalog/ and api/v1/storefront/localization/
  | productList (acceptLanguage : Option String)
  | productDetail (acceptLanguage : Option String) (productId : Id)
  | localeSuggestion (acceptLanguage : Option String)
  -- api/v1/admin/
  | staffLogin
  | createStaff
  | mfaSetup
  | mfaConfirm
  | resetStaffMfa (staffId : Id)
  | disableCustomer (customerId : Id)
  -- api/v1/admin/catalog/ and api/v1/admin/media/
  | categoryDetail (categoryId : Id) (locale : Option String)
  | productPublish (productId : Id)
  | requestUpload

section Application

variable [Libraries]

/-- The view of an endpoint, with its authentication and permission classes. -/
def Endpoint.view (request : HttpRequest) : Endpoint → Service Answer
  | register => answering (RegisterView.post request.data request.context)
  | verifyEmail => answering (VerifyEmailView.post request)
  | login => answering (LoginView.post request)
  | googleLogin clientId tokeninfo => answering (GoogleLoginView.post clientId tokeninfo request)
  | refreshToken => answering (RefreshTokenView.post request)
  | me => ifAuthenticated request fun user => answering (MeView.get request user)
  | updateLocalePreference =>
    ifAuthenticated request fun user => answering (UpdateLocalePreferenceView.patch request user)
  | sessionList => ifAuthenticated request fun user => answering (SessionListView.get request user)
  | sessionRevoke sessionId =>
    ifAuthenticated request fun user => answering (SessionRevokeView.post sessionId request user)
  | sessionRevokeAll =>
    ifAuthenticated request fun user => answering (SessionRevokeAllView.post user)
  | requestPasswordReset => answering (RequestPasswordResetView.post request)
  | confirmPasswordReset => answering (ConfirmPasswordResetView.post request)
  | requestEmailChange =>
    ifAuthenticated request fun user => answering (RequestEmailChangeView.post request user)
  | confirmEmailChange => answering (ConfirmEmailChangeView.post request)
  | productList acceptLanguage => ifAnyone request (ProductListView.get acceptLanguage request)
  | productDetail acceptLanguage productId =>
    ifAnyone request (ProductDetailView.get acceptLanguage productId request)
  | localeSuggestion acceptLanguage => answering (LocaleSuggestionView.get acceptLanguage request)
  | staffLogin => answering (StaffLoginView.post request)
  | createStaff =>
    ifStaff request fun staff => answering (CreateStaffView.post (request.ofStaff staff))
  | mfaSetup => ifStaff request fun staff => answering (MfaSetupView.post request staff)
  | mfaConfirm => ifStaff request fun staff => answering (MfaConfirmView.post request staff)
  | resetStaffMfa staffId =>
    ifStaff request fun staff => answering (ResetStaffMfaView.post (request.ofStaff staff) staffId)
  | disableCustomer customerId => ifStaff request fun staff =>
    answering (DisableCustomerView.post (request.ofStaff staff) customerId)
  | categoryDetail categoryId locale =>
    ifStaff request fun _ => CategoryDetailView.get categoryId locale request
  | productPublish productId =>
    ifStaff request fun _ => answering (ProductPublishView.post productId request)
  | requestUpload => ifStaff request fun _ => answering (RequestUploadView.post request)

/-! ## Work -/

/-- A piece of work on the database. -/
inductive Work
  | http (endpoint : Endpoint) (request : HttpRequest)
  | internal (call : CatalogCall)
  | createMasterAdmin (email password : String)
  | seedSupportedCountries (uuid : ℕ)

/-- What a piece of work runs; only a request is answered. -/
def Work.program : Work → Service (Option Answer)
  | http endpoint request => do
    let answer ← endpoint.view request
    return some answer
  | internal call => do
    call.service
    return none
  | createMasterAdmin email password => do
    let _ ← BePyEco.createMasterAdmin email password
    return none
  | seedSupportedCountries uuid => do
    let _ ← BePyEco.seedSupportedCountries uuid
    return none

/-- What happens to the database from outside: time passes, or a call moves categories. -/
inductive Surroundings (w w' : World) : Prop
  | time (h : TimePasses w w')
  | categories (c c' : CategoryPc) (h : c.next w = some (c', w'))

/-- No piece of work has executed a statement yet. -/
def apiPool {ι : Type} (w : World) (work : ι → Work) : Pool ι (Service (Option Answer)) World where
  store := w
  pc i := (work i).program

end Application

section Runs

variable {ι : Type} [DecidableEq ι]

/-- The pools that the interleavings of the work in `P₀` reach. -/
abbrev ApiRun (P₀ P : Pool ι (Service (Option Answer)) World) : Prop :=
  (programSystem Surroundings).Run (fun _ _ => True) P₀ P

/-- An interleaving from `P₀` to `P`, with the databases that it visits. -/
abbrev ApiVisits (P₀ : Pool ι (Service (Option Answer)) World) (visited : Set World)
    (P : Pool ι (Service (Option Answer)) World) : Prop :=
  (programSystem Surroundings).Visits P₀ visited P

end Runs

/-! ### An administrator and some errands -/

section Example

/-- Libraries for plain texts.  The code of every key is 0, and every object is a PNG image. -/
@[reducible] def plainLibraries : Libraries :=
  { plainText, plainFields, localPosts with
    integerField
      | some (.int n) => some n
      | _ => none
    access := fun _ => "access"
    refresh := fun _ => "refresh"
    readRefresh := fun _ => .malformed
    readRaw := fun text => text.length
    provisioningUri := ProvisioningUri.email
    int := fun text => if text = "0" then some 0 else none
    totp := fun _ _ _ => 0
    Image := Unit
    guess := fun _ => some "image/png"
    openImage := fun _ => .ok ()
    verify := fun _ => .ok ()
    convert := fun _ _ => .ok ()
    save := fun _ _ => .ok []
    thumbnail := fun _ _ => .ok () }

attribute [local instance] plainLibraries

/-- An administrator with a device, and two customers. -/
def openingWorld : World :=
  ((do
    let _ ← enrollAdministrator
    let _ ← registerCustomer "a@example.com" "teapot-on-fire"
    registerCustomer "b@example.com" "teapot-on-fire").run {}).2

/-- A request with the access token of the second staff member. -/
def byRoot (data : Json) : HttpRequest where
  authorization := .signed { userId := 1, actorType := some .staff, exp := 900 }
  idempotencyKey := some "key"
  data := data
  context := { remoteAddr := none, id := 0 }

def byAnyone (data : Json) : HttpRequest where
  data := data
  context := { remoteAddr := none, id := 1 }

/-- The pieces of work. -/
inductive Errand
  | root | device | proof | manager | newcomer | fraud
  deriving DecidableEq

/-- Another administrator is made, enrols a device, creates a store manager and disables the first
customer, while a third customer registers. -/
def errands : Errand → Work
  | .root => .createMasterAdmin "root@example.com" "teapot-on-fire"
  | .device => .http .mfaSetup (byRoot .null)
  | .proof => .http .mfaConfirm (byRoot (.obj [("token", .str "0")]))
  | .manager => .http .createStaff (byRoot (.obj [("email", .str "manager@example.com"),
      ("password", .str "teapot-on-fire"), ("role", .str "store_manager")]))
  | .newcomer => .http .register (byAnyone (.obj [("email", .str "c@example.com"),
      ("password", .str "teapot-on-fire")]))
  | .fraud => .http (.disableCustomer 0) (byRoot (.obj [("reason", .str "fraud")]))

/-- The new administrator has a confirmed device, and the customer is about to register. -/
def rootEnrolled : Pool Errand (Service (Option Answer)) World :=
  (programSystem Surroundings).replay (fun _ _ => true) (apiPool openingWorld errands)
    [.root, .root, .device, .device, .device, .device, .proof, .proof, .newcomer, .proof, .proof,
      .proof] (by decide)

/-- All the work is done. -/
def errandsDone : Pool Errand (Service (Option Answer)) World :=
  (programSystem Surroundings).replay (fun _ _ => true) rootEnrolled
    [.manager, .manager, .manager, .manager, .fraud, .newcomer, .fraud, .manager, .newcomer,
      .manager, .manager, .fraud, .fraud, .fraud, .fraud, .fraud, .fraud, .fraud] (by decide)

lemma rootEnrolled_run : ApiRun (apiPool openingWorld errands) rootEnrolled :=
  System.run_replay (fun _ _ _ => trivial) _

lemma errandsDone_run : ApiRun rootEnrolled errandsDone :=
  System.run_replay (fun _ _ _ => trivial) _

end Example

end BePyEco
