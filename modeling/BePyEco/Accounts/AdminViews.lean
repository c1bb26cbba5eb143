import BePyEco.Accounts.Staff
import BePyEco.Common.Idempotency

/-!
# Sensitive admin endpoints

`CreateStaffView`, `DisableCustomerView` and `ResetStaffMfaView`.  Their `post` methods are the
same up to the permission, which is also the action of their idempotency records, and the
effect; `sensitiveView` is that method, and each view is its application.

The field parsers of the serializers belong to the REST framework and are a parameter.
-/

namespace BePyEco

open Library

/-! ## Serializers -/

/-- The field parsers of the REST framework, from the item of `request.data` (if any) to the
validated value (`none`: refused), and Django's password validators. -/
class SerializerFields where
  charField (trimWhitespace : Bool) : Option Json → Option String
  emailField : Option Json → Option String
  validatePassword : String → Bool

/-- Some of the passwords that `CommonPasswordValidator` knows. -/
def commonPasswords : List String := ["123456789", "password", "qwertyuiop"]

/-- The validators of `AUTH_PASSWORD_VALIDATORS` on a password without a user: it has eight
characters, is not common, and has more than digits. -/
def acceptablePassword (password : String) : Bool :=
  decide (8 ≤ password.length) && !commonPasswords.contains password &&
    password.toList.any fun c => !c.isDigit

/-- The parsers on JSON strings that need no trimming, and on addresses. -/
@[reducible] def plainFields : SerializerFields where
  charField _
    | some (.str s) => if s = "" then none else some s
    | _ => none
  emailField
    | some (.str s) => some s
    | _ => none
  validatePassword := acceptablePassword

variable [SerializerFields]

/-- The items of `request.data`; a body that is no object is refused as a whole. -/
def bodyFields : Json → Except ApiError (List (String × Json))
  | .obj fields => .ok fields
  | _ => .error (.validationError ["non_field_errors"])

/-- `ChoiceField(choices=Staff.Role.choices)`. -/
def roleField : Option Json → Option Role
  | some (.str s) => [Role.masterAdmin, .storeManager, .orderStaff].find? fun r => r.value == s
  | _ => none

/-- The names of the fields that were refused. -/
def refused (fields : List (String × Bool)) : List String :=
  (fields.filter fun f => !f.2).map Prod.fst

/-- `CreateStaffSerializer`. -/
def createStaffSerializer (data : Json) : Except ApiError (String × String × Role) := do
  let _ ← bodyFields data
  let email := SerializerFields.emailField (data.field "email")
  let password := (SerializerFields.charField false (data.field "password")).filter
    SerializerFields.validatePassword
  let role := roleField (data.field "role")
  match email, password, role with
  | some email, some password, some role => .ok (email, password, role)
  | _, _, _ => .error (.validationError (refused
      [("email", email.isSome), ("password", password.isSome), ("role", role.isSome)]))

/-- `DisableCustomerSerializer`: a `CharField` without a length limit. -/
def disableCustomerSerializer (data : Json) : Except ApiError String := do
  let _ ← bodyFields data
  match SerializerFields.charField true (data.field "reason") with
  | some reason => .ok reason
  | none => .error (.validationError ["reason"])

/-! ## Views -/

variable [PyText]

/-- What the `post` of a sensitive endpoint does behind its guards: replay the record of the key,
or run the effect and remember its response. -/
def replayOrRun (request : Request) (action idempotencyKey : String) (effect : Service Response) :
    Service Response := do
  match ← replayIfCached request action idempotencyKey with
  | some cached => return cached
  | none =>
    let response ← effect
    let _ ← rememberResponse request action idempotencyKey response
    return response

/-- The `post` of a sensitive endpoint.  `action` is its codename and the action of its records;
`effect` is what it does for a request that is not replayed. -/
def sensitiveView (action : String) (effect : StaffInstance → Request → Service Response)
    (request : Request) : Service Response := do
  Program.require (checkPolicy request.user.role action) .insufficientPermission
  let actor ← requireConfirmedMfa { staff := request.user }
  let idempotencyKey ← Program.ofExcept (requireIdempotencyKey request)
  replayOrRun request action idempotencyKey (effect actor request)

/-- The JSON that the view answers with for a created staff member. -/
def staffRepresentation (staff : Staff) : Json :=
  .obj [("id", .str (toString staff.id)), ("email", .str staff.email),
    ("role", .str staff.role.value)]

def createStaffEffect (actor : StaffInstance) (request : Request) : Service Response := do
  let (email, password, role) ← Program.ofExcept (createStaffSerializer request.data)
  let staff ← createStaff actor email password role request.context
  return {
    status := 201
    data := some (successEnvelope (staffRepresentation staff) request.context) }

/-- `CreateStaffView.post`. -/
def CreateStaffView.post (request : Request) : Service Response :=
  sensitiveView "accounts.create_staff" createStaffEffect request

def disableCustomerEffect (customerId : Id) (actor : StaffInstance) (request : Request) :
    Service Response := do
  let reason ← Program.ofExcept (disableCustomerSerializer request.data)
  let _ ← disableCustomer actor customerId reason request.context
  return { status := 204 }

/-- `DisableCustomerView.post`. -/
def DisableCustomerView.post (request : Request) (customerId : Id) : Service Response :=
  sensitiveView "accounts.disable_customer" (disableCustomerEffect customerId) request

/-- `Staff.objects.get(id=staff_id)`, without a handler. -/
def getStaff (staffId : Id) : Statement Staff :=
  Objects.get fun s : Staff => decide (s.id = staffId)

def resetStaffMfaEffect (staffId : Id) (actor : StaffInstance) (request : Request) :
    Service Response := do
  let targetStaff ← getStaff staffId
  resetStaffMfa actor { staff := targetStaff } request.context
  return { status := 204 }

/-- `ResetStaffMfaView.post`. -/
def ResetStaffMfaView.post (request : Request) (staffId : Id) : Service Response :=
  sensitiveView "accounts.reset_staff_mfa" (resetStaffMfaEffect staffId) request

end BePyEco
