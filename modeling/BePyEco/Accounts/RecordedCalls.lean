import BePyEco.Accounts.GoogleStatements
import BePyEco.Accounts.Staff
import BePyEco.Accounts.TokenConsumption
import BePyEco.Library.Recording

/-!
# Account calls, recorded

Every service that writes to a customer works on an instance that it, or its caller, has loaded
earlier, and saves only some columns of it.  `WriterCall` has these services as programs whose
statements may interleave; their recordings write to a log what each of them has committed
(`Commit`), and are the services otherwise (`WriterCall.records`).

`Commit.apply` is the meaning of a commit: the columns of a customer that it sets.
-/

namespace BePyEco

open Library

/-! ## The log -/

/-- What a committed statement has done: a token was stored, to be mailed to the address; a
consumer has succeeded; a Google identity was linked, which may verify an email; a locale
preference was saved; a customer was disabled. -/
inductive Commit
  | issued (rawToken : RawToken) (address : String)
  | consumed (k : Consumer) (rawToken : RawToken) (t : VerificationToken) (now : Time)
  | linked (profile : GoogleProfile) (customerId : Id) (verifies : Bool) (now : Time)
  | preferred (customerId : Id) (locale currency : String)
  | disabled (customerId : Id)
  deriving DecidableEq, Repr

/-- The columns of a customer that the commit writes, and no others. -/
def Commit.apply : Commit → Customer → Customer
  | issued _ _, c => c
  | consumed .verifyEmail _ t now, c =>
    if c.id == t.customerId then { c with emailVerifiedAt := some now } else c
  | consumed (.confirmPasswordReset _) _ _ _, c => c
  | consumed .confirmEmailChange _ t now, c =>
    if c.id == t.customerId then setEmail t.newEmail now c else c
  | linked _ customerId verifies now, c =>
    if verifies && c.id == customerId then { c with emailVerifiedAt := some now } else c
  | preferred customerId locale currency, c =>
    if c.id == customerId then setPreference locale currency c else c
  | disabled customerId, c =>
    if c.id == customerId then { c with isActive := false } else c

/-- A world and the log of what was committed to it. -/
abbrev RecordedWorld := Recorded World Commit

/-- A service that writes to the log. -/
abbrev RecordingService := Program RecordedWorld ApiError

/-! ## Recording the services -/

section Recording

open Program

def recordConsume (k : Consumer) (rawToken : RawToken) : RecordingService Customer := do
  let (token, customer) ← (exec (lookupToken k.purpose rawToken)).silently
  let _ ← (exec (checkTokenExpiry token)).silently
  recording (consumeBlock k.effect token customer) fun _ w => [.consumed k rawToken token w.now]

/-- Store a token and mail it. -/
def recordIssue (customerId : Id) (purpose : Purpose) (newEmail : String) (ttl : Time)
    (recipient : String) : RecordingService Unit := do
  let (rawToken, tokenHash) ← (exec generateToken).silently
  let _ ← recording (createVerificationToken customerId purpose tokenHash newEmail ttl)
    fun _ _ => [.issued rawToken recipient]
  (exec (sendMail recipient rawToken)).silently

def recordLinkGoogle (profile : GoogleProfile) : RecordingService Customer := do
  let link (customer : Customer) : RecordingService Customer :=
    recording (linkExisting profile customer)
      fun _ w => [.linked profile customer.id (!customer.isEmailVerified) w.now]
  match ← (exec (findCustomer profile.email)).silently with
  | some customer => link customer
  | none =>
    let inserted ← recording (linkInserted profile) fun r w =>
      match r with
      | some customer => [.linked profile customer.id false w.now]
      | none => []
    match inserted with
    | some customer => return customer
    | none =>
      let customer ← (exec (getCustomerAgain profile.email)).silently
      link customer

def recordGoogleBlock (profile : GoogleProfile) : RecordingService Customer := do
  match ← (exec (findGoogleCustomer profile.subjectId)).silently with
  | some customer => return customer
  | none => recordLinkGoogle profile

variable [PyText]

def recordRegister (email password : String) : RecordingService (Customer × RawToken) := do
  let (customer, rawToken) ← recording (registerBlock email password)
    fun r _ => [.issued r.2 r.1.email]
  let _ ← (exec (sendMail customer.email rawToken)).silently
  return (customer, rawToken)

def recordPasswordReset (email : String) : RecordingService Unit := do
  match ← (exec (findActiveCustomer (normalizeEmail email))).silently with
  | none => return ()
  | some customer =>
    recordIssue customer.id .passwordReset "" passwordResetTokenTtl customer.email

def recordEmailChange (customer : Customer) (newEmail : String) : RecordingService Unit := do
  let normalizedEmail := normalizeEmail newEmail
  let taken ← (exec (emailTakenByOther normalizedEmail customer.id)).silently
  require (!taken) .emailAlreadyTaken
  recordIssue customer.id .emailChange normalizedEmail emailChangeTokenTtl normalizedEmail

def recordLoginWithGoogle (clientId : String) (reply : TokeninfoReply) :
    RecordingService (Customer × AccessToken × RefreshToken) := do
  let profile ← ofExcept (verifyIdToken clientId reply)
  let customer ← recordGoogleBlock profile
  let tokens ← (issueSession customer.id).silently
  return (customer, tokens)

def recordLocalePreference (customer : Customer) (locale currency : String) :
    RecordingService Customer := do
  let _ ← (validateLocaleAndCurrency locale currency).silently
  let customer := setPreference locale currency customer
  recording (savePreference customer.id locale currency)
    fun _ _ => [.preferred customer.id locale currency]
  return customer

def recordDisable (actor : StaffInstance) (customerId : Id) (reason : String)
    (request : Option RequestContext) : RecordingService Customer := do
  require (checkPolicy actor.staff.role "accounts.disable_customer") .insufficientPermission
  let (confirmed, actor) ← (hasConfirmedMfa actor).silently
  require confirmed .mfaNotConfigured
  require (decide (PyText.strip reason ≠ "")) .reasonRequired
  let customer ← (exec (getCustomer customerId)).silently
  let customer := { customer with isActive := false }
  recording (saveInactive customer.id) fun _ _ => [.disabled customer.id]
  (revokeAllSessions customer.id).silently
  let _ ← (exec (writeAuditLog .staff actor.staff.id "accounts.disable_customer" "customer"
    customer.id [("is_active", .bool true)] [("is_active", .bool false)] (PyText.strip reason)
    (clientIp request) (requestId request))).silently
  return customer

end Recording

/-! ## Calls -/

/-- A call of a service, with its arguments.  A customer instance may have been loaded at any
earlier time. -/
inductive WriterCall
  | registerCustomer (email password : String)
  | loginWithGoogle (clientId : String) (reply : TokeninfoReply)
  | consume (k : Consumer) (rawToken : RawToken)
  | requestPasswordReset (email : String)
  | requestEmailChange (customer : Customer) (newEmail : String)
  | updateLocalePreference (customer : Customer) (locale currency : String)
  | disableCustomer (actor : StaffInstance) (customerId : Id) (reason : String)
    (request : Option RequestContext)

namespace WriterCall

variable [PyText]

/-- The service a call runs. -/
def service : WriterCall → Service Unit
  | registerCustomer email password => do
    let _ ← BePyEco.registerCustomer email password
  | loginWithGoogle clientId reply => do
    let _ ← loginWithGoogleByStatement clientId reply
  | consume k rawToken => do
    let _ ← k.service rawToken
  | requestPasswordReset email => BePyEco.requestPasswordReset email
  | requestEmailChange customer newEmail => BePyEco.requestEmailChange customer newEmail
  | updateLocalePreference customer locale currency => do
    let _ ← BePyEco.updateLocalePreference customer locale currency
  | disableCustomer actor customerId reason request => do
    let _ ← BePyEco.disableCustomer actor customerId reason request

/-- The service, recorded. -/
def recorded : WriterCall → RecordingService Unit
  | registerCustomer email password => do
    let _ ← recordRegister email password
  | loginWithGoogle clientId reply => do
    let _ ← recordLoginWithGoogle clientId reply
  | consume k rawToken => do
    let _ ← recordConsume k rawToken
  | requestPasswordReset email => recordPasswordReset email
  | requestEmailChange customer newEmail => recordEmailChange customer newEmail
  | updateLocalePreference customer locale currency => do
    let _ ← recordLocalePreference customer locale currency
  | disableCustomer actor customerId reason request => do
    let _ ← recordDisable actor customerId reason request

end WriterCall

section Records

open Program

lemma records_consume (k : Consumer) (rawToken : RawToken) [PyText] :
    (recordConsume k rawToken).Records (k.service rawToken) := by
  rw [Consumer.service_eq_consumeToken]
  refine (records_silently _).bind fun r => ?_
  refine (records_silently _).bind fun _ => ?_
  exact records_recording _ _

lemma records_issue (customerId : Id) (purpose : Purpose) (newEmail : String) (ttl : Time)
    (recipient : String) :
    (recordIssue customerId purpose newEmail ttl recipient).Records (do
      let rawToken ← issueVerificationToken customerId purpose newEmail ttl
      sendMail recipient rawToken) := by
  unfold issueVerificationToken
  rw [bind_assoc]
  refine (records_silently _).bind fun r => ?_
  rw [bind_assoc]
  refine (records_recording _ _).bind fun _ => ?_
  exact records_silently _

lemma records_linkGoogle (profile : GoogleProfile) :
    (recordLinkGoogle profile).Records (linkGoogleByStatement profile) := by
  refine (records_silently _).bind fun found => ?_
  cases found with
  | some customer => exact records_recording _ _
  | none =>
      refine (records_recording _ _).bind fun inserted => ?_
      cases inserted with
      | some customer => exact records_done _
      | none => exact (records_silently _).bind fun customer => records_recording _ _

lemma records_googleBlock (profile : GoogleProfile) :
    (recordGoogleBlock profile).Records (googleBlockByStatement profile) := by
  refine (records_silently _).bind fun found => ?_
  cases found with
  | some customer => exact records_done _
  | none => exact records_linkGoogle profile

variable [PyText]

/-- The recording of a call is the call. -/
lemma WriterCall.records (call : WriterCall) : call.recorded.Records call.service := by
  cases call with
  | registerCustomer email password =>
      refine Records.bind ?_ fun _ => records_done _
      refine (records_recording _ _).bind fun r => ?_
      exact (records_silently _).bind fun _ => records_done _
  | loginWithGoogle clientId reply =>
      refine Records.bind ?_ fun _ => records_done _
      refine Records.bind ?_ fun profile => ?_
      · exact records_done _
      · refine (records_googleBlock profile).bind fun customer => ?_
        exact (records_silently _).bind fun tokens => records_done _
  | consume k rawToken => exact (records_consume k rawToken).bind fun _ => records_done _
  | requestPasswordReset email =>
      refine (records_silently _).bind fun found => ?_
      cases found with
      | none => exact records_done _
      | some customer => exact records_issue _ _ _ _ _
  | requestEmailChange customer newEmail =>
      refine (records_silently _).bind fun taken => ?_
      exact (records_require _ _).bind fun _ => records_issue _ _ _ _ _
  | updateLocalePreference customer locale currency =>
      refine Records.bind ?_ fun _ => records_done _
      refine (records_silently _).bind fun _ => ?_
      exact (records_recording _ _).bind fun _ => records_done _
  | disableCustomer actor customerId reason request =>
      refine Records.bind ?_ fun _ => records_done _
      refine (records_require _ _).bind fun _ => ?_
      refine (records_silently _).bind fun ⟨confirmed, actor⟩ => ?_
      refine (records_require _ _).bind fun _ => ?_
      refine (records_require _ _).bind fun _ => ?_
      refine (records_silently _).bind fun customer => ?_
      refine (records_recording _ _).bind fun _ => ?_
      refine (records_silently _).bind fun _ => ?_
      exact (records_silently _).bind fun _ => records_done _

end Records

end BePyEco
