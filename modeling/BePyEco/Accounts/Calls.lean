import BePyEco.Accounts.Customers
import BePyEco.Accounts.Staff
import BePyEco.Library.Triple

/-!
# Histories of account calls

The customer-facing services and `disable_customer` as one type of calls, and the worlds that a
finite sequence of complete calls reaches, with time passing between them.
-/

namespace BePyEco

open Library

/-- A call of a service, with its arguments.  A customer instance that a view passes in may be
any earlier copy of the row. -/
inductive AccountCall
  | registerCustomer (email password : String)
  | verifyEmail (rawToken : RawToken)
  | loginCustomer (email password : String)
  | loginWithGoogle (clientId : String) (reply : TokeninfoReply)
  | rotateRefreshToken (rawRefreshToken : RawRefreshToken)
  | revokeSession (customer : Customer) (sessionId : Id) (request : Option RequestContext)
  | revokeAllSessions (customerId : Id)
  | requestPasswordReset (email : String)
  | confirmPasswordReset (rawToken : RawToken) (newPassword : String)
  | requestEmailChange (customer : Customer) (newEmail : String)
  | confirmEmailChange (rawToken : RawToken)
  | disableCustomer (actor : StaffInstance) (customerId : Id) (reason : String)
      (request : Option RequestContext)

/-- The service a call runs; its result is the refresh token that the call returns, if any. -/
def AccountCall.service [PyText] : AccountCall → Service (Option RefreshToken)
  | registerCustomer email password => do
    let _ ← BePyEco.registerCustomer email password
    return none
  | verifyEmail rawToken => do
    let _ ← BePyEco.verifyEmail rawToken
    return none
  | loginCustomer email password => do
    let (_, _, refresh) ← BePyEco.loginCustomer email password
    return some refresh
  | loginWithGoogle clientId reply => do
    let (_, _, refresh) ← BePyEco.loginWithGoogle clientId reply
    return some refresh
  | rotateRefreshToken rawRefreshToken => do
    let (_, refresh) ← BePyEco.rotateRefreshToken rawRefreshToken
    return some refresh
  | revokeSession customer sessionId request => do
    BePyEco.revokeSession customer sessionId request
    return none
  | revokeAllSessions customerId => do
    BePyEco.revokeAllSessions customerId
    return none
  | requestPasswordReset email => do
    BePyEco.requestPasswordReset email
    return none
  | confirmPasswordReset rawToken newPassword => do
    let _ ← BePyEco.confirmPasswordReset rawToken newPassword
    return none
  | requestEmailChange customer newEmail => do
    BePyEco.requestEmailChange customer newEmail
    return none
  | confirmEmailChange rawToken => do
    let _ ← BePyEco.confirmEmailChange rawToken
    return none
  | disableCustomer actor customerId reason request => do
    let _ ← BePyEco.disableCustomer actor customerId reason request
    return none

/-- The world after a complete call. -/
def AccountCall.after [PyText] (call : AccountCall) (w : World) : World := (call.service.run w).2

/-- The worlds reached from `w₀` by complete calls that each satisfy `ok` in the world where they
begin, with time passing in between. -/
abbrev History [PyText] (ok : World → AccountCall → Prop) (w₀ : World) : World → Prop :=
  Program.Sequence AccountCall.service ok TimePasses w₀

end BePyEco
