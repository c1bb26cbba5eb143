import BePyEco.Common.Values
import BePyEco.Library.Table

/-!
# Rows of the accounts tables

Customers, their login methods, refresh sessions and verification tokens, and staff with their
TOTP devices.  Each row type comes with the constraints of its model and with the assignments
that its services save.

Secrets are symbolic.  A password hash records the password it was made from, and the random
values (`jti`, raw verification tokens, TOTP keys) are natural numbers drawn once each.
-/

namespace BePyEco

open Library

/-! ## Customers -/

structure Customer where
  id : Id
  email : String
  emailVerifiedAt : Option Time := none
  isActive : Bool := true
  preferredLocale : String := ""
  preferredCurrency : String := ""
  deriving DecidableEq, Repr

def Customer.isEmailVerified (c : Customer) : Bool := c.emailVerifiedAt.isSome

instance : Model Customer where
  pk := Customer.id
  fits c := decide (c.email.length ≤ 254) && decide (c.preferredLocale.length ≤ 10) &&
    decide (c.preferredCurrency.length ≤ 3)
  conflicts a b := decide (a.email = b.email)
  conflicts_symm a b := by simp [eq_comm]

/-- `customer.is_active = ...`. -/
def Customer.setIsActive (active : Bool) : Assignment Customer where
  apply c := { c with isActive := active }
  pk_apply _ := rfl
  fits_apply _ := rfl
  conflicts_apply _ _ := rfl

/-- `customer.email_verified_at = ...`. -/
def Customer.setEmailVerifiedAt (t : Time) : Assignment Customer where
  apply c := { c with emailVerifiedAt := some t }
  pk_apply _ := rfl
  fits_apply _ := rfl
  conflicts_apply _ _ := rfl

/-! ## Login methods -/

/-- `make_password(password)`. -/
structure PasswordHash where
  password : String
  deriving DecidableEq, Repr

def makePassword (password : String) : PasswordHash := ⟨password⟩

/-- `check_password`; a blank hash accepts no password. -/
def checkPassword (password : String) : Option PasswordHash → Bool
  | some hash => decide (hash.password = password)
  | none => false

inductive Provider
  | password
  | google
  deriving DecidableEq, Repr

structure LoginMethod where
  id : Id
  customerId : Id
  provider : Provider
  passwordHash : Option PasswordHash := none
  providerSubjectId : String := ""
  deriving DecidableEq, Repr

/-- One method of each provider for a customer, and one Google subject for all customers. -/
instance : Model LoginMethod where
  pk := LoginMethod.id
  fits m := decide (m.providerSubjectId.length ≤ 255)
  conflicts a b :=
    (decide (a.customerId = b.customerId) && decide (a.provider = b.provider)) ||
      (decide (a.provider = .google) && decide (b.provider = .google) &&
        decide (a.providerSubjectId = b.providerSubjectId))
  conflicts_symm a b := by
    simp only [Bool.and_comm (decide (a.provider = Provider.google)), eq_comm (a := a.customerId),
      eq_comm (a := a.provider) (b := b.provider), eq_comm (a := a.providerSubjectId)]

/-- `login_method.password_hash = ...`. -/
def LoginMethod.setPasswordHash (hash : PasswordHash) : Assignment LoginMethod where
  apply m := { m with passwordHash := some hash }
  pk_apply _ := rfl
  fits_apply _ := rfl
  conflicts_apply _ _ := rfl

/-! ## Refresh sessions -/

/-- The random `jti` claim of a token. -/
abbrev Jti := ℕ

structure Session where
  id : Id
  customerId : Id
  refreshTokenHash : Sha256 Jti
  expiresAt : Time
  revokedAt : Option Time := none
  deriving DecidableEq, Repr

instance : Model Session where
  pk := Session.id
  fits _ := true
  conflicts a b := decide (a.refreshTokenHash = b.refreshTokenHash)
  conflicts_symm a b := by simp [eq_comm]

/-- `session.is_active` at a given time. -/
def Session.isActive (now : Time) (s : Session) : Bool :=
  decide (s.revokedAt = none) && decide (now < s.expiresAt)

lemma Session.isActive_iff {now : Time} {s : Session} :
    s.isActive now = true ↔ s.revokedAt = none ∧ now < s.expiresAt := by
  simp [Session.isActive]

/-- `revoked_at = ...`. -/
def Session.setRevokedAt (t : Time) : Assignment Session where
  apply s := { s with revokedAt := some t }
  pk_apply _ := rfl
  fits_apply _ := rfl
  conflicts_apply _ _ := rfl

/-! ## Verification tokens -/

/-- The raw token that is mailed. -/
abbrev RawToken := ℕ

inductive Purpose
  | emailVerification
  | passwordReset
  | emailChange
  deriving DecidableEq, Repr

structure VerificationToken where
  id : Id
  customerId : Id
  purpose : Purpose
  tokenHash : Sha256 RawToken
  newEmail : String := ""
  expiresAt : Time
  consumedAt : Option Time := none
  deriving DecidableEq, Repr

instance : Model VerificationToken where
  pk := VerificationToken.id
  fits t := decide (t.newEmail.length ≤ 254)
  conflicts a b := decide (a.tokenHash = b.tokenHash)
  conflicts_symm a b := by simp [eq_comm]

/-- `token.consumed_at = ...`. -/
def VerificationToken.setConsumedAt (t : Time) : Assignment VerificationToken where
  apply v := { v with consumedAt := some t }
  pk_apply _ := rfl
  fits_apply _ := rfl
  conflicts_apply _ _ := rfl

/-! ## Staff -/

inductive Role
  | masterAdmin
  | storeManager
  | orderStaff
  deriving DecidableEq, Repr

/-- The stored value of a role. -/
def Role.value : Role → String
  | masterAdmin => "master_admin"
  | storeManager => "store_manager"
  | orderStaff => "order_staff"

structure Staff where
  id : Id
  email : String
  passwordHash : PasswordHash
  role : Role
  isActive : Bool := true
  deriving DecidableEq, Repr

instance : Model Staff where
  pk := Staff.id
  fits s := decide (s.email.length ≤ 254)
  conflicts a b := decide (a.email = b.email)
  conflicts_symm a b := by simp [eq_comm]

/-- A hex-encoded TOTP secret. -/
abbrev TotpKey := ℕ

structure StaffTOTPDevice where
  id : Id
  staffId : Id
  key : TotpKey
  confirmedAt : Option Time := none
  deriving DecidableEq, Repr

/-- The one-to-one key to `Staff` is unique. -/
instance : Model StaffTOTPDevice where
  pk := StaffTOTPDevice.id
  fits _ := true
  conflicts a b := decide (a.staffId = b.staffId)
  conflicts_symm a b := by simp [eq_comm]

def StaffTOTPDevice.isConfirmed (d : StaffTOTPDevice) : Bool := d.confirmedAt.isSome

/-- `device.confirmed_at = ...`. -/
def StaffTOTPDevice.setConfirmedAt (t : Time) : Assignment StaffTOTPDevice where
  apply d := { d with confirmedAt := some t }
  pk_apply _ := rfl
  fits_apply _ := rfl
  conflicts_apply _ _ := rfl

/-- A `Staff` instance: the row, and the `totp_device` once the instance has looked it up.  The
accessor caches the device, or that there is none, for the life of the instance. -/
structure StaffInstance where
  staff : Staff
  totpDevice : Option (Option StaffTOTPDevice) := none
  deriving DecidableEq, Repr

end BePyEco
