import Mathlib.Tactic.Common

/-!
# Exceptions of the application

The exceptions that services and views raise, each with the HTTP status its class carries.
Errors of the database itself are not among them: no handler turns those into a response.
-/

namespace BePyEco

inductive ApiError
  -- the REST framework
  | validationError (fields : List String)
  | permissionDenied
  -- the JWT library
  | invalidToken
  -- common/api/idempotency.py
  | idempotencyKeyRequired
  | idempotencyKeyConflict
  -- modules/accounts/errors.py
  | invalidVerificationToken
  | invalidCredentials
  | invalidRefreshToken
  | sessionNotFound
  | customerNotFound
  | invalidGoogleToken
  | googleEmailNotVerified
  | emailAlreadyTaken
  | insufficientPermission
  | mfaNotConfigured
  | invalidMfaToken
  | reasonRequired
  -- modules/localization/errors.py
  | supportedCountryNotConfigured
  | unsupportedLocale
  | unsupportedCurrency
  -- modules/catalog/errors.py
  | categoryCycle
  | productNotFound
  | primaryCategoryNotInCategories
  | duplicateAttribute
  | duplicateAttributeCombination
  | incompleteDefaultLocaleContent
  | noSellableVariant
  | noReadyMedia
  -- modules/media/errors.py
  | mediaUploadNotReady
  -- modules/translation/errors.py
  | translationEntryNotFound
  -- a `KeyError`, which no handler turns into a response
  | keyError (key : String)
  -- an exception of a library, which no handler turns into a response
  | libraryError (name : String)
  deriving DecidableEq, Repr

/-- `status_code` of the exception class, and 500 for what is not handled. -/
def ApiError.statusCode : ApiError → ℕ
  | validationError _ => 400
  | permissionDenied => 403
  | invalidToken => 401
  | idempotencyKeyRequired => 400
  | idempotencyKeyConflict => 409
  | invalidVerificationToken => 400
  | invalidCredentials => 401
  | invalidRefreshToken => 401
  | sessionNotFound => 404
  | customerNotFound => 404
  | invalidGoogleToken => 401
  | googleEmailNotVerified => 401
  | emailAlreadyTaken => 409
  | insufficientPermission => 403
  | mfaNotConfigured => 403
  | invalidMfaToken => 400
  | reasonRequired => 400
  | supportedCountryNotConfigured => 503
  | unsupportedLocale => 400
  | unsupportedCurrency => 400
  | categoryCycle => 400
  | productNotFound => 404
  | primaryCategoryNotInCategories => 400
  | duplicateAttribute => 400
  | duplicateAttributeCombination => 409
  | incompleteDefaultLocaleContent => 409
  | noSellableVariant => 409
  | noReadyMedia => 409
  | mediaUploadNotReady => 400
  | translationEntryNotFound => 404
  | keyError _ => 500
  | libraryError _ => 500

/-- `status.is_success`. -/
def isSuccess (status : ℕ) : Bool := decide (200 ≤ status) && decide (status < 300)

/-- No exception is answered with a success status. -/
lemma ApiError.not_isSuccess_statusCode (e : ApiError) : isSuccess e.statusCode = false := by
  cases e <;> rfl

end BePyEco
