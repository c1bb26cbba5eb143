import BePyEco.Common.Values
import BePyEco.Library.Table

/-!
# Uploads

A `MediaUpload` begins `pending` under a random key and ends `ready` or `rejected`; only a ready
one is ever attached to a product.
-/

namespace BePyEco

open Library

inductive MediaUploadStatus
  | pending
  | ready
  | rejected
  deriving DecidableEq, Repr

/-- `quarantine/` and a random UUID, the only keys under which clients upload. -/
structure StorageKey where
  name : ℕ
  deriving DecidableEq, Repr

/-- The largest value of a `PositiveBigIntegerField`. -/
def maxPositiveBigInteger : ℕ := 9223372036854775807

/-- The three derivative keys and the reason stay blank until validation ends. -/
structure MediaUpload where
  id : Id
  status : MediaUploadStatus := .pending
  storageKey : StorageKey
  declaredContentType : String
  declaredSizeBytes : ℕ
  rejectionReason : String := ""
  webpKey : String := ""
  avifKey : String := ""
  thumbnailKey : String := ""
  productId : Option Id := none
  deriving DecidableEq, Repr

instance : Model MediaUpload where
  pk := MediaUpload.id
  fits m := decide (m.declaredContentType.length ≤ 100) &&
    decide (m.declaredSizeBytes ≤ maxPositiveBigInteger) &&
    decide (m.rejectionReason.length ≤ 255) && decide (m.webpKey.length ≤ 255) &&
    decide (m.avifKey.length ≤ 255) && decide (m.thumbnailKey.length ≤ 255)
  conflicts a b := decide (a.storageKey = b.storageKey)
  conflicts_symm a b := by simp [eq_comm]

/-! ## Updates -/

/-- The columns that `_reject` saves. -/
def MediaUpload.reject (reason : String) (m : MediaUpload) : MediaUpload :=
  { m with status := .rejected, rejectionReason := reason }

/-- The columns that a successful validation saves. -/
def MediaUpload.makeReady (webpKey avifKey thumbnailKey : String) (m : MediaUpload) :
    MediaUpload :=
  { m with status := .ready, webpKey := webpKey, avifKey := avifKey, thumbnailKey := thumbnailKey }

def MediaUpload.setProduct (productId : Id) : Assignment MediaUpload where
  apply m := { m with productId := some productId }
  pk_apply _ := rfl
  fits_apply _ := rfl
  conflicts_apply _ _ := rfl

end BePyEco
