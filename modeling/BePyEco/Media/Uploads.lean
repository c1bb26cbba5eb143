import BePyEco.Database
import BePyEco.Models.Media

/-!
# Requesting and attaching uploads

`request_upload` and `attach_media_to_product`.  The presigned credential is made by a library
function, which is a parameter.
-/

namespace BePyEco

open Library

/-! ## Requesting -/

/-- `MAX_UPLOAD_SIZE_BYTES`. -/
def maxUploadSizeBytes : ℕ := 25 * 1024 * 1024

/-- `DEFAULT_EXPIRES_IN_SECONDS`. -/
def defaultExpiresInSeconds : ℕ := 300

/-- What `generate_presigned_post` returns. -/
structure PresignedUpload where
  url : String
  fields : List (String × String)
  deriving DecidableEq, Repr

/-- `generate_presigned_upload(...)`, from key, content type, size limit and life time. -/
class PresignedPosts where
  generatePresignedUpload : StorageKey → String → ℕ → ℕ → PresignedUpload

/-- One credential for every upload. -/
@[reducible] def localPosts : PresignedPosts where
  generatePresignedUpload _ _ _ _ := { url := "http://localhost:9000", fields := [] }

structure UploadCredential where
  mediaUpload : MediaUpload
  uploadUrl : String
  uploadFields : List (String × String)
  deriving DecidableEq, Repr

/-- `MediaUpload.objects.create(...)`. -/
def createMediaUpload (storageKey : StorageKey) (contentType : String) (sizeBytes : ℕ) :
    Statement MediaUpload :=
  Objects.create fun id => {
    id := id
    storageKey := storageKey
    declaredContentType := contentType
    declaredSizeBytes := sizeBytes }

def requestUpload [PresignedPosts] (contentType : String) (sizeBytes : ℕ) :
    Service UploadCredential := do
  let name ← drawRandom
  let mediaUpload ← createMediaUpload ⟨name⟩ contentType sizeBytes
  let presigned := PresignedPosts.generatePresignedUpload ⟨name⟩ contentType maxUploadSizeBytes
    defaultExpiresInSeconds
  return {
    mediaUpload := mediaUpload
    uploadUrl := presigned.url
    uploadFields := presigned.fields }

/-! ## Attaching -/

/-- `media_upload.save(update_fields=["product", ...])` after `media_upload.product = product`. -/
def saveProduct (mediaUploadId productId : Id) : Statement Unit :=
  Objects.save mediaUploadId (MediaUpload.setProduct productId)

/-- The status is that of the instance, which may be older than the row. -/
def attachMediaToProduct (mediaUpload : MediaUpload) (product : Product) : Service MediaUpload := do
  Program.require (decide (mediaUpload.status = .ready)) .mediaUploadNotReady
  saveProduct mediaUpload.id product.id
  return { mediaUpload with productId := some product.id }

/-! ## Guarantees -/

section Guarantees

variable {R : World → World → Prop} [Std.Refl R]

lemma requestUpload_guarantees [PresignedPosts] {contentType : String} {sizeBytes : ℕ}
    (hdraw : drawRandom.Guarantees R)
    (hcreate : ∀ key, (createMediaUpload key contentType sizeBytes).Guarantees R) :
    (requestUpload contentType sizeBytes).Guarantees R := by
  refine (Program.guarantees_exec hdraw).bind fun name => ?_
  exact (Program.guarantees_exec (hcreate _)).bind fun _ => trivial

lemma attachMediaToProduct_guarantees {mediaUpload : MediaUpload} {product : Product}
    (hsave : (saveProduct mediaUpload.id product.id).Guarantees R) :
    (attachMediaToProduct mediaUpload product).Guarantees R := by
  refine (Program.guarantees_require _ _).bind fun _ => ?_
  exact (Program.guarantees_exec hsave).bind fun _ => trivial

end Guarantees

end BePyEco
