import BePyEco.Media.Uploads

/-!
# The upload pipeline

`validate_upload` validates, scans and derives an upload in one transaction that holds its row.
Pillow, `filetype`, the object storage and the scanner are parameters: any bytes may be stored,
any step may raise, and the scanner may answer anything that its protocol allows.

The scanner adapter raises for the status `FOUND` only, so a scan that failed (`ERROR`) counts as
a clean one.  `onlyVetted_iff` says when that lets an unscanned object become ready.
-/

namespace BePyEco

open Library

/-! ## Libraries and services -/

abbrev Bytes := List UInt8

/-- An exception of Pillow; `UnidentifiedImageError` is an `OSError` too. -/
inductive PillowError
  | unidentifiedImageError
  | osError
  | other (name : String)
  deriving DecidableEq, Repr

/-- The exception as one that nothing handles. -/
def PillowError.unhandled : PillowError → ApiError
  | unidentifiedImageError => .libraryError "UnidentifiedImageError"
  | osError => .libraryError "OSError"
  | other name => .libraryError name

/-- Pillow and `filetype`. -/
class ImageLibraries where
  Image : Type
  guess : Bytes → Option String
  openImage : Bytes → Except PillowError Image
  verify : Image → Except PillowError Unit
  convert : String → Image → Except PillowError Image
  save : String → Image → Except PillowError Bytes
  thumbnail : ℕ × ℕ → Image → Except PillowError Image

/-- The status of a scan in clamd's protocol. -/
inductive ScanStatus
  | ok
  | found
  | error
  deriving DecidableEq, Repr

/-- The object storage and the scanner, as one delivery of the task meets them.  An exception is
given by its class name. -/
structure ObjectServices where
  openObject : StorageKey → Except String Bytes
  saveObject : String → Bytes → Except String String
  instream : Bytes → Except String (ScanStatus × Option String)

/-! ## The scanner adapter -/

/-- What `scan_bytes` raises. -/
inductive ScanError
  | infectedFile (signature : String)
  | unavailable (name : String)
  deriving DecidableEq, Repr

/-- `signature or "unknown"`. -/
def signatureOrUnknown (signature : Option String) : String :=
  if signature.getD "" = "" then "unknown" else signature.getD ""

def scanBytes (services : ObjectServices) (data : Bytes) : Except ScanError Unit :=
  match services.instream data with
  | .ok (status, signature) =>
    if status = .found then .error (.infectedFile (signatureOrUnknown signature)) else .ok ()
  | .error name => .error (.unavailable name)

/-! ## Validation -/

/-- `_ACCEPTED_MIME_TYPES`. -/
def acceptedMimeTypes : List String := ["image/jpeg", "image/png", "image/webp"]

structure ValidationResult where
  isValid : Bool
  reason : String := ""
  deriving DecidableEq, Repr

section Validation

variable [ImageLibraries]

/-- `Image.open(...)` and `image.verify()`. -/
def openAndVerify (data : Bytes) : Except PillowError Unit := do
  let image ← ImageLibraries.openImage data
  ImageLibraries.verify image

def validateBytes (data : Bytes) (declaredSizeBytes : ℕ) (declaredContentType : String) :
    Except PillowError ValidationResult :=
  if data.length ≠ declaredSizeBytes then
    .ok { isValid := false, reason := "declared size does not match the uploaded object's size" }
  else if declaredContentType ∉ acceptedMimeTypes then
    .ok { isValid := false, reason := s!"unsupported declared content type: {declaredContentType}" }
  else if ImageLibraries.guess data ≠ some declaredContentType then
    let actual := (ImageLibraries.guess data).getD "unknown"
    .ok { isValid := false, reason := s!"magic bytes ({actual}) do not match declared type" }
  else
    match openAndVerify data with
    | .ok () => .ok { isValid := true }
    | .error (.other name) => .error (.other name)
    | .error _ => .ok { isValid := false, reason := "file failed to decode as a valid image" }

/-! ## Derivatives -/

/-- `THUMBNAIL_SIZE`. -/
def thumbnailSize : ℕ × ℕ := (320, 320)

structure Derivatives where
  webp : Bytes
  avif : Bytes
  thumbnailWebp : Bytes
  deriving DecidableEq, Repr

def generateDerivatives (data : Bytes) : Except PillowError Derivatives := do
  let image ← ImageLibraries.openImage data
  let clean ← ImageLibraries.convert "RGB" image
  let webp ← ImageLibraries.save "WEBP" clean
  let avif ← ImageLibraries.save "AVIF" clean
  let thumbnail ← ImageLibraries.thumbnail thumbnailSize clean
  let thumbnailWebp ← ImageLibraries.save "WEBP" thumbnail
  return { webp := webp, avif := avif, thumbnailWebp := thumbnailWebp }

/-! ## The task -/

/-- `_reject(media_upload, reason)`. -/
def rejectUpload (mediaUpload : MediaUpload) (reason : String) : Statement Unit :=
  Objects.saveChecked mediaUpload.id (MediaUpload.reject reason) fun _ => rfl

/-- `default_storage.save(name, content)`, which returns the key. -/
def saveObject (services : ObjectServices) (name : String) (content : Bytes) : Statement String :=
  Tx.ofExcept ((services.saveObject name content).mapError .libraryError)

/-- `READY_PREFIX` and the id of the upload. -/
def readyBase (mediaUpload : MediaUpload) : String := s!"products/{toString mediaUpload.id}"

/-- Derive, store the derivatives, and mark the upload ready. -/
def deriveUpload (services : ObjectServices) (mediaUpload : MediaUpload) (data : Bytes) :
    Statement Unit := do
  let derivatives ← Tx.ofExcept ((generateDerivatives data).mapError PillowError.unhandled)
  let base := readyBase mediaUpload
  let webpKey ← saveObject services s!"{base}.webp" derivatives.webp
  let avifKey ← saveObject services s!"{base}.avif" derivatives.avif
  let thumbnailKey ← saveObject services s!"{base}-thumb.webp" derivatives.thumbnailWebp
  Objects.saveChecked mediaUpload.id (MediaUpload.makeReady webpKey avifKey thumbnailKey)
    fun _ => rfl

/-- Scan, and derive what was not flagged. -/
def scanUpload (services : ObjectServices) (mediaUpload : MediaUpload) (data : Bytes) :
    Statement Unit :=
  match scanBytes services data with
  | .ok () => deriveUpload services mediaUpload data
  | .error (.infectedFile signature) =>
    rejectUpload mediaUpload s!"file is infected: {signature}"
  | .error (.unavailable name) => Tx.raise (.app (.libraryError name))

/-- Read the object and judge it. -/
def processUpload (services : ObjectServices) (mediaUpload : MediaUpload) : Statement Unit := do
  let data ← Tx.ofExcept ((services.openObject mediaUpload.storageKey).mapError .libraryError)
  let result ← Tx.ofExcept ((validateBytes data mediaUpload.declaredSizeBytes
    mediaUpload.declaredContentType).mapError PillowError.unhandled)
  if result.isValid then scanUpload services mediaUpload data
  else rejectUpload mediaUpload result.reason

/-- `MediaUpload.objects.select_for_update().get(pk=media_upload_id)`. -/
def getMediaUpload (mediaUploadId : Id) : Statement MediaUpload :=
  Objects.get fun m : MediaUpload => decide (m.id = mediaUploadId)

/-- The task is one transaction block; a duplicate delivery finds the upload processed. -/
def validateUpload (services : ObjectServices) (mediaUploadId : Id) : Statement Unit := do
  let mediaUpload ← getMediaUpload mediaUploadId
  if mediaUpload.status = .pending then processUpload services mediaUpload
  else return ()

end Validation

end BePyEco
