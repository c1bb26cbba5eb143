import BePyEco.Catalog.Categories
import BePyEco.Catalog.Products
import BePyEco.Library.Triple
import BePyEco.Media.ValidateUpload

/-!
# Sequences of catalog calls

The services of the catalog, translation and media modules as one type of calls.
-/

namespace BePyEco

open Library

/-- A call of a service, with its arguments.  The instances may be any earlier copies of their
rows; a delivery of `validate_upload` comes with the storage and the scanner that it meets. -/
inductive CatalogCall
  | createProduct (primaryCategory : Category) (categories : Option (List Category))
      (brandId : Option Id)
  | createVariant (product : Product) (sku : String) (basePriceVnd weightGrams : ℕ)
      (barcode : Option String)
  | setVariantAttributes (variant : Variant) (attributeValues : List AttributeValue)
  | archiveVariant (variant : Variant)
  | archiveProduct (product : Product)
  | publishProduct (product : Product)
  | setTranslation (entity : Entity) (locale field value : String) (isAiGenerated : Bool)
  | approveTranslation (entryId : Id)
  | requestUpload (contentType : String) (sizeBytes : ℕ)
  | validateUpload (services : ObjectServices) (mediaUploadId : Id)
  | attachMediaToProduct (mediaUpload : MediaUpload) (product : Product)

variable [ImageLibraries] [PresignedPosts]

/-- The service that a call runs; `publish_product` with its default media check. -/
def CatalogCall.service : CatalogCall → Service Unit
  | createProduct primaryCategory categories brandId => do
    let _ ← BePyEco.createProduct primaryCategory categories brandId
    return ()
  | createVariant product sku basePriceVnd weightGrams barcode => do
    let _ ← BePyEco.createVariant product sku basePriceVnd weightGrams barcode
    return ()
  | setVariantAttributes variant attributeValues => do
    let _ ← BePyEco.setVariantAttributes variant attributeValues
    return ()
  | archiveVariant variant => do
    let _ ← BePyEco.archiveVariant variant
    return ()
  | archiveProduct product => do
    let _ ← BePyEco.archiveProduct product
    return ()
  | publishProduct product => do
    let _ ← BePyEco.publishProduct product defaultHasReadyMedia
    return ()
  | setTranslation entity locale field value isAiGenerated => do
    let _ ← BePyEco.setTranslation entity locale field value isAiGenerated
    return ()
  | approveTranslation entryId => do
    let _ ← BePyEco.approveTranslation entryId
    return ()
  | requestUpload contentType sizeBytes => do
    let _ ← BePyEco.requestUpload contentType sizeBytes
    return ()
  | validateUpload services mediaUploadId => do
    BePyEco.validateUpload services mediaUploadId
    return ()
  | attachMediaToProduct mediaUpload product => do
    let _ ← BePyEco.attachMediaToProduct mediaUpload product
    return ()

/-- The worlds reached from `w₀` by complete calls that each satisfy `ok` in the world where they
begin, with time passing in between. -/
abbrev CatalogHistory (ok : World → CatalogCall → Prop) (w₀ : World) : World → Prop :=
  Program.Sequence CatalogCall.service ok TimePasses w₀

/-- A catalog of two categories, where the examples start. -/
def twoCategories : World :=
  ((do
    let _ ← insertCategory none
    insertCategory none : Service Category).run {}).2

end BePyEco
