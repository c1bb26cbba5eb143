import BePyEco.Api.AccountViews
import BePyEco.Catalog.Categories
import BePyEco.Catalog.Storefront
import BePyEco.Localization.SuggestLocale
import BePyEco.Media.Uploads

/-!
# Views of the catalog, media and localization APIs

The admin read of a category and the publication of a product, the two views of the storefront, the
request for an upload, and the locale suggestion.  The storefront of the catalog lets everybody in,
but a token that is presented is checked all the same.
-/

namespace BePyEco

open Library

/-! ## Catalog, admin -/

/-- The entity that the translations of a category belong to. -/
def Category.entity (c : Category) : Entity := ⟨⟨"catalog", "category"⟩, c.id⟩

def optionalText : Option String → Json
  | none => .null
  | some text => .str text

/-- `Category.objects.get(pk=category_id)`, `none` for a category there is not. -/
def findCategory (categoryId : Id) : Statement (Option Category) :=
  (do let category ← Objects.get fun c : Category => decide (c.id = categoryId)
      return some category : Statement (Option Category)).handling .doesNotExist (pure none)

/-- The data of `CategoryDetailView`. -/
def categoryRepresentation (category : Category) (name : LocalizedField) : Json :=
  .obj [("id", .str (toString category.id)),
    ("parent_id", optionalText (category.parentId.map toString)),
    ("name", .obj [("value", optionalText name.value), ("locale", optionalText name.locale),
      ("is_fallback", .bool name.isFallback)])]

/-- `CategoryDetailView.get`; `locale` is the query parameter. -/
def CategoryDetailView.get (categoryId : Id) (locale : Option String) (request : HttpRequest) :
    Service Answer := do
  match ← findCategory categoryId with
  | none => return .categoryNotFound
  | some category =>
    let name ← (Tx.read fun w =>
      getLocalizedField w category.entity "name" (locale.getD defaultLocale) defaultLocale :
      Statement LocalizedField)
    return .response (okResponse (categoryRepresentation category name) request.context)

/-- `Product.objects.get(pk=product_id)`. -/
def getProduct (productId : Id) : Statement Product :=
  (Objects.get fun p : Product => decide (p.id = productId)).handling .doesNotExist
    (Tx.raise (.app .productNotFound))

/-- The stored value of a status. -/
def ProductStatus.value : ProductStatus → String
  | draft => "draft"
  | active => "active"
  | inactive => "inactive"
  | archived => "archived"

/-- `ProductPublishView.post`. -/
def ProductPublishView.post (productId : Id) (request : HttpRequest) : Service Response := do
  let product ← getProduct productId
  let product ← publishProduct product defaultHasReadyMedia
  return okResponse (.obj [("id", .str (toString product.id)),
    ("status", .str product.status.value)]) request.context

/-! ## Catalog, storefront -/

/-- A view that lets everybody in, behind the default authentication. -/
def ifAnyone (request : HttpRequest) (handler : Service Response) : Service Answer := do
  let _ ← authenticate request.authorization
  answering handler

/-- The item of a product in a response. -/
def ProductItem.toJson (item : ProductItem) : Json :=
  .obj [("id", .str (toString item.id)), ("name", optionalText item.name),
    ("is_name_fallback", .bool item.isNameFallback),
    ("base_price_vnd", match item.basePriceVnd with
      | none => .null
      | some price => .int price)]

section Storefront

variable [PyText]

/-- `ProductListView.get`; the header `Content-Language` is not part of the body. -/
def ProductListView.get (acceptLanguage : Option String) (request : HttpRequest) :
    Service Response := do
  let (items, _) ← productListView acceptLanguage
  return okResponse (.arr (items.map ProductItem.toJson)) request.context

/-- `ProductDetailView.get`. -/
def ProductDetailView.get (acceptLanguage : Option String) (productId : Id)
    (request : HttpRequest) : Service Response := do
  let (item, _) ← productDetailView acceptLanguage productId
  return okResponse item.toJson request.context

/-- `LocaleSuggestionView.get`. -/
def LocaleSuggestionView.get (acceptLanguage : Option String) (request : HttpRequest) :
    Service Response := do
  let suggestion ← suggestLocale acceptLanguage
  return okResponse (.obj [("country_code", .str suggestion.countryCode),
    ("locale", .str suggestion.locale), ("currency", .str suggestion.currency)]) request.context

end Storefront

/-! ## Media -/

/-- The parser of `IntegerField()`. -/
class IntegerFields where
  integerField : Option Json → Option ℤ

/-- `IntegerField(min_value=1, max_value=MAX_UPLOAD_SIZE_BYTES)`. -/
def sizeBytesField [IntegerFields] (data : Json) : Option ℕ :=
  ((IntegerFields.integerField (data.field "size_bytes")).filter fun size : ℤ =>
    decide (1 ≤ size) && decide (size ≤ (maxUploadSizeBytes : ℤ))).map Int.toNat

/-- `RequestUploadSerializer`. -/
def requestUploadSerializer [SerializerFields] [IntegerFields] (data : Json) :
    Except ApiError (String × ℕ) := do
  let _ ← bodyFields data
  let contentType := SerializerFields.charField true (data.field "content_type")
  let sizeBytes := sizeBytesField data
  match contentType, sizeBytes with
  | some contentType, some sizeBytes => .ok (contentType, sizeBytes)
  | _, _ => .error (.validationError (refused
      [("content_type", contentType.isSome), ("size_bytes", sizeBytes.isSome)]))

/-- `RequestUploadView.post`. -/
def RequestUploadView.post [SerializerFields] [IntegerFields] [PresignedPosts]
    (request : HttpRequest) : Service Response := do
  let (contentType, sizeBytes) ← Program.ofExcept (requestUploadSerializer request.data)
  let credential ← requestUpload contentType sizeBytes
  return okResponse (.obj [("media_upload_id", .str (toString credential.mediaUpload.id)),
    ("upload_url", .str credential.uploadUrl),
    ("upload_fields", .obj (credential.uploadFields.map fun f => (f.1, .str f.2)))])
    request.context

end BePyEco
