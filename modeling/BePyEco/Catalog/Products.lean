import BePyEco.Media.Uploads
import BePyEco.Translation.Entries

/-!
# Products and variants

Creating, publishing and archiving products and variants, and how the storefront shows them.
Publication checks its preconditions one query after the other and then changes the status and
emits its event in one transaction.

A service uses an instance that it is given for its key only, except where it says so.
-/

namespace BePyEco

open Library

/-! ## Constants -/

/-- `DEFAULT_LOCALE`. -/
def defaultLocale : String := "vi"

/-- `REQUIRED_TRANSLATION_FIELDS`. -/
def requiredTranslationFields : List String := ["name"]

/-- `PRODUCT_PUBLISHED_EVENT`. -/
def productPublishedEvent : String := "catalog.ProductPublished"

/-- The entity that the translations of a product belong to. -/
def Product.entity (p : Product) : Entity := ⟨⟨"catalog", "product"⟩, p.id⟩

/-! ## Creating -/

/-- The row of a new product. -/
def draftProduct (primaryCategory : Category) (brandId : Option Id) (now : Time) (id : Id) :
    Product where
  id := id
  createdAt := now
  brandId := brandId
  primaryCategoryId := primaryCategory.id

/-- `Product.objects.create(...)`; `created_at` is the time of the insert. -/
def insertProduct (primaryCategory : Category) (brandId : Option Id) : Statement Product := do
  requireStored Category [primaryCategory.id]
  requireStored Brand brandId.toList
  let now ← timezoneNow
  Objects.create (draftProduct primaryCategory brandId now)

/-- The row of a category of a product. -/
def categoryRow (productId : Id) (category : Category) (id : Id) : ProductCategory :=
  ⟨id, productId, category.id⟩

/-- `ProductCategory.objects.bulk_create(...)`. -/
def insertProductCategories (productId : Id) (categories : List Category) : Statement Unit := do
  requireStored Product (categories.map fun _ => productId)
  requireStored Category (categories.map Category.id)
  Objects.bulkCreate (categoryRow productId) (fun _ _ => rfl) categories

/-- `categories or [primary_category]`. -/
def categoriesOr (primaryCategory : Category) : Option (List Category) → List Category
  | none => [primaryCategory]
  | some [] => [primaryCategory]
  | some categories => categories

def createProduct (primaryCategory : Category) (categories : Option (List Category))
    (brandId : Option Id) : Service Product := do
  let categories := categoriesOr primaryCategory categories
  Program.require (categories.any fun category => category.id == primaryCategory.id)
    .primaryCategoryNotInCategories
  let product ← insertProduct primaryCategory brandId
  insertProductCategories product.id categories
  return product

def createVariant (product : Product) (sku : String) (basePriceVnd weightGrams : ℕ)
    (barcode : Option String) : Statement Variant := do
  let now ← timezoneNow
  Objects.create fun id => {
    id := id
    createdAt := now
    productId := product.id
    sku := sku
    barcode := barcode
    basePriceVnd := basePriceVnd
    weightGrams := weightGrams }

/-! ## Attributes -/

/-- `_combination_key(attribute_values)`. -/
def combinationKey (attributeValues : List AttributeValue) : List Id :=
  (attributeValues.map AttributeValue.id).insertionSort (· ≤ ·)

/-- Another variant of the product has the combination. -/
def combinationTaken (variant : Variant) (key : List Id) (v : Variant) : Bool :=
  decide (v.productId = variant.productId) && decide (v.attributeCombinationKey = key) &&
    !decide (v.id = variant.id)

/-- `variant.save(...)` after `variant.attribute_combination_key = combination_key`. -/
def saveCombinationKey (variantId : Id) (key : List Id) : Statement Unit :=
  Objects.saveChecked variantId (fun v : Variant => { v with attributeCombinationKey := key })
    fun _ => rfl

/-- One transaction; the product of the variant is that of the instance. -/
def setVariantAttributes (variant : Variant) (attributeValues : List AttributeValue) :
    Statement Variant := do
  Tx.require (decide (attributeValues.map AttributeValue.attributeId).Nodup) .duplicateAttribute
  let key := combinationKey attributeValues
  let conflictExists ← Objects.exists? (combinationTaken variant key)
  Tx.require (decide (key = []) || !conflictExists) .duplicateAttributeCombination
  Objects.delete fun a : VariantAttributeValue => decide (a.variantId = variant.id)
  Objects.bulkCreate (fun (value : AttributeValue) id => ({
    id := id
    variantId := variant.id
    attributeId := value.attributeId
    attributeValueId := value.id } : VariantAttributeValue)) (fun _ _ => rfl) attributeValues
  saveCombinationKey variant.id key
  return { variant with attributeCombinationKey := key }

/-! ## Archiving -/

/-- `product.save(update_fields=["status", ...])`. -/
def saveStatus (productId : Id) (status : ProductStatus) : Statement Unit :=
  Objects.save productId (Product.setStatus status)

def archiveProduct (product : Product) : Service Product := do
  saveStatus product.id .archived
  return { product with status := .archived }

/-- `variant.save(update_fields=["is_archived", ...])`. -/
def saveArchived (variantId : Id) : Statement Unit :=
  Objects.save variantId (Variant.setIsArchived true)

def archiveVariant (variant : Variant) : Service Variant := do
  saveArchived variant.id
  return { variant with isArchived := true }

/-! ## Publishing -/

/-- An attached upload that is ready. -/
def readyMediaOf (productId : Id) (m : MediaUpload) : Bool :=
  decide (m.productId = some productId) && decide (m.status = .ready)

/-- A variant of the product that is not archived. -/
def sellableOf (productId : Id) (v : Variant) : Bool :=
  decide (v.productId = productId) && !v.isArchived

/-- `_default_has_ready_media(product)`. -/
def defaultHasReadyMedia (product : Product) : Statement Bool :=
  Objects.exists? (readyMediaOf product.id)

/-- The fields that are approved in the default locale. -/
def approvedDefaultFields (w : World) (product : Product) : List String :=
  ((entriesForEntity w product.entity).filter fun e =>
    decide (e.locale = defaultLocale) && e.isApproved).map TranslationEntry.field

lemma mem_approvedDefaultFields {w : World} {product : Product} {field : String} :
    field ∈ approvedDefaultFields w product ↔ ∃ e ∈ w.db.translationEntries.rows,
      e.slot = ⟨product.entity, defaultLocale, field⟩ ∧ e.isApproved = true := by
  simp only [approvedDefaultFields, entriesForEntity, List.mem_map, List.mem_filter,
    Bool.and_eq_true, decide_eq_true_eq]
  constructor
  · rintro ⟨e, ⟨⟨he, hentity⟩, hlocale, happroved⟩, hfield⟩
    refine ⟨e, he, ?_, happroved⟩
    rw [← hentity, ← hlocale, ← hfield]
    rfl
  · rintro ⟨e, he, hslot, happroved⟩
    exact ⟨e, ⟨⟨he, congrArg TranslationSlot.entity hslot⟩,
      congrArg TranslationSlot.locale hslot, happroved⟩, congrArg TranslationSlot.field hslot⟩

/-- `_has_complete_default_locale_content(product)`. -/
def hasCompleteDefaultLocaleContent (product : Product) : Statement Bool :=
  Tx.read fun w => requiredTranslationFields.all fun field =>
    decide (field ∈ approvedDefaultFields w product)

/-- `_has_sellable_variant(product)`. -/
def hasSellableVariant (product : Product) : Statement Bool :=
  Objects.exists? (sellableOf product.id)

/-- `emit_event(...)`. -/
def emitEvent (eventType : String) (payload : Json) : Statement OutboxEvent :=
  Objects.create fun id => { id := id, eventType := eventType, payload := payload }

/-- The transaction block of `publish_product`. -/
def publishBlock (product : Product) : Statement Unit := do
  saveStatus product.id .active
  let _ ← emitEvent productPublishedEvent
    (.obj [("product_id", .str (toString product.id))])
  return ()

/-- `hasReadyMedia` is the injectable check. -/
def publishProduct (product : Product) (hasReadyMedia : Product → Statement Bool) :
    Service Product := do
  let complete ← hasCompleteDefaultLocaleContent product
  Program.require complete .incompleteDefaultLocaleContent
  let sellable ← hasSellableVariant product
  Program.require sellable .noSellableVariant
  let ready ← hasReadyMedia product
  Program.require ready .noReadyMedia
  publishBlock product
  return { product with status := .active }

/-! ## Guarantees -/

section Guarantees

variable {R : World → World → Prop} [Std.Refl R] [IsTrans World R]

/-- `create_product` moves the world as the rows do that it inserts. -/
lemma createProduct_guarantees {primaryCategory : Category} {categories : Option (List Category)}
    {brandId : Option Id}
    (hrow : ∀ now, (Objects.create (draftProduct primaryCategory brandId now) :
      Statement Product).Guarantees R)
    (hrows : ∀ productId categories, (Objects.bulkCreate (categoryRow productId) (fun _ _ => rfl)
      categories : Statement Unit).Guarantees R) :
    (createProduct primaryCategory categories brandId).Guarantees R := by
  have hinsert : (insertProduct primaryCategory brandId).Guarantees R :=
    (requireStored_guarantees _).bind fun _ => (requireStored_guarantees _).bind fun _ =>
      (Tx.guarantees_read _).bind hrow
  have hcategories : ∀ productId categories,
      (insertProductCategories productId categories).Guarantees R := fun productId categories =>
    (requireStored_guarantees _).bind fun _ => (requireStored_guarantees _).bind fun _ =>
      hrows productId categories
  refine (Program.guarantees_require _ _).bind fun _ => ?_
  refine (Program.guarantees_exec hinsert).bind fun product => ?_
  exact (Program.guarantees_exec (hcategories _ _)).bind fun _ => trivial

omit [IsTrans World R] in
lemma archiveProduct_guarantees {product : Product}
    (hsave : (saveStatus product.id .archived).Guarantees R) :
    (archiveProduct product).Guarantees R :=
  (Program.guarantees_exec hsave).bind fun _ => trivial

omit [IsTrans World R] in
lemma archiveVariant_guarantees {variant : Variant}
    (hsave : (saveArchived variant.id).Guarantees R) : (archiveVariant variant).Guarantees R :=
  (Program.guarantees_exec hsave).bind fun _ => trivial

/-- `publish_product` moves the world as the two writes of its block do. -/
lemma publishProduct_guarantees {product : Product} {hasReadyMedia : Product → Statement Bool}
    (hready : (hasReadyMedia product).Guarantees R)
    (hsave : (saveStatus product.id .active).Guarantees R)
    (hemit : ∀ payload, (emitEvent productPublishedEvent payload).Guarantees R) :
    (publishProduct product hasReadyMedia).Guarantees R := by
  have hblock : (publishBlock product).Guarantees R :=
    hsave.bind fun _ => (hemit _).bind fun _ => Tx.guarantees_pure _
  refine (Program.guarantees_exec (Tx.guarantees_read _)).bind fun _ => ?_
  refine (Program.guarantees_require _ _).bind fun _ => ?_
  refine (Program.guarantees_exec (Tx.guarantees_read _)).bind fun _ => ?_
  refine (Program.guarantees_require _ _).bind fun _ => ?_
  refine (Program.guarantees_exec hready).bind fun _ => ?_
  refine (Program.guarantees_require _ _).bind fun _ => ?_
  exact (Program.guarantees_exec hblock).bind fun _ => trivial

end Guarantees

/-! ## What the inserts leave -/

section Inserts

variable {w w' : World}

lemma insertProduct_ok {primaryCategory : Category} {brandId : Option Id} {p : Product}
    (h : (insertProduct primaryCategory brandId).run w = .ok (p, w')) :
    ∃ t : Table Product, w' = Stored.put t w ∧ t.rows = w.db.products.rows ++ [p] ∧
      p = draftProduct primaryCategory brandId w.now w.db.products.next := by
  obtain ⟨u, w₁, hcategory, hrest⟩ := Tx.bind_ok h
  obtain ⟨rfl, -⟩ := requireStored_ok hcategory
  obtain ⟨u', w₂, hbrand, hinsert⟩ := Tx.bind_ok hrest
  obtain ⟨rfl, -⟩ := requireStored_ok hbrand
  obtain ⟨now, w₃, hnow, hcreate⟩ := Tx.bind_ok hinsert
  cases hnow
  obtain ⟨t, hrow, rfl⟩ := Objects.create_ok hcreate
  obtain ⟨hp, hrows, -⟩ := Table.insert_spec hrow
  exact ⟨t, rfl, hrows, hp⟩

lemma insertProductCategories_ok {productId : Id} {categories : List Category} {u : Unit}
    (h : (insertProductCategories productId categories).run w = .ok (u, w')) :
    ∃ t : Table ProductCategory, w' = Stored.put t w := by
  obtain ⟨u₁, w₁, hproduct, hrest⟩ := Tx.bind_ok h
  obtain ⟨rfl, -⟩ := requireStored_ok hproduct
  obtain ⟨u₂, w₂, hcategories, hcreate⟩ := Tx.bind_ok hrest
  obtain ⟨rfl, -⟩ := requireStored_ok hcategories
  obtain ⟨t, keys, rfl, -⟩ := Objects.bulkCreate_ok hcreate
  exact ⟨t, rfl⟩

end Inserts

/-! ## The storefront -/

/-- What the storefront shows of a product. -/
structure ProductItem where
  id : Id
  name : Option String
  isNameFallback : Bool
  basePriceVnd : Option ℕ
  deriving DecidableEq, Repr

/-- `filter(is_archived=False).order_by("created_at").first()`; the sort is stable. -/
def firstVariant (w : World) (product : Product) : Option Variant :=
  ((w.db.variants.rows.filter (sellableOf product.id)).insertionSort
    fun a b => a.createdAt ≤ b.createdAt).head?

/-- `_serialize_product(product, locale)`. -/
def serializeProduct (w : World) (product : Product) (locale : String) : ProductItem × String :=
  let name := getLocalizedField w product.entity "name" locale defaultLocale
  let item : ProductItem := {
    id := product.id
    name := name.value
    isNameFallback := name.isFallback
    basePriceVnd := (firstVariant w product).map Variant.basePriceVnd }
  (item, name.locale.getD locale)

end BePyEco
