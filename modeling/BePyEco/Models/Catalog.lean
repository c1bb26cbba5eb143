import BePyEco.Common.Values
import BePyEco.Library.Table

/-!
# Rows of the catalog tables

Products are presentational; SKU, price and weight live on their variants.  Neither is ever
deleted, only archived.
-/

namespace BePyEco

open Library

structure Category where
  id : Id
  parentId : Option Id := none
  deriving DecidableEq, Repr

instance : Model Category where
  pk := Category.id
  fits _ := true
  conflicts _ _ := false
  conflicts_symm _ _ := rfl

structure Brand where
  id : Id
  deriving DecidableEq, Repr

instance : Model Brand where
  pk := Brand.id
  fits _ := true
  conflicts _ _ := false
  conflicts_symm _ _ := rfl

inductive ProductStatus
  | draft
  | active
  | inactive
  | archived
  deriving DecidableEq, Repr

structure Product where
  id : Id
  createdAt : Time
  status : ProductStatus := .draft
  brandId : Option Id
  primaryCategoryId : Id
  deriving DecidableEq, Repr

instance : Model Product where
  pk := Product.id
  fits _ := true
  conflicts _ _ := false
  conflicts_symm _ _ := rfl

/-- The through table of `Product.categories`. -/
structure ProductCategory where
  id : Id
  productId : Id
  categoryId : Id
  deriving DecidableEq, Repr

/-- `unique_product_category`. -/
instance : Model ProductCategory where
  pk := ProductCategory.id
  fits _ := true
  conflicts a b := decide (a.productId = b.productId ∧ a.categoryId = b.categoryId)
  conflicts_symm a b := by simp [eq_comm]

/-- An instance of `AttributeValue`, which nothing below stores. -/
structure AttributeValue where
  id : Id
  attributeId : Id
  deriving DecidableEq, Repr

/-- The largest value of a `PositiveIntegerField`. -/
def maxPositiveInteger : ℕ := 2147483647

/-- `attribute_combination_key` is kept as the ids that it joins, in the order of their texts:
a UUID has 36 characters, so texts are ordered as the numbers they write. -/
structure Variant where
  id : Id
  createdAt : Time
  productId : Id
  sku : String
  barcode : Option String
  basePriceVnd : ℕ
  weightGrams : ℕ
  isArchived : Bool := false
  attributeCombinationKey : List Id := []
  deriving DecidableEq, Repr

namespace Variant

/-- The length of the text of a key: ids of 36 characters with a colon between them. -/
def keyLength (key : List Id) : ℕ := 37 * key.length - 1

/-- `unique_attribute_combination_per_product`. -/
def SameCombination (a b : Variant) : Prop :=
  a.productId = b.productId ∧ a.attributeCombinationKey = b.attributeCombinationKey ∧
    a.attributeCombinationKey ≠ []

instance (a b : Variant) : Decidable (SameCombination a b) :=
  inferInstanceAs (Decidable (_ ∧ _ ∧ _))

end Variant

instance : Model Variant where
  pk := Variant.id
  fits v := decide (v.sku.length ≤ 64) && decide ((v.barcode.getD "").length ≤ 64) &&
    decide (v.basePriceVnd ≤ maxPositiveInteger) && decide (v.weightGrams ≤ maxPositiveInteger) &&
    decide (Variant.keyLength v.attributeCombinationKey ≤ 255)
  conflicts a b := decide (a.sku = b.sku) ||
    decide (a.barcode = b.barcode ∧ a.barcode ≠ none) || decide (a.SameCombination b)
  conflicts_symm a b := by
    have hbarcode : (a.barcode = b.barcode ∧ a.barcode ≠ none) ↔
        (b.barcode = a.barcode ∧ b.barcode ≠ none) := by
      constructor
      · rintro ⟨h, hne⟩
        exact ⟨h.symm, h ▸ hne⟩
      · rintro ⟨h, hne⟩
        exact ⟨h.symm, h ▸ hne⟩
    have hcombination : a.SameCombination b ↔ b.SameCombination a := by
      constructor
      · rintro ⟨hproduct, hkey, hne⟩
        exact ⟨hproduct.symm, hkey.symm, hkey ▸ hne⟩
      · rintro ⟨hproduct, hkey, hne⟩
        exact ⟨hproduct.symm, hkey.symm, hkey ▸ hne⟩
    simp only [hbarcode, hcombination, eq_comm]

/-- One value of one attribute of a variant. -/
structure VariantAttributeValue where
  id : Id
  variantId : Id
  attributeId : Id
  attributeValueId : Id
  deriving DecidableEq, Repr

/-- `unique_attribute_per_variant`. -/
instance : Model VariantAttributeValue where
  pk := VariantAttributeValue.id
  fits _ := true
  conflicts a b := decide (a.variantId = b.variantId ∧ a.attributeId = b.attributeId)
  conflicts_symm a b := by simp [eq_comm]

/-! ## Updates -/

def Product.setStatus (status : ProductStatus) : Assignment Product where
  apply p := { p with status := status }
  pk_apply _ := rfl
  fits_apply _ := rfl
  conflicts_apply _ _ := rfl

/-- Other values of `created_at`, which no code of the application writes. -/
def Product.setCreatedAt (createdAt : Id → Time) : Assignment Product where
  apply p := { p with createdAt := createdAt p.id }
  pk_apply _ := rfl
  fits_apply _ := rfl
  conflicts_apply _ _ := rfl

def Variant.setIsArchived (isArchived : Bool) : Assignment Variant where
  apply v := { v with isArchived := isArchived }
  pk_apply _ := rfl
  fits_apply _ := rfl
  conflicts_apply _ _ := rfl

end BePyEco
