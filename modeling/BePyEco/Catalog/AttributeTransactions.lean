import BePyEco.Catalog.Products
import BePyEco.Library.Interleaving
import BePyEco.Library.ReadCommitted

/-!
# Transactions of attribute assignments

`set_variant_attributes` as a transaction among others, one statement at a time under READ
COMMITTED: the query for a conflict, the DELETE, the INSERT, the UPDATE of the key, and the commit.
The DELETE has two control points, since it removes the rows that were committed when it began, and
may have to wait for another transaction before it removes them.
-/

namespace BePyEco

open Library

/-- The two tables, and the next id of an attribute row. -/
structure AttributeStore (ι : Type) where
  variants : List (Version ι Variant) := []
  attributeValues : List (Version ι VariantAttributeValue) := []
  nextId : ℕ := 0
  deriving DecidableEq

/-- A call with its arguments; `xid` is its transaction. -/
structure AttributeCall (ι : Type) where
  xid : ι
  variant : Variant
  attributeValues : List AttributeValue

/-- What a call does next.  A DELETE that has begun has seen the rows with the given ids. -/
inductive AttributeStage
  | checking
  | deleting
  | waiting (seen : List Id)
  | inserting
  | updating
  | committing
  | returned
  | raised (e : Raised ApiError)
  deriving DecidableEq

structure AttributePc (ι : Type) where
  call : AttributeCall ι
  stage : AttributeStage

namespace AttributeCall

variable {ι : Type} (call : AttributeCall ι)

/-- `combination_key`. -/
def key : List Id := combinationKey call.attributeValues

/-- The rows that the call inserts. -/
def newRows (nextId : ℕ) : List VariantAttributeValue :=
  (call.attributeValues.zipIdx nextId).map fun (value, id) => {
    id := id
    variantId := call.variant.id
    attributeId := value.attributeId
    attributeValueId := value.id }

/-- A row of the variant. -/
def ofVariant (a : VariantAttributeValue) : Bool := decide (a.variantId = call.variant.id)

/-- The row of the variant itself. -/
def isVariant (v : Variant) : Bool := decide (v.id = call.variant.id)

/-- Up to the first statement. -/
def start : AttributePc ι where
  call := call
  stage := if (call.attributeValues.map AttributeValue.attributeId).Nodup then .checking
    else .raised (.app .duplicateAttribute)

/-- The call goes on. -/
def goesTo (stage : AttributeStage) (s : AttributeStore ι) :
    Option (AttributePc ι × AttributeStore ι) :=
  some (⟨call, stage⟩, s)

variable [DecidableEq ι]

/-- The call raises, and its transaction is rolled back. -/
def fails (e : Raised ApiError) (s : AttributeStore ι) :
    Option (AttributePc ι × AttributeStore ι) :=
  some (⟨call, .raised e⟩, { s with
    variants := Versions.rollback call.xid s.variants
    attributeValues := Versions.rollback call.xid s.attributeValues })

/-- The UPDATE of the key: a new version of the row takes the place of the committed one. -/
def update (s : AttributeStore ι) (v : Variant) : Option (AttributePc ι × AttributeStore ι) :=
  let updated := { v with attributeCombinationKey := call.key }
  if Model.fits updated then
    match Versions.insertAll call.xid [updated]
        (Versions.delete call.xid call.isVariant s.variants) with
    | .done variants => call.goesTo .committing { s with variants := variants }
    | .conflict => call.fails (.db .integrityError) s
    | .waits => none
  else call.fails (.db .dataError) s

end AttributeCall

open AttributeCall in
/-- The statement that a call executes; `none` when it is over or has to wait. -/
def AttributePc.next {ι : Type} [DecidableEq ι] :
    AttributePc ι → AttributeStore ι → Option (AttributePc ι × AttributeStore ι)
  | ⟨call, .checking⟩, s =>
    if call.key ≠ [] ∧
        (Versions.committed s.variants).any (combinationTaken call.variant call.key) = true
    then call.fails (.app .duplicateAttributeCombination) s
    else call.goesTo .deleting s
  | ⟨call, .deleting⟩, s =>
    call.goesTo (.waiting (((Versions.committed s.attributeValues).filter call.ofVariant).map
      VariantAttributeValue.id)) s
  | ⟨call, .waiting seen⟩, s =>
    let p := fun a : VariantAttributeValue => call.ofVariant a && seen.contains a.id
    if Versions.held call.xid p s.attributeValues then none
    else call.goesTo .inserting { s with
      attributeValues := Versions.delete call.xid p s.attributeValues }
  | ⟨call, .inserting⟩, s =>
    match Versions.insertAll call.xid (call.newRows s.nextId) s.attributeValues with
    | .done attributeValues => call.goesTo .updating { s with
        attributeValues := attributeValues
        nextId := s.nextId + call.attributeValues.length }
    | .conflict => call.fails (.db .integrityError) s
    | .waits => none
  | ⟨call, .updating⟩, s =>
    if Versions.held call.xid call.isVariant s.variants then none
    else
      match (Versions.committed s.variants).find? call.isVariant with
      | some v => call.update s v
      | none => call.fails (.db .noRowUpdated) s
  | ⟨call, .committing⟩, s =>
    call.goesTo .returned { s with
      variants := Versions.commit call.xid s.variants
      attributeValues := Versions.commit call.xid s.attributeValues }
  | ⟨_, .returned⟩, _ => none
  | ⟨_, .raised _⟩, _ => none

variable {ι : Type} [DecidableEq ι]

/-- Calls of `set_variant_attributes`, one statement at a time. -/
def attributeSystem : System (AttributePc ι) (AttributeStore ι) where
  next := AttributePc.next
  env s s' := s' = s

/-- No call has executed a statement yet. -/
def attributePool (s : AttributeStore ι) (calls : ι → Variant × List AttributeValue) :
    Pool ι (AttributePc ι) (AttributeStore ι) where
  store := s
  pc i := AttributeCall.start ⟨i, (calls i).1, (calls i).2⟩

end BePyEco
