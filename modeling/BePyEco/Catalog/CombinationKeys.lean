import BePyEco.Catalog.Calls
import BePyEco.Catalog.KeyTexts
import BePyEco.Media.VettedUploads

/-!
# Combination keys

`attribute_combination_key` repeats what the rows of `VariantAttributeValue` say.  Along every
sequence of `create_variant` and `set_variant_attributes` calls the key of a variant is the
encoding of exactly the values that are attached to it, and with the constraint of the table no
two variants of a product have the same values (`faithfulKeys_of_history`).
-/

namespace BePyEco

open Library

/-! ## Rows and keys -/

/-- The values that are attached to a variant. -/
def attachedValues (w : World) (variantId : Id) : List Id :=
  (w.db.variantAttributeValues.rows.filter fun a => decide (a.variantId = variantId)).map
    VariantAttributeValue.attributeValueId

/-- The key of every variant says which values are attached to it.  `attributeOf` is the attribute
of every value. -/
structure FaithfulKeys (attributeOf : Id → Id) (w : World) : Prop where
  key : ∀ v ∈ w.db.variants.rows,
    keyText v.attributeCombinationKey = joinSorted (attachedValues w v.id)
  ownAttribute : ∀ a ∈ w.db.variantAttributeValues.rows,
    a.attributeId = attributeOf a.attributeValueId
  single : ∀ a ∈ w.db.variantAttributeValues.rows, ∀ b ∈ w.db.variantAttributeValues.rows,
    a.variantId = b.variantId → a.attributeId = b.attributeId → a = b
  distinct : ∀ u ∈ w.db.variants.rows, ∀ v ∈ w.db.variants.rows, u.productId = v.productId →
    (∀ id, id ∈ attachedValues w u.id ↔ id ∈ attachedValues w v.id) →
      attachedValues w u.id ≠ [] → u = v

/-- What each call keeps. -/
structure KeysInSync (attributeOf : Id → Id) (w : World) : Prop where
  owner : ∀ a ∈ w.db.variantAttributeValues.rows, ∃ v ∈ w.db.variants.rows, v.id = a.variantId
  ownAttribute : ∀ a ∈ w.db.variantAttributeValues.rows,
    a.attributeId = attributeOf a.attributeValueId
  bound : ∀ a ∈ w.db.variantAttributeValues.rows, a.attributeValueId < uuidBound
  key : ∀ v ∈ w.db.variants.rows,
    v.attributeCombinationKey = (attachedValues w v.id).insertionSort (· ≤ ·)

section Rows

variable {attributeOf : Id → Id} {w : World}

lemma mem_attachedValues {variantId id : Id} :
    id ∈ attachedValues w variantId ↔
      ∃ a ∈ w.db.variantAttributeValues.rows, a.variantId = variantId ∧
        a.attributeValueId = id := by
  simp [attachedValues, and_assoc]

/-- No value is attached twice. -/
lemma nodup_attachedValues (h : KeysInSync attributeOf w) (variantId : Id) :
    (attachedValues w variantId).Nodup := by
  refine List.Nodup.map_on ?_ ((w.db.variantAttributeValues.nodup.of_map _).filter _)
  intro a ha b hb hvalue
  simp only [List.mem_filter, decide_eq_true_eq] at ha hb
  refine w.db.variantAttributeValues.eq_of_conflicts ha.1 hb.1 (decide_eq_true ⟨?_, ?_⟩)
  · exact ha.2.trans hb.2.symm
  · rw [h.ownAttribute a ha.1, h.ownAttribute b hb.1, hvalue]

lemma KeysInSync.faithful (h : KeysInSync attributeOf w) : FaithfulKeys attributeOf w where
  key v hv := by
    rw [h.key v hv]
    refine keyText_insertionSort fun id hid => ?_
    obtain ⟨a, ha, -, rfl⟩ := mem_attachedValues.1 hid
    exact h.bound a ha
  ownAttribute := h.ownAttribute
  single a ha b hb hvariant hattribute :=
    w.db.variantAttributeValues.eq_of_conflicts ha hb (decide_eq_true ⟨hvariant, hattribute⟩)
  distinct u hu v hv hproduct hsame hne := by
    have hperm : (attachedValues w u.id).Perm (attachedValues w v.id) :=
      (List.perm_ext_iff_of_nodup (nodup_attachedValues h u.id) (nodup_attachedValues h v.id)).2
        hsame
    have hkeys : u.attributeCombinationKey = v.attributeCombinationKey := by
      rw [h.key u hu, h.key v hv]
      exact insertionSort_eq_of_perm hperm
    have hkey : u.attributeCombinationKey ≠ [] := by
      rw [h.key u hu]
      intro hnil
      have hlength := List.length_insertionSort (· ≤ ·) (attachedValues w u.id)
      rw [hnil] at hlength
      exact hne (List.length_eq_zero_iff.1 hlength.symm)
    refine w.db.variants.eq_of_conflicts hu hv ?_
    simp [Model.conflicts, Variant.SameCombination, hproduct, hkeys, hkeys ▸ hkey]

end Rows

/-! ## The two calls -/

section Calls

variable {attributeOf : Id → Id} {w w' : World}

/-- A new variant has no values and the empty key. -/
lemma KeysInSync.createVariant {product : Product} {sku : String} {basePriceVnd weightGrams : ℕ}
    {barcode : Option String} {v : Variant} (h : KeysInSync attributeOf w)
    (hrun : (createVariant product sku basePriceVnd weightGrams barcode).run w = .ok (v, w')) :
    KeysInSync attributeOf w' := by
  obtain ⟨now, w₁, hnow, hcreate⟩ := Tx.bind_ok hrun
  cases hnow
  obtain ⟨t, hinsert, rfl⟩ := Objects.create_ok hcreate
  obtain ⟨hv, hrows, -⟩ := Table.insert_spec hinsert
  have hmem : ∀ u, u ∈ t.rows ↔ u ∈ w.db.variants.rows ∨ u = v := by
    intro u
    rw [hrows, List.mem_append, List.mem_singleton]
    rfl
  refine ⟨fun a ha => ?_, h.ownAttribute, h.bound, fun u hu => ?_⟩
  · obtain ⟨u, hu, hid⟩ := h.owner a ha
    exact ⟨u, (hmem u).2 (Or.inl hu), hid⟩
  · obtain hu | rfl := (hmem u).1 hu
    · exact h.key u hu
    · have hnone : attachedValues w u.id = [] := by
        refine List.eq_nil_iff_forall_not_mem.2 fun id hid => ?_
        obtain ⟨a, ha, hvariant, -⟩ := mem_attachedValues.1 hid
        obtain ⟨o, ho, howner⟩ := h.owner a ha
        refine w.db.variants.pk_ne_next ho ?_
        have hnext : u.id = w.db.variants.next := by rw [hv]; rfl
        exact (howner.trans hvariant).trans hnext
      change u.attributeCombinationKey = (attachedValues w u.id).insertionSort _
      rw [hnone, hv]
      rfl

/-- The row of a value that `set_variant_attributes` inserts. -/
def attributeRow (variantId : Id) (value : AttributeValue) (id : Id) : VariantAttributeValue where
  id := id
  variantId := variantId
  attributeId := value.attributeId
  attributeValueId := value.id

lemma mem_zipWith_attributeRow {variantId : Id} {attributeValues : List AttributeValue}
    {keys : List Id} {a : VariantAttributeValue}
    (h : a ∈ List.zipWith (attributeRow variantId) attributeValues keys) :
    a.variantId = variantId ∧ ∃ value ∈ attributeValues,
      a.attributeId = value.attributeId ∧ a.attributeValueId = value.id := by
  rw [← List.map_uncurry_zip_eq_zipWith] at h
  obtain ⟨⟨value, id⟩, hmem, rfl⟩ := List.mem_map.1 h
  exact ⟨rfl, value, (List.of_mem_zip hmem).1, rfl, rfl⟩

lemma map_zipWith_attributeRow (variantId : Id) {attributeValues : List AttributeValue}
    {keys : List Id} (h : keys.length = attributeValues.length) :
    (List.zipWith (attributeRow variantId) attributeValues keys).map
      VariantAttributeValue.attributeValueId = attributeValues.map AttributeValue.id := by
  induction attributeValues generalizing keys with
  | nil => rfl
  | cons value rest ih =>
      cases keys with
      | nil => simp at h
      | cons id keys => simp [attributeRow, ih (Nat.succ.inj h)]

/-- What `set_variant_attributes` writes. -/
structure AttributesSet (w : World) (variant : Variant) (attributeValues : List AttributeValue)
    (values : Table VariantAttributeValue) (variants : Table Variant) : Prop where
  nodup : (attributeValues.map AttributeValue.attributeId).Nodup
  stored : ∃ v ∈ w.db.variants.rows, v.id = variant.id
  values_eq : ∃ keys, keys.length = attributeValues.length ∧ values.rows =
    (w.db.variantAttributeValues.rows.filter fun a => !decide (a.variantId = variant.id)) ++
      List.zipWith (attributeRow variant.id) attributeValues keys
  variants_eq : w.db.variants.rewrite (fun r => Model.pk r == variant.id)
    (fun v => { v with attributeCombinationKey := combinationKey attributeValues })
    (fun _ => rfl) = .ok variants

lemma setVariantAttributes_ok {variant v : Variant} {attributeValues : List AttributeValue}
    (h : (setVariantAttributes variant attributeValues).run w = .ok (v, w')) :
    ∃ (values : Table VariantAttributeValue) (variants : Table Variant),
      AttributesSet w variant attributeValues values variants ∧
        w' = Stored.put variants (Stored.put values w) := by
  obtain ⟨u, w₁, hrequire, h₁⟩ := Tx.bind_ok h
  obtain ⟨hw₁, hnodup⟩ := Tx.require_ok hrequire
  rw [hw₁] at h₁
  obtain ⟨conflictExists, w₂, hexists, h₂⟩ := Tx.bind_ok h₁
  cases hexists
  obtain ⟨u₂, w₃, hrequire₂, h₃⟩ := Tx.bind_ok h₂
  obtain ⟨hw₃, -⟩ := Tx.require_ok hrequire₂
  rw [hw₃] at h₃
  obtain ⟨u₃, w₄, hdelete, h₄⟩ := Tx.bind_ok h₃
  cases hdelete
  obtain ⟨u₄, w₅, hcreate, h₅⟩ := Tx.bind_ok h₄
  obtain ⟨values, keys, rfl, hlength, hrows⟩ := Objects.bulkCreate_ok hcreate
  obtain ⟨u₅, w₆, hsave, h₆⟩ := Tx.bind_ok h₅
  obtain ⟨variants, hrewrite, hw₆⟩ := Objects.saveChecked_ok hsave
  obtain ⟨r, hr, hid⟩ := Objects.exists_of_saveChecked_ok hsave
  cases h₆
  exact ⟨values, variants,
    ⟨of_decide_eq_true hnodup, ⟨r, hr, hid⟩, ⟨keys, hlength, hrows⟩, hrewrite⟩,
    hw₆⟩

/-- The values of a variant are those of the list, those of another variant stay. -/
lemma AttributesSet.attachedValues {variant : Variant} {attributeValues : List AttributeValue}
    {values : Table VariantAttributeValue} {variants : Table Variant}
    (h : AttributesSet w variant attributeValues values variants)
    (hw' : w' = Stored.put variants (Stored.put values w)) (variantId : Id) :
    attachedValues w' variantId =
      if variantId = variant.id then attributeValues.map AttributeValue.id
      else attachedValues w variantId := by
  obtain ⟨keys, hlength, hrows⟩ := h.values_eq
  have hvalues := map_zipWith_attributeRow variant.id hlength
  have howner : ∀ a ∈ List.zipWith (attributeRow variant.id) attributeValues keys,
      a.variantId = variant.id := fun a ha => (mem_zipWith_attributeRow ha).1
  have hafter : w'.db.variantAttributeValues.rows = values.rows := by rw [hw']; rfl
  unfold BePyEco.attachedValues
  rw [hafter, hrows, List.filter_append, List.filter_filter, List.map_append]
  by_cases hid : variantId = variant.id
  · have hold : (w.db.variantAttributeValues.rows.filter fun a =>
        decide (a.variantId = variantId) && !decide (a.variantId = variant.id)) = [] := by
      refine List.filter_eq_nil_iff.2 fun a _ => ?_
      simp [hid]
    have hnew : (List.zipWith (attributeRow variant.id) attributeValues keys).filter
        (fun a => decide (a.variantId = variantId)) =
        List.zipWith (attributeRow variant.id) attributeValues keys :=
      List.filter_eq_self.2 fun a ha => decide_eq_true ((howner a ha).trans hid.symm)
    rw [if_pos hid, hold, hnew, hvalues]
    rfl
  · have hold : (w.db.variantAttributeValues.rows.filter fun a =>
        decide (a.variantId = variantId) && !decide (a.variantId = variant.id)) =
        w.db.variantAttributeValues.rows.filter fun a => decide (a.variantId = variantId) := by
      refine List.filter_congr fun a _ => ?_
      by_cases ha : a.variantId = variantId
      · simp [ha, hid]
      · simp [ha]
    have hnew : (List.zipWith (attributeRow variant.id) attributeValues keys).filter
        (fun a => decide (a.variantId = variantId)) = [] := by
      refine List.filter_eq_nil_iff.2 fun a ha hsame => hid ?_
      exact (of_decide_eq_true hsame).symm.trans (howner a ha)
    rw [if_neg hid, hold, hnew, List.map_nil, List.append_nil]

/-- Instances of values as they are loaded from their rows.  A value that is not stored any more
would be refused by its foreign key when the transaction commits. -/
def Loaded (attributeOf : Id → Id) (attributeValues : List AttributeValue) : Prop :=
  ∀ value ∈ attributeValues, value.attributeId = attributeOf value.id ∧ value.id < uuidBound

lemma KeysInSync.setVariantAttributes {variant v : Variant} {attributeValues : List AttributeValue}
    (h : KeysInSync attributeOf w) (hloaded : Loaded attributeOf attributeValues)
    (hrun : (setVariantAttributes variant attributeValues).run w = .ok (v, w')) :
    KeysInSync attributeOf w' := by
  obtain ⟨values, variants, hset, hw'⟩ := setVariantAttributes_ok hrun
  obtain ⟨keys, -, hrows⟩ := hset.values_eq
  have hvalues : w'.db.variantAttributeValues.rows = values.rows := by rw [hw']; rfl
  have hvariants : w'.db.variants.rows = variants.rows := by rw [hw']; rfl
  -- the rows are old ones of other variants and the new ones
  have hcases : ∀ a ∈ w'.db.variantAttributeValues.rows,
      a ∈ w.db.variantAttributeValues.rows ∨ a.variantId = variant.id ∧
        ∃ value ∈ attributeValues, a.attributeId = value.attributeId ∧
          a.attributeValueId = value.id := by
    intro a ha
    rw [hvalues, hrows, List.mem_append] at ha
    obtain ha | ha := ha
    · exact Or.inl (List.mem_filter.1 ha).1
    · exact Or.inr (mem_zipWith_attributeRow ha)
  have hkept : ∀ u ∈ w.db.variants.rows, ∃ u' ∈ w'.db.variants.rows, u'.id = u.id := by
    intro u hu
    refine ⟨_, hvariants ▸ (Table.mem_rewrite hset.variants_eq).2 ⟨u, hu, rfl⟩, ?_⟩
    split <;> rfl
  refine ⟨fun a ha => ?_, fun a ha => ?_, fun a ha => ?_, fun u hu => ?_⟩
  · obtain ha | ⟨hvariant, -⟩ := hcases a ha
    · obtain ⟨u, hu, hid⟩ := h.owner a ha
      obtain ⟨u', hu', hid'⟩ := hkept u hu
      exact ⟨u', hu', hid'.trans hid⟩
    · obtain ⟨u, hu, hid⟩ := hset.stored
      obtain ⟨u', hu', hid'⟩ := hkept u hu
      exact ⟨u', hu', (hid'.trans hid).trans hvariant.symm⟩
  · obtain ha | ⟨-, value, hvalue, hattribute, hid⟩ := hcases a ha
    · exact h.ownAttribute a ha
    · rw [hattribute, hid]
      exact (hloaded value hvalue).1
  · obtain ha | ⟨-, value, hvalue, -, hid⟩ := hcases a ha
    · exact h.bound a ha
    · rw [hid]
      exact (hloaded value hvalue).2
  · rw [hset.attachedValues hw']
    rw [hvariants] at hu
    obtain ⟨u₀, -, hid, rfl⟩ | ⟨hu, hne⟩ := Table.mem_rewrite_pk hset.variants_eq hu
    · have hid' : u₀.id = variant.id := hid
      rw [if_pos hid']
      rfl
    · have hne' : u.id ≠ variant.id := hne
      rw [if_neg hne']
      exact h.key u hu

end Calls

/-! ## Histories -/

/-- The key that is stored has the text that `_combination_key` returns, which does not depend on
the order of a list and determines the values in it. -/
structure FaithfulEncoding : Prop where
  text : ∀ (attributeOf : Id → Id) (attributeValues : List AttributeValue),
    Loaded attributeOf attributeValues →
      keyText (combinationKey attributeValues) =
        joinSorted (attributeValues.map AttributeValue.id)
  perm : ∀ attributeValues attributeValues' : List AttributeValue,
    attributeValues.Perm attributeValues' →
      keyText (combinationKey attributeValues) = keyText (combinationKey attributeValues')
  inj : ∀ (attributeOf : Id → Id) (attributeValues attributeValues' : List AttributeValue),
    Loaded attributeOf attributeValues → Loaded attributeOf attributeValues' →
      keyText (combinationKey attributeValues) = keyText (combinationKey attributeValues') →
        ∀ id, id ∈ attributeValues.map AttributeValue.id ↔
          id ∈ attributeValues'.map AttributeValue.id

/-- The calls that create variants and set their values, given as they are loaded. -/
def CatalogCall.SetsAttributes (attributeOf : Id → Id) : CatalogCall → Prop
  | createVariant _ _ _ _ _ => True
  | setVariantAttributes _ attributeValues => Loaded attributeOf attributeValues
  | _ => False

lemma mem_combinationKey {attributeValues : List AttributeValue} {id : Id} :
    id ∈ combinationKey attributeValues ↔ id ∈ attributeValues.map AttributeValue.id :=
  (List.perm_insertionSort _ _).mem_iff

lemma faithfulEncoding : FaithfulEncoding where
  text _ attributeValues hloaded :=
    keyText_combinationKey fun value hvalue => (hloaded value hvalue).2
  perm attributeValues attributeValues' h := by
    unfold combinationKey
    rw [insertionSort_eq_of_perm (h.map AttributeValue.id)]
  inj attributeOf attributeValues attributeValues' hloaded hloaded' h := by
    have hbound : ∀ values, Loaded attributeOf values →
        ∀ id ∈ combinationKey values, id < uuidBound := by
      intro values hvalues id hid
      obtain ⟨value, hvalue, rfl⟩ := List.mem_map.1 (mem_combinationKey.1 hid)
      exact (hvalues value hvalue).2
    intro id
    rw [← mem_combinationKey, keyText_inj (hbound _ hloaded) (hbound _ hloaded') h,
      mem_combinationKey]

section Histories

variable [ImageLibraries] [PresignedPosts] {attributeOf : Id → Id}

/-- A call that raises leaves the world as it was. -/
lemma CatalogCall.SetsAttributes.unchanged {call : CatalogCall}
    (h : call.SetsAttributes attributeOf) {w w' : World} {raised : Raised ApiError}
    (hrun : call.service.run w = (.error raised, w')) : w' = w := by
  have hstatement : ∀ {α : Type} (x : Statement α),
      ((do let _ ← x; return ()) : Service Unit).run w = (.error raised, w') → w' = w := by
    intro α x hx
    rw [Program.run_bind] at hx
    cases hexec : x.run w with
    | ok r => simp [Tx.exec, hexec] at hx
    | error e =>
        simp [Tx.exec, hexec] at hx
        exact hx.2.symm
  cases call with
  | createVariant product sku basePriceVnd weightGrams barcode => exact hstatement _ hrun
  | setVariantAttributes variant attributeValues => exact hstatement _ hrun
  | _ => exact h.elim

/-- Each call keeps the keys in sync. -/
lemma CatalogCall.keysInSync_triple (call : CatalogCall) :
    call.service.Triple
      (fun w => KeysInSync attributeOf w ∧ call.SetsAttributes attributeOf)
      (fun _ => KeysInSync attributeOf) (KeysInSync attributeOf) := by
  have hstatement : ∀ {α : Type} (x : Statement α),
      (∀ w a w', KeysInSync attributeOf w → call.SetsAttributes attributeOf →
        x.run w = .ok (a, w') → KeysInSync attributeOf w') →
      (do let _ ← x; return () : Service Unit).Triple
        (fun w => KeysInSync attributeOf w ∧ call.SetsAttributes attributeOf)
        (fun _ => KeysInSync attributeOf) (KeysInSync attributeOf) := by
    intro α x hx
    refine Program.Triple.bind (R := fun _ => KeysInSync attributeOf) ?_ fun _ =>
      .done_ok fun _ h => h
    exact .exec (fun w a w' hw hrun => hx w a w' hw.1 hw.2 hrun) fun _ _ hw _ => hw.1
  cases call with
  | createVariant product sku basePriceVnd weightGrams barcode =>
      exact hstatement _ fun w v w' hw _ hrun => hw.createVariant hrun
  | setVariantAttributes variant attributeValues =>
      exact hstatement _ fun w v w' hw hloaded hrun => hw.setVariantAttributes hloaded hrun
  | _ => exact fun w hw => hw.2.elim

/-- In every history of the two calls from empty tables the keys are faithful, and a call that
raises changes nothing. -/
theorem faithfulKeys_of_history {w₀ w : World} (hvariants : w₀.db.variants.rows = [])
    (hvalues : w₀.db.variantAttributeValues.rows = [])
    (h : CatalogHistory (fun _ call => call.SetsAttributes attributeOf) w₀ w) :
    FaithfulEncoding ∧ FaithfulKeys attributeOf w ∧
      ∀ call : CatalogCall, call.SetsAttributes attributeOf →
        ∀ raised w', call.service.run w = (.error raised, w') → w' = w := by
  have hstart : KeysInSync attributeOf w₀ := by
    refine ⟨?_, ?_, ?_, ?_⟩ <;> simp [hvariants, hvalues]
  have hsync : KeysInSync attributeOf w := by
    refine Program.Sequence.invariant hstart (fun call => call.keysInSync_triple) ?_ h
    rintro w w' ⟨t, rfl⟩ hw
    exact ⟨hw.owner, hw.ownAttribute, hw.bound, hw.key⟩
  exact ⟨faithfulEncoding, hsync.faithful, fun call hcall raised w' => hcall.unchanged⟩

end Histories

/-! ### Two variants with values -/

section Example

attribute [local instance] pngLibraries localPosts

/-- Values 1 and 2 are of attribute 0, value 3 is of attribute 1. -/
def valueAttribute : Id → Id
  | 3 => 1
  | _ => 0

/-- A variant of product 0 as it was created. -/
def plainVariant (id : Id) (sku : String) : Variant where
  id := id
  createdAt := 0
  productId := 0
  sku := sku
  barcode := none
  basePriceVnd := 1000
  weightGrams := 100

/-- Two variants of a product, one with two values and one with one. -/
def variantsWithValues : List CatalogCall := [
  .createVariant ⟨0, 0, .draft, none, 0⟩ "a" 1000 100 none,
  .createVariant ⟨0, 0, .draft, none, 0⟩ "b" 1000 100 none,
  .setVariantAttributes (plainVariant 0 "a") [⟨3, 1⟩, ⟨1, 0⟩],
  .setVariantAttributes (plainVariant 1 "b") [⟨2, 0⟩]]

lemma allowed_variantsWithValues :
    Program.Sequence.Allowed CatalogCall.service
      (fun _ call => call.SetsAttributes valueAttribute) variantsWithValues {} := by
  refine ⟨trivial, trivial, ?_, ?_, trivial⟩
  · change Loaded _ _
    unfold Loaded
    decide
  · change Loaded _ _
    unfold Loaded
    decide

/-- Both keys are those of the values, in order. -/
theorem faithfulKeys_of_variantsWithValues :
    ∃ w, w.db.variants.rows.map Variant.attributeCombinationKey = [[1, 3], [2]] ∧
      FaithfulKeys valueAttribute w := by
  have hhistory : CatalogHistory (fun _ call => call.SetsAttributes valueAttribute) {}
      (Program.Sequence.replay CatalogCall.service variantsWithValues {}) :=
    Program.Sequence.replay_of_allowed .refl allowed_variantsWithValues
  exact ⟨_, by decide, (faithfulKeys_of_history rfl rfl hhistory).2.1⟩

end Example

end BePyEco
