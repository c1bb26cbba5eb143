import BePyEco.Catalog.Calls
import BePyEco.Media.VettedUploads

/-!
# Complete products

A product is complete when the storefront can show it: a name in every locale, a price and a ready
image.  `publish_product` checks this once.  Of the other calls only three can undo it: archiving
the last variant, moving the last ready upload to another product, and storing a draft over the
name.  In histories without these every active product stays complete
(`allComplete_of_history`), and each of them undoes it (`CatalogCall.allComplete_iff`).
-/

namespace BePyEco

open Library

/-! ## Completeness -/

/-- What the storefront needs of a product. -/
structure Complete (w : World) (p : Product) : Prop where
  name : ∀ locale, (getLocalizedField w p.entity "name" locale defaultLocale).value ≠ none
  variant : ∃ v ∈ w.db.variants.rows, sellableOf p.id v = true
  price : ∀ locale, (serializeProduct w p locale).1.basePriceVnd ≠ none
  media : ∃ m ∈ w.db.mediaUploads.rows, readyMediaOf p.id m = true

/-- Every active product is complete. -/
def AllComplete (w : World) : Prop :=
  ∀ p ∈ w.db.products.rows, p.status = .active → Complete w p

/-- The slot of the name in the default locale. -/
def defaultNameSlot (productId : Id) : TranslationSlot :=
  ⟨⟨⟨"catalog", "product"⟩, productId⟩, defaultLocale, "name"⟩

/-- The product has an approved name in the default locale. -/
def HasName (w : World) (productId : Id) : Prop :=
  ∃ e ∈ w.db.translationEntries.rows, e.slot = defaultNameSlot productId ∧ e.isApproved = true

/-- The product has a variant that is not archived. -/
def HasVariant (w : World) (productId : Id) : Prop :=
  ∃ v ∈ w.db.variants.rows, sellableOf productId v = true

/-- The product has a ready upload. -/
def HasMedia (w : World) (productId : Id) : Prop :=
  ∃ m ∈ w.db.mediaUploads.rows, readyMediaOf productId m = true

/-- A name in the default locale is a name in every locale. -/
lemma hasName_iff {w : World} {p : Product} :
    HasName w p.id ↔
      ∀ locale, (getLocalizedField w p.entity "name" locale defaultLocale).value ≠ none := by
  constructor
  · rintro ⟨e, he, hslot, happroved⟩ locale
    have hentity : e.entity = p.entity := congrArg TranslationSlot.entity hslot
    have hlocale : e.locale = defaultLocale := congrArg TranslationSlot.locale hslot
    have hfield : e.field = "name" := congrArg TranslationSlot.field hslot
    exact localized_ne_none (mem_approvedEntries.2 ⟨he, hentity, hfield, happroved⟩) hlocale
  · intro h
    obtain ⟨value, hvalue⟩ := Option.ne_none_iff_exists'.1 (h defaultLocale)
    have hreturned : (getLocalizedField w p.entity "name" defaultLocale defaultLocale).locale =
        some defaultLocale := localized_locale hvalue
    obtain ⟨e, he, hslot, happroved, -⟩ := exists_of_localized hvalue hreturned
    exact ⟨e, he, hslot, happroved⟩

/-- A variant that is not archived gives a price. -/
lemma price_ne_none_iff {w : World} {p : Product} {locale : String} :
    (serializeProduct w p locale).1.basePriceVnd ≠ none ↔ HasVariant w p.id := by
  unfold serializeProduct HasVariant firstVariant
  dsimp only
  rw [ne_eq, Option.map_eq_none_iff, List.head?_eq_none_iff, ← List.length_eq_zero_iff,
    List.length_insertionSort, List.length_eq_zero_iff, List.filter_eq_nil_iff]
  push Not
  rfl

lemma complete_iff {w : World} {p : Product} :
    Complete w p ↔ HasName w p.id ∧ HasVariant w p.id ∧ HasMedia w p.id := by
  constructor
  · intro h
    exact ⟨hasName_iff.2 h.name, h.variant, h.media⟩
  · rintro ⟨hname, hvariant, hmedia⟩
    exact ⟨hasName_iff.1 hname, hvariant, fun _ => price_ne_none_iff.2 hvariant, hmedia⟩

/-! ## What keeps products complete -/

/-- No product becomes active, and no product loses its name, its last variant or its last ready
upload. -/
structure KeepsComplete (w w' : World) : Prop where
  active : ∀ p' ∈ w'.db.products.rows, p'.status = .active →
    ∃ p ∈ w.db.products.rows, p.id = p'.id ∧ p.status = .active
  name : ∀ productId, HasName w productId → HasName w' productId
  variant : ∀ productId, HasVariant w productId → HasVariant w' productId
  media : ∀ productId, HasMedia w productId → HasMedia w' productId

instance : Std.Refl KeepsComplete where
  refl _ := ⟨fun p hp hactive => ⟨p, hp, rfl, hactive⟩, fun _ => id, fun _ => id, fun _ => id⟩

instance : IsTrans World KeepsComplete where
  trans a b c hab hbc := by
    refine ⟨fun p'' hp'' hactive'' => ?_, fun i h => hbc.name i (hab.name i h),
      fun i h => hbc.variant i (hab.variant i h), fun i h => hbc.media i (hab.media i h)⟩
    obtain ⟨p', hp', hid', hactive'⟩ := hbc.active p'' hp'' hactive''
    obtain ⟨p, hp, hid, hactive⟩ := hab.active p' hp' hactive'
    exact ⟨p, hp, hid.trans hid', hactive⟩

/-- A world that differs in none of the four tables. -/
lemma keepsComplete_of_eq {w w' : World} (hproducts : w'.db.products = w.db.products)
    (hentries : w'.db.translationEntries = w.db.translationEntries)
    (hvariants : w'.db.variants = w.db.variants)
    (huploads : w'.db.mediaUploads = w.db.mediaUploads) : KeepsComplete w w' := by
  constructor
  · rw [hproducts]
    exact fun p hp hactive => ⟨p, hp, rfl, hactive⟩
  · unfold HasName
    rw [hentries]
    exact fun _ => id
  · unfold HasVariant
    rw [hvariants]
    exact fun _ => id
  · unfold HasMedia
    rw [huploads]
    exact fun _ => id

lemma KeepsComplete.allComplete {w w' : World} (h : KeepsComplete w w') (hw : AllComplete w) :
    AllComplete w' := by
  intro p' hp' hactive'
  obtain ⟨p, hp, hid, hactive⟩ := h.active p' hp' hactive'
  obtain ⟨hname, hvariant, hmedia⟩ := complete_iff.1 (hw p hp hactive)
  rw [hid] at hname hvariant hmedia
  exact complete_iff.2 ⟨h.name _ hname, h.variant _ hvariant, h.media _ hmedia⟩

/-- Other products. -/
lemma keepsComplete_products {w : World} {t : Table Product}
    (h : ∀ p' ∈ t.rows, p'.status = .active →
      ∃ p ∈ w.db.products.rows, p.id = p'.id ∧ p.status = .active) :
    KeepsComplete w (Stored.put t w) :=
  ⟨h, fun _ => id, fun _ => id, fun _ => id⟩

/-- Other translations. -/
lemma keepsComplete_entries {w : World} {t : Table TranslationEntry}
    (h : ∀ productId, HasName w productId →
      ∃ e ∈ t.rows, e.slot = defaultNameSlot productId ∧ e.isApproved = true) :
    KeepsComplete w (Stored.put t w) :=
  ⟨fun p hp hactive => ⟨p, hp, rfl, hactive⟩, h, fun _ => id, fun _ => id⟩

/-- Other variants. -/
lemma keepsComplete_variants {w : World} {t : Table Variant}
    (h : ∀ productId, HasVariant w productId → ∃ v ∈ t.rows, sellableOf productId v = true) :
    KeepsComplete w (Stored.put t w) :=
  ⟨fun p hp hactive => ⟨p, hp, rfl, hactive⟩, fun _ => id, h, fun _ => id⟩

/-- Other uploads. -/
lemma keepsComplete_uploads {w : World} {t : Table MediaUpload}
    (h : ∀ productId, HasMedia w productId → ∃ m ∈ t.rows, readyMediaOf productId m = true) :
    KeepsComplete w (Stored.put t w) :=
  ⟨fun p hp hactive => ⟨p, hp, rfl, hactive⟩, fun _ => id, fun _ => id, h⟩

/-! ## The calls that keep every product complete -/

lemma createProduct_keepsComplete (primaryCategory : Category)
    (categories : Option (List Category)) (brandId : Option Id) :
    (createProduct primaryCategory categories brandId).Guarantees KeepsComplete := by
  have hrow : ∀ now, (Objects.create (draftProduct primaryCategory brandId now) :
      Statement Product).Guarantees KeepsComplete := by
    intro now
    refine Objects.guarantees_insert fun w t hrows => keepsComplete_products fun p hp hactive => ?_
    rw [hrows, List.mem_append, List.mem_singleton] at hp
    obtain hp | rfl := hp
    · exact ⟨p, hp, rfl, hactive⟩
    · cases hactive
  exact createProduct_guarantees hrow fun _ _ =>
    Objects.guarantees_bulkCreate (fun _ _ => keepsComplete_of_eq rfl rfl rfl rfl) _

lemma createVariant_keepsComplete (product : Product) (sku : String)
    (basePriceVnd weightGrams : ℕ) (barcode : Option String) :
    (createVariant product sku basePriceVnd weightGrams barcode).Guarantees KeepsComplete := by
  refine Tx.Guarantees.bind (Tx.guarantees_read _) fun now => ?_
  refine Objects.guarantees_insert fun w t hrows => keepsComplete_variants fun productId h => ?_
  obtain ⟨v, hv, hsellable⟩ := h
  refine ⟨v, ?_, hsellable⟩
  rw [hrows]
  exact List.mem_append_left _ hv

lemma setVariantAttributes_keepsComplete (variant : Variant)
    (attributeValues : List AttributeValue) :
    (setVariantAttributes variant attributeValues).Guarantees KeepsComplete := by
  have hsave : ∀ key, (saveCombinationKey variant.id key).Guarantees KeepsComplete := by
    intro key
    refine Objects.guarantees_rewrite fun w t ht => keepsComplete_variants fun productId h => ?_
    obtain ⟨v, hv, hsellable⟩ := h
    refine ⟨_, (Table.mem_rewrite ht).2 ⟨v, hv, rfl⟩, ?_⟩
    split
    · exact hsellable
    · exact hsellable
  refine Tx.Guarantees.bind (Tx.guarantees_require _ _) fun _ => ?_
  refine Tx.Guarantees.bind (Tx.guarantees_read _) fun _ => ?_
  refine Tx.Guarantees.bind (Tx.guarantees_require _ _) fun _ => ?_
  refine Tx.Guarantees.bind ?_ fun _ => ?_
  · exact Objects.guarantees_delete fun _ => keepsComplete_of_eq rfl rfl rfl rfl
  refine Tx.Guarantees.bind ?_ fun _ => ?_
  · exact Objects.guarantees_bulkCreate (fun _ _ => keepsComplete_of_eq rfl rfl rfl rfl) _
  refine Tx.Guarantees.bind (hsave _) fun _ => ?_
  exact Tx.guarantees_pure _

lemma archiveProduct_keepsComplete (product : Product) :
    (archiveProduct product).Guarantees KeepsComplete := by
  have hsave : (saveStatus product.id .archived).Guarantees KeepsComplete := by
    refine Objects.guarantees_save fun w => keepsComplete_products fun p hp hactive => ?_
    obtain ⟨q, -, -, rfl⟩ | ⟨hp, -⟩ := Table.mem_update_pk _ hp
    · cases hactive
    · exact ⟨p, hp, rfl, hactive⟩
  exact archiveProduct_guarantees hsave

lemma approveTranslation_keepsComplete (entryId : Id) :
    (approveTranslation entryId).Guarantees KeepsComplete := by
  have hsave : ∀ id, (saveApproved id).Guarantees KeepsComplete := by
    intro id
    refine Objects.guarantees_save fun w => keepsComplete_entries fun productId h => ?_
    obtain ⟨e, he, hslot, happroved⟩ := h
    refine ⟨_, (Table.mem_update _).2 ⟨e, he, rfl⟩, ?_⟩
    unfold Assignment.on
    split
    · exact ⟨hslot, rfl⟩
    · exact ⟨hslot, happroved⟩
  exact approveTranslation_guarantees hsave

lemma requestUpload_keepsComplete [PresignedPosts] (contentType : String) (sizeBytes : ℕ) :
    (requestUpload contentType sizeBytes).Guarantees KeepsComplete := by
  have hdraw : drawRandom.Guarantees KeepsComplete := by
    intro w n w' h
    cases h
    exact keepsComplete_of_eq rfl rfl rfl rfl
  have hcreate : ∀ key, (createMediaUpload key contentType sizeBytes).Guarantees
      KeepsComplete := by
    intro key
    refine Objects.guarantees_insert fun w t hrows => keepsComplete_uploads fun productId h => ?_
    obtain ⟨m, hm, hready⟩ := h
    refine ⟨m, ?_, hready⟩
    rw [hrows]
    exact List.mem_append_left _ hm
  exact requestUpload_guarantees hdraw hcreate

/-- A ready upload is never judged again. -/
lemma validateUpload_keepsComplete [ImageLibraries] (services : ObjectServices)
    (mediaUploadId : Id) : (validateUpload services mediaUploadId).Guarantees KeepsComplete := by
  intro w u w' hrun
  obtain ⟨m, hm, -, ⟨-, rfl⟩ | ⟨hpending, t, rfl, hrewritten⟩⟩ := validateUpload_ok hrun
  · exact refl_of KeepsComplete w'
  · refine keepsComplete_uploads fun productId h => ?_
    obtain ⟨n, hn, hready⟩ := h
    have hne : Model.pk n ≠ m.id := by
      intro hid
      have hnm : n = m := w.db.mediaUploads.eq_of_pk hn hm hid
      rw [hnm] at hready
      simp [readyMediaOf, hpending] at hready
    have hkeep : ∀ f hpk, w.db.mediaUploads.rewrite (fun r => Model.pk r == m.id) f hpk = .ok t →
        n ∈ t.rows := by
      intro f hpk ht
      refine (Table.mem_rewrite ht).2 ⟨n, hn, ?_⟩
      rw [if_neg (by simpa using hne)]
    obtain ⟨reason, -, ht⟩ | ⟨data, webpKey, avifKey, thumbnailKey, -, ht⟩ := hrewritten
    · exact ⟨n, hkeep _ _ ht, hready⟩
    · exact ⟨n, hkeep _ _ ht, hready⟩

/-! ## The calls that can undo it -/

/-- The variant is not the last one of an active product that is not archived. -/
def ArchivesSpare (w : World) (variant : Variant) : Prop :=
  ∀ v ∈ w.db.variants.rows, v.id = variant.id → ∀ p ∈ w.db.products.rows, p.status = .active →
    sellableOf p.id v = true →
      ∃ v' ∈ w.db.variants.rows, v'.id ≠ v.id ∧ sellableOf p.id v' = true

/-- The upload is not the last ready one of another product that is active. -/
def MovesSpare (w : World) (mediaUpload : MediaUpload) (product : Product) : Prop :=
  ∀ m ∈ w.db.mediaUploads.rows, m.id = mediaUpload.id → ∀ p ∈ w.db.products.rows,
    p.status = .active → p.id ≠ product.id → readyMediaOf p.id m = true →
      ∃ m' ∈ w.db.mediaUploads.rows, m'.id ≠ m.id ∧ readyMediaOf p.id m' = true

/-- No draft of an AI replaces the default name of an active product. -/
def KeepsNames (w : World) (slot : TranslationSlot) (isAiGenerated : Bool) : Prop :=
  isAiGenerated = true → ∀ p ∈ w.db.products.rows, p.status = .active →
    slot ≠ defaultNameSlot p.id

/-- What the three calls must not do. -/
def CatalogCall.Spares (w : World) : CatalogCall → Prop
  | archiveVariant variant => ArchivesSpare w variant
  | setTranslation entity locale field _ isAiGenerated =>
    KeepsNames w ⟨entity, locale, field⟩ isAiGenerated
  | attachMediaToProduct mediaUpload product => MovesSpare w mediaUpload product
  | _ => True

lemma archiveVariant_triple (variant : Variant) :
    (archiveVariant variant).Triple (fun w => AllComplete w ∧ ArchivesSpare w variant)
      (fun _ => AllComplete) AllComplete := by
  have hsave : (Program.exec (saveArchived variant.id) : Service Unit).Triple
      (fun w => AllComplete w ∧ ArchivesSpare w variant) (fun _ => AllComplete) AllComplete := by
    refine .exec (fun w _ w' ⟨hw, hspare⟩ hrun => ?_) fun _ _ h _ => h.1
    rw [Objects.save_ok hrun]
    intro p hp hactive
    obtain ⟨hname, ⟨v, hv, hsellable⟩, hmedia⟩ := complete_iff.1 (hw p hp hactive)
    have hother : ∃ v' ∈ w.db.variants.rows, v'.id ≠ variant.id ∧ sellableOf p.id v' = true := by
      by_cases hid : v.id = variant.id
      · rw [← hid]
        exact hspare v hv hid p hp hactive hsellable
      · exact ⟨v, hv, hid, hsellable⟩
    obtain ⟨v', hv', hne, hsellable'⟩ := hother
    exact complete_iff.2 ⟨hname, ⟨v', Table.mem_update_of_ne _ hv' hne, hsellable'⟩, hmedia⟩
  exact hsave.bind fun _ => .done_ok fun _ h => h

lemma attachMediaToProduct_triple (mediaUpload : MediaUpload) (product : Product) :
    (attachMediaToProduct mediaUpload product).Triple
      (fun w => AllComplete w ∧ MovesSpare w mediaUpload product) (fun _ => AllComplete)
      AllComplete := by
  have hsave : (Program.exec (saveProduct mediaUpload.id product.id) : Service Unit).Triple
      (fun w => AllComplete w ∧ MovesSpare w mediaUpload product) (fun _ => AllComplete)
      AllComplete := by
    refine .exec (fun w _ w' ⟨hw, hspare⟩ hrun => ?_) fun _ _ h _ => h.1
    rw [Objects.save_ok hrun]
    intro p hp hactive
    obtain ⟨hname, hvariant, m, hm, hready⟩ := complete_iff.1 (hw p hp hactive)
    refine complete_iff.2 ⟨hname, hvariant, ?_⟩
    by_cases hmoved : m.id = mediaUpload.id ∧ p.id ≠ product.id
    · obtain ⟨m', hm', hne, hready'⟩ := hspare m hm hmoved.1 p hp hactive hmoved.2 hready
      rw [hmoved.1] at hne
      exact ⟨m', Table.mem_update_of_ne _ hm' hne, hready'⟩
    · refine ⟨_, (Table.mem_update _).2 ⟨m, hm, rfl⟩, ?_⟩
      unfold Assignment.on
      split
      · rename_i hid
        -- attached to the same product again
        have hproduct : p.id = product.id := by
          by_contra hne
          exact hmoved ⟨beq_iff_eq.1 hid, hne⟩
        simp only [readyMediaOf, Bool.and_eq_true, decide_eq_true_eq] at hready ⊢
        rw [hproduct]
        exact ⟨rfl, hready.2⟩
      · exact hready
  refine Program.Triple.bind (.require fun _ h => h.1) fun _ => ?_
  refine Program.Triple.bind (hsave.mono (fun _ h => h.1) (fun _ _ h => h) fun _ h => h) fun _ => ?_
  exact .done_ok fun _ h => h

lemma setTranslation_triple (entity : Entity) (locale field value : String)
    (isAiGenerated : Bool) :
    (setTranslation entity locale field value isAiGenerated).Triple
      (fun w => AllComplete w ∧ KeepsNames w ⟨entity, locale, field⟩ isAiGenerated)
      (fun _ => AllComplete) AllComplete := by
  refine .exec (fun w _ w' ⟨hw, hkeeps⟩ hrun => ?_) fun _ _ h _ => h.1
  obtain ⟨-, ⟨old, hold, hslot, -, rfl⟩ | ⟨-, t, hrows, rfl⟩⟩ := updateOrCreateEntry_ok hrun
  · intro p hp hactive
    obtain ⟨⟨e, he, hname, happroved⟩, hvariant, hmedia⟩ := complete_iff.1 (hw p hp hactive)
    refine complete_iff.2 ⟨?_, hvariant, hmedia⟩
    by_cases hid : e.id = old.id
    · have hsame : e = old := w.db.translationEntries.eq_of_pk he hold hid
      have hhuman : isAiGenerated = false := by
        rw [← Bool.not_eq_true]
        intro hai
        refine hkeeps hai p hp hactive ?_
        rw [← hslot, ← hsame, hname]
      refine ⟨_, (Table.mem_update _).2 ⟨e, he, Assignment.on_pos _ (beq_iff_eq.2 hid)⟩, hname, ?_⟩
      change (!isAiGenerated) = true
      rw [hhuman]
      rfl
    · exact ⟨e, Table.mem_update_of_ne _ he hid, hname, happroved⟩
  · refine KeepsComplete.allComplete (keepsComplete_entries fun productId h => ?_) hw
    obtain ⟨e, he, hname, happroved⟩ := h
    refine ⟨e, ?_, hname, happroved⟩
    rw [hrows]
    exact List.mem_append_left _ he

/-! ## What undoes it -/

/-- Archiving the last variant of an active product. -/
lemma archiveVariant_undoes {w : World} {variant : Variant} (h : ¬ ArchivesSpare w variant) :
    ¬ AllComplete ((archiveVariant variant).run w).2 := by
  unfold ArchivesSpare at h
  push Not at h
  obtain ⟨v, hv, hid, p, hp, hactive, -, hlast⟩ := h
  have hrun : ((archiveVariant variant).run w).2 = Stored.put (w.db.variants.update
      (fun r => Model.pk r == variant.id) (Variant.setIsArchived true)) w := by
    have hsave : (saveArchived variant.id).run w = .ok ((), Stored.put (w.db.variants.update
        (fun r => Model.pk r == variant.id) (Variant.setIsArchived true)) w) :=
      Objects.run_save_of_mem hv hid
    refine (Program.run_bind_return _ _ w).trans ?_
    rw [Program.liftM_eq, Program.run_exec, Tx.exec_ok hsave]
  rw [hrun]
  intro hafter
  obtain ⟨-, ⟨v', hv', hsellable⟩, -⟩ := complete_iff.1 (hafter p hp hactive)
  obtain ⟨r, -, -, rfl⟩ | ⟨hv', hne⟩ := Table.mem_update_pk _ hv'
  · simp [sellableOf, Variant.setIsArchived] at hsellable
  · rw [← hid] at hne
    exact hlast v' hv' hne hsellable

/-- Attaching the last ready upload of an active product to another product. -/
lemma attachMediaToProduct_undoes {w : World} {mediaUpload : MediaUpload} {product : Product}
    (hready : mediaUpload.status = .ready) (h : ¬ MovesSpare w mediaUpload product) :
    ¬ AllComplete ((attachMediaToProduct mediaUpload product).run w).2 := by
  unfold MovesSpare at h
  push Not at h
  obtain ⟨m, hm, hid, p, hp, hactive, hother, -, hlast⟩ := h
  have hrun : ((attachMediaToProduct mediaUpload product).run w).2 = Stored.put
      (w.db.mediaUploads.update (fun r => Model.pk r == mediaUpload.id)
        (MediaUpload.setProduct product.id)) w := by
    have hsave : (saveProduct mediaUpload.id product.id).run w = .ok ((), Stored.put
        (w.db.mediaUploads.update (fun r => Model.pk r == mediaUpload.id)
          (MediaUpload.setProduct product.id)) w) :=
      Objects.run_save_of_mem hm hid
    have hrequire : (Program.require (decide (mediaUpload.status = .ready))
        .mediaUploadNotReady : Service Unit) = .done (.ok ()) := by
      rw [decide_eq_true hready]
      rfl
    unfold attachMediaToProduct
    rw [hrequire, Program.done_ok_bind]
    refine (Program.run_bind_return _ _ w).trans ?_
    rw [Program.liftM_eq, Program.run_exec, Tx.exec_ok hsave]
  rw [hrun]
  intro hafter
  obtain ⟨-, -, m', hm', hready'⟩ := complete_iff.1 (hafter p hp hactive)
  obtain ⟨r, -, -, rfl⟩ | ⟨hm', hne⟩ := Table.mem_update_pk _ hm'
  · simp [readyMediaOf, MediaUpload.setProduct, Ne.symm hother] at hready'
  · rw [← hid] at hne
    exact hlast m' hm' hne hready'

/-- Storing a draft over the name of an active product. -/
lemma setTranslation_undoes {w : World} {entity : Entity} {locale field value : String}
    {isAiGenerated : Bool} (hw : AllComplete w)
    (h : ¬ KeepsNames w ⟨entity, locale, field⟩ isAiGenerated) :
    ¬ AllComplete ((setTranslation entity locale field value isAiGenerated).run w).2 := by
  unfold KeepsNames at h
  push Not at h
  obtain ⟨rfl, p, hp, hactive, hslot⟩ := h
  obtain ⟨⟨e, he, hname, -⟩, -, -⟩ := complete_iff.1 (hw p hp hactive)
  have hrun : ((setTranslation entity locale field value true).run w).2 = Stored.put
      (w.db.translationEntries.update (fun r => Model.pk r == e.id)
        (TranslationEntry.setValue value true)) w := by
    have hupdate := updateOrCreateEntry_run_of_mem value true he
    rw [hname, ← hslot] at hupdate
    unfold setTranslation
    rw [Program.liftM_eq, Program.run_exec, Tx.exec_ok hupdate]
  rw [hrun]
  intro hafter
  obtain ⟨⟨e', he', hname', happroved⟩, -, -⟩ := complete_iff.1 (hafter p hp hactive)
  obtain ⟨r, -, -, rfl⟩ | ⟨he', hne⟩ := Table.mem_update_pk _ he'
  · simp [TranslationEntry.setValue] at happroved
  · have hsame : e' = e := w.db.translationEntries.eq_of_conflicts he' he
      (decide_eq_true (hname'.trans hname.symm))
    rw [hsame] at hne
    exact hne rfl

/-! ## Publishing -/

lemma hasName_of_complete {w : World} {product : Product}
    (h : (requiredTranslationFields.all fun field =>
      decide (field ∈ approvedDefaultFields w product)) = true) : HasName w product.id := by
  have hname : "name" ∈ approvedDefaultFields w product :=
    of_decide_eq_true (List.all_eq_true.1 h "name" (List.mem_singleton_self _))
  exact mem_approvedDefaultFields.1 hname

/-- What the transaction of `publish_product` does to the products. -/
lemma publishBlock_ok {product : Product} {w w' : World} {u : Unit}
    (h : (publishBlock product).run w = .ok (u, w')) :
    (∀ p' ∈ w'.db.products.rows, p'.status = .active → p'.id = product.id ∨
        p' ∈ w.db.products.rows) ∧
      w'.db.translationEntries = w.db.translationEntries ∧ w'.db.variants = w.db.variants ∧
      w'.db.mediaUploads = w.db.mediaUploads := by
  obtain ⟨v, w₁, hsave, hrest⟩ := Tx.bind_ok h
  obtain ⟨event, w₂, hcreate, hreturn⟩ := Tx.bind_ok hrest
  obtain ⟨t, -, hw₂⟩ := Objects.create_ok hcreate
  cases hreturn
  rw [hw₂, Objects.save_ok hsave]
  refine ⟨fun p' hp' _ => ?_, rfl, rfl, rfl⟩
  obtain ⟨p, -, hid, rfl⟩ | ⟨hp, -⟩ := Table.mem_update_pk _ hp'
  · exact Or.inl hid
  · exact Or.inr hp

/-- A publication that succeeds publishes a complete product. -/
lemma publishProduct_triple (product : Product) :
    (publishProduct product defaultHasReadyMedia).Triple AllComplete (fun _ => AllComplete)
      AllComplete := by
  refine Program.Triple.bind (R := fun complete w => AllComplete w ∧
    (complete = true → HasName w product.id)) (.exec ?_ fun _ _ h _ => h) fun complete => ?_
  · intro w complete w' hw hrun
    cases hrun
    exact ⟨hw, hasName_of_complete⟩
  refine Program.Triple.bind (.require fun _ h => h.1) fun _ => ?_
  refine Program.Triple.bind (R := fun sellable w => (AllComplete w ∧ HasName w product.id) ∧
    (sellable = true → HasVariant w product.id)) (.exec ?_ fun _ _ h _ => h.1.1) fun sellable => ?_
  · rintro w sellable w' ⟨⟨hw, hname⟩, hcomplete⟩ hrun
    cases hrun
    exact ⟨⟨hw, hname hcomplete⟩, List.any_eq_true.1⟩
  refine Program.Triple.bind (.require fun _ h => h.1.1) fun _ => ?_
  refine Program.Triple.bind (R := fun ready w => (AllComplete w ∧ HasName w product.id ∧
    HasVariant w product.id) ∧ (ready = true → HasMedia w product.id))
      (.exec ?_ fun _ _ h _ => h.1.1.1) fun ready => ?_
  · rintro w ready w' ⟨⟨⟨hw, hname⟩, hvariant⟩, hsellable⟩ hrun
    cases hrun
    exact ⟨⟨hw, hname, hvariant hsellable⟩, List.any_eq_true.1⟩
  refine Program.Triple.bind (.require fun _ h => h.1.1) fun _ => ?_
  refine Program.Triple.bind (R := fun _ => AllComplete) (.exec ?_ fun _ _ h _ => h.1.1.1)
    fun _ => .done_ok fun _ h => h
  rintro w u w' ⟨⟨⟨hw, hname, hvariant⟩, hmedia⟩, hready⟩ hrun
  obtain ⟨hproducts, hentries, hvariants, huploads⟩ := publishBlock_ok hrun
  intro p' hp' hactive
  have hcomplete : HasName w p'.id ∧ HasVariant w p'.id ∧ HasMedia w p'.id := by
    obtain hid | hp := hproducts p' hp' hactive
    · rw [hid]
      exact ⟨hname, hvariant, hmedia hready⟩
    · exact complete_iff.1 (hw p' hp hactive)
  rw [complete_iff]
  unfold HasName HasVariant HasMedia at hcomplete ⊢
  rw [hentries, hvariants, huploads]
  exact hcomplete

/-! ## Histories -/

section Histories

variable [ImageLibraries] [PresignedPosts]

/-- A call that keeps every product complete. -/
lemma CatalogCall.triple_of_keepsComplete {call : CatalogCall}
    (h : call.service.Guarantees KeepsComplete) :
    call.service.Triple (fun w => AllComplete w ∧ call.Spares w) (fun _ => AllComplete)
      AllComplete :=
  (Program.Triple.of_guarantees h fun _ _ hkeeps hw => hkeeps.allComplete hw).mono
    (fun _ h => h.1) (fun _ _ h => h) fun _ h => h

/-- Every call keeps active products complete, unless it takes the last variant, the last upload
or the name of one. -/
theorem CatalogCall.triple (call : CatalogCall) :
    call.service.Triple (fun w => AllComplete w ∧ call.Spares w) (fun _ => AllComplete)
      AllComplete := by
  have hdone : ∀ {α : Type} {P : World → Prop} {p : Service α},
      p.Triple P (fun _ => AllComplete) AllComplete →
        (p >>= fun _ => return () : Service Unit).Triple P (fun _ => AllComplete) AllComplete :=
    fun hp => hp.bind fun _ => .done_ok fun _ h => h
  cases call with
  | createProduct primaryCategory categories brandId =>
      exact triple_of_keepsComplete (.bind_return (createProduct_keepsComplete _ _ _))
  | createVariant product sku basePriceVnd weightGrams barcode =>
      exact triple_of_keepsComplete
        (.bind_return (Program.guarantees_exec (createVariant_keepsComplete _ _ _ _ _)))
  | setVariantAttributes variant attributeValues =>
      exact triple_of_keepsComplete
        (.bind_return (Program.guarantees_exec (setVariantAttributes_keepsComplete _ _)))
  | archiveVariant variant => exact hdone (archiveVariant_triple variant)
  | archiveProduct product =>
      exact triple_of_keepsComplete (.bind_return (archiveProduct_keepsComplete _))
  | publishProduct product =>
      exact (hdone (publishProduct_triple product)).mono (fun _ h => h.1) (fun _ _ h => h)
        fun _ h => h
  | setTranslation entity locale field value isAiGenerated =>
      exact hdone (setTranslation_triple entity locale field value isAiGenerated)
  | approveTranslation entryId =>
      exact triple_of_keepsComplete (.bind_return (approveTranslation_keepsComplete _))
  | requestUpload contentType sizeBytes =>
      exact triple_of_keepsComplete (.bind_return (requestUpload_keepsComplete _ _))
  | validateUpload services mediaUploadId =>
      exact triple_of_keepsComplete
        (.bind_return (Program.guarantees_exec (validateUpload_keepsComplete _ _)))
  | attachMediaToProduct mediaUpload product =>
      exact hdone (attachMediaToProduct_triple mediaUpload product)

/-- A call that does not spare an active product leaves it incomplete; an attachment also needs an
instance that is ready. -/
theorem CatalogCall.allComplete_iff (call : CatalogCall) {w : World} (hw : AllComplete w)
    (hready : ∀ mediaUpload product, call = .attachMediaToProduct mediaUpload product →
      mediaUpload.status = .ready) :
    AllComplete (call.service.run w).2 ↔ call.Spares w := by
  refine ⟨fun hafter => ?_, fun hspares => call.triple.always ⟨hw, hspares⟩⟩
  cases call with
  | archiveVariant variant =>
      by_contra hspares
      exact archiveVariant_undoes hspares ((Program.run_bind_return _ _ w).subst hafter)
  | setTranslation entity locale field value isAiGenerated =>
      by_contra hspares
      exact setTranslation_undoes hw hspares ((Program.run_bind_return _ _ w).subst hafter)
  | attachMediaToProduct mediaUpload product =>
      by_contra hspares
      exact attachMediaToProduct_undoes (hready mediaUpload product rfl) hspares
        ((Program.run_bind_return _ _ w).subst hafter)
  | _ => trivial

/-- In every history in which no call takes the last variant, the last ready upload or the name of
an active product, every active product is complete. -/
theorem allComplete_of_history {w₀ w : World} (hstart : AllComplete w₀)
    (h : CatalogHistory (fun w call => call.Spares w) w₀ w) : AllComplete w := by
  refine Program.Sequence.invariant hstart (fun call => call.triple) ?_ h
  rintro w w' ⟨t, rfl⟩ hw
  have hkeeps : KeepsComplete w { w with now := w.now + t } := keepsComplete_of_eq rfl rfl rfl rfl
  exact hkeeps.allComplete hw

end Histories

/-! ### A product that is published and loses its variant -/

section Example

attribute [local instance] pngLibraries localPosts

/-- A scanner that answers `OK`, and a storage of three bytes under every key. -/
def workingScanner : ObjectServices where
  openObject _ := .ok [0, 1, 2]
  saveObject name _ := .ok name
  instream _ := .ok (.ok, none)

def firstProduct : Product where
  id := 0
  createdAt := 0
  brandId := none
  primaryCategoryId := 0

def firstVariantOf : Variant where
  id := 0
  createdAt := 0
  productId := 0
  sku := "sku"
  barcode := none
  basePriceVnd := 1000
  weightGrams := 100

def firstUpload : MediaUpload where
  id := 0
  status := .ready
  storageKey := ⟨0⟩
  declaredContentType := "image/png"
  declaredSizeBytes := 3

/-- A product gets a variant, a name and an image. -/
def preparation : List CatalogCall := [
  .createProduct { id := 0 } none none,
  .createVariant firstProduct "sku" 1000 100 none,
  .setTranslation firstProduct.entity "vi" "name" "name" false,
  .requestUpload "image/png" 3,
  .validateUpload workingScanner 0,
  .attachMediaToProduct firstUpload firstProduct,
  .publishProduct firstProduct]

/-- Nothing is spared in the preparation, since no product is active before its end. -/
lemma allowed_preparation :
    Program.Sequence.Allowed CatalogCall.service (fun w call => call.Spares w) preparation
      twoCategories := by
  refine ⟨trivial, trivial, nofun, trivial, trivial, ?_, trivial, trivial⟩
  change MovesSpare _ _ _
  unfold MovesSpare
  decide

lemma allComplete_twoCategories : AllComplete twoCategories := by
  intro p hp
  cases hp

/-- After the preparation the product is active and complete. -/
theorem allComplete_after_preparation :
    ∃ w, CatalogHistory (fun w call => call.Spares w) twoCategories w ∧
      w.db.products.rows.map Product.status = [.active] ∧ AllComplete w := by
  have hhistory : CatalogHistory (fun w call => call.Spares w) twoCategories
      (Program.Sequence.replay CatalogCall.service preparation twoCategories) :=
    Program.Sequence.replay_of_allowed .refl allowed_preparation
  exact ⟨_, hhistory, by decide, allComplete_of_history allComplete_twoCategories hhistory⟩

/-- The only variant of an active product is archived. -/
theorem not_allComplete :
    ¬ ∀ [ImageLibraries] [PresignedPosts] (w : World),
      CatalogHistory (fun _ _ => True) twoCategories w → AllComplete w := by
  intro hclaim
  have hhistory : CatalogHistory (fun _ _ => True) twoCategories (Program.Sequence.replay
      CatalogCall.service (preparation ++ [.archiveVariant firstVariantOf]) twoCategories) :=
    Program.Sequence.replay_of_allowed .refl
      ⟨trivial, trivial, trivial, trivial, trivial, trivial, trivial, trivial, trivial⟩
  have hcomplete := hclaim _ hhistory { firstProduct with status := .active } (by decide) rfl
  exact absurd hcomplete.variant (by decide)

end Example

end BePyEco
