import BePyEco.Api.Writes

/-!
# All the work keeps to its policies

The internal services, the commands and the surroundings, and with the endpoints all that works on
the database.  `write_policy` is about whole runs: whatever the interleaving, every table moves and
every mail is sent as the policies of the work in the pool allow, with the evidence that they ask
for in the databases of the run.  A step of a run is a statement or a whole transaction block.
-/

namespace BePyEco

open Library

variable {P : WorldPolicy}

/-! ## Internal services -/

section Internal

lemma createProduct_allows {primaryCategory : Category} {categories : Option (List Category)}
    {brandId : Option Id} (hproduct : ∀ p : Product, p.status = .draft → (P .products).add p)
    (hcategory : ∀ c : ProductCategory, (P .productCategories).add c) :
    (createProduct primaryCategory categories brandId).Guarantees P.Allows :=
  createProduct_guarantees (fun _ => allows_create fun _ => hproduct _ rfl) fun _ _ =>
    allows_bulkCreate (fun _ _ => hcategory _) _

lemma setVariantAttributes_allows {variant : Variant} {attributeValues : List AttributeValue}
    (hkey : ∀ v v', v.id = variant.id ∧ Variant.Rekeys v v' → (P .variants).change v v')
    (hadd : ∀ a : VariantAttributeValue, a.variantId = variant.id →
      (P .variantAttributeValues).add a)
    (hremove : ∀ a : VariantAttributeValue, a.variantId = variant.id →
      (P .variantAttributeValues).remove a) :
    (setVariantAttributes variant attributeValues).Guarantees P.Allows := by
  have hsave : ∀ key, (saveCombinationKey variant.id key).Guarantees P.Allows := fun key =>
    allows_saveChecked fun v hv => hkey v _ ⟨hv, key, rfl⟩
  refine (Tx.guarantees_require _ _).bind fun _ => ?_
  refine (Tx.guarantees_read _).bind fun _ => ?_
  refine (Tx.guarantees_require _ _).bind fun _ => ?_
  refine (allows_delete fun a ha => hremove a (of_decide_eq_true ha)).bind fun _ => ?_
  refine (allows_bulkCreate (fun _ _ => hadd _ rfl) _).bind fun _ => ?_
  exact (hsave _).bind fun _ => Tx.guarantees_pure _

lemma setTranslation_allows {entity : Entity} {locale field value : String} {isAiGenerated : Bool}
    (hadd : ∀ e : TranslationEntry, e.slot = ⟨entity, locale, field⟩ ∧ e.value = value ∧
      e.isApproved = (!isAiGenerated) → (P .translationEntries).add e)
    (hchange : ∀ e e' : TranslationEntry, e.slot = ⟨entity, locale, field⟩ ∧
      e' = (TranslationEntry.setValue value isAiGenerated).apply e →
        (P .translationEntries).change e e') :
    (setTranslation entity locale field value isAiGenerated).Guarantees P.Allows := by
  have hcreate : (createEntry ⟨entity, locale, field⟩ value isAiGenerated).Guarantees P.Allows :=
    allows_create fun _ => hadd _ ⟨rfl, rfl, rfl⟩
  refine Program.guarantees_exec (Tx.Guarantees.handling ?_ _ hcreate)
  intro w entry w' h
  obtain ⟨e, w₁, hget, hrest⟩ := Tx.bind_ok h
  obtain ⟨u, w₂, hsave, hpure⟩ := Tx.bind_ok hrest
  cases hpure
  have hboth : (do
      let e ← Objects.get fun e : TranslationEntry => decide (e.slot = ⟨entity, locale, field⟩)
      Objects.save (Model.pk e) (TranslationEntry.setValue value isAiGenerated) :
        Statement Unit).run w = .ok ((), w') := by
    rw [Tx.run_bind, hget]
    exact hsave
  exact allows_getSave (fun e he => hchange e _ ⟨of_decide_eq_true he, rfl⟩) w () w' hboth

/-- The approval of an entry changes the one that was asked for. -/
lemma approveTranslation_allows {entryId : Id}
    (hchange : ∀ e e' : TranslationEntry, e.id = entryId ∧ e.Approves e' →
      (P .translationEntries).change e e') :
    (approveTranslation entryId).Guarantees P.Allows := by
  have hget : (getEntry entryId).Guarantees P.Allows :=
    (Objects.guarantees_get _).handling _ (Tx.guarantees_raise _)
  refine Program.guarantees_exec_bind hget fun w entry w' h => ?_
  have hid : entry.id = entryId := by
    obtain hrow | ⟨-, hraise⟩ := Tx.handling_ok h
    · have hholds := Table.holds_of_get (Objects.get_ok hrow).2
      exact of_decide_eq_true hholds
    · cases hraise
  rw [hid]
  have hsave : (saveApproved entryId).Guarantees P.Allows :=
    allows_save fun e he => hchange e _ ⟨he, rfl⟩
  exact (Program.guarantees_exec hsave).bind fun _ => trivial

section Validation

variable [ImageLibraries] {services : ObjectServices} {mediaUpload : MediaUpload}
  (hjudge : ∀ m m', m.id = mediaUpload.id ∧ MediaUpload.Judges m m' →
    (P .mediaUploads).change m m')

include hjudge

omit [ImageLibraries] in
lemma rejectUpload_allows {reason : String} :
    (rejectUpload mediaUpload reason).Guarantees P.Allows :=
  allows_saveChecked fun m hm => hjudge m _ ⟨hm, Or.inl ⟨reason, rfl⟩⟩

lemma deriveUpload_allows {data : Bytes} :
    (deriveUpload services mediaUpload data).Guarantees P.Allows := by
  refine (allows_ofExcept _).bind fun _ => ?_
  refine (allows_ofExcept _).bind fun webpKey => ?_
  refine (allows_ofExcept _).bind fun avifKey => ?_
  refine (allows_ofExcept _).bind fun thumbnailKey => ?_
  exact allows_saveChecked fun m hm =>
    hjudge m _ ⟨hm, Or.inr ⟨webpKey, avifKey, thumbnailKey, rfl⟩⟩

/-- The validation of an upload judges it. -/
lemma processUpload_allows : (processUpload services mediaUpload).Guarantees P.Allows := by
  refine (allows_ofExcept _).bind fun data => ?_
  refine (allows_ofExcept _).bind fun result => ?_
  split
  · unfold scanUpload
    split
    · exact deriveUpload_allows hjudge
    · exact rejectUpload_allows hjudge
    · exact Tx.guarantees_raise _
  · exact rejectUpload_allows hjudge

end Validation

variable [ImageLibraries] [PresignedPosts]

/-- Every internal service keeps to its policy. -/
theorem CatalogCall.service_allows (call : CatalogCall) :
    call.service.Guarantees call.policy.Allows := by
  cases call with
  | createProduct primaryCategory categories brandId =>
      exact (createProduct_allows (fun _ h => h) fun _ => trivial).bind fun _ => trivial
  | createVariant product sku basePriceVnd weightGrams barcode =>
      have hcreate : (BePyEco.createVariant product sku basePriceVnd weightGrams barcode).Guarantees
          (CatalogCall.createVariant product sku basePriceVnd weightGrams barcode).policy.Allows :=
        allows_timezoneNow.bind fun _ => allows_create fun _ => And.intro rfl rfl
      exact (Program.guarantees_exec hcreate).bind fun _ => trivial
  | setVariantAttributes variant attributeValues =>
      exact (Program.guarantees_exec (setVariantAttributes_allows (fun _ _ h => h) (fun _ h => h)
        fun _ h => h)).bind fun _ => trivial
  | archiveVariant variant =>
      exact (archiveVariant_guarantees (allows_save fun v hv => And.intro hv rfl)).bind
        fun _ => trivial
  | archiveProduct product =>
      exact (archiveProduct_guarantees (allows_save fun p hp => And.intro hp rfl)).bind
        fun _ => trivial
  | publishProduct product =>
      exact (publishProduct_allows (fun _ _ h => h) fun _ h => h).bind fun _ => trivial
  | setTranslation entity locale field value isAiGenerated =>
      exact (setTranslation_allows (fun _ h => h) fun _ _ h => h).bind fun _ => trivial
  | approveTranslation entryId =>
      exact (approveTranslation_allows fun _ _ h => h).bind fun _ => trivial
  | requestUpload contentType sizeBytes =>
      exact (requestUpload_allows fun _ h => h.1).bind fun _ => trivial
  | validateUpload services mediaUploadId =>
      have htask : (BePyEco.validateUpload services mediaUploadId).Guarantees
          (CatalogCall.validateUpload services mediaUploadId).policy.Allows := by
        intro w u w' h
        obtain ⟨mediaUpload, w₁, hget, hrest⟩ := Tx.bind_ok h
        obtain ⟨rfl, hrow⟩ := Objects.get_ok hget
        have hholds := Table.holds_of_get hrow
        have hid : mediaUpload.id = mediaUploadId := of_decide_eq_true hholds
        split at hrest
        · refine processUpload_allows (fun m m' hm => ?_) w₁ u w' hrest
          rw [hid] at hm
          exact hm
        · cases hrest
          exact refl_of _ w'
      exact (Program.guarantees_exec htask).bind fun _ => trivial
  | attachMediaToProduct mediaUpload product =>
      exact (attachMediaToProduct_guarantees
        (allows_save fun m hm => And.intro hm ⟨_, rfl⟩)).bind fun _ => trivial

end Internal

/-! ## Commands and surroundings -/

lemma seedSupportedCountries_allows {uuid : ℕ}
    (h : ∀ c : SupportedCountry, (∃ id, c = vietnam uuid id) → (P .supportedCountries).add c) :
    (seedSupportedCountries uuid).Guarantees P.Allows := by
  have hget : getVietnam.Guarantees P.Allows := Objects.guarantees_get _
  refine (Program.guarantees_exec ((hget.bind fun _ => Tx.guarantees_pure _).handling _
    (Tx.guarantees_pure _))).bind fun found => ?_
  cases found with
  | some country => trivial
  | none =>
      refine Program.guarantees_exec (Tx.Guarantees.handling ?_ _ ?_)
      · exact (allows_create fun id => h _ ⟨id, rfl⟩).bind fun _ => Tx.guarantees_pure _
      · exact (hget.handling _ (Tx.guarantees_raise _)).bind fun _ => Tx.guarantees_pure _

lemma createMasterAdmin_allows [SerializerFields] [PyText] {email password : String}
    (h : ∀ s : Staff, s = ⟨s.id, normalizeEmail email, makePassword password, .masterAdmin, true⟩ →
      (P .staff).add s) : (createMasterAdmin email password).Guarantees P.Allows := by
  have hinsert : (insertMasterAdmin (normalizeEmail email) password).Guarantees P.Allows :=
    allows_create fun _ => h _ rfl
  refine (Program.guarantees_exec (Tx.guarantees_read _)).bind fun _ => ?_
  refine (Program.guarantees_require _ _).bind fun _ => ?_
  refine (Program.guarantees_require _ _).bind fun _ => ?_
  exact Program.guarantees_exec hinsert

/-- A statement of a call on categories writes the categories. -/
lemma CategoryPc.next_allows {c c' : CategoryPc} {w w' : World} (h : c.next w = some (c', w')) :
    surroundingsPolicy.Allows w w' := by
  have hparent : ∀ parentId, (requireParent parentId).Guarantees surroundingsPolicy.Allows :=
    fun _ => requireStored_guarantees _
  have hmoves : ∀ c c' : Category, (∃ parentId, c' = { c with parentId := parentId }) →
      (surroundingsPolicy .categories).change c c' := fun _ _ h => h
  cases c with
  | reading call ancestors parentId =>
      obtain ⟨parent, hrun, -⟩ | ⟨e, -, -, rfl⟩ := Control.advance_cases h
      · obtain ⟨rfl, -⟩ := Objects.get_ok hrun
        exact refl_of surroundingsPolicy.Allows _
      · exact refl_of surroundingsPolicy.Allows _
  | saving call ancestors =>
      cases call with
      | createCategory parent =>
          obtain ⟨category, hrun, -⟩ | ⟨e, -, -, rfl⟩ := Control.advance_cases h
          · exact (hparent _).bind (fun _ => allows_create fun _ => trivial) w category w' hrun
          · exact refl_of surroundingsPolicy.Allows _
      | reparentCategory category newParent =>
          obtain ⟨u, hrun, -⟩ | ⟨e, -, -, rfl⟩ := Control.advance_cases h
          · exact (allows_save fun c _ => hmoves c _ ⟨_, rfl⟩).bind (fun _ => hparent _)
              w u w' hrun
          · exact refl_of surroundingsPolicy.Allows _
  | returned category => cases h
  | raised e => cases h

lemma Surroundings.allows {w w' : World} (h : Surroundings w w') :
    surroundingsPolicy.Allows w w' := by
  cases h with
  | time h =>
      obtain ⟨t, rfl⟩ := h
      exact WorldPolicy.allows_of_eq rfl rfl
  | categories c c' h => exact CategoryPc.next_allows h

/-! ## Runs -/

section Runs

variable [Libraries]

/-- What a piece of work may write that has found these databases. -/
abbrev Work.Permits (work : Work) (found : Set World) : World → World → Prop :=
  (work.policy found).Allows

/-- All the work keeps to its policies. -/
theorem Work.program_keeps (work : Work) :
    work.program.Earns work.Permits (fun _ _ => True) ∅ := by
  cases work with
  | http endpoint request => exact endpoint.view_keeps.bind_return
  | internal call => exact Program.Guarantees.earns (call.service_allows.bind fun _ => trivial)
  | createMasterAdmin email password =>
      exact Program.Guarantees.earns ((createMasterAdmin_allows fun _ h => h).bind fun _ => trivial)
  | seedSupportedCountries uuid =>
      exact Program.Guarantees.earns
        ((seedSupportedCountries_allows fun _ h => h).bind fun _ => trivial)

/-- What the work in a pool, or its surroundings, may write, with some of these databases for
evidence. -/
def earnedPolicy {ι : Type} (work : ι → Work) (visited : Set World) : WorldPolicy :=
  .union fun source : Option (ι × { found : Set World // found ⊆ visited }) =>
    source.elim surroundingsPolicy fun s => (work s.1).policy s.2

variable {ι : Type} {w : World} {work : ι → Work} {visited visited' : Set World}

lemma earnedPolicy_mono (hsub : visited ⊆ visited') :
    (earnedPolicy work visited).Le (earnedPolicy work visited') := by
  let policy : Option (ι × { found : Set World // found ⊆ visited' }) → WorldPolicy := fun source =>
    source.elim surroundingsPolicy fun s => (work s.1).policy s.2
  refine WorldPolicy.union_le fun source => ?_
  cases source with
  | none => exact WorldPolicy.le_union policy none
  | some s => exact WorldPolicy.le_union policy (some (s.1, ⟨s.2.1, s.2.2.trans hsub⟩))

variable [DecidableEq ι] {Q Q' : Pool ι (Service (Option Answer)) World}

/-- A run moves the store as its work and what has been visited permit. -/
lemma run_allows (h : ApiVisits (apiPool w work) visited Q) (h' : ApiVisits Q visited' Q') :
    (earnedPolicy work (visited ∪ visited')).Allows Q.store Q'.store := by
  refine h.earned (R := fun visited => (earnedPolicy work visited).Allows)
    (fun i => (work i).program_keeps) ?_ ?_ ?_ h'
  · exact fun visited visited' w w' hsub hmove => hmove.mono (earnedPolicy_mono hsub)
  · exact fun i found w w' hmove => WorldPolicy.allows_union (some (i, ⟨found, subset_rfl⟩)) hmove
  · exact fun w w' henv => WorldPolicy.allows_union none henv.allows

/-- A whole run moves the store as its work and what it has visited permit. -/
lemma run_allows_start (h : ApiVisits (apiPool w work) visited Q) :
    (earnedPolicy work visited).Allows w Q.store := by
  have hfirst : {(apiPool w work).store} ∪ visited = visited :=
    Set.union_eq_right.2 (Set.singleton_subset_iff.2 h.start_mem)
  have hmoves := run_allows (w := w) .start h
  rwa [hfirst] at hmoves

/-- Whatever the interleaving, from any point of a run to any later one the database moves as the
policies of the work in the pool allow, and the evidence that they ask for is in the databases
that the run has visited. -/
theorem write_policy (h : ApiVisits (apiPool w work) visited Q) (h' : ApiVisits Q visited' Q') :
    (earnedPolicy work (visited ∪ visited')).Allows Q.store Q'.store :=
  run_allows h h'

end Runs

section Example

attribute [local instance] plainLibraries

lemma write_policy_errands : ∃ visited visited',
    ApiVisits (apiPool openingWorld errands) visited rootEnrolled ∧
      ApiVisits rootEnrolled visited' errandsDone ∧
      (earnedPolicy errands (visited ∪ visited')).Allows rootEnrolled.store errandsDone.store := by
  obtain ⟨visited, h⟩ := rootEnrolled_run.visits
  obtain ⟨visited', h'⟩ := errandsDone_run.visits
  exact ⟨visited, visited', h, h', write_policy h h'⟩

end Example

end BePyEco
