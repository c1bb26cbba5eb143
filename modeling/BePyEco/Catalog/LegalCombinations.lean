import BePyEco.Catalog.CombinationKeys

/-!
# Legal combinations

Which lists of values `set_variant_attributes` accepts.  Two values of one attribute are refused,
and so is the set of another variant of the product.  Every other list should be attached; but the
key joins texts of 36 characters with colons and its column has room for 255 characters, so the
save of a list of more than six values raises (`acceptsLegal_iff`).
-/

namespace BePyEco

open Library

/-- Another variant of the product has the same set of values, which is not empty. -/
def HasTwin (w : World) (variant : Variant) (attributeValues : List AttributeValue) : Prop :=
  attributeValues ≠ [] ∧ ∃ v ∈ w.db.variants.rows, v.productId = variant.productId ∧
    v.id ≠ variant.id ∧
      ∀ id, id ∈ attachedValues w v.id ↔ id ∈ attributeValues.map AttributeValue.id

/-- The attributes of a variant and its values of them. -/
def attachedPairs (w : World) (variantId : Id) : List (Id × Id) :=
  (w.db.variantAttributeValues.rows.filter fun a => decide (a.variantId = variantId)).map
    fun a => (a.attributeId, a.attributeValueId)

/-- The call raises for the two reasons that it has to raise, and otherwise attaches the list. -/
structure AcceptsLegal (w : World) (variant : Variant) (attributeValues : List AttributeValue) :
    Prop where
  duplicate : (setVariantAttributes variant attributeValues).run w =
      .error (.app .duplicateAttribute) ↔
    ¬ (attributeValues.map AttributeValue.attributeId).Nodup
  twin : (setVariantAttributes variant attributeValues).run w =
      .error (.app .duplicateAttributeCombination) ↔
    (attributeValues.map AttributeValue.attributeId).Nodup ∧ HasTwin w variant attributeValues
  nothingElse : ∀ e, (setVariantAttributes variant attributeValues).run w = .error e →
    e = .app .duplicateAttribute ∨ e = .app .duplicateAttributeCombination
  accepted : (attributeValues.map AttributeValue.attributeId).Nodup →
    ¬ HasTwin w variant attributeValues →
      ∃ v w', (setVariantAttributes variant attributeValues).run w = .ok (v, w') ∧
        attachedPairs w' variant.id = attributeValues.map fun value => (value.attributeId, value.id)

/-! ## Keys and sets of values -/

section Keys

variable {attributeOf : Id → Id} {w w' : World} {variant : Variant}
  {attributeValues : List AttributeValue}

/-- Values of distinct attributes are distinct. -/
lemma Loaded.nodup_ids (hloaded : Loaded attributeOf attributeValues)
    (h : (attributeValues.map AttributeValue.attributeId).Nodup) :
    (attributeValues.map AttributeValue.id).Nodup := by
  have hmap : attributeValues.map AttributeValue.attributeId =
      (attributeValues.map AttributeValue.id).map attributeOf := by
    rw [List.map_map]
    exact List.map_congr_left fun value hvalue => (hloaded value hvalue).1
  rw [hmap] at h
  exact h.of_map _

/-- A variant has the key of a list exactly when it has its values. -/
lemma KeysInSync.key_eq_iff (h : KeysInSync attributeOf w)
    (hloaded : Loaded attributeOf attributeValues)
    (hnodup : (attributeValues.map AttributeValue.attributeId).Nodup) {v : Variant}
    (hv : v ∈ w.db.variants.rows) :
    v.attributeCombinationKey = combinationKey attributeValues ↔
      ∀ id, id ∈ attachedValues w v.id ↔ id ∈ attributeValues.map AttributeValue.id := by
  constructor
  · intro hkey id
    rw [← mem_combinationKey, ← hkey, h.key v hv]
    exact (List.perm_insertionSort _ _).mem_iff.symm
  · intro hsame
    rw [h.key v hv]
    exact insertionSort_eq_of_perm ((List.perm_ext_iff_of_nodup
      (nodup_attachedValues h v.id) (hloaded.nodup_ids hnodup)).2 hsame)

lemma combinationKey_eq_nil_iff : combinationKey attributeValues = [] ↔ attributeValues = [] := by
  unfold combinationKey
  rw [← List.length_eq_zero_iff, List.length_insertionSort, List.length_map,
    List.length_eq_zero_iff]

lemma length_combinationKey : (combinationKey attributeValues).length = attributeValues.length := by
  unfold combinationKey
  rw [List.length_insertionSort, List.length_map]

/-- The query for a variant with the same key finds the twins. -/
lemma KeysInSync.hasTwin_iff (h : KeysInSync attributeOf w)
    (hloaded : Loaded attributeOf attributeValues)
    (hnodup : (attributeValues.map AttributeValue.attributeId).Nodup) :
    HasTwin w variant attributeValues ↔ combinationKey attributeValues ≠ [] ∧
      w.db.variants.rows.any (combinationTaken variant (combinationKey attributeValues)) =
        true := by
  unfold HasTwin combinationTaken
  rw [ne_eq, ne_eq, combinationKey_eq_nil_iff, List.any_eq_true]
  refine and_congr_right fun _ => exists_congr fun v => and_congr_right fun hv => ?_
  rw [Bool.and_eq_true, Bool.and_eq_true, decide_eq_true_eq, decide_eq_true_eq, Bool.not_eq_true',
    decide_eq_false_iff_not, h.key_eq_iff hloaded hnodup hv]
  tauto

/-- The text of a key of `n` ids has `37 n - 1` characters, and six ids are the most that fit. -/
lemma keyLength_le_iff {key : List Id} : Variant.keyLength key ≤ 255 ↔ key.length ≤ 6 := by
  unfold Variant.keyLength
  omega

end Keys

/-! ## The outcomes of a call -/

section Outcomes

variable {attributeOf : Id → Id} {w w' : World} {variant : Variant}
  {attributeValues : List AttributeValue}

lemma run_of_duplicate (h : ¬ (attributeValues.map AttributeValue.attributeId).Nodup) :
    (setVariantAttributes variant attributeValues).run w = .error (.app .duplicateAttribute) := by
  rw [setVariantAttributes, Tx.run_bind, decide_eq_false h, Tx.run_require_false]

lemma run_of_twin (hsync : KeysInSync attributeOf w) (hloaded : Loaded attributeOf attributeValues)
    (hnodup : (attributeValues.map AttributeValue.attributeId).Nodup)
    (htwin : HasTwin w variant attributeValues) :
    (setVariantAttributes variant attributeValues).run w =
      .error (.app .duplicateAttributeCombination) := by
  obtain ⟨hkey, hany⟩ := (hsync.hasTwin_iff hloaded hnodup).1 htwin
  rw [setVariantAttributes, Tx.run_bind, decide_eq_true hnodup, Tx.run_require_true]
  dsimp only
  rw [Tx.run_bind, Objects.run_exists?]
  dsimp only
  rw [table_variant, hany, Tx.run_bind, decide_eq_false hkey]
  rfl

/-- The new rows take the places of the deleted ones. -/
lemma exists_attributeRows (hnodup : (attributeValues.map AttributeValue.attributeId).Nodup) :
    ∃ t : Table VariantAttributeValue,
      (Objects.bulkCreate (fun (value : AttributeValue) id => ({
        id := id
        variantId := variant.id
        attributeId := value.attributeId
        attributeValueId := value.id } : VariantAttributeValue)) (fun _ _ => rfl)
          attributeValues : Statement Unit).run (Stored.put (w.db.variantAttributeValues.delete
            fun a => decide (a.variantId = variant.id)) w) = .ok ((), Stored.put t w) := by
  refine Objects.run_bulkCreate_of_free (fun _ _ _ => rfl) (fun a ha value _ id => ?_) ?_
  · have hother : a.variantId ≠ variant.id := by
      simpa using (List.mem_filter.1 ha).2
    exact decide_eq_false fun hsame => hother hsame.1
  · refine (List.pairwise_map.1 hnodup).imp fun hne id id' => ?_
    exact decide_eq_false fun hsame => hne hsame.2

/-- Past both checks, the call succeeds when its last statement does. -/
lemma run_of_no_twin (hsync : KeysInSync attributeOf w)
    (hloaded : Loaded attributeOf attributeValues)
    (hnodup : (attributeValues.map AttributeValue.attributeId).Nodup)
    (htwin : ¬ HasTwin w variant attributeValues) :
    ∃ t : Table VariantAttributeValue,
      (setVariantAttributes variant attributeValues).run w =
        match (saveCombinationKey variant.id (combinationKey attributeValues)).run
          (Stored.put t w) with
        | .ok (_, w') =>
          .ok ({ variant with attributeCombinationKey := combinationKey attributeValues }, w')
        | .error e => .error e := by
  have hpass : (decide (combinationKey attributeValues = []) ||
      !w.db.variants.rows.any (combinationTaken variant (combinationKey attributeValues))) =
        true := by
    rw [hsync.hasTwin_iff hloaded hnodup] at htwin
    by_cases hkey : combinationKey attributeValues = []
    · simp [hkey]
    · have hany : ¬ w.db.variants.rows.any
          (combinationTaken variant (combinationKey attributeValues)) = true :=
        fun hany => htwin ⟨hkey, hany⟩
      rw [Bool.not_eq_true] at hany
      rw [hany, Bool.not_false, Bool.or_true]
  obtain ⟨t, hcreate⟩ := @exists_attributeRows w variant attributeValues hnodup
  refine ⟨t, ?_⟩
  rw [setVariantAttributes, Tx.run_bind, decide_eq_true hnodup, Tx.run_require_true]
  dsimp only
  rw [Tx.run_bind, Objects.run_exists?]
  dsimp only
  rw [table_variant, Tx.run_bind, hpass, Tx.run_require_true]
  dsimp only
  rw [Tx.run_bind, Objects.run_delete]
  dsimp only
  rw [Tx.run_bind, table_variantAttributeValue, hcreate]
  dsimp only
  rw [Tx.run_bind]
  cases (saveCombinationKey variant.id (combinationKey attributeValues)).run (Stored.put t w) with
  | ok r => rfl
  | error e => rfl

/-- The variant as stored is of the product that the instance says. -/
def InstanceStored (w : World) (variant : Variant) : Prop :=
  ∃ v ∈ w.db.variants.rows, v.id = variant.id ∧ v.productId = variant.productId

/-- The save goes through when the text of the key fits its column. -/
lemma exists_saveCombinationKey (hsync : KeysInSync attributeOf w)
    (hloaded : Loaded attributeOf attributeValues)
    (hnodup : (attributeValues.map AttributeValue.attributeId).Nodup)
    (htwin : ¬ HasTwin w variant attributeValues) (hstored : InstanceStored w variant)
    (hlength : attributeValues.length ≤ 6) (t : Table VariantAttributeValue) :
    ∃ w', (saveCombinationKey variant.id (combinationKey attributeValues)).run (Stored.put t w) =
      .ok ((), w') := by
  obtain ⟨v, hv, hid, hproduct⟩ := hstored
  have hv' : v ∈ (Stored.table (Stored.put t w) : Table Variant).rows := hv
  have hfit : Model.fits { v with attributeCombinationKey := combinationKey attributeValues } =
      true := by
    have hold := w.db.variants.all_fit v hv
    simp only [Model.fits, Bool.and_eq_true, decide_eq_true_eq] at hold ⊢
    exact ⟨hold.1, keyLength_le_iff.2 (length_combinationKey.trans_le hlength)⟩
  have hfree : ∀ u ∈ (Stored.table (Stored.put t w) : Table Variant).rows,
      Model.pk u ≠ Model.pk v → Model.conflicts u
        { v with attributeCombinationKey := combinationKey attributeValues } = false := by
    intro u hu hne
    have hold : Model.conflicts u v = false := by
      by_contra hcon
      rw [Bool.not_eq_false] at hcon
      exact hne (congrArg Model.pk (w.db.variants.eq_of_conflicts hu hv hcon))
    simp only [Model.conflicts, Bool.or_eq_false_iff, decide_eq_false_iff_not] at hold ⊢
    refine ⟨hold.1, fun hsame => htwin ?_⟩
    refine (hsync.hasTwin_iff hloaded hnodup).2 ⟨?_, List.any_eq_true.2 ⟨u, hu, ?_⟩⟩
    · exact fun hnil => hsame.2.2 (hsame.2.1.trans hnil)
    · have hne' : u.id ≠ variant.id := fun heq => hne (heq.trans hid.symm)
      simp [combinationTaken, hsame.1, hproduct, hsame.2.1, hne']
  obtain ⟨variants, -, hrun⟩ := @Objects.run_saveChecked_of_mem _ ApiError _ _ _
    (fun v : Variant => { v with attributeCombinationKey := combinationKey attributeValues })
    (fun _ => rfl) (Stored.put t w) v hv' hfit hfree
  refine ⟨Stored.put variants (Stored.put t w), ?_⟩
  rw [← hid]
  exact hrun

/-- Otherwise the save raises. -/
lemma saveCombinationKey_of_too_long (hstored : InstanceStored w variant)
    (hlength : 6 < attributeValues.length) (t : Table VariantAttributeValue) :
    (saveCombinationKey variant.id (combinationKey attributeValues)).run (Stored.put t w) =
      .error (.db .dataError) := by
  obtain ⟨v, hv, hid, -⟩ := hstored
  have hfit : Model.fits { v with attributeCombinationKey := combinationKey attributeValues } =
      false := by
    have hlong : ¬ Variant.keyLength (combinationKey attributeValues) ≤ 255 := by
      rw [keyLength_le_iff, length_combinationKey]
      exact not_le.2 hlength
    simp only [Model.fits, decide_eq_false hlong, Bool.and_false]
  rw [← hid]
  exact @Objects.run_saveChecked_of_too_wide _ ApiError _ _ _
    (fun v : Variant => { v with attributeCombinationKey := combinationKey attributeValues })
    (fun _ => rfl) (Stored.put t w) v hv hfit

/-- A twin has as many values as the list. -/
lemma length_le_of_twin (hsync : KeysInSync attributeOf w)
    (hloaded : Loaded attributeOf attributeValues)
    (hnodup : (attributeValues.map AttributeValue.attributeId).Nodup)
    (htwin : HasTwin w variant attributeValues) : attributeValues.length ≤ 6 := by
  obtain ⟨-, v, hv, -, -, hsame⟩ := htwin
  have hkey := (hsync.key_eq_iff hloaded hnodup hv).2 hsame
  have hfit := w.db.variants.all_fit v hv
  simp only [Model.fits, Bool.and_eq_true, decide_eq_true_eq] at hfit
  rw [← length_combinationKey, ← hkey]
  exact keyLength_le_iff.1 hfit.2

/-- In sync, the pairs of a variant are its values with their attributes. -/
lemma KeysInSync.attachedPairs (hsync : KeysInSync attributeOf w) (variantId : Id) :
    attachedPairs w variantId =
      (attachedValues w variantId).map fun id => (attributeOf id, id) := by
  unfold BePyEco.attachedPairs attachedValues
  rw [List.map_map]
  refine List.map_congr_left fun a ha => ?_
  rw [hsync.ownAttribute a (List.mem_filter.1 ha).1]
  rfl

lemma attachedPairs_of_ok (hsync : KeysInSync attributeOf w)
    (hloaded : Loaded attributeOf attributeValues) {v : Variant}
    (hrun : (setVariantAttributes variant attributeValues).run w = .ok (v, w')) :
    attachedPairs w' variant.id =
      attributeValues.map fun value => (value.attributeId, value.id) := by
  obtain ⟨values, variants, hset, hw'⟩ := setVariantAttributes_ok hrun
  rw [(hsync.setVariantAttributes hloaded hrun).attachedPairs, hset.attachedValues hw', if_pos rfl,
    List.map_map]
  refine List.map_congr_left fun value hvalue => ?_
  rw [(hloaded value hvalue).1]
  rfl

/-- Up to six values, the call does what it has to do. -/
lemma acceptsLegal_of_length_le (hsync : KeysInSync attributeOf w)
    (hloaded : Loaded attributeOf attributeValues) (hstored : InstanceStored w variant)
    (h : attributeValues.length ≤ 6 ∨
      ¬ (attributeValues.map AttributeValue.attributeId).Nodup) :
    AcceptsLegal w variant attributeValues := by
  by_cases hnodup : (attributeValues.map AttributeValue.attributeId).Nodup
  · have hlength : attributeValues.length ≤ 6 := h.resolve_right (not_not.2 hnodup)
    by_cases htwin : HasTwin w variant attributeValues
    · have hrun := run_of_twin hsync hloaded hnodup htwin
      refine ⟨iff_of_false ?_ (not_not.2 hnodup), iff_of_true hrun ⟨hnodup, htwin⟩, ?_,
        fun _ hnot => absurd htwin hnot⟩
      · rw [hrun]
        exact nofun
      · rw [hrun]
        rintro e ⟨⟩
        exact Or.inr rfl
    · obtain ⟨t, hrun⟩ := @run_of_no_twin _ _ variant _ hsync hloaded hnodup htwin
      obtain ⟨w', hsave⟩ := exists_saveCombinationKey hsync hloaded hnodup htwin hstored hlength t
      rw [hsave] at hrun
      refine ⟨iff_of_false ?_ (not_not.2 hnodup), iff_of_false ?_ fun hnot => htwin hnot.2, ?_,
        fun _ _ => ⟨_, w', hrun, attachedPairs_of_ok hsync hloaded hrun⟩⟩
      · rw [hrun]
        exact nofun
      · rw [hrun]
        exact nofun
      · rw [hrun]
        exact nofun
  · have hrun := @run_of_duplicate w variant _ hnodup
    refine ⟨iff_of_true hrun hnodup, iff_of_false ?_ fun hnot => hnodup hnot.1, ?_,
      fun hnot => absurd hnot hnodup⟩
    · rw [hrun]
      exact nofun
    · rw [hrun]
      rintro e ⟨⟩
      exact Or.inl rfl

/-- A longer list is refused by the column. -/
lemma not_acceptsLegal_of_lt (hsync : KeysInSync attributeOf w)
    (hloaded : Loaded attributeOf attributeValues) (hstored : InstanceStored w variant)
    (hnodup : (attributeValues.map AttributeValue.attributeId).Nodup)
    (hlength : 6 < attributeValues.length) : ¬ AcceptsLegal w variant attributeValues := by
  intro haccepts
  have htwin : ¬ HasTwin w variant attributeValues := fun htwin =>
    absurd (length_le_of_twin hsync hloaded hnodup htwin) (not_le.2 hlength)
  obtain ⟨t, hrun⟩ := @run_of_no_twin _ _ variant _ hsync hloaded hnodup htwin
  rw [saveCombinationKey_of_too_long hstored hlength] at hrun
  obtain heq | heq := haccepts.nothingElse _ hrun
  · cases heq
  · cases heq

end Outcomes

/-! ## Histories of all calls -/

section Histories

variable [ImageLibraries] [PresignedPosts] {attributeOf : Id → Id}

/-- The values and the keys are the same. -/
abbrev KeepsKeyColumns : World → World → Prop := Same fun w =>
  (w.db.variantAttributeValues,
    w.db.variants.rows.map fun v => (v.id, v.attributeCombinationKey))

/-- The instances of values are as they are loaded. -/
def CatalogCall.LoadsValues (attributeOf : Id → Id) : CatalogCall → Prop
  | setVariantAttributes _ attributeValues => Loaded attributeOf attributeValues
  | _ => True

omit [ImageLibraries] [PresignedPosts] in
lemma KeysInSync.of_keepsKeyColumns {w w' : World} (h : KeysInSync attributeOf w)
    (hkeeps : KeepsKeyColumns w w') : KeysInSync attributeOf w' := by
  have hvalues : w'.db.variantAttributeValues = w.db.variantAttributeValues :=
    congrArg Prod.fst hkeeps
  have hkeys : w'.db.variants.rows.map (fun v => (v.id, v.attributeCombinationKey)) =
      w.db.variants.rows.map fun v => (v.id, v.attributeCombinationKey) := congrArg Prod.snd hkeeps
  have hrow : ∀ u u' : World, u'.db.variants.rows.map (fun v => (v.id, v.attributeCombinationKey)) =
      u.db.variants.rows.map (fun v => (v.id, v.attributeCombinationKey)) →
      ∀ v ∈ u.db.variants.rows, ∃ v' ∈ u'.db.variants.rows, v'.id = v.id ∧
        v'.attributeCombinationKey = v.attributeCombinationKey := by
    intro u u' hmap v hv
    have hmem := List.mem_map_of_mem (f := fun v : Variant => (v.id, v.attributeCombinationKey)) hv
    rw [← hmap] at hmem
    obtain ⟨v', hv', heq⟩ := List.mem_map.1 hmem
    exact ⟨v', hv', congrArg Prod.fst heq, congrArg Prod.snd heq⟩
  refine ⟨fun a ha => ?_, ?_, ?_, fun v hv => ?_⟩
  · rw [hvalues] at ha
    obtain ⟨v, hv, hid⟩ := h.owner a ha
    obtain ⟨v', hv', hid', -⟩ := hrow w w' hkeys v hv
    exact ⟨v', hv', hid'.trans hid⟩
  · rw [hvalues]
    exact h.ownAttribute
  · rw [hvalues]
    exact h.bound
  · obtain ⟨v', hv', hid, hkey⟩ := hrow w' w hkeys.symm v hv
    unfold attachedValues
    rw [hvalues, ← hkey, h.key v' hv', hid]
    rfl

/-- The calls that write values or keys. -/
def CatalogCall.WritesKeys : CatalogCall → Prop
  | createVariant _ _ _ _ _ => True
  | setVariantAttributes _ _ => True
  | _ => False

/-- All other calls leave values and keys alone. -/
lemma CatalogCall.keepsKeyColumns {call : CatalogCall} (h : ¬ call.WritesKeys) :
    call.service.Guarantees KeepsKeyColumns := by
  cases call with
  | createProduct primaryCategory categories brandId =>
      exact .bind_return (createProduct_guarantees
        (fun _ => Objects.guarantees_create fun _ _ => rfl) fun _ _ =>
          Objects.guarantees_bulkCreate (fun _ _ => rfl) _)
  | createVariant product sku basePriceVnd weightGrams barcode => exact absurd trivial h
  | setVariantAttributes variant attributeValues => exact absurd trivial h
  | archiveVariant variant =>
      refine .bind_return (archiveVariant_guarantees
        (Objects.guarantees_save fun w => Prod.ext rfl ?_))
      change (w.db.variants.rows.map _).map _ = _
      rw [List.map_map]
      refine List.map_congr_left fun v _ => ?_
      simp only [Function.comp_apply, Assignment.on]
      split <;> rfl
  | archiveProduct product =>
      exact .bind_return (archiveProduct_guarantees (Objects.guarantees_save fun _ => rfl))
  | publishProduct product =>
      exact .bind_return (publishProduct_guarantees (Tx.guarantees_read _)
        (Objects.guarantees_save fun _ => rfl) fun _ => Objects.guarantees_create fun _ _ => rfl)
  | setTranslation entity locale field value isAiGenerated =>
      exact .bind_return (setTranslation_guarantees (Objects.guarantees_create fun _ _ => rfl)
        fun _ => Objects.guarantees_save fun _ => rfl)
  | approveTranslation entryId =>
      exact .bind_return (approveTranslation_guarantees fun _ =>
        Objects.guarantees_save fun _ => rfl)
  | requestUpload contentType sizeBytes =>
      have hdraw : drawRandom.Guarantees KeepsKeyColumns := by
        rintro w n w' ⟨⟩
        rfl
      exact .bind_return (requestUpload_guarantees hdraw fun _ =>
        Objects.guarantees_create fun _ _ => rfl)
  | validateUpload services mediaUploadId =>
      have hvalidate :
          (BePyEco.validateUpload services mediaUploadId).Guarantees KeepsKeyColumns := by
        intro w u w' hrun
        obtain ⟨m, hm, -, ⟨-, rfl⟩ | ⟨-, t, rfl, -⟩⟩ := validateUpload_ok hrun
        · rfl
        · rfl
      exact .bind_return (Program.guarantees_exec hvalidate)
  | attachMediaToProduct mediaUpload product =>
      exact .bind_return (attachMediaToProduct_guarantees (Objects.guarantees_save fun _ => rfl))

lemma keysInSync_of_history {w₀ w : World} (hvariants : w₀.db.variants.rows = [])
    (hvalues : w₀.db.variantAttributeValues.rows = [])
    (h : CatalogHistory (fun _ call => call.LoadsValues attributeOf) w₀ w) :
    KeysInSync attributeOf w := by
  have hstart : KeysInSync attributeOf w₀ := by
    refine ⟨?_, ?_, ?_, ?_⟩ <;> simp [hvariants, hvalues]
  refine Program.Sequence.invariant hstart (fun call => ?_) ?_ h
  · by_cases hwrites : call.WritesKeys
    · refine call.keysInSync_triple.mono (fun w hw => ⟨hw.1, ?_⟩) (fun _ _ h => h) fun _ h => h
      cases call with
      | createVariant product sku basePriceVnd weightGrams barcode => trivial
      | setVariantAttributes variant attributeValues => exact hw.2
      | _ => exact hwrites.elim
    · exact (Program.Triple.of_guarantees (CatalogCall.keepsKeyColumns hwrites)
        fun w w' hkeeps hw => KeysInSync.of_keepsKeyColumns hw hkeeps).mono
          (fun _ hw => hw.1) (fun _ _ h => h) fun _ h => h
  · rintro w w' ⟨t, rfl⟩ hw
    exact hw.of_keepsKeyColumns rfl

/-- In every reachable state, `set_variant_attributes` on a stored variant raises for its two
reasons only and otherwise attaches the list, exactly when the list has at most six values or two
of them share an attribute. -/
theorem acceptsLegal_iff {w₀ w : World} (hvariants : w₀.db.variants.rows = [])
    (hvalues : w₀.db.variantAttributeValues.rows = [])
    (h : CatalogHistory (fun _ call => call.LoadsValues attributeOf) w₀ w)
    {variant : Variant} (hstored : InstanceStored w variant)
    {attributeValues : List AttributeValue} (hloaded : Loaded attributeOf attributeValues) :
    AcceptsLegal w variant attributeValues ↔ attributeValues.length ≤ 6 ∨
      ¬ (attributeValues.map AttributeValue.attributeId).Nodup := by
  have hsync := keysInSync_of_history hvariants hvalues h
  constructor
  · intro haccepts
    by_contra hnot
    push Not at hnot
    exact not_acceptsLegal_of_lt hsync hloaded hstored hnot.2 hnot.1 haccepts
  · exact acceptsLegal_of_length_le hsync hloaded hstored

end Histories

/-! ### Six values and seven -/

section Example

attribute [local instance] pngLibraries localPosts

/-- The world in which a product and a variant of it were created. -/
def oneVariantWorld : World :=
  Program.Sequence.replay CatalogCall.service [.createProduct { id := 0 } none none,
    .createVariant ⟨0, 0, .draft, none, 0⟩ "a" 1000 100 none] twoCategories

lemma history_oneVariantWorld :
    CatalogHistory (fun _ call => call.LoadsValues id) twoCategories oneVariantWorld :=
  Program.Sequence.replay_of_allowed .refl ⟨trivial, trivial, trivial⟩

lemma instanceStored_oneVariantWorld : InstanceStored oneVariantWorld (plainVariant 0 "a") :=
  ⟨plainVariant 0 "a", List.mem_singleton_self _, rfl, rfl⟩

/-- One value of each of `n` attributes. -/
def valuesOfAttributes (n : ℕ) : List AttributeValue := (List.range n).map fun i => ⟨i, i⟩

theorem acceptsLegal_six :
    AcceptsLegal oneVariantWorld (plainVariant 0 "a") (valuesOfAttributes 6) :=
  (acceptsLegal_iff rfl rfl history_oneVariantWorld instanceStored_oneVariantWorld
    (by unfold Loaded; decide)).2 (Or.inl (by decide))

/-- Seven values of distinct attributes, with nothing else that speaks against them. -/
theorem not_acceptsLegal_seven :
    CatalogHistory (fun _ call => call.LoadsValues id) twoCategories oneVariantWorld ∧
      InstanceStored oneVariantWorld (plainVariant 0 "a") ∧ Loaded id (valuesOfAttributes 7) ∧
      ¬ AcceptsLegal oneVariantWorld (plainVariant 0 "a") (valuesOfAttributes 7) := by
  have hloaded : Loaded id (valuesOfAttributes 7) := by
    unfold Loaded
    decide
  refine ⟨history_oneVariantWorld, instanceStored_oneVariantWorld, hloaded, ?_⟩
  exact not_acceptsLegal_of_lt (keysInSync_of_history rfl rfl history_oneVariantWorld) hloaded
    instanceStored_oneVariantWorld (by decide) (by decide)

end Example

end BePyEco
