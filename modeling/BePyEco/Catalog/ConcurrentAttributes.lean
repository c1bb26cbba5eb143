import BePyEco.Catalog.AttributeTransactions

/-!
# Concurrent attribute assignments

Nothing in `set_variant_attributes` locks the variant before its DELETE, and the DELETE does not see
rows that another call commits after it has begun.  Such rows stay beside those of the call, unless
an attribute occurs in both.

The rows of a variant are those of one call, and its key is theirs, as long as every call has
deleted all rows of the variant that are committed when it commits (`AttributePc.Replaces`).
-/

namespace BePyEco

open Library

variable {ι : Type}

/-! ## What a call asks for, and what is stored -/

/-- The attribute and the value of each row that the call asks for. -/
def AttributeCall.requested (call : AttributeCall ι) : List (Id × Id) :=
  call.attributeValues.map fun value => (value.attributeId, value.id)

/-- The key of exactly these rows. -/
def keyOfValues (values : List (Id × Id)) : List Id :=
  (values.map Prod.snd).insertionSort (· ≤ ·)

@[simp] lemma keyOfValues_requested (call : AttributeCall ι) :
    keyOfValues call.requested = call.key := by
  simp [keyOfValues, AttributeCall.requested, AttributeCall.key, combinationKey,
    Function.comp_def]

lemma length_keyOfValues (values : List (Id × Id)) :
    (keyOfValues values).length = values.length := by
  simp [keyOfValues]

/-- What an attribute row assigns. -/
def VariantAttributeValue.assigned (a : VariantAttributeValue) : Id × Id :=
  (a.attributeId, a.attributeValueId)

lemma assigned_newRows (call : AttributeCall ι) (nextId : ℕ) :
    (call.newRows nextId).map VariantAttributeValue.assigned = call.requested := by
  unfold AttributeCall.newRows AttributeCall.requested
  rw [List.map_map]
  generalize call.attributeValues = values
  induction values generalizing nextId with
  | nil => rfl
  | cons value rest ih =>
      rw [List.zipIdx_cons, List.map_cons, List.map_cons]
      exact congrArg _ (ih (nextId + 1))

lemma ofVariant_newRows (call : AttributeCall ι) (nextId : ℕ) :
    ∀ a ∈ call.newRows nextId, call.ofVariant a = true := by
  intro a ha
  obtain ⟨pair, -, rfl⟩ := List.mem_map.1 ha
  exact decide_eq_true rfl

/-- The committed attribute rows of a variant. -/
def valuesOf (s : AttributeStore ι) (variantId : Id) : List (Id × Id) :=
  ((Versions.committed s.attributeValues).filter fun a => decide (a.variantId = variantId)).map
    VariantAttributeValue.assigned

/-- The committed key of a variant. -/
def keysOf (s : AttributeStore ι) (variantId : Id) : List (List Id) :=
  ((Versions.committed s.variants).filter fun v => decide (v.id = variantId)).map
    Variant.attributeCombinationKey

/-- The key of the variant is the key of exactly its rows. -/
def InSync (s : AttributeStore ι) (variantId : Id) : Prop :=
  ∀ key ∈ keysOf s variantId, key = keyOfValues (valuesOf s variantId)

/-- The call is over and has set the attributes of the variant. -/
def AttributePc.Succeeded (pc : AttributePc ι) (variantId : Id) : Prop :=
  pc.stage = .returned ∧ pc.call.variant.id = variantId

/-- The rows and the key of the variant are those of one call that has succeeded, or the first ones
if none has. -/
def Serialised (s : AttributeStore ι) (P : Pool ι (AttributePc ι) (AttributeStore ι))
    (variantId : Id) : Prop :=
  (∃ i, (P.pc i).Succeeded variantId ∧
    valuesOf P.store variantId = (P.pc i).call.requested ∧
    keysOf P.store variantId = [(P.pc i).call.key]) ∨
  ((∀ i, ¬ (P.pc i).Succeeded variantId) ∧
    valuesOf P.store variantId = valuesOf s variantId ∧
    keysOf P.store variantId = keysOf s variantId)

variable [DecidableEq ι]

/-- A call that commits has deleted every committed row of the variant. -/
def AttributePc.Replaces : AttributePc ι → AttributeStore ι → Prop
  | ⟨call, .committing⟩, s => ∀ a ∈ s.attributeValues, a.insertedBy = none →
    call.ofVariant a.row = true → a.deletedBy = some call.xid
  | _, _ => True

instance : (pc : AttributePc ι) → (s : AttributeStore ι) → Decidable (pc.Replaces s)
  | ⟨_, .committing⟩, s =>
    inferInstanceAs (Decidable (∀ a ∈ s.attributeValues, _ → _ → _))
  | ⟨_, .checking⟩, _ => .isTrue trivial
  | ⟨_, .deleting⟩, _ => .isTrue trivial
  | ⟨_, .waiting _⟩, _ => .isTrue trivial
  | ⟨_, .inserting⟩, _ => .isTrue trivial
  | ⟨_, .updating⟩, _ => .isTrue trivial
  | ⟨_, .returned⟩, _ => .isTrue trivial
  | ⟨_, .raised _⟩, _ => .isTrue trivial

/-- The next step of the call replaces the rows of its variant, if it is the commit. -/
def Replaces (P : Pool ι (AttributePc ι) (AttributeStore ι)) (i : ι) : Prop :=
  (P.pc i).Replaces P.store

/-! ## Moves -/

/-- The statements that may raise. -/
def AttributeStage.MayFail : AttributeStage → Prop
  | checking => True
  | inserting => True
  | updating => True
  | _ => False

/-- What the steps of a call do. -/
inductive AttributeMove (call : AttributeCall ι) (s : AttributeStore ι) :
    AttributeStage → AttributeStage → AttributeStore ι → Prop
  | checked : AttributeMove call s .checking .deleting s
  | began (seen : List Id) : AttributeMove call s .deleting (.waiting seen) s
  | deleted {seen : List Id} {p : VariantAttributeValue → Bool}
      (hp : ∀ a, p a = true → call.ofVariant a = true)
      (hfree : Versions.held call.xid p s.attributeValues = false) :
      AttributeMove call s (.waiting seen) .inserting
        { s with attributeValues := Versions.delete call.xid p s.attributeValues }
  | inserted : AttributeMove call s .inserting .updating { s with
      attributeValues := s.attributeValues ++ (call.newRows s.nextId).map fun a =>
        { row := a, insertedBy := some call.xid }
      nextId := s.nextId + call.attributeValues.length }
  | updated {v : Variant} (hv : v ∈ Versions.committed s.variants)
      (hid : v.id = call.variant.id)
      (hfree : Versions.held call.xid call.isVariant s.variants = false) :
      AttributeMove call s .updating .committing { s with
        variants := Versions.delete call.xid call.isVariant s.variants ++
          [{ v with attributeCombinationKey := call.key }].map fun v =>
            { row := v, insertedBy := some call.xid } }
  | committed : AttributeMove call s .committing .returned { s with
      variants := Versions.commit call.xid s.variants
      attributeValues := Versions.commit call.xid s.attributeValues }
  | failed {stage : AttributeStage} (hstage : stage.MayFail) (e : Raised ApiError) :
      AttributeMove call s stage (.raised e) { s with
        variants := Versions.rollback call.xid s.variants
        attributeValues := Versions.rollback call.xid s.attributeValues }

/-- Every step is a move. -/
lemma AttributePc.move_of_next {pc pc' : AttributePc ι} {s s' : AttributeStore ι}
    (h : pc.next s = some (pc', s')) :
    pc'.call = pc.call ∧ AttributeMove pc.call s pc.stage pc'.stage s' := by
  obtain ⟨call, stage⟩ := pc
  cases stage with
  | checking =>
      simp only [AttributePc.next] at h
      split at h
      · cases h
        exact ⟨rfl, .failed (by trivial) _⟩
      · cases h
        exact ⟨rfl, .checked⟩
  | deleting =>
      cases h
      exact ⟨rfl, .began _⟩
  | waiting seen =>
      simp only [AttributePc.next] at h
      split at h
      · cases h
      · rename_i hfree
        cases h
        refine ⟨rfl, .deleted (fun a ha => ?_) (eq_false_of_ne_true hfree)⟩
        simp only [Bool.and_eq_true] at ha
        exact ha.1
  | inserting =>
      simp only [AttributePc.next] at h
      split at h
      · rename_i vs hinsert
        cases h
        rw [Versions.insertAll_done hinsert]
        exact ⟨rfl, .inserted⟩
      · cases h
        exact ⟨rfl, .failed (by trivial) _⟩
      · cases h
  | updating =>
      simp only [AttributePc.next] at h
      split at h
      · cases h
      · rename_i hfree
        split at h
        · rename_i v hfind
          simp only [AttributeCall.update] at h
          split at h
          · split at h
            · rename_i vs hinsert
              cases h
              rw [Versions.insertAll_done hinsert]
              have hid : call.isVariant v = true := List.find?_some hfind
              exact ⟨rfl, .updated (List.mem_of_find?_eq_some hfind) (of_decide_eq_true hid)
                (eq_false_of_ne_true hfree)⟩
            · cases h
              exact ⟨rfl, .failed (by trivial) _⟩
            · cases h
          · cases h
            exact ⟨rfl, .failed (by trivial) _⟩
        · cases h
          exact ⟨rfl, .failed (by trivial) _⟩
  | committing =>
      cases h
      exact ⟨rfl, .committed⟩
  | returned => cases h
  | raised e => cases h

/-! ## What a call knows of its own writes -/

/-- The attribute rows that the transaction has inserted, and whose rows it has deleted. -/
structure Pending (call : AttributeCall ι) (rows : List VariantAttributeValue)
    (s : AttributeStore ι) : Prop where
  inserted : Versions.insertedBy call.xid s.attributeValues = rows
  deleted : ∀ a ∈ s.attributeValues, a.deletedBy = some call.xid → call.ofVariant a.row = true

/-- The transaction has written no variant. -/
structure Unlocked (call : AttributeCall ι) (s : AttributeStore ι) : Prop where
  inserted : Versions.insertedBy call.xid s.variants = []
  deleted : ∀ v ∈ s.variants, v.deletedBy ≠ some call.xid

/-- The transaction has written the key, and all versions of the variant are its own. -/
structure Locked (call : AttributeCall ι) (s : AttributeStore ι) : Prop where
  inserted : ∃ v, Versions.insertedBy call.xid s.variants = [v] ∧ v.id = call.variant.id ∧
    v.attributeCombinationKey = call.key
  owned : ∀ v ∈ s.variants, call.isVariant v.row = true →
    v.insertedBy = some call.xid ∨ v.deletedBy = some call.xid
  deleted : ∀ v ∈ s.variants, v.deletedBy = some call.xid → call.isVariant v.row = true

/-- What the transaction of a running call has written. -/
def AttributePc.Knows : AttributePc ι → AttributeStore ι → Prop
  | ⟨call, .checking⟩, s => Pending call [] s ∧ Unlocked call s
  | ⟨call, .deleting⟩, s => Pending call [] s ∧ Unlocked call s
  | ⟨call, .waiting _⟩, s => Pending call [] s ∧ Unlocked call s
  | ⟨call, .inserting⟩, s => Pending call [] s ∧ Unlocked call s
  | ⟨call, .updating⟩, s => (∃ n, Pending call (call.newRows n) s) ∧ Unlocked call s
  | ⟨call, .committing⟩, s => (∃ n, Pending call (call.newRows n) s) ∧ Locked call s
  | ⟨_, .returned⟩, _ => True
  | ⟨_, .raised _⟩, _ => True

/-- Only committed rows are deleted, in both tables. -/
structure StoreSound (s : AttributeStore ι) : Prop where
  variants : Versions.DeletesCommitted s.variants
  attributeValues : Versions.DeletesCommitted s.attributeValues

section Knowing

variable {call : AttributeCall ι} {s s' : AttributeStore ι} {stage stage' : AttributeStage}

lemma AttributeMove.sound (h : AttributeMove call s stage stage' s') (hs : StoreSound s) :
    StoreSound s' := by
  cases h with
  | checked => exact hs
  | began seen => exact hs
  | deleted hp hfree => exact ⟨hs.variants, hs.attributeValues.delete⟩
  | inserted => exact ⟨hs.variants, hs.attributeValues.insertAll⟩
  | updated hv hid hfree => exact ⟨hs.variants.delete.insertAll, hs.attributeValues⟩
  | committed => exact ⟨hs.variants.commit, hs.attributeValues.commit⟩
  | failed hstage e => exact ⟨hs.variants.rollback, hs.attributeValues.rollback⟩

/-- A call knows what it has written by its own steps. -/
lemma AttributeMove.knows (h : AttributeMove call s stage stage' s')
    (hknows : AttributePc.Knows ⟨call, stage⟩ s) : AttributePc.Knows ⟨call, stage'⟩ s' := by
  cases h with
  | checked => exact hknows
  | began seen => exact hknows
  | @deleted seen p hp hfree =>
      obtain ⟨hpending, hunlocked⟩ := hknows
      refine ⟨⟨?_, fun a ha hdeleted => ?_⟩, hunlocked.inserted, hunlocked.deleted⟩
      · rw [Versions.insertedBy_delete]
        exact hpending.inserted
      · obtain ⟨a₀, ha₀, rfl⟩ := Versions.mem_delete.1 ha
        rw [Version.row_delete]
        obtain ⟨-, hmatch⟩ | hold := Version.deletedBy_delete_cases _ _ _ hdeleted
        · exact hp a₀.row hmatch
        · exact hpending.deleted a₀ ha₀ hold
  | inserted =>
      obtain ⟨hpending, hunlocked⟩ := hknows
      refine ⟨⟨s.nextId, ?_, fun a ha hdeleted => ?_⟩, hunlocked.inserted, hunlocked.deleted⟩
      · rw [Versions.insertedBy_insertAll, hpending.inserted, List.nil_append]
      · obtain hold | hnew := List.mem_append.1 ha
        · exact hpending.deleted a hold hdeleted
        · obtain ⟨r, -, rfl⟩ := List.mem_map.1 hnew
          cases hdeleted
  | @updated v hv hid hfree =>
      obtain ⟨⟨n, hpending⟩, hunlocked⟩ := hknows
      have hfree := Versions.not_held_iff.1 hfree
      refine ⟨⟨n, hpending.inserted, hpending.deleted⟩,
        ⟨{ v with attributeCombinationKey := call.key }, ?_, hid, rfl⟩, fun u hu huid => ?_,
        fun u hu hdeleted => ?_⟩
      · rw [Versions.insertedBy_insertAll, Versions.insertedBy_delete, hunlocked.inserted,
          List.nil_append]
      · obtain hold | hnew := List.mem_append.1 hu
        · obtain ⟨u₀, hu₀, rfl⟩ := Versions.mem_delete.1 hold
          rw [Version.row_delete] at huid
          by_cases hnone : u₀.insertedBy = none
          · exact Or.inr (by simp [Version.delete, hnone, huid])
          · obtain ⟨y, hy⟩ := Option.ne_none_iff_exists'.1 hnone
            rw [Version.insertedBy_delete, hy, (hfree u₀ hu₀ huid).1 y hy]
            exact Or.inl rfl
        · obtain ⟨r, -, rfl⟩ := List.mem_map.1 hnew
          exact Or.inl rfl
      · obtain hold | hnew := List.mem_append.1 hu
        · obtain ⟨u₀, hu₀, rfl⟩ := Versions.mem_delete.1 hold
          rw [Version.row_delete]
          obtain ⟨-, hmatch⟩ | hbefore := Version.deletedBy_delete_cases _ _ _ hdeleted
          · exact hmatch
          · exact absurd hbefore (hunlocked.deleted u₀ hu₀)
        · obtain ⟨r, -, rfl⟩ := List.mem_map.1 hnew
          cases hdeleted
  | committed => trivial
  | failed hstage e => trivial

/-- What another transaction does to the tables. -/
structure SparesCall (call : AttributeCall ι) (s s' : AttributeStore ι) : Prop where
  variants : Versions.Spares call.xid s.variants s'.variants
  attributeValues : Versions.Spares call.xid s.attributeValues s'.attributeValues

lemma Pending.of_spares {rows : List VariantAttributeValue} (h : Pending call rows s)
    (hspares : SparesCall call s s') : Pending call rows s' := by
  refine ⟨hspares.attributeValues.inserted.trans h.inserted, fun a ha hdeleted => ?_⟩
  obtain ⟨a₀, ha₀, hdeleted₀, hrow⟩ := hspares.attributeValues.deleted a ha hdeleted
  rw [← hrow]
  exact h.deleted a₀ ha₀ hdeleted₀

lemma Unlocked.of_spares (h : Unlocked call s) (hspares : SparesCall call s s') :
    Unlocked call s' := by
  refine ⟨hspares.variants.inserted.trans h.inserted, fun v hv hdeleted => ?_⟩
  obtain ⟨v₀, hv₀, hdeleted₀, -⟩ := hspares.variants.deleted v hv hdeleted
  exact h.deleted v₀ hv₀ hdeleted₀

variable {other : AttributeCall ι}

/-- The moves of another transaction. -/
lemma AttributeMove.spares (h : AttributeMove other s stage stage' s') (hs : StoreSound s)
    (hne : call.xid ≠ other.xid) : SparesCall call s s' := by
  cases h with
  | checked => exact ⟨.refl _ _, .refl _ _⟩
  | began seen => exact ⟨.refl _ _, .refl _ _⟩
  | deleted hp hfree => exact ⟨.refl _ _, Versions.spares_delete hne⟩
  | inserted => exact ⟨.refl _ _, Versions.spares_insertAll hne⟩
  | updated hv hid hfree =>
      exact ⟨(Versions.spares_delete hne).trans (Versions.spares_insertAll hne), .refl _ _⟩
  | committed =>
      exact ⟨Versions.spares_commit hne hs.variants, Versions.spares_commit hne hs.attributeValues⟩
  | failed hstage e => exact ⟨Versions.spares_rollback hne, Versions.spares_rollback hne⟩

/-- A variant that is locked stays locked. -/
lemma Locked.of_move (h : Locked call s) (hs : StoreSound s)
    (hmove : AttributeMove other s stage stage' s') (hne : call.xid ≠ other.xid) :
    Locked call s' := by
  have hspares := hmove.spares hs hne
  obtain ⟨v, hinserted, hid, hkey⟩ := h.inserted
  refine ⟨⟨v, hspares.variants.inserted.trans hinserted, hid, hkey⟩, fun u hu huid => ?_,
    fun u hu hdeleted => ?_⟩
  · cases hmove with
    | checked => exact h.owned u hu huid
    | began seen => exact h.owned u hu huid
    | deleted hp hfree => exact h.owned u hu huid
    | inserted => exact h.owned u hu huid
    | @updated w hw hwid hfree =>
        -- the other call would have to wait for the version that this one has inserted
        have hfree := Versions.not_held_iff.1 hfree
        have hdifferent : other.variant.id ≠ call.variant.id := by
          intro heq
          have hv : v ∈ Versions.insertedBy call.xid s.variants := by simp [hinserted]
          obtain ⟨u₁, hu₁, hx, rfl⟩ := Versions.mem_insertedBy.1 hv
          exact hne ((hfree u₁ hu₁ (decide_eq_true (hid.trans heq.symm))).1 _ hx)
        obtain hold | hnew := List.mem_append.1 hu
        · obtain ⟨u₀, hu₀, rfl⟩ := Versions.mem_delete.1 hold
          rw [Version.row_delete] at huid
          have hother : other.isVariant u₀.row = false := decide_eq_false fun heq =>
            hdifferent (heq.symm.trans (of_decide_eq_true huid))
          have hsame : u₀.delete other.xid other.isVariant = u₀ := by
            simp [Version.delete, hother]
          rw [hsame]
          exact h.owned u₀ hu₀ huid
        · obtain ⟨r, hr, rfl⟩ := List.mem_map.1 hnew
          rw [List.mem_singleton.1 hr] at huid
          exact absurd (hwid.symm.trans (of_decide_eq_true huid)) hdifferent
    | committed =>
        obtain ⟨u₀, hu₀, -, rfl⟩ := Versions.mem_commit.1 hu
        rw [Version.row_commit] at huid
        obtain hx | hx := h.owned u₀ hu₀ huid
        · have hsame : u₀.commit other.xid = u₀ := by simp [Version.commit, hx, hne]
          rw [hsame]
          exact Or.inl hx
        · exact Or.inr ((Version.deletedBy_commit _ _).trans hx)
    | failed hstage e =>
        obtain ⟨u₀, hu₀, -, rfl⟩ := Versions.mem_rollback.1 hu
        rw [Version.row_rollback] at huid
        obtain hx | hx := h.owned u₀ hu₀ huid
        · exact Or.inl ((Version.insertedBy_rollback _ _).trans hx)
        · have hsame : u₀.rollback other.xid = u₀ := by simp [Version.rollback, hx, hne]
          rw [hsame]
          exact Or.inr hx
  · obtain ⟨u₀, hu₀, hdeleted₀, hrow⟩ := hspares.variants.deleted u hu hdeleted
    rw [← hrow]
    exact h.deleted u₀ hu₀ hdeleted₀

/-- What a call knows, no other call changes. -/
lemma AttributePc.Knows.of_move {pc : AttributePc ι} (hknows : pc.Knows s) (hs : StoreSound s)
    (hmove : AttributeMove other s stage stage' s') (hne : pc.call.xid ≠ other.xid) :
    pc.Knows s' := by
  have hspares := hmove.spares hs hne
  obtain ⟨call, stage⟩ := pc
  cases stage with
  | checking => exact ⟨hknows.1.of_spares hspares, hknows.2.of_spares hspares⟩
  | deleting => exact ⟨hknows.1.of_spares hspares, hknows.2.of_spares hspares⟩
  | waiting seen => exact ⟨hknows.1.of_spares hspares, hknows.2.of_spares hspares⟩
  | inserting => exact ⟨hknows.1.of_spares hspares, hknows.2.of_spares hspares⟩
  | updating =>
      obtain ⟨⟨n, hpending⟩, hunlocked⟩ := hknows
      exact ⟨⟨n, hpending.of_spares hspares⟩, hunlocked.of_spares hspares⟩
  | committing =>
      obtain ⟨⟨n, hpending⟩, hlocked⟩ := hknows
      exact ⟨⟨n, hpending.of_spares hspares⟩, hlocked.of_move hs hmove hne⟩
  | returned => trivial
  | raised e => trivial

end Knowing

/-! ## What a commit makes of a variant -/

section Committing

variable {call : AttributeCall ι} {s s' : AttributeStore ι} {stage stage' : AttributeStage}
  {variantId : Id}

/-- The attribute rows and the key that everybody sees. -/
abbrev assignmentOf (s : AttributeStore ι) (variantId : Id) : List (Id × Id) × List (List Id) :=
  (valuesOf s variantId, keysOf s variantId)

omit [DecidableEq ι] in
lemma assignmentOf_congr
    (hvariants : Versions.committed s'.variants = Versions.committed s.variants)
    (hvalues : Versions.committed s'.attributeValues = Versions.committed s.attributeValues) :
    assignmentOf s' variantId = assignmentOf s variantId := by
  simp only [assignmentOf, valuesOf, keysOf, hvariants, hvalues]

/-- Before the commit nobody sees what a call does. -/
lemma AttributeMove.assignmentOf_eq (h : AttributeMove call s stage stage' s')
    (hstage : stage' ≠ .returned) : assignmentOf s' variantId = assignmentOf s variantId := by
  cases h with
  | checked => rfl
  | began seen => rfl
  | deleted hp hfree => exact assignmentOf_congr rfl Versions.committed_delete
  | inserted => exact assignmentOf_congr rfl Versions.committed_insertAll
  | updated hv hid hfree =>
      exact assignmentOf_congr (Versions.committed_insertAll.trans Versions.committed_delete) rfl
  | committed => exact absurd rfl hstage
  | failed hne e => exact assignmentOf_congr Versions.committed_rollback Versions.committed_rollback

/-- A call that returns has committed. -/
lemma AttributeMove.of_returned (h : AttributeMove call s stage .returned s') :
    stage = .committing ∧ s' = { s with
      variants := Versions.commit call.xid s.variants
      attributeValues := Versions.commit call.xid s.attributeValues } := by
  cases h with
  | committed => exact ⟨rfl, rfl⟩

lemma AttributeMove.not_of_returned (h : AttributeMove call s stage stage' s') :
    stage ≠ .returned := by
  cases h with
  | failed hstage e =>
      rintro rfl
      exact hstage
  | _ => exact fun heq => by cases heq

/-- The step before the last one is the commit. -/
lemma AttributeMove.not_of_committing (h : AttributeMove call s stage stage' s')
    (hstage : stage' ≠ .returned) : stage ≠ .committing := by
  cases h with
  | failed hfail e =>
      rintro rfl
      exact hfail
  | committed => exact absurd rfl hstage
  | _ => exact fun heq => by cases heq

omit [DecidableEq ι] in
lemma AttributePc.replaces_of_ne {pc : AttributePc ι} (h : pc.stage ≠ .committing) :
    pc.Replaces s := by
  obtain ⟨call, stage⟩ := pc
  cases stage with
  | committing => exact absurd rfl h
  | _ => trivial

variable (hs : StoreSound s) (hknows : AttributePc.Knows ⟨call, .committing⟩ s)
  (hmove : AttributeMove call s stage .returned s')

include hs hknows hmove

/-- The key of the variant is that of the call. -/
lemma keysOf_commit : keysOf s' call.variant.id = [call.key] := by
  obtain ⟨-, rfl⟩ := hmove.of_returned
  obtain ⟨-, hlocked⟩ := hknows
  obtain ⟨v, hinserted, hid, hkey⟩ := hlocked.inserted
  have hrows : (Versions.committed (Versions.commit call.xid s.variants)).filter call.isVariant =
      Versions.insertedBy call.xid s.variants := by
    refine Versions.committed_commit_of_deleted hs.variants (fun r hr => ?_)
      fun u hu hnone huid => ?_
    · rw [hinserted, List.mem_singleton] at hr
      rw [hr]
      exact decide_eq_true hid
    · obtain hx | hx := hlocked.owned u hu huid
      · rw [hnone] at hx
        cases hx
      · exact hx
  unfold keysOf
  change ((Versions.committed (Versions.commit call.xid s.variants)).filter
    call.isVariant).map _ = _
  rw [hrows, hinserted, List.map_singleton, hkey]

/-- A call that has deleted all committed rows of the variant leaves its own. -/
lemma valuesOf_commit (hreplaces : AttributePc.Replaces ⟨call, .committing⟩ s) :
    valuesOf s' call.variant.id = call.requested := by
  obtain ⟨-, rfl⟩ := hmove.of_returned
  obtain ⟨⟨n, hpending⟩, -⟩ := hknows
  have hrows : (Versions.committed (Versions.commit call.xid s.attributeValues)).filter
      call.ofVariant = call.newRows n := by
    rw [← hpending.inserted]
    refine Versions.committed_commit_of_deleted hs.attributeValues (fun r hr => ?_) hreplaces
    rw [hpending.inserted] at hr
    exact ofVariant_newRows call n r hr
  unfold valuesOf
  change ((Versions.committed (Versions.commit call.xid s.attributeValues)).filter
    call.ofVariant).map _ = _
  rw [hrows, assigned_newRows]

/-- Otherwise there are more rows than it has asked for. -/
lemma lt_length_valuesOf_commit (hleft : ¬ AttributePc.Replaces ⟨call, .committing⟩ s) :
    call.requested.length < (valuesOf s' call.variant.id).length := by
  obtain ⟨-, rfl⟩ := hmove.of_returned
  obtain ⟨⟨n, hpending⟩, -⟩ := hknows
  simp only [AttributePc.Replaces] at hleft
  push Not at hleft
  obtain ⟨a, ha, hnone, hvariant, hkept⟩ := hleft
  have hown : ∀ r ∈ Versions.insertedBy call.xid s.attributeValues, call.ofVariant r = true := by
    intro r hr
    rw [hpending.inserted] at hr
    exact ofVariant_newRows call n r hr
  have hlength := Versions.committed_commit_of_left hs.attributeValues hown ha hnone hvariant hkept
  rw [hpending.inserted] at hlength
  rw [← assigned_newRows call n, List.length_map]
  unfold valuesOf
  rw [List.length_map]
  exact hlength

omit hs in
/-- The rows and keys of other variants stay. -/
lemma assignmentOf_commit_of_ne (hne : call.variant.id ≠ variantId) :
    assignmentOf s' variantId = assignmentOf s variantId := by
  obtain ⟨-, rfl⟩ := hmove.of_returned
  obtain ⟨⟨n, hpending⟩, hlocked⟩ := hknows
  obtain ⟨v, hinserted, hid, -⟩ := hlocked.inserted
  have hvariants : (Versions.committed (Versions.commit call.xid s.variants)).filter
      (fun v => decide (v.id = variantId)) =
      (Versions.committed s.variants).filter fun v => decide (v.id = variantId) := by
    refine Versions.committed_commit_of_foreign (fun r hr => ?_) fun u hu hdeleted => ?_
    · rw [hinserted, List.mem_singleton] at hr
      rw [hr]
      exact decide_eq_false fun heq => hne (hid.symm.trans heq)
    · have huid : u.row.id = call.variant.id := of_decide_eq_true (hlocked.deleted u hu hdeleted)
      exact decide_eq_false fun heq => hne (huid.symm.trans heq)
  have hvalues : (Versions.committed (Versions.commit call.xid s.attributeValues)).filter
      (fun a => decide (a.variantId = variantId)) =
      (Versions.committed s.attributeValues).filter fun a => decide (a.variantId = variantId) := by
    refine Versions.committed_commit_of_foreign (fun r hr => ?_) fun u hu hdeleted => ?_
    · rw [hpending.inserted] at hr
      have hr' : r.variantId = call.variant.id := of_decide_eq_true (ofVariant_newRows call n r hr)
      exact decide_eq_false fun heq => hne (hr'.symm.trans heq)
    · have hu' : u.row.variantId = call.variant.id :=
        of_decide_eq_true (hpending.deleted u hu hdeleted)
      exact decide_eq_false fun heq => hne (hu'.symm.trans heq)
  simp only [assignmentOf, valuesOf, keysOf, hvariants, hvalues]

end Committing

/-! ## Runs -/

section Runs

variable {s₀ : AttributeStore ι} {P : Pool ι (AttributePc ι) (AttributeStore ι)} {variantId : Id}

/-- Nothing is written that is not committed. -/
def AllCommitted (s : AttributeStore ι) : Prop :=
  (∀ v ∈ s.variants, v.insertedBy = none ∧ v.deletedBy = none) ∧
    ∀ a ∈ s.attributeValues, a.insertedBy = none ∧ a.deletedBy = none

/-- Every call is its own transaction, and knows what it has written. -/
structure AttributesKnown (P : Pool ι (AttributePc ι) (AttributeStore ι)) : Prop where
  xid : ∀ i, (P.pc i).call.xid = i
  sound : StoreSound P.store
  knows : ∀ i, (P.pc i).Knows P.store

lemma AttributesKnown.start (hstart : AllCommitted s₀) (calls : ι → Variant × List AttributeValue) :
    AttributesKnown (attributePool s₀ calls) := by
  refine ⟨fun i => rfl, ⟨fun v hv hne => absurd (hstart.1 v hv).2 hne,
    fun a ha hne => absurd (hstart.2 a ha).2 hne⟩, fun i => ?_⟩
  let call : AttributeCall ι := ⟨i, (calls i).1, (calls i).2⟩
  have hpending : Pending call [] s₀ := by
    refine ⟨List.eq_nil_iff_forall_not_mem.2 fun r hr => ?_, fun a ha hdeleted => ?_⟩
    · obtain ⟨a, ha, hx, -⟩ := Versions.mem_insertedBy.1 hr
      rw [(hstart.2 a ha).1] at hx
      cases hx
    · rw [(hstart.2 a ha).2] at hdeleted
      cases hdeleted
  have hunlocked : Unlocked call s₀ := by
    refine ⟨List.eq_nil_iff_forall_not_mem.2 fun r hr => ?_, fun v hv hdeleted => ?_⟩
    · obtain ⟨v, hv, hx, -⟩ := Versions.mem_insertedBy.1 hr
      rw [(hstart.1 v hv).1] at hx
      cases hx
    · rw [(hstart.1 v hv).2] at hdeleted
      cases hdeleted
  change AttributePc.Knows call.start s₀
  unfold AttributeCall.start
  split
  · exact ⟨hpending, hunlocked⟩
  · trivial

lemma AttributesKnown.step (hP : AttributesKnown P) {i : ι} {pc : AttributePc ι}
    {s : AttributeStore ι} (h : (P.pc i).next P.store = some (pc, s)) :
    AttributesKnown (P.advance i pc s) := by
  obtain ⟨hcall, hmove⟩ := AttributePc.move_of_next h
  refine ⟨fun j => ?_, hmove.sound hP.sound, fun j => ?_⟩
  · obtain ⟨rfl, hpc⟩ | ⟨-, hpc⟩ := P.pc_advance_cases i j pc s
    · rw [hpc, hcall]
      exact hP.xid j
    · rw [hpc]
      exact hP.xid j
  · obtain ⟨rfl, hpc⟩ | ⟨hne, hpc⟩ := P.pc_advance_cases i j pc s
    · rw [hpc]
      have hknows := hmove.knows (hP.knows j)
      rw [← hcall] at hknows
      exact hknows
    · rw [hpc]
      refine (hP.knows j).of_move hP.sound hmove ?_
      rw [hP.xid j, hP.xid i]
      exact hne

omit [DecidableEq ι] in
/-- Rows and key of one call are in sync. -/
lemma Serialised.inSync (h : Serialised s₀ P variantId) (hsync : InSync s₀ variantId) :
    InSync P.store variantId := by
  intro key hkey
  obtain ⟨i, -, hvalues, hkeys⟩ | ⟨-, hvalues, hkeys⟩ := h
  · rw [hkeys, List.mem_singleton] at hkey
    rw [hkey, hvalues, keyOfValues_requested]
  · rw [hkeys] at hkey
    rw [hvalues]
    exact hsync key hkey

/-- A step that nobody sees. -/
lemma Serialised.of_same (h : Serialised s₀ P variantId) {i : ι} {pc : AttributePc ι}
    {s : AttributeStore ι} (hbefore : (P.pc i).stage ≠ .returned)
    (hafter : ¬ pc.Succeeded variantId)
    (hsame : assignmentOf s variantId = assignmentOf P.store variantId) :
    Serialised s₀ (P.advance i pc s) variantId := by
  obtain ⟨hvalues, hkeys⟩ := Prod.mk.inj hsame
  obtain ⟨j, hj, hjvalues, hjkeys⟩ | ⟨hnone, hfirst, hfirstKeys⟩ := h
  · have hne : j ≠ i := by
      rintro rfl
      exact hbefore hj.1
    refine Or.inl ⟨j, ?_⟩
    rw [Pool.pc_advance_of_ne hne, P.store_advance]
    exact ⟨hj, hvalues.trans hjvalues, hkeys.trans hjkeys⟩
  · refine Or.inr ⟨fun j => ?_, hvalues.trans hfirst, hkeys.trans hfirstKeys⟩
    obtain ⟨-, hpc⟩ | ⟨-, hpc⟩ := P.pc_advance_cases i j pc s
    · rw [hpc]
      exact hafter
    · rw [hpc]
      exact hnone j

/-- A call that returns stood before its commit. -/
lemma AttributesKnown.of_returned (hP : AttributesKnown P) {i : ι} {pc : AttributePc ι}
    {s : AttributeStore ι} (hnext : (P.pc i).next P.store = some (pc, s))
    (hreturned : pc.stage = .returned) :
    P.pc i = ⟨(P.pc i).call, .committing⟩ ∧
      AttributePc.Knows ⟨(P.pc i).call, .committing⟩ P.store ∧
      AttributeMove (P.pc i).call P.store .committing .returned s := by
  obtain ⟨-, hmove⟩ := AttributePc.move_of_next hnext
  rw [hreturned] at hmove
  have hstage := hmove.of_returned.1
  have hpc : P.pc i = ⟨(P.pc i).call, .committing⟩ := by rw [← hstage]
  refine ⟨hpc, ?_, ?_⟩
  · rw [← hpc]
    exact hP.knows i
  · rw [← hstage]
    exact hmove

/-- A step that replaces the rows of its variant keeps every variant serialised. -/
lemma Serialised.step (h : Serialised s₀ P variantId) (hP : AttributesKnown P) {i : ι}
    {pc : AttributePc ι} {s : AttributeStore ι} (hnext : (P.pc i).next P.store = some (pc, s))
    (hreplaces : Replaces P i) : Serialised s₀ (P.advance i pc s) variantId := by
  obtain ⟨hcall, hmove⟩ := AttributePc.move_of_next hnext
  by_cases hreturned : pc.stage = .returned
  · obtain ⟨hpc, hknows, hcommit⟩ := hP.of_returned hnext hreturned
    by_cases hvariant : (P.pc i).call.variant.id = variantId
    · rw [← hvariant]
      refine Or.inl ⟨i, ?_⟩
      rw [P.pc_advance_self, P.store_advance, hcall]
      refine ⟨⟨hreturned, congrArg (fun call => call.variant.id) hcall⟩, ?_,
        keysOf_commit hP.sound hknows hcommit⟩
      refine valuesOf_commit hP.sound hknows hcommit ?_
      rw [← hpc]
      exact hreplaces
    · refine h.of_same ?_ (fun hsucceeded => hvariant ?_)
        (assignmentOf_commit_of_ne hknows hcommit hvariant)
      · rw [hpc]
        exact fun heq => by cases heq
      · rw [← hcall]
        exact hsucceeded.2
  · refine h.of_same ?_ (fun hsucceeded => hreturned hsucceeded.1) (hmove.assignmentOf_eq hreturned)
    intro heq
    rw [heq] at hmove
    exact hmove.not_of_returned rfl

/-- The next step of a call keeps the key of its variant in sync exactly when it replaces the
rows. -/
lemma inSync_iff_of_step (hP : AttributesKnown P) {i : ι} {pc : AttributePc ι}
    {s : AttributeStore ι} (hnext : (P.pc i).next P.store = some (pc, s))
    (hsync : InSync P.store (P.pc i).call.variant.id) :
    InSync s (P.pc i).call.variant.id ↔ Replaces P i := by
  obtain ⟨hcall, hmove⟩ := AttributePc.move_of_next hnext
  by_cases hreturned : pc.stage = .returned
  · obtain ⟨hpc, hknows, hcommit⟩ := hP.of_returned hnext hreturned
    have hkeys := keysOf_commit hP.sound hknows hcommit
    constructor
    · intro hafter
      by_contra hleft
      unfold Replaces at hleft
      rw [hpc] at hleft
      have hlength := lt_length_valuesOf_commit hP.sound hknows hcommit hleft
      have hkey := hafter (P.pc i).call.key (by rw [hkeys]; exact List.mem_singleton_self _)
      rw [← keyOfValues_requested] at hkey
      have hsame := congrArg List.length hkey
      rw [length_keyOfValues, length_keyOfValues] at hsame
      omega
    · intro hreplaces key hkey
      unfold Replaces at hreplaces
      rw [hpc] at hreplaces
      rw [hkeys, List.mem_singleton] at hkey
      rw [hkey, valuesOf_commit hP.sound hknows hcommit hreplaces, keyOfValues_requested]
  · have hsame : assignmentOf s (P.pc i).call.variant.id =
        assignmentOf P.store (P.pc i).call.variant.id := hmove.assignmentOf_eq hreturned
    obtain ⟨hvalues, hkeys⟩ := Prod.mk.inj hsame
    refine iff_of_true (fun key hkey => ?_)
      (AttributePc.replaces_of_ne (hmove.not_of_committing hreturned))
    rw [hkeys] at hkey
    rw [hvalues]
    exact hsync key hkey

/-- Along every run in which all commits replace the rows of their variants. -/
structure Serial (s₀ : AttributeStore ι) (variantId : Id)
    (P : Pool ι (AttributePc ι) (AttributeStore ι)) : Prop where
  known : AttributesKnown P
  serialised : Serialised s₀ P variantId

lemma serial_of_run {calls : ι → Variant × List AttributeValue} (hstart : AllCommitted s₀)
    (hrun : attributeSystem.Run Replaces (attributePool s₀ calls) P) :
    Serial s₀ variantId P := by
  refine System.Run.invariant ?_ ?_ ?_ hrun
  · refine ⟨.start hstart calls, Or.inr ⟨fun i hsucceeded => ?_, rfl, rfl⟩⟩
    have hstage := hsucceeded.1
    change (AttributeCall.start _).stage = _ at hstage
    unfold AttributeCall.start at hstage
    split at hstage
    · cases hstage
    · cases hstage
  · intro P i pc s hP hreplaces hnext
    exact ⟨hP.known.step hnext, hP.serialised.step hP.known hnext hreplaces⟩
  · intro P s hP hsame
    cases hsame
    exact hP

/-- As long as every call that commits has deleted all committed rows of its variant, the rows of
a variant are those of one call that has succeeded, and its key is theirs.  A commit that leaves a
row of another call makes the key wrong. -/
theorem attributes_serialise_iff {calls : ι → Variant × List AttributeValue}
    (hstart : AllCommitted s₀) (hsync : ∀ variantId, InSync s₀ variantId)
    (hrun : attributeSystem.Run Replaces (attributePool s₀ calls) P) :
    (∀ variantId, Serialised s₀ P variantId ∧ InSync P.store variantId) ∧
    ∀ i pc s, (P.pc i).next P.store = some (pc, s) →
      (InSync s (P.pc i).call.variant.id ↔ Replaces P i) := by
  have hserial : ∀ variantId, Serial s₀ variantId P := fun _ => serial_of_run hstart hrun
  refine ⟨fun variantId => ⟨(hserial variantId).serialised,
    (hserial variantId).serialised.inSync (hsync variantId)⟩, fun i pc s hnext => ?_⟩
  have hcall := hserial (P.pc i).call.variant.id
  exact inSync_iff_of_step hcall.known hnext (hcall.serialised.inSync (hsync _))

end Runs

/-! ### Two assignments of different attributes -/

section Example

def bareVariant : Variant where
  id := 0
  createdAt := 0
  productId := 0
  sku := "SKU-1"
  barcode := none
  basePriceVnd := 100000
  weightGrams := 500

/-- A variant without attributes. -/
def bareStore : AttributeStore (Fin 2) where
  variants := [{ row := bareVariant }]

/-- One call sets a colour, the other one a size. -/
def colourAndSize : Fin 2 → Variant × List AttributeValue
  | 0 => (bareVariant, [⟨1, 10⟩])
  | 1 => (bareVariant, [⟨2, 20⟩])

lemma allCommitted_bareStore : AllCommitted bareStore := by
  refine ⟨fun v hv => ?_, fun a ha => ?_⟩
  · rw [List.mem_singleton.1 hv]
    exact ⟨rfl, rfl⟩
  · cases ha

lemma inSync_bareStore (variantId : Id) : InSync bareStore variantId := by
  intro key hkey
  by_cases h : variantId = 0
  · rw [h] at hkey ⊢
    exact List.mem_singleton.1 hkey
  · have hne : ¬ bareVariant.id = variantId := fun heq => h heq.symm
    simp [keysOf, bareStore, Versions.committed, hne] at hkey

/-- One call after the other. -/
theorem attributes_serialise_iff_oneByOne :
    ∃ P, attributeSystem.Run Replaces (attributePool bareStore colourAndSize) P ∧
      valuesOf P.store 0 = [(20, 2)] ∧ keysOf P.store 0 = [[2]] ∧
      Serialised bareStore P 0 ∧ InSync P.store 0 := by
  have h : (attributeSystem.execute (fun P i => decide ((P.pc i).Replaces P.store))
      (attributePool bareStore colourAndSize) [0, 0, 0, 0, 0, 0, 1, 1, 1, 1, 1, 1]).map (fun P =>
        decide (valuesOf P.store 0 = [(20, 2)] ∧ keysOf P.store 0 = [[2]])) = some true := by
    decide
  obtain ⟨P, hrun, hp⟩ := System.exists_run_of_execute (fun _ _ hok => of_decide_eq_true hok) h
  obtain ⟨hvalues, hkeys⟩ := of_decide_eq_true hp
  obtain ⟨hserial, -⟩ := attributes_serialise_iff allCommitted_bareStore inSync_bareStore hrun
  exact ⟨P, hrun, hvalues, hkeys, hserial 0⟩

/-- Both calls delete before either inserts: each leaves the row of the other. -/
theorem not_attributes_serialise :
    ∃ P, attributeSystem.Run (fun _ _ => True) (attributePool bareStore colourAndSize) P ∧
      (∀ i, (P.pc i).stage = .returned) ∧ keysOf P.store 0 = [[2]] ∧
      valuesOf P.store 0 = [(10, 1), (20, 2)] ∧ ¬ Serialised bareStore P 0 ∧
      ¬ InSync P.store 0 := by
  have h : (attributeSystem.execute (fun _ _ => true) (attributePool bareStore colourAndSize)
      [0, 1, 0, 1, 0, 1, 0, 1, 0, 0, 1, 1]).map (fun P =>
        decide ((∀ i, (P.pc i).stage = .returned) ∧ keysOf P.store 0 = [[2]] ∧
          valuesOf P.store 0 = [(10, 1), (20, 2)])) = some true := by decide
  obtain ⟨P, hrun, hp⟩ := System.exists_run_of_execute (fun _ _ _ => trivial) h
  obtain ⟨hreturned, hkeys, hvalues⟩ := of_decide_eq_true hp
  have hwrong : ¬ InSync P.store 0 := by
    intro hsync
    have hkey := hsync [2] (by rw [hkeys]; exact List.mem_singleton_self _)
    rw [hvalues] at hkey
    exact absurd (congrArg List.length hkey) (by decide)
  exact ⟨P, hrun, hreturned, hkeys, hvalues,
    fun hserial => hwrong (hserial.inSync (inSync_bareStore 0)), hwrong⟩

end Example

end BePyEco
