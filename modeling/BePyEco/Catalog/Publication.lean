import BePyEco.Catalog.Products
import BePyEco.Library.Recording

/-!
# The life of a product

Any number of `create_product`, `publish_product` and `archive_product` calls, interleaved by
statements, each on an instance that may have been loaded at any time.  A call of `publish_product`
may fail at any of its statements, also inside its transaction.

The store of a pool records which transactions of `publish_product` and which saves of
`archive_product` have committed (`ProductEntry`).  `ProductStep` says what each control point reads
and changes.
-/

namespace BePyEco

open Library

/-! ## Failures -/

/-- Statement number `n` of a call, or the failure that is injected in its place. -/
def atStatement {α : Type} (fault : Option ℕ) (n : ℕ) (x : Statement α) : Statement α :=
  if fault = some n then Tx.raise (.db .operationalError) else x

lemma atStatement_of_ne {α : Type} {fault : Option ℕ} {n : ℕ} {x : Statement α}
    (h : fault ≠ some n) : atStatement fault n x = x := if_neg h

@[simp] lemma atStatement_none {α : Type} (n : ℕ) (x : Statement α) : atStatement none n x = x := by
  simp [atStatement]

/-- `publishBlock` with a failure at the save, at the event or at the commit. -/
def publishBlockWith (fault : Option ℕ) (product : Product) : Statement Unit := do
  atStatement fault 3 (saveStatus product.id .active)
  let _ ← atStatement fault 4 (emitEvent productPublishedEvent
    (.obj [("product_id", .str (toString product.id))]))
  atStatement fault 5 (return ())

/-- No failure is injected into the transaction. -/
def Commits (fault : Option ℕ) : Prop := fault ≠ some 3 ∧ fault ≠ some 4 ∧ fault ≠ some 5

instance (fault : Option ℕ) : Decidable (Commits fault) :=
  inferInstanceAs (Decidable (_ ∧ _ ∧ _))

/-- `publishProduct` with a failure at one of its statements. -/
def publishProductWith (fault : Option ℕ) (product : Product)
    (hasReadyMedia : Product → Statement Bool) : Service Product := do
  let complete ← atStatement fault 0 (hasCompleteDefaultLocaleContent product)
  Program.require complete .incompleteDefaultLocaleContent
  let sellable ← atStatement fault 1 (hasSellableVariant product)
  Program.require sellable .noSellableVariant
  let ready ← atStatement fault 2 (hasReadyMedia product)
  Program.require ready .noReadyMedia
  publishBlockWith fault product
  return { product with status := .active }

/-- Without a failure the call is `publish_product`. -/
lemma publishProductWith_none (product : Product) (hasReadyMedia : Product → Statement Bool) :
    publishProductWith none product hasReadyMedia = publishProduct product hasReadyMedia := by
  unfold publishProductWith publishProduct publishBlockWith publishBlock
  simp

/-! ## What the statements do -/

section Statements

variable {w w' : World}

lemma atStatement_ok {α : Type} {fault : Option ℕ} {n : ℕ} {x : Statement α} {r : α × World}
    (h : (atStatement fault n x).run w = .ok r) : fault ≠ some n ∧ x.run w = .ok r := by
  unfold atStatement at h
  split at h
  · cases h
  · rename_i hne
    exact ⟨hne, h⟩

/-- The products after `saveStatus`. -/
def withStatus (w : World) (productId : Id) (status : ProductStatus) : Table Product :=
  w.db.products.update (fun p => Model.pk p == productId) (Product.setStatus status)

/-- The payload of the event of a product. -/
def publishedPayload (productId : Id) : Json := .obj [("product_id", .str (toString productId))]

/-- The outbox has one more event. -/
def Emits (productId : Id) (t t' : Table OutboxEvent) : Prop :=
  ∃ event : OutboxEvent, event.eventType = productPublishedEvent ∧
    event.payload = publishedPayload productId ∧ t'.rows = t.rows ++ [event]

lemma exists_of_save_ok {productId : Id} {status : ProductStatus}
    (h : (saveStatus productId status).run w = .ok ((), w')) :
    ∃ p ∈ w.db.products.rows, p.id = productId := by
  unfold saveStatus Objects.save at h
  dsimp only at h
  split at h
  · rename_i hany
    obtain ⟨p, hp, hid⟩ := List.any_eq_true.1 hany
    exact ⟨p, hp, beq_iff_eq.1 hid⟩
  · cases h

/-- The transaction of `publish_product` changes the status and emits the event. -/
lemma publishBlockWith_ok {fault : Option ℕ} {product : Product}
    (h : (publishBlockWith fault product).run w = .ok ((), w')) :
    Commits fault ∧ (∃ p ∈ w.db.products.rows, p.id = product.id) ∧
      ∃ t : Table OutboxEvent, Emits product.id w.db.outboxEvents t ∧
        w' = Stored.put t (Stored.put (withStatus w product.id .active) w) := by
  obtain ⟨u, w₁, hsave, hrest⟩ := Tx.bind_ok h
  obtain ⟨hfault₃, hsave⟩ := atStatement_ok hsave
  have hw₁ := Objects.save_ok hsave
  obtain ⟨event, w₂, hemit, hcommit⟩ := Tx.bind_ok hrest
  obtain ⟨hfault₄, hemit⟩ := atStatement_ok hemit
  obtain ⟨t, hinsert, rfl⟩ := Objects.create_ok hemit
  obtain ⟨hevent, hrows, -⟩ := Table.insert_spec hinsert
  obtain ⟨hfault₅, hw'⟩ := atStatement_ok hcommit
  cases hw'
  refine ⟨⟨hfault₃, hfault₄, hfault₅⟩, exists_of_save_ok hsave, t, ⟨event, ?_, ?_, ?_⟩, ?_⟩
  · rw [hevent]
  · rw [hevent]
    rfl
  · rw [hrows, hw₁]
    rfl
  · rw [hw₁]
    rfl

/-- Without a failure it commits for every stored product. -/
lemma publishBlockWith_run_of_mem {fault : Option ℕ} (hfault : Commits fault) {product p : Product}
    (hp : p ∈ w.db.products.rows) (hid : p.id = product.id) :
    ∃ w', (publishBlockWith fault product).run w = .ok ((), w') := by
  have hsave : (saveStatus product.id .active).run w =
      .ok ((), Stored.put (withStatus w product.id .active) w) := Objects.run_save_of_mem hp hid
  have hfits : decide (productPublishedEvent.length ≤ 100) = true := by decide
  obtain ⟨t, hemit, -⟩ := @Objects.run_create_of_free World ApiError OutboxEvent _ _
    (fun id => ⟨id, productPublishedEvent, publishedPayload product.id⟩) (fun _ => rfl)
    (Stored.put (withStatus w product.id .active) w) hfits (fun _ _ => rfl)
  refine ⟨Stored.put t (Stored.put (withStatus w product.id .active) w), ?_⟩
  have hemit' : (emitEvent productPublishedEvent
      (.obj [("product_id", .str (toString product.id))])).run
        (Stored.put (withStatus w product.id .active) w) = _ := hemit
  unfold publishBlockWith
  rw [atStatement_of_ne hfault.1, atStatement_of_ne hfault.2.1, atStatement_of_ne hfault.2.2]
  simp only [Tx.run_bind, hsave, hemit', Tx.run_pure]

end Statements

/-! ## Control points -/

/-- What a commit records. -/
inductive ProductEntry
  | published (productId : Id)
  | archived (productId : Id)
  deriving DecidableEq, Repr

/-- The world and the commits so far, newest first. -/
abbrev ProductStore := Recorded World ProductEntry

/-- A statement without an entry. -/
def unrecorded {α : Type} (x : Statement α) : Tx ProductStore ApiError α :=
  x.recording fun _ _ => []

/-- Where a call stands.  Every instance may be older than its row. -/
inductive ProductPc
  | insert (primaryCategory : Category) (categories : List Category) (brandId : Option Id)
  | insertCategories (product : Product) (categories : List Category)
  | checkContent (product : Product) (fault : Option ℕ)
  | checkVariant (product : Product) (fault : Option ℕ)
  | checkMedia (product : Product) (fault : Option ℕ)
  | publish (product : Product) (fault : Option ℕ)
  | archive (product : Product)
  | succeeded (product : Product)
  | failed (e : Raised ApiError)

namespace ProductPc

/-- `create_product` behind its check of the categories. -/
def creating (primaryCategory : Category) (categories : List Category) (brandId : Option Id) :
    Program ProductStore ApiError Product := do
  let product ← unrecorded (insertProduct primaryCategory brandId)
  unrecorded (insertProductCategories product.id categories)
  return product

/-- The transaction of `publish_product`, and what follows. -/
def publishing (product : Product) (fault : Option ℕ) : Program ProductStore ApiError Product := do
  (publishBlockWith fault product).recording fun _ _ => [ProductEntry.published product.id]
  return { product with status := .active }

section Media

variable (hasReadyMedia : Product → World → Bool)

/-- `publish_product` from its check of the media. -/
def checkingMedia (product : Product) (fault : Option ℕ) :
    Program ProductStore ApiError Product := do
  let ready ← unrecorded (atStatement fault 2 (Tx.read (hasReadyMedia product)))
  Program.require ready .noReadyMedia
  publishing product fault

/-- `publish_product` from its check of the variants. -/
def checkingVariant (product : Product) (fault : Option ℕ) :
    Program ProductStore ApiError Product := do
  let sellable ← unrecorded (atStatement fault 1 (hasSellableVariant product))
  Program.require sellable .noSellableVariant
  checkingMedia hasReadyMedia product fault

/-- `publish_product`. -/
def checkingContent (product : Product) (fault : Option ℕ) :
    Program ProductStore ApiError Product := do
  let complete ← unrecorded (atStatement fault 0 (hasCompleteDefaultLocaleContent product))
  Program.require complete .incompleteDefaultLocaleContent
  checkingVariant hasReadyMedia product fault

/-- What is left of a call. -/
def program : ProductPc → Program ProductStore ApiError Product
  | insert primaryCategory categories brandId => creating primaryCategory categories brandId
  | insertCategories product categories => do
    unrecorded (insertProductCategories product.id categories)
    return product
  | checkContent product fault => checkingContent hasReadyMedia product fault
  | checkVariant product fault => checkingVariant hasReadyMedia product fault
  | checkMedia product fault => checkingMedia hasReadyMedia product fault
  | publish product fault => publishing product fault
  | archive product => do
    (saveStatus product.id .archived).recording fun _ _ => [ProductEntry.archived product.id]
    return { product with status := .archived }
  | succeeded product => return product
  | failed e => .done (.error e)

/-- Go on after a check. -/
def passed (ok : Bool) (e : ApiError) (c : ProductPc) : ProductPc :=
  if ok then c else failed (.app e)

/-- Execute the next statement of a call. -/
def next : ProductPc → ProductStore → Option (ProductPc × ProductStore)
  | insert primaryCategory categories brandId, s =>
    Control.advance (unrecorded (insertProduct primaryCategory brandId))
      (fun product => insertCategories product categories) failed s
  | insertCategories product categories, s =>
    Control.advance (unrecorded (insertProductCategories product.id categories))
      (fun _ => succeeded product) failed s
  | checkContent product fault, s =>
    Control.advance (unrecorded (atStatement fault 0 (hasCompleteDefaultLocaleContent product)))
      (fun complete => passed complete .incompleteDefaultLocaleContent (checkVariant product fault))
      failed s
  | checkVariant product fault, s =>
    Control.advance (unrecorded (atStatement fault 1 (hasSellableVariant product)))
      (fun sellable => passed sellable .noSellableVariant (checkMedia product fault)) failed s
  | checkMedia product fault, s =>
    Control.advance (unrecorded (atStatement fault 2 (Tx.read (hasReadyMedia product))))
      (fun ready => passed ready .noReadyMedia (publish product fault)) failed s
  | publish product fault, s =>
    Control.advance
      ((publishBlockWith fault product).recording fun _ _ => [ProductEntry.published product.id])
      (fun _ => succeeded { product with status := .active }) failed s
  | archive product, s =>
    Control.advance
      ((saveStatus product.id .archived).recording fun _ _ => [ProductEntry.archived product.id])
      (fun _ => succeeded { product with status := .archived }) failed s
  | succeeded _, _ => none
  | failed _, _ => none

end Media

end ProductPc

/-- The control points follow the three services. -/
def productControl (hasReadyMedia : Product → World → Bool) :
    Control ProductStore ApiError Product ProductPc where
  program := ProductPc.program hasReadyMedia
  next := ProductPc.next hasReadyMedia
  sound c s := by
    have hpassed : ∀ (ok : Bool) (e : ApiError) (c : ProductPc),
        (ProductPc.passed ok e c).program hasReadyMedia =
          (Program.require ok e >>= fun _ => c.program hasReadyMedia) := by
      intro ok e c
      cases ok <;> rfl
    cases c with
    | insert primaryCategory categories brandId =>
        exact Control.step_eq_advance (ProductPc.program _) _ rfl (fun _ => rfl) (fun _ => rfl) s
    | insertCategories product categories =>
        exact Control.step_eq_advance (ProductPc.program _) _ rfl (fun _ => rfl) (fun _ => rfl) s
    | checkContent product fault =>
        exact Control.step_eq_advance (ProductPc.program _) _ rfl (fun _ => hpassed _ _ _)
          (fun _ => rfl) s
    | checkVariant product fault =>
        exact Control.step_eq_advance (ProductPc.program _) _ rfl (fun _ => hpassed _ _ _)
          (fun _ => rfl) s
    | checkMedia product fault =>
        exact Control.step_eq_advance (ProductPc.program _) _ rfl (fun _ => hpassed _ _ _)
          (fun _ => rfl) s
    | publish product fault =>
        exact Control.step_eq_advance (ProductPc.program _) _ rfl (fun _ => rfl) (fun _ => rfl) s
    | archive product =>
        exact Control.step_eq_advance (ProductPc.program _) _ rfl (fun _ => rfl) (fun _ => rfl) s
    | succeeded product => rfl
    | failed e => rfl

/-- The products and the outbox are the same before and after. -/
abbrev KeepsProducts : World → World → Prop := Same fun w => (w.db.products, w.db.outboxEvents)

/-- Any number of calls on any products, with other calls and changes from outside that leave the
products and the outbox alone. -/
def productSystem (hasReadyMedia : Product → World → Bool) :
    System (ProductPc ⊕ Program ProductStore ApiError Unit) ProductStore :=
  (productControl hasReadyMedia).system (recordedEnv KeepsProducts)

/-- A pool of product calls. -/
abbrev ProductPool (ι : Type) :=
  Pool ι (ProductPc ⊕ Program ProductStore ApiError Unit) ProductStore

/-- The calls of other services leave the products and the outbox alone. -/
def OthersKeepProducts {ι : Type} (P : ProductPool ι) : Prop :=
  ∀ i rest, P.pc i = .inr rest → rest.Guarantees (recordedEnv KeepsProducts)

section Records

variable (hasReadyMedia : Product → World → Bool)

lemma records_unrecorded {α : Type} (x : Statement α) :
    (Program.exec (unrecorded x)).Records (Program.exec x) :=
  Program.records_recording x _

/-- Behind the check of the categories, the control point is `create_product`. -/
lemma records_createProduct {primaryCategory : Category} {categories : Option (List Category)}
    (brandId : Option Id)
    (h : (categoriesOr primaryCategory categories).any (fun c => c.id == primaryCategory.id)) :
    (ProductPc.program hasReadyMedia (.insert primaryCategory
      (categoriesOr primaryCategory categories) brandId)).Records
        (createProduct primaryCategory categories brandId) := by
  unfold createProduct
  dsimp only
  rw [h]
  refine (records_unrecorded _).bind fun product => ?_
  exact (records_unrecorded _).bind fun _ => Program.records_done _

/-- The control point is `publish_product`. -/
lemma records_publishProduct (product : Product) (fault : Option ℕ) :
    (ProductPc.program hasReadyMedia (.checkContent product fault)).Records
      (publishProductWith fault product fun p => Tx.read (hasReadyMedia p)) := by
  refine (records_unrecorded _).bind fun _ => (Program.records_require _ _).bind fun _ => ?_
  refine (records_unrecorded _).bind fun _ => (Program.records_require _ _).bind fun _ => ?_
  refine (records_unrecorded _).bind fun _ => (Program.records_require _ _).bind fun _ => ?_
  exact (Program.records_recording _ _).bind fun _ => Program.records_done _

/-- The control point is `archive_product`. -/
lemma records_archiveProduct (product : Product) :
    (ProductPc.program hasReadyMedia (.archive product)).Records (archiveProduct product) :=
  (Program.records_recording _ _).bind fun _ => Program.records_done _

end Records

/-! ## What one step does -/

/-- The steps of a call, with what each changes. -/
inductive ProductStep : ProductPc → ProductStore → ProductPc → ProductStore → Prop
  | read {c c' : ProductPc} (s : ProductStore) (hc : ∀ product fault, c ≠ .publish product fault)
      (hc' : ∀ product, c ≠ .archive product) : ProductStep c s c' s
  | failed {c : ProductPc} {e : Raised ApiError} (s : ProductStore) : ProductStep c s (.failed e) s
  | insert {primaryCategory : Category} {categories : List Category} {brandId : Option Id}
      {p : Product} {t : Table Product} {s : ProductStore} (hdraft : p.status = .draft)
      (hrows : t.rows = s.store.db.products.rows ++ [p]) :
      ProductStep (.insert primaryCategory categories brandId) s (.insertCategories p categories)
        { s with store := Stored.put t s.store }
  | insertCategories {product : Product} {categories : List Category} {t : Table ProductCategory}
      {s : ProductStore} :
      ProductStep (.insertCategories product categories) s (.succeeded product)
        { s with store := Stored.put t s.store }
  | publish {product : Product} {fault : Option ℕ} {t : Table OutboxEvent} {s : ProductStore}
      (hcommits : Commits fault) (hstored : ∃ p ∈ s.store.db.products.rows, p.id = product.id)
      (hemits : Emits product.id s.store.db.outboxEvents t) :
      ProductStep (.publish product fault) s (.succeeded { product with status := .active })
        { store := Stored.put t (Stored.put (withStatus s.store product.id .active) s.store)
          log := .published product.id :: s.log }
  | archive {product : Product} {s : ProductStore}
      (hstored : ∃ p ∈ s.store.db.products.rows, p.id = product.id) :
      ProductStep (.archive product) s (.succeeded { product with status := .archived })
        { store := Stored.put (withStatus s.store product.id .archived) s.store
          log := .archived product.id :: s.log }

lemma unrecorded_ok {α : Type} {x : Statement α} {s s' : ProductStore} {a : α}
    (h : (unrecorded x).run s = .ok (a, s')) :
    x.run s.store = .ok (a, s'.store) ∧ s' = { s with store := s'.store } := by
  obtain ⟨hrun, hlog⟩ := Tx.recording_ok h
  have hlog' : s'.log = s.log := hlog
  rw [← hlog']
  exact ⟨hrun, rfl⟩

/-- A check reads. -/
lemma productStep_of_check {c c' : ProductPc} {s s' : ProductStore} {fault : Option ℕ} {n : ℕ}
    {f : World → Bool} {onOk : Bool → ProductPc}
    (hc : ∀ product fault, c ≠ .publish product fault) (hc' : ∀ product, c ≠ .archive product)
    (h : Control.advance (unrecorded (atStatement fault n (Tx.read f))) onOk ProductPc.failed s =
      some (c', s')) : ProductStep c s c' s' := by
  obtain ⟨ok, hrun, -⟩ | ⟨e, -, rfl, rfl⟩ := Control.advance_cases h
  · obtain ⟨hread, hs'⟩ := unrecorded_ok hrun
    have hstore : s.store = s'.store := congrArg Prod.snd (Except.ok.inj (atStatement_ok hread).2)
    rw [hs', ← hstore]
    exact .read s hc hc'
  · exact .failed s'

lemma productStep_of_next {hasReadyMedia : Product → World → Bool} {c c' : ProductPc}
    {s s' : ProductStore} (h : c.next hasReadyMedia s = some (c', s')) : ProductStep c s c' s' := by
  cases c with
  | insert primaryCategory categories brandId =>
      obtain ⟨p, hrun, rfl⟩ | ⟨e, -, rfl, rfl⟩ := Control.advance_cases h
      · obtain ⟨hinsert, hs'⟩ := unrecorded_ok hrun
        obtain ⟨t, hw', hrows, hp⟩ := insertProduct_ok hinsert
        rw [hs', hw']
        refine .insert ?_ hrows
        rw [hp]
        rfl
      · exact .failed s'
  | insertCategories product categories =>
      obtain ⟨u, hrun, rfl⟩ | ⟨e, -, rfl, rfl⟩ := Control.advance_cases h
      · obtain ⟨hcreate, hs'⟩ := unrecorded_ok hrun
        obtain ⟨t, hw'⟩ := insertProductCategories_ok hcreate
        rw [hs', hw']
        exact .insertCategories
      · exact .failed s'
  | checkContent product fault => exact productStep_of_check nofun nofun h
  | checkVariant product fault => exact productStep_of_check nofun nofun h
  | checkMedia product fault => exact productStep_of_check nofun nofun h
  | publish product fault =>
      obtain ⟨u, hrun, rfl⟩ | ⟨e, -, rfl, rfl⟩ := Control.advance_cases h
      · obtain ⟨hblock, hlog⟩ := Tx.recording_ok hrun
        obtain ⟨hcommits, hstored, t, hemits, hw'⟩ := publishBlockWith_ok hblock
        obtain ⟨w', log'⟩ := s'
        dsimp only at hw' hlog
        rw [hw', hlog]
        exact .publish hcommits hstored hemits
      · exact .failed s'
  | archive product =>
      obtain ⟨u, hrun, rfl⟩ | ⟨e, -, rfl, rfl⟩ := Control.advance_cases h
      · obtain ⟨hsave, hlog⟩ := Tx.recording_ok hrun
        have hw' := Objects.save_ok hsave
        obtain ⟨w', log'⟩ := s'
        dsimp only at hw' hlog
        rw [hw', hlog]
        exact .archive (exists_of_save_ok hsave)
      · exact .failed s'
  | succeeded product => cases h
  | failed e => cases h

/-- The two kinds of steps of the system. -/
lemma productSystem_next {hasReadyMedia : Product → World → Bool}
    {call call' : ProductPc ⊕ Program ProductStore ApiError Unit} {s s' : ProductStore}
    (h : (productSystem hasReadyMedia).next call s = some (call', s')) :
    (∃ c c', call = .inl c ∧ call' = .inl c' ∧ ProductStep c s c' s') ∨
      (∃ rest rest', call = .inr rest ∧ call' = .inr rest' ∧ rest.step s = some (rest', s')) := by
  obtain ⟨c, c', rfl, rfl, hnext⟩ | hother := Control.system_next h
  · exact Or.inl ⟨c, c', rfl, rfl, productStep_of_next hnext⟩
  · exact Or.inr hother

end BePyEco
