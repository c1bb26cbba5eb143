import BePyEco.Catalog.CompleteProducts
import BePyEco.Catalog.Publication
import BePyEco.Catalog.Storefront

/-!
# Retired products

`archive_product` is the way to retire a product, and `publish_product` does not look at the status
that it replaces.  As long as no transaction of `publish_product` commits on an archived product,
every product that was archived stays out of the storefront, in every interleaving; the first
transaction that does brings one back (`allRetired_iff`).
-/

namespace BePyEco

open Library

/-- No product whose archiving has committed is active, or shown to a customer from now on. -/
def AllRetired [PyText] (s : ProductStore) : Prop :=
  ∀ productId, .archived productId ∈ s.log → Retired s.store productId ∧ Hidden s.store productId

/-- The archived products are those whose archiving has been recorded. -/
structure Accounted (s : ProductStore) : Prop where
  archived_iff : ∀ p ∈ s.store.db.products.rows,
    p.status = .archived ↔ .archived p.id ∈ s.log
  stored : ∀ productId, .archived productId ∈ s.log →
    ∃ p ∈ s.store.db.products.rows, p.id = productId

/-- The discipline: no transaction of `publish_product` commits on an archived product. -/
def SparesArchived {ι : Type} (P : ProductPool ι) (i : ι) : Prop :=
  ∀ product fault, P.pc i = .inl (.publish product fault) → Commits fault →
    ∀ p ∈ P.store.store.db.products.rows, p.id = product.id → p.status ≠ .archived

/-! ## One step -/

section Steps

variable {s s' : ProductStore}

/-- A store with the same products and the same log. -/
lemma Accounted.of_eq (h : Accounted s) (hproducts : s'.store.db.products = s.store.db.products)
    (hlog : s'.log = s.log) : Accounted s' := by
  refine ⟨fun p hp => ?_, fun productId hmem => ?_⟩
  · rw [hproducts] at hp
    rw [hlog]
    exact h.archived_iff p hp
  · rw [hlog] at hmem
    rw [hproducts]
    exact h.stored productId hmem

lemma Accounted.retired [PyText] (h : Accounted s) : AllRetired s := by
  refine fun productId hmem => ⟨fun p hp hid hactive => ?_, hidden _ _⟩
  rw [← hid, ← h.archived_iff p hp, hactive] at hmem
  cases hmem

/-- A row after its status was set. -/
lemma mem_withStatus {productId : Id} {status : ProductStatus} {p : Product}
    (h : p ∈ (withStatus s.store productId status).rows) :
    (p.id = productId ∧ p.status = status) ∨
      (p ∈ s.store.db.products.rows ∧ p.id ≠ productId) := by
  obtain ⟨q, -, hpk, rfl⟩ | hother := Table.mem_update_pk _ h
  · exact Or.inl ⟨hpk, rfl⟩
  · exact Or.inr hother

/-- Setting a status loses no product. -/
lemma exists_withStatus {productId : Id} {status : ProductStatus} {id : Id}
    (h : ∃ p ∈ s.store.db.products.rows, p.id = id) :
    ∃ p ∈ (withStatus s.store productId status).rows, p.id = id := by
  obtain ⟨p, hp, hid⟩ := h
  refine ⟨_, (Table.mem_update _).2 ⟨p, hp, rfl⟩, ?_⟩
  unfold Assignment.on
  split
  · exact hid
  · exact hid

/-- A step that spares the archived products keeps the account. -/
lemma ProductStep.accounted {c c' : ProductPc} (h : ProductStep c s c' s') (hs : Accounted s)
    (hspares : ∀ product fault, c = .publish product fault → Commits fault →
      ∀ p ∈ s.store.db.products.rows, p.id = product.id → p.status ≠ .archived) :
    Accounted s' := by
  cases h with
  | read => exact hs
  | failed => exact hs
  | @insert _ _ _ p t _ hdraft hrows =>
      refine ⟨fun q hq => ?_, fun productId hmem => ?_⟩
      · change q ∈ t.rows at hq
        rw [hrows, List.mem_append, List.mem_singleton] at hq
        obtain hq | rfl := hq
        · exact hs.archived_iff q hq
        · rw [hdraft]
          refine iff_of_false nofun fun hmem => ?_
          -- the key of the new row is not that of an old one
          obtain ⟨r, hr, hid⟩ := hs.stored q.id hmem
          have hr' : r ∈ t.rows := by
            rw [hrows]
            exact List.mem_append_left _ hr
          have hq' : q ∈ t.rows := by
            rw [hrows]
            exact List.mem_append_right _ (List.mem_singleton_self q)
          have hrq : r = q := t.eq_of_pk hr' hq' hid
          exact t.not_mem_of_append hrows (hrq ▸ hr)
      · obtain ⟨r, hr, hid⟩ := hs.stored productId hmem
        refine ⟨r, ?_, hid⟩
        change r ∈ t.rows
        rw [hrows]
        exact List.mem_append_left _ hr
  | insertCategories => exact hs.of_eq rfl rfl
  | @publish product fault t _ hcommits hstored hemits =>
      have hspared := hspares product fault rfl hcommits
      refine ⟨fun p hp => ?_, fun productId hmem => ?_⟩
      · simp only [List.mem_cons, reduceCtorEq, false_or]
        obtain ⟨hid, hactive⟩ | ⟨hp, -⟩ := mem_withStatus hp
        · rw [hactive, hid]
          refine iff_of_false nofun fun hmem => ?_
          obtain ⟨q, hq, hqid⟩ := hs.stored product.id hmem
          exact hspared q hq hqid ((hs.archived_iff q hq).2 (hqid ▸ hmem))
        · exact hs.archived_iff p hp
      · simp only [List.mem_cons, reduceCtorEq, false_or] at hmem
        exact exists_withStatus (hs.stored productId hmem)
  | @archive product _ hstored =>
      refine ⟨fun p hp => ?_, fun productId hmem => ?_⟩
      · simp only [List.mem_cons, ProductEntry.archived.injEq]
        obtain ⟨hid, harchived⟩ | ⟨hp, hne⟩ := mem_withStatus hp
        · exact iff_of_true harchived (Or.inl hid)
        · rw [hs.archived_iff p hp]
          exact ⟨Or.inr, fun h => h.resolve_left hne⟩
      · simp only [List.mem_cons, ProductEntry.archived.injEq] at hmem
        obtain rfl | hmem := hmem
        · exact exists_withStatus hstored
        · exact exists_withStatus (hs.stored productId hmem)

end Steps

/-! ## Runs -/

section Runs

variable {ι : Type} [DecidableEq ι] {hasReadyMedia : Product → World → Bool} {P₀ P : ProductPool ι}

/-- Along every disciplined run the archived products are accounted for. -/
lemma accounted_of_run (hothers : OthersKeepProducts P₀) (hstart : Accounted P₀.store)
    (hrun : (productSystem hasReadyMedia).Run SparesArchived P₀ P) : Accounted P.store := by
  induction hrun with
  | refl => exact hstart
  | @call P i call' s hrun hspares hnext ih =>
      obtain ⟨c, c', hpc, -, hstep⟩ | ⟨rest, rest', hpc, -, hstep⟩ := productSystem_next hnext
      · refine hstep.accounted ih fun product fault hc => ?_
        rw [hc] at hpc
        exact hspares product fault hpc
      · obtain ⟨hsame, hlog⟩ := ((Control.guarantees_of_pc hothers hrun hpc).step hstep).1
        exact ih.of_eq (congrArg Prod.fst hsame) hlog
  | env _ henv ih =>
      obtain ⟨hsame, hlog⟩ := henv
      exact ih.of_eq (congrArg Prod.fst hsame) hlog

omit [DecidableEq ι] in
/-- A transaction that commits on an archived product makes it active. -/
lemma not_allRetired_of_next [PyText] {i : ι}
    {call' : ProductPc ⊕ Program ProductStore ApiError Unit} {s' : ProductStore}
    (haccounted : Accounted P.store) (hbreaks : ¬ SparesArchived P i)
    (hnext : (productSystem hasReadyMedia).next (P.pc i) P.store = some (call', s')) :
    ¬ AllRetired s' := by
  unfold SparesArchived at hbreaks
  push Not at hbreaks
  obtain ⟨product, fault, hpc, hcommits, p, hp, hid, harchived⟩ := hbreaks
  have hlogged : .archived product.id ∈ P.store.log := by
    rw [← hid]
    exact (haccounted.archived_iff p hp).1 harchived
  rw [hpc] at hnext
  obtain ⟨w', hrun⟩ := publishBlockWith_run_of_mem hcommits hp hid
  obtain ⟨-, -, t, -, hw'⟩ := publishBlockWith_ok hrun
  have hs' : s' = { store := w', log := .published product.id :: P.store.log } := by
    obtain ⟨⟨c', s₁⟩, hadvance, heq⟩ := Option.map_eq_some_iff.1 hnext
    cases heq
    obtain ⟨u, hblock, -⟩ | ⟨e, hblock, -⟩ := Control.advance_cases hadvance
    · obtain ⟨hrun', hlog⟩ := Tx.recording_ok hblock
      obtain ⟨w₁, log₁⟩ := s₁
      dsimp only at hrun' hlog
      cases hrun.symm.trans hrun'
      rw [hlog]
      rfl
    · simp [Tx.recording, hrun] at hblock
  intro hretired
  rw [hs'] at hretired
  have hactive := (hretired product.id (List.mem_cons_of_mem _ hlogged)).1
  refine hactive ((Product.setStatus .active).apply p) ?_ hid rfl
  rw [hw']
  exact (Table.mem_update _).2 ⟨p, hp, Assignment.on_pos _ (beq_iff_eq.2 hid)⟩

/-- In every interleaving in which no transaction of `publish_product` commits on an archived
product, no product whose archiving has committed is active or shown again; and the next step keeps
it so exactly when it is no such transaction. -/
theorem allRetired_iff [PyText] (hothers : OthersKeepProducts P₀) (hstart : Accounted P₀.store)
    (hrun : (productSystem hasReadyMedia).Run SparesArchived P₀ P) :
    AllRetired P.store ∧ ∀ i call' s',
      (productSystem hasReadyMedia).next (P.pc i) P.store = some (call', s') →
        (AllRetired s' ↔ SparesArchived P i) := by
  have haccounted := accounted_of_run hothers hstart hrun
  refine ⟨haccounted.retired, fun i call' s' hnext => ?_⟩
  constructor
  · intro hretired
    by_contra hbreaks
    exact not_allRetired_of_next haccounted hbreaks hnext hretired
  · intro hspares
    exact (accounted_of_run hothers hstart (hrun.call hspares hnext)).retired

end Runs

/-! ### A product that is archived and published -/

section Example

attribute [local instance] pngLibraries localPosts plainText

/-- The default check of `publish_product`. -/
def mediaRowsReady (product : Product) (w : World) : Bool :=
  w.db.mediaUploads.rows.any (readyMediaOf product.id)

/-- A draft with a name, a variant and an image. -/
def publishableWorld : World :=
  Program.Sequence.replay CatalogCall.service preparation.dropLast twoCategories

/-- The product is archived and published, by two calls on the same instance. -/
def archiveAndPublish : ProductPool (Fin 2) where
  store := { store := publishableWorld }
  pc
    | 0 => .inl (.archive firstProduct)
    | 1 => .inl (.checkContent firstProduct none)

lemma othersKeepProducts_archiveAndPublish : OthersKeepProducts archiveAndPublish
  | 0, _, h => by cases h
  | 1, _, h => by cases h

lemma accounted_archiveAndPublish : Accounted archiveAndPublish.store := by
  refine ⟨?_, ?_⟩
  · change ∀ p ∈ publishableWorld.db.products.rows, p.status = .archived ↔
      ProductEntry.archived p.id ∈ ([] : List ProductEntry)
    decide
  · intro productId hmem
    cases hmem

/-- The check of a step that `SparesArchived` asks for. -/
def checkSpares (P : ProductPool (Fin 2)) (i : Fin 2) : Bool :=
  match P.pc i with
  | .inl (.publish product fault) => !decide (Commits fault) ||
      decide (∀ p ∈ P.store.store.db.products.rows, p.id = product.id → p.status ≠ .archived)
  | _ => true

lemma sparesArchived_of_check {P : ProductPool (Fin 2)} {i : Fin 2} (h : checkSpares P i = true) :
    SparesArchived P i := by
  intro product fault hpc hcommits
  rw [checkSpares, hpc] at h
  simpa [hcommits] using h

/-- Published and then archived, the product is retired. -/
theorem allRetired_after_archive :
    ∃ P, (productSystem mediaRowsReady).Run SparesArchived archiveAndPublish P ∧
      decide (P.store.store.db.products.rows.map Product.status = [.archived]) = true ∧
        AllRetired P.store := by
  have h : ((productSystem mediaRowsReady).execute checkSpares archiveAndPublish
      [1, 1, 1, 1, 0]).map
        (fun P => decide (P.store.store.db.products.rows.map Product.status = [.archived])) =
      some true := by decide
  obtain ⟨P, hrun, hp⟩ := System.exists_run_of_execute (fun _ _ => sparesArchived_of_check) h
  exact ⟨P, hrun, hp, (allRetired_iff othersKeepProducts_archiveAndPublish
    accounted_archiveAndPublish hrun).1⟩

/-- Archived and then published, it is active again. -/
theorem not_allRetired :
    ¬ ∀ P₀ P : ProductPool (Fin 2), OthersKeepProducts P₀ → Accounted P₀.store →
      (productSystem mediaRowsReady).Run (fun _ _ => True) P₀ P → AllRetired P.store := by
  intro hclaim
  have h : ((productSystem mediaRowsReady).execute (fun _ _ => true) archiveAndPublish
      [0, 1, 1, 1, 1]).map (fun P =>
        decide ((∃ p ∈ P.store.store.db.products.rows, p.id = 0 ∧ p.status = .active) ∧
          ProductEntry.archived 0 ∈ P.store.log)) = some true := by decide
  obtain ⟨P, hrun, hp⟩ := System.exists_run_of_execute (fun _ _ _ => trivial) h
  obtain ⟨⟨p, hmem, hid, hactive⟩, hlogged⟩ := of_decide_eq_true hp
  exact (hclaim archiveAndPublish P othersKeepProducts_archiveAndPublish
    accounted_archiveAndPublish hrun 0 hlogged).1 p hmem hid hactive

end Example

end BePyEco
