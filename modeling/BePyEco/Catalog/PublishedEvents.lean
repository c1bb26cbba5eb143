import BePyEco.Catalog.RetiredProducts
import BePyEco.Library.Numerals

/-!
# Published events

The outbox has one `ProductPublished` event for each transaction of `publish_product` that has
committed, in every interleaving and whatever fails, so an active product has one.  Which error
`publish_product` raises is decided by the first of its three checks that fails in the state that
the check reads.
-/

namespace BePyEco

open Library

/-! ## Events and commits -/

/-- The events of a product. -/
def publishedEvents (w : World) (productId : Id) : List OutboxEvent :=
  w.db.outboxEvents.rows.filter fun e =>
    decide (e.eventType = productPublishedEvent) && decide (e.payload = publishedPayload productId)

/-- How many transactions of `publish_product` have committed on a product. -/
def publishedCommits (s : ProductStore) (productId : Id) : ℕ :=
  s.log.count (.published productId)

lemma publishedPayload_injective : Function.Injective publishedPayload := by
  intro m n h
  simp only [publishedPayload, Json.obj.injEq, List.cons.injEq, Prod.mk.injEq, Json.str.injEq,
    and_true, true_and] at h
  exact toString_nat_injective h

/-- The events are those there were at the start and one for each commit, and the active products
have one. -/
structure EventsMatch (s₀ s : ProductStore) : Prop where
  count : ∀ productId, (publishedEvents s.store productId).length =
    (publishedEvents s₀.store productId).length + publishedCommits s productId
  active : ∀ p ∈ s.store.db.products.rows, p.status = .active →
    publishedEvents s.store p.id ≠ []

section Steps

variable {s₀ s s' : ProductStore}

lemma EventsMatch.of_eq (h : EventsMatch s₀ s)
    (hproducts : s'.store.db.products = s.store.db.products)
    (hevents : s'.store.db.outboxEvents = s.store.db.outboxEvents) (hlog : s'.log = s.log) :
    EventsMatch s₀ s' := by
  refine ⟨fun productId => ?_, fun p hp hactive => ?_⟩
  · unfold publishedEvents publishedCommits
    rw [hevents, hlog]
    exact h.count productId
  · rw [hproducts] at hp
    unfold publishedEvents
    rw [hevents]
    exact h.active p hp hactive

/-- An event that is emitted is one more event of its product. -/
lemma publishedEvents_of_emits {w w' : World} {productId : Id}
    (h : Emits productId w.db.outboxEvents w'.db.outboxEvents) (id : Id) :
    ∃ event, publishedEvents w' id =
      publishedEvents w id ++ if id = productId then [event] else [] := by
  obtain ⟨event, htype, hpayload, hrows⟩ := h
  refine ⟨event, ?_⟩
  unfold publishedEvents
  rw [hrows, List.filter_append, List.filter_singleton, htype, hpayload]
  by_cases hid : id = productId
  · simp [hid]
  · have hne : publishedPayload productId ≠ publishedPayload id :=
      fun heq => hid (publishedPayload_injective heq).symm
    simp [hid, hne]

/-- Every step keeps events and commits together. -/
lemma ProductStep.eventsMatch {c c' : ProductPc} (h : ProductStep c s c' s')
    (hs : EventsMatch s₀ s) : EventsMatch s₀ s' := by
  cases h with
  | read => exact hs
  | failed => exact hs
  | @insert _ _ _ p t _ hdraft hrows =>
      refine ⟨hs.count, fun q hq hactive => ?_⟩
      change q ∈ t.rows at hq
      rw [hrows, List.mem_append, List.mem_singleton] at hq
      obtain hq | rfl := hq
      · exact hs.active q hq hactive
      · rw [hdraft] at hactive
        cases hactive
  | insertCategories => exact hs.of_eq rfl rfl rfl
  | @publish product fault t _ _ hstored hemits =>
      refine ⟨fun id => ?_, fun p hp hactive => ?_⟩
      · obtain ⟨event, hevents⟩ := @publishedEvents_of_emits s.store
          (Stored.put t (Stored.put (withStatus s.store product.id .active) s.store)) _ hemits id
        dsimp only
        rw [hevents, List.length_append, hs.count id]
        by_cases hid : id = product.id
        · simp [publishedCommits, hid, Nat.add_assoc]
        · have hne : product.id ≠ id := fun heq => hid heq.symm
          simp [publishedCommits, hid, hne]
      · obtain ⟨event, hevents⟩ := @publishedEvents_of_emits s.store
          (Stored.put t (Stored.put (withStatus s.store product.id .active) s.store)) _ hemits p.id
        dsimp only
        rw [hevents]
        obtain ⟨q, -, hid, rfl⟩ | ⟨hp, -⟩ := Table.mem_update_pk _ hp
        · have hid' : ((Product.setStatus .active).apply q).id = product.id := hid
          rw [if_pos hid']
          simp
        · simp [hs.active p hp hactive]
  | @archive product _ hstored =>
      refine ⟨fun id => ?_, fun p hp hactive => ?_⟩
      · simp only [publishedCommits, List.count_cons]
        rw [if_neg (by simp)]
        exact hs.count id
      · obtain ⟨q, -, -, rfl⟩ | ⟨hp, -⟩ := Table.mem_update_pk _ hp
        · cases hactive
        · exact hs.active p hp hactive

end Steps

/-- Along every run, whatever fails, events and commits stay together. -/
lemma eventsMatch_of_run {ι : Type} [DecidableEq ι] {hasReadyMedia : Product → World → Bool}
    {P₀ P : ProductPool ι} (hothers : OthersKeepProducts P₀)
    (hstart : EventsMatch P₀.store P₀.store)
    (hrun : (productSystem hasReadyMedia).Run (fun _ _ => True) P₀ P) :
    EventsMatch P₀.store P.store := by
  induction hrun with
  | refl => exact hstart
  | @call P i call' s hrun _ hnext ih =>
      obtain ⟨c, c', -, -, hstep⟩ | ⟨rest, rest', hpc, -, hstep⟩ := productSystem_next hnext
      · exact hstep.eventsMatch ih
      · obtain ⟨hsame, hlog⟩ := ((Control.guarantees_of_pc hothers hrun hpc).step hstep).1
        exact ih.of_eq (congrArg Prod.fst hsame) (congrArg Prod.snd hsame) hlog
  | env _ henv ih =>
      obtain ⟨hsame, hlog⟩ := henv
      exact ih.of_eq (congrArg Prod.fst hsame) (congrArg Prod.snd hsame) hlog

/-! ## The three checks -/

/-- Every required field of the product has an approved translation in the default locale. -/
def HasContent (w : World) (product : Product) : Prop :=
  ∀ field ∈ requiredTranslationFields, ∃ e ∈ w.db.translationEntries.rows,
    e.slot = ⟨product.entity, defaultLocale, field⟩ ∧ e.isApproved = true

/-- The check of `publish_product` that fails first, by its error.  The checks read the states `w₀`,
`w₁` and `w₂`; a failure that is injected earlier hides the later checks. -/
inductive FirstFailing (hasReadyMedia : Product → World → Bool) (fault : Option ℕ)
    (product : Product) (w₀ w₁ w₂ : World) : ApiError → Prop
  | content (hfault : fault ≠ some 0) (hcontent : ¬ HasContent w₀ product) :
      FirstFailing hasReadyMedia fault product w₀ w₁ w₂ .incompleteDefaultLocaleContent
  | variant (hfault₀ : fault ≠ some 0) (hfault₁ : fault ≠ some 1)
      (hcontent : HasContent w₀ product) (hvariant : ¬ HasVariant w₁ product.id) :
      FirstFailing hasReadyMedia fault product w₀ w₁ w₂ .noSellableVariant
  | media (hfault₀ : fault ≠ some 0) (hfault₁ : fault ≠ some 1) (hfault₂ : fault ≠ some 2)
      (hcontent : HasContent w₀ product) (hvariant : HasVariant w₁ product.id)
      (hmedia : hasReadyMedia product w₂ = false) :
      FirstFailing hasReadyMedia fault product w₀ w₁ w₂ .noReadyMedia

section Checks

variable {w : World} {rest : List World} {fault : Option ℕ} {product : Product}

/-- The three checks read; this is what each finds. -/
lemma hasCompleteDefaultLocaleContent_run (w : World) (product : Product) :
    ∃ complete, (hasCompleteDefaultLocaleContent product).run w = .ok (complete, w) ∧
      (complete = true ↔ HasContent w product) := by
  refine ⟨_, rfl, ?_⟩
  rw [List.all_eq_true]
  simp only [decide_eq_true_eq, mem_approvedDefaultFields]
  rfl

lemma hasSellableVariant_run (w : World) (product : Product) :
    ∃ sellable, (hasSellableVariant product).run w = .ok (sellable, w) ∧
      (sellable = true ↔ HasVariant w product.id) :=
  ⟨_, rfl, List.any_eq_true⟩

/-- One check of `publish_product`, and what follows. -/
def checkThen (fault : Option ℕ) (n : ℕ) (check : Statement Bool) (e : ApiError)
    (next : Service Product) : Service Product :=
  Program.exec (atStatement fault n check) >>= fun ok => Program.require ok e >>= fun _ => next

/-- An error of the application is that of the check or one of what follows. -/
lemma outcome_checkThen {n : ℕ} {check : Statement Bool} {e e' : ApiError}
    {next : Service Product} {ok : Bool} (hcheck : check.run w = .ok (ok, w)) :
    (checkThen fault n check e next).outcome (w :: rest) = some (.error (.app e')) ↔
      fault ≠ some n ∧ ((ok = false ∧ e' = e) ∨
        (ok = true ∧ next.outcome rest = some (.error (.app e')))) := by
  unfold checkThen
  rw [Program.outcome_exec_bind]
  by_cases hfault : fault = some n
  · simp [atStatement, hfault, Tx.exec]
  · rw [atStatement_of_ne hfault, Tx.exec_ok hcheck]
    cases ok with
    | false =>
        change (Program.raise e : Service Product).outcome rest = _ ↔ _
        simp [Program.raise, hfault, eq_comm]
    | true =>
        change next.outcome rest = _ ↔ _
        simp [hfault]

/-- A check changes nothing. -/
lemma moves_checkThen {n : ℕ} {check : Statement Bool} {e e' : ApiError}
    {next : Service Product} {ok : Bool} (hcheck : check.run w = .ok (ok, w))
    (hnext : next.outcome rest = some (.error (.app e')) → ∀ m ∈ next.moves rest, m.1 = m.2)
    (h : (checkThen fault n check e next).outcome (w :: rest) = some (.error (.app e'))) :
    ∀ m ∈ (checkThen fault n check e next).moves (w :: rest), m.1 = m.2 := by
  obtain ⟨hfault, hok⟩ := (outcome_checkThen hcheck).1 h
  unfold checkThen
  rw [Program.moves_exec_bind, atStatement_of_ne hfault, Tx.exec_ok hcheck]
  intro m hm
  obtain rfl | hm := List.mem_cons.1 hm
  · rfl
  · obtain ⟨rfl, -⟩ | ⟨rfl, hraises⟩ := hok
    · cases hm
    · exact hnext hraises m hm

lemma raisesDb_atStatement {α : Type} (fault : Option ℕ) (n : ℕ) {x : Statement α}
    (hx : x.RaisesDb) : (atStatement fault n x).RaisesDb := by
  unfold atStatement
  split
  · exact Tx.raisesDb_raise _
  · exact hx

lemma raisesDb_publishBlockWith (fault : Option ℕ) (product : Product) :
    (publishBlockWith fault product).RaisesDb := by
  refine Tx.RaisesDb.bind (raisesDb_atStatement _ _ Objects.raisesDb_save) fun _ => ?_
  refine Tx.RaisesDb.bind (raisesDb_atStatement _ _ Objects.raisesDb_create) fun _ => ?_
  exact raisesDb_atStatement _ _ (Tx.raisesDb_pure ())

end Checks

section Raises

variable {hasReadyMedia : Product → World → Bool} {fault : Option ℕ} {product : Product}
  {w₀ w₁ w₂ : World} {rest : List World} {e : ApiError}

/-- `publish_product` as its three checks and its transaction. -/
lemma publishProductWith_eq :
    publishProductWith fault product (fun p => Tx.read (hasReadyMedia p)) =
    checkThen fault 0 (hasCompleteDefaultLocaleContent product) .incompleteDefaultLocaleContent
      (checkThen fault 1 (hasSellableVariant product) .noSellableVariant
        (checkThen fault 2 (Tx.read (hasReadyMedia product)) .noReadyMedia
          (Program.exec (publishBlockWith fault product) >>= fun _ =>
            return { product with status := .active }))) := rfl

/-- Behind the checks no error of the application is raised. -/
lemma outcome_publishing_ne : (Program.exec (publishBlockWith fault product) >>= fun _ =>
    (return { product with status := .active } : Service Product)).outcome rest ≠
      some (.error (.app e)) := by
  cases rest with
  | nil => exact fun h => by cases h
  | cons w rest =>
      rw [Program.outcome_exec_bind]
      cases hrun : (publishBlockWith fault product).run w with
      | ok r =>
          rw [Tx.exec_ok hrun]
          simp [Pure.pure]
      | error e' =>
          obtain ⟨e'', rfl⟩ := raisesDb_publishBlockWith _ _ _ _ hrun
          rw [Tx.exec_error hrun]
          simp

/-- `publish_product` raises an error of the application exactly for the first check that fails. -/
lemma publishProductWith_raises_iff :
    (publishProductWith fault product fun p => Tx.read (hasReadyMedia p)).outcome
        (w₀ :: w₁ :: w₂ :: rest) = some (.error (.app e)) ↔
      FirstFailing hasReadyMedia fault product w₀ w₁ w₂ e := by
  obtain ⟨complete, hcontent, hcomplete⟩ := hasCompleteDefaultLocaleContent_run w₀ product
  obtain ⟨sellable, hvariant, hsellable⟩ := hasSellableVariant_run w₁ product
  have hmedia : (Tx.read (hasReadyMedia product) : Statement Bool).run w₂ =
      .ok (hasReadyMedia product w₂, w₂) := rfl
  rw [publishProductWith_eq, outcome_checkThen hcontent, outcome_checkThen hvariant,
    outcome_checkThen hmedia]
  constructor
  · rintro ⟨hfault₀,
      ⟨rfl, rfl⟩ | ⟨rfl, hfault₁, ⟨rfl, rfl⟩ | ⟨rfl, hfault₂, ⟨hready, rfl⟩ | ⟨-, h⟩⟩⟩⟩
    · exact .content hfault₀ (by simpa using hcomplete)
    · exact .variant hfault₀ hfault₁ (hcomplete.1 rfl) (by simpa using hsellable)
    · exact .media hfault₀ hfault₁ hfault₂ (hcomplete.1 rfl) (hsellable.1 rfl) hready
    · exact absurd h outcome_publishing_ne
  · intro h
    cases h with
    | content hfault h =>
        rw [← hcomplete, Bool.not_eq_true] at h
        exact ⟨hfault, Or.inl ⟨h, rfl⟩⟩
    | variant hfault₀ hfault₁ hcontent h =>
        rw [← hsellable, Bool.not_eq_true] at h
        exact ⟨hfault₀, Or.inr ⟨hcomplete.2 hcontent, hfault₁, Or.inl ⟨h, rfl⟩⟩⟩
    | media hfault₀ hfault₁ hfault₂ hcontent hvariant h =>
        exact ⟨hfault₀, Or.inr ⟨hcomplete.2 hcontent, hfault₁, Or.inr ⟨hsellable.2 hvariant,
          hfault₂, Or.inl ⟨h, rfl⟩⟩⟩⟩

/-- Then its statements have changed nothing. -/
lemma publishProductWith_moves (h : (publishProductWith fault product fun p =>
    Tx.read (hasReadyMedia p)).outcome (w₀ :: w₁ :: w₂ :: rest) = some (.error (.app e))) :
    ∀ m ∈ (publishProductWith fault product fun p => Tx.read (hasReadyMedia p)).moves
      (w₀ :: w₁ :: w₂ :: rest), m.1 = m.2 := by
  obtain ⟨complete, hcontent, -⟩ := hasCompleteDefaultLocaleContent_run w₀ product
  obtain ⟨sellable, hvariant, -⟩ := hasSellableVariant_run w₁ product
  rw [publishProductWith_eq] at h ⊢
  refine moves_checkThen hcontent (fun h => ?_) h
  refine moves_checkThen hvariant (fun h => ?_) h
  refine moves_checkThen rfl (fun h => ?_) h
  exact absurd h outcome_publishing_ne

end Raises

/-- In every interleaving, whatever fails, a product has one more event for each transaction of
`publish_product` on it that has committed, and an active product has an event.  Whatever happens
between its statements, `publish_product` raises an error of the application exactly for the check
that fails first, and then it has changed nothing. -/
theorem publishedEvents_exact {ι : Type} [DecidableEq ι] {hasReadyMedia : Product → World → Bool}
    {P₀ P : ProductPool ι} (hothers : OthersKeepProducts P₀) (hlog : P₀.store.log = [])
    (hactive : ∀ p ∈ P₀.store.store.db.products.rows, p.status = .active →
      publishedEvents P₀.store.store p.id ≠ [])
    (hrun : (productSystem hasReadyMedia).Run (fun _ _ => True) P₀ P) :
    EventsMatch P₀.store P.store ∧ ∀ fault product w₀ w₁ w₂ rest e,
      ((publishProductWith fault product fun p => Tx.read (hasReadyMedia p)).outcome
          (w₀ :: w₁ :: w₂ :: rest) = some (.error (.app e)) ↔
        FirstFailing hasReadyMedia fault product w₀ w₁ w₂ e) ∧
      (FirstFailing hasReadyMedia fault product w₀ w₁ w₂ e →
        ∀ m ∈ (publishProductWith fault product fun p => Tx.read (hasReadyMedia p)).moves
          (w₀ :: w₁ :: w₂ :: rest), m.1 = m.2) := by
  refine ⟨eventsMatch_of_run hothers ⟨fun productId => ?_, hactive⟩ hrun, ?_⟩
  · simp [publishedCommits, hlog]
  · intro fault product w₀ w₁ w₂ rest e
    exact ⟨publishProductWith_raises_iff, fun h =>
      publishProductWith_moves (publishProductWith_raises_iff.2 h)⟩

/-! ### A product that is published twice -/

section Example

attribute [local instance] pngLibraries localPosts plainText

/-- The product is published by two calls on the same instance, and one of them fails between the
status and the event. -/
def publishTwice : ProductPool (Fin 2) where
  store := { store := publishableWorld }
  pc
    | 0 => .inl (.checkContent firstProduct none)
    | 1 => .inl (.checkContent firstProduct (some 4))

lemma othersKeepProducts_publishTwice : OthersKeepProducts publishTwice
  | 0, _, h => by cases h
  | 1, _, h => by cases h

/-- Both calls pass their checks; one event is emitted, by the call that commits. -/
theorem publishedEvents_exact_publishTwice :
    ∃ P, (productSystem mediaRowsReady).Run (fun _ _ => True) publishTwice P ∧
      P.store.log = [.published 0] ∧ (publishedEvents P.store.store 0).length = 1 ∧
        EventsMatch publishTwice.store P.store := by
  have h : ((productSystem mediaRowsReady).execute (fun _ _ => true) publishTwice
      [0, 1, 0, 1, 0, 1, 1, 0]).map (fun P => decide (P.store.log = [.published 0])) =
        some true := by decide
  obtain ⟨P, hrun, hp⟩ := System.exists_run_of_execute (fun _ _ _ => trivial) h
  have hlog : P.store.log = [.published 0] := of_decide_eq_true hp
  have hevents : EventsMatch publishTwice.store P.store :=
    (publishedEvents_exact othersKeepProducts_publishTwice rfl (by decide) hrun).1
  refine ⟨P, hrun, hlog, ?_, hevents⟩
  rw [hevents.count 0, publishedCommits, hlog]
  decide

end Example

end BePyEco
