import BePyEco.Catalog.Calls

/-!
# Products and their categories

`create_product` commits the product before it inserts the rows of its categories.  When the list
names a category twice, or one that is not stored, the second insert is refused and the product
stays behind without any category.  A call is whole exactly when the first insert is refused too or
the second one is not (`filed_iff_safe`), and along every sequence of such calls every product has a
row for its primary category.
-/

namespace BePyEco

open Library

/-- A call of `create_product`. -/
structure ProductCall where
  primaryCategory : Category
  categories : Option (List Category)
  brandId : Option Id

namespace ProductCall

def service (call : ProductCall) : Service Product :=
  createProduct call.primaryCategory call.categories call.brandId

/-- The list that the call works with. -/
def chosen (call : ProductCall) : List Category := categoriesOr call.primaryCategory call.categories

/-- The category and the brand of the product are stored. -/
def Insertable (call : ProductCall) (w : World) : Prop :=
  HasRow Category w call.primaryCategory.id ∧ ∀ id ∈ call.brandId, HasRow Brand w id

/-- The list names stored categories, and none of them twice. -/
def Listable (call : ProductCall) (w : World) : Prop :=
  (call.chosen.map Category.id).Nodup ∧ ∀ category ∈ call.chosen, HasRow Category w category.id

/-- The call is refused before it commits anything, or its list can be stored. -/
def Safe (call : ProductCall) (w : World) : Prop :=
  (∀ category ∈ call.chosen, category.id ≠ call.primaryCategory.id) ∨ ¬ call.Insertable w ∨
    call.Listable w

/-- The call succeeds or leaves no product behind. -/
def Whole (call : ProductCall) (w : World) : Prop :=
  (∃ product, (call.service.run w).1 = .ok product) ∨
    (call.service.run w).2.db.products.rows = w.db.products.rows

end ProductCall

/-- Complete calls one after the other, with anything in between that leaves products and their
categories alone. -/
abbrev ProductHistory (ok : World → ProductCall → Prop) (w₀ : World) : World → Prop :=
  Program.Sequence ProductCall.service ok
    (Same fun w => (w.db.products, w.db.productCategories)) w₀

/-- Every product has a row for its primary category, and none of its categories has two rows. -/
structure Filed (w : World) : Prop where
  primary : ∀ p ∈ w.db.products.rows, ∃ c ∈ w.db.productCategories.rows,
    c.productId = p.id ∧ c.categoryId = p.primaryCategoryId
  single : ∀ a ∈ w.db.productCategories.rows, ∀ b ∈ w.db.productCategories.rows,
    a.productId = b.productId → a.categoryId = b.categoryId → a = b

/-- The rows of categories belong to stored products. -/
def CategoriesOwned (w : World) : Prop :=
  ∀ c ∈ w.db.productCategories.rows, ∃ p ∈ w.db.products.rows, p.id = c.productId

/-! ## The statements -/

section Statements

variable {w : World} {primaryCategory : Category} {brandId : Option Id} {productId : Id}
  {categories : List Category}

/-- The product and what it refers to can be stored. -/
lemma insertProduct_run (hcategory : HasRow Category w primaryCategory.id)
    (hbrand : ∀ id ∈ brandId, HasRow Brand w id) :
    ∃ (p : Product) (t : Table Product),
      (insertProduct primaryCategory brandId).run w = .ok (p, Stored.put t w) ∧
        p.id = w.db.products.next ∧ p.primaryCategoryId = primaryCategory.id ∧
        t.rows = w.db.products.rows ++ [p] := by
  have hkey : (requireStored Category [primaryCategory.id]).run w = .ok ((), w) :=
    run_requireStored_singleton hcategory
  have hkey' : (requireStored Brand brandId.toList).run w = .ok ((), w) :=
    run_requireStored fun id hid => hbrand id (Option.mem_toList.1 hid)
  obtain ⟨t, hrun, hrows⟩ := @Objects.run_create_of_free _ ApiError _ _ _
    (draftProduct primaryCategory brandId w.now) (fun _ => rfl) w rfl fun _ _ => rfl
  refine ⟨_, t, ?_, rfl, rfl, hrows⟩
  rw [insertProduct, Tx.run_bind, hkey]
  dsimp only
  rw [Tx.run_bind, hkey']
  dsimp only
  rw [Tx.run_bind, run_timezoneNow]
  exact hrun

/-- A product whose category or brand is not stored is refused. -/
lemma insertProduct_run_of_missing
    (h : ¬ (HasRow Category w primaryCategory.id ∧ ∀ id ∈ brandId, HasRow Brand w id)) :
    (insertProduct primaryCategory brandId).run w = .error (.db .integrityError) := by
  rw [insertProduct, Tx.run_bind]
  by_cases hcategory : HasRow Category w primaryCategory.id
  · rw [run_requireStored_singleton hcategory]
    dsimp only
    rw [Tx.run_bind, run_requireStored_of_missing fun hbrand =>
      h ⟨hcategory, fun id hid => hbrand id (Option.mem_toList.2 hid)⟩]
  · rw [run_requireStored_of_missing fun hall =>
      hcategory (hall _ (List.mem_singleton_self _))]

/-- What the rows of a product refer to is stored: the product is. -/
lemma requireProduct_run (hproduct : HasRow Product w productId) :
    (requireStored Product (categories.map fun _ => productId)).run w = .ok ((), w) := by
  refine run_requireStored fun id hid => ?_
  obtain ⟨category, -, rfl⟩ := List.mem_map.1 hid
  exact hproduct

/-- The rows of a new product are inserted when no category comes twice and all are stored. -/
lemma insertProductCategories_run (hproduct : HasRow Product w productId)
    (hnew : ∀ c ∈ w.db.productCategories.rows, c.productId ≠ productId)
    (hstored : ∀ category ∈ categories, HasRow Category w category.id)
    (h : (categories.map Category.id).Nodup) :
    ∃ (t : Table ProductCategory) (keys : List ℕ),
      (insertProductCategories productId categories).run w = .ok ((), Stored.put t w) ∧
        keys.length = categories.length ∧ t.rows = w.db.productCategories.rows ++
          List.zipWith (categoryRow productId) categories keys := by
  have hinsert : ∃ t : Table ProductCategory, (Objects.bulkCreate (categoryRow productId)
      (fun _ _ => rfl) categories : Statement Unit).run w = .ok ((), Stored.put t w) := by
    refine Objects.run_bulkCreate_of_free (fun _ _ _ => rfl) (fun c hc category _ id => ?_) ?_
    · exact decide_eq_false fun hsame => hnew c hc hsame.1
    · refine (List.pairwise_map.1 h).imp fun hne id id' => ?_
      exact decide_eq_false fun hsame => hne hsame.2
  obtain ⟨t, hrun⟩ := hinsert
  obtain ⟨t', keys, hput, hlength, hrows⟩ := Objects.bulkCreate_ok hrun
  have ht : t' = t := congrArg (fun w : World => w.db.productCategories) hput.symm
  have hkeys : (requireStored Category (categories.map Category.id)).run w = .ok ((), w) := by
    refine run_requireStored fun id hid => ?_
    obtain ⟨category, hcategory, rfl⟩ := List.mem_map.1 hid
    exact hstored category hcategory
  refine ⟨t, keys, ?_, hlength, ht ▸ hrows⟩
  rw [insertProductCategories, Tx.run_bind, requireProduct_run hproduct]
  dsimp only
  rw [Tx.run_bind, hkeys]
  exact hrun

/-- Otherwise none is. -/
lemma insertProductCategories_run_of_not (hproduct : HasRow Product w productId)
    (h : ¬ ((categories.map Category.id).Nodup ∧
      ∀ category ∈ categories, HasRow Category w category.id)) :
    (insertProductCategories productId categories).run w = .error (.db .integrityError) := by
  rw [insertProductCategories, Tx.run_bind, requireProduct_run hproduct]
  dsimp only
  rw [Tx.run_bind]
  by_cases hstored : ∀ id ∈ categories.map Category.id, HasRow Category w id
  · rw [run_requireStored hstored]
    have hdouble : ¬ (categories.map Category.id).Nodup := fun hnodup =>
      h ⟨hnodup, fun category hcategory => hstored _ (List.mem_map_of_mem hcategory)⟩
    refine Objects.run_bulkCreate_of_conflict (fun _ _ _ => rfl) (Or.inr fun hpair => hdouble ?_)
    refine List.pairwise_map.2 (hpair.imp fun hne hsame => hne fun id id' => ?_)
    exact decide_eq_true ⟨rfl, hsame⟩
  · rw [run_requireStored_of_missing hstored]

end Statements

/-! ## What a call does -/

/-- The ways a call ends. -/
inductive ProductCall.Ends (call : ProductCall) (w : World) :
    Except (Raised ApiError) Product × World → Prop
  | refused (hmissing : ∀ category ∈ call.chosen, category.id ≠ call.primaryCategory.id) :
      ProductCall.Ends call w (.error (.app .primaryCategoryNotInCategories), w)
  | rejected (hmissing : ¬ call.Insertable w) :
      ProductCall.Ends call w (.error (.db .integrityError), w)
  | created {p : Product} {t : Table Product} {u : Table ProductCategory} {keys : List ℕ}
      (hprimary : ∃ category ∈ call.chosen, category.id = call.primaryCategory.id)
      (hlist : call.Listable w) (hid : p.id = w.db.products.next)
      (hfiled : p.primaryCategoryId = call.primaryCategory.id)
      (hproducts : t.rows = w.db.products.rows ++ [p]) (hlength : keys.length = call.chosen.length)
      (hcategories : u.rows = w.db.productCategories.rows ++
        List.zipWith (categoryRow p.id) call.chosen keys) :
      ProductCall.Ends call w (.ok p, Stored.put u (Stored.put t w))
  | abandoned {p : Product} {t : Table Product}
      (hprimary : ∃ category ∈ call.chosen, category.id = call.primaryCategory.id)
      (hinsert : call.Insertable w) (hlist : ¬ call.Listable w) (hid : p.id = w.db.products.next)
      (hproducts : t.rows = w.db.products.rows ++ [p]) :
      ProductCall.Ends call w (.error (.db .integrityError), Stored.put t w)

lemma CategoriesOwned.lt_next {w : World} (h : CategoriesOwned w) :
    ∀ c ∈ w.db.productCategories.rows, c.productId ≠ w.db.products.next := by
  intro c hc heq
  obtain ⟨p, hp, hid⟩ := h c hc
  exact w.db.products.pk_ne_next hp (hid.trans heq)

/-- The product that was added is stored. -/
lemma mem_of_added {w : World} {p : Product} {t : Table Product}
    (hproducts : t.rows = w.db.products.rows ++ [p]) : p ∈ t.rows := by
  rw [hproducts]
  exact List.mem_append_right _ (List.mem_singleton_self p)

/-- The rows keep their owners when a product is added. -/
lemma CategoriesOwned.owner {w : World} (h : CategoriesOwned w) {p : Product} {t : Table Product}
    (hproducts : t.rows = w.db.products.rows ++ [p]) :
    ∀ c ∈ w.db.productCategories.rows, ∃ q ∈ t.rows, q.id = c.productId := by
  intro c hc
  obtain ⟨q, hq, hid⟩ := h c hc
  refine ⟨q, ?_, hid⟩
  rw [hproducts]
  exact List.mem_append_left _ hq

lemma ProductCall.ends_run (call : ProductCall) {w : World} (howned : CategoriesOwned w) :
    call.Ends w (call.service.run w) := by
  unfold service createProduct
  change call.Ends w (Program.run (do
    Program.require (call.chosen.any fun category => category.id == call.primaryCategory.id)
      .primaryCategoryNotInCategories
    let product ← insertProduct call.primaryCategory call.brandId
    insertProductCategories product.id call.chosen
    return product) w)
  cases hany : call.chosen.any fun category => category.id == call.primaryCategory.id with
  | false =>
      refine .refused fun category hcategory heq => ?_
      rw [List.any_eq_false] at hany
      exact hany category hcategory (beq_iff_eq.2 heq)
  | true =>
      obtain ⟨category, hcategory, hprimary⟩ := List.any_eq_true.1 hany
      have hprimary' := beq_iff_eq.1 hprimary
      rw [Program.require_true, Program.done_ok_bind, Program.liftM_eq]
      by_cases hinsertable : call.Insertable w
      · obtain ⟨p, t, hinsert, hid, hfiled, hproducts⟩ :=
          insertProduct_run hinsertable.1 hinsertable.2
        have hnew : ∀ c ∈ (Stored.put t w).db.productCategories.rows, c.productId ≠ p.id := by
          intro c hc heq
          exact howned.lt_next c hc (heq.trans hid)
        have hproduct : HasRow Product (Stored.put t w) p.id := ⟨p, mem_of_added hproducts, rfl⟩
        rw [Program.run_exec_bind_of_ok hinsert, Program.liftM_eq]
        by_cases hlist : call.Listable w
        · obtain ⟨u, keys, hrun, hlength, hrows⟩ :=
            insertProductCategories_run hproduct hnew hlist.2 hlist.1
          rw [Program.run_exec_bind_of_ok hrun]
          exact .created ⟨category, hcategory, hprimary'⟩ hlist hid hfiled hproducts hlength hrows
        · rw [Program.run_exec_bind_of_error
            (insertProductCategories_run_of_not hproduct fun h => hlist h)]
          exact .abandoned ⟨category, hcategory, hprimary'⟩ hinsertable hlist hid hproducts
      · rw [Program.run_exec_bind_of_error (insertProduct_run_of_missing hinsertable)]
        exact .rejected hinsertable

/-! ## Whole calls -/

/-- A product without rows of its own is not filed. -/
lemma not_filed_of_abandoned {w : World} (howned : CategoriesOwned w) {p : Product}
    {t : Table Product} (hid : p.id = w.db.products.next)
    (hproducts : t.rows = w.db.products.rows ++ [p]) : ¬ Filed (Stored.put t w) := by
  intro hfiled
  obtain ⟨c, hc, hproduct, -⟩ := hfiled.primary p (mem_of_added hproducts)
  exact howned.lt_next c hc (hproduct.trans hid)

/-- Two equal rows of `productCategories` are one row, whatever was called. -/
lemma single_productCategory (w : World) :
    ∀ a ∈ w.db.productCategories.rows, ∀ b ∈ w.db.productCategories.rows,
      a.productId = b.productId → a.categoryId = b.categoryId → a = b :=
  fun _ ha _ hb hproduct hcategory =>
    w.db.productCategories.eq_of_conflicts ha hb (decide_eq_true ⟨hproduct, hcategory⟩)

namespace ProductCall

variable {call : ProductCall} {w : World}

lemma not_safe_of_abandoned
    (hprimary : ∃ category ∈ call.chosen, category.id = call.primaryCategory.id)
    (hinsert : call.Insertable w) (hlist : ¬ call.Listable w) : ¬ call.Safe w := by
  obtain ⟨category, hcategory, hid⟩ := hprimary
  rintro (hmissing | hrejected | hlistable)
  · exact hmissing category hcategory hid
  · exact hrejected hinsert
  · exact hlist hlistable

lemma whole_iff (howned : CategoriesOwned w) : call.Whole w ↔ call.Safe w := by
  have hends := call.ends_run howned
  unfold Whole
  generalize call.service.run w = result at hends
  cases hends with
  | refused hmissing => exact iff_of_true (Or.inr rfl) (Or.inl hmissing)
  | rejected hmissing => exact iff_of_true (Or.inr rfl) (Or.inr (Or.inl hmissing))
  | created _ hlist _ _ _ _ _ => exact iff_of_true (Or.inl ⟨_, rfl⟩) (Or.inr (Or.inr hlist))
  | abandoned hprimary hinsert hlist _ hproducts =>
      refine iff_of_false ?_ (not_safe_of_abandoned hprimary hinsert hlist)
      rintro (⟨product, hreturns⟩ | hsame)
      · cases hreturns
      · have hlength := congrArg List.length (hproducts.symm.trans hsame)
        simp at hlength

/-- The rows that a call adds belong to the product that it inserted. -/
lemma categoriesOwned_run (howned : CategoriesOwned w) :
    CategoriesOwned (call.service.run w).2 := by
  have hends := call.ends_run howned
  generalize call.service.run w = result at hends
  cases hends with
  | refused _ => exact howned
  | rejected _ => exact howned
  | @created p t u keys _ _ _ _ hproducts _ hcategories =>
      intro c hc
      change c ∈ u.rows at hc
      rw [hcategories, List.mem_append] at hc
      rcases hc with hold | hnew
      · exact howned.owner hproducts c hold
      · obtain ⟨i, hi, rfl⟩ := List.mem_iff_getElem.1 hnew
        rw [List.getElem_zipWith]
        exact ⟨p, mem_of_added hproducts, rfl⟩
  | abandoned _ _ _ _ hproducts => exact howned.owner hproducts

/-- A product gets the row of its primary category with the others, or gets none at all. -/
lemma filed_run_iff (howned : CategoriesOwned w) (hfiled : Filed w) :
    Filed (call.service.run w).2 ↔ call.Safe w := by
  have hends := call.ends_run howned
  generalize call.service.run w = result at hends
  cases hends with
  | refused hmissing => exact iff_of_true hfiled (Or.inl hmissing)
  | rejected hmissing => exact iff_of_true hfiled (Or.inr (Or.inl hmissing))
  | @created p t u keys hprimary hlist _ hprimaryId hproducts hlength hcategories =>
      refine iff_of_true ⟨fun q hq => ?_, single_productCategory _⟩ (Or.inr (Or.inr hlist))
      change q ∈ t.rows at hq
      change ∃ c ∈ u.rows, c.productId = q.id ∧ c.categoryId = q.primaryCategoryId
      rw [hproducts, List.mem_append, List.mem_singleton] at hq
      rw [hcategories]
      rcases hq with hold | rfl
      · obtain ⟨c, hc, hmatch⟩ := hfiled.primary q hold
        exact ⟨c, List.mem_append_left _ hc, hmatch⟩
      · obtain ⟨category, hcategory, hid⟩ := hprimary
        obtain ⟨i, hi, rfl⟩ := List.mem_iff_getElem.1 hcategory
        refine ⟨categoryRow q.id call.chosen[i] keys[i], List.mem_append_right _ ?_, rfl, ?_⟩
        · refine List.mem_iff_getElem.2 ⟨i, ?_, List.getElem_zipWith⟩
          rw [List.length_zipWith]
          omega
        · exact hid.trans hprimaryId.symm
  | abandoned hprimary hinsert hlist hid hproducts =>
      exact iff_of_false (not_filed_of_abandoned howned hid hproducts)
        (not_safe_of_abandoned hprimary hinsert hlist)

end ProductCall

/-! ## Histories -/

section Histories

variable {w₀ w : World}

lemma CategoriesOwned.of_same {w w' : World} (h : CategoriesOwned w)
    (hsame : Same (fun w => (w.db.products, w.db.productCategories)) w w') :
    CategoriesOwned w' := by
  obtain ⟨hproducts, hcategories⟩ := Prod.mk.inj hsame
  unfold CategoriesOwned
  rwa [hproducts, hcategories]

lemma Filed.of_same {w w' : World} (h : Filed w)
    (hsame : Same (fun w => (w.db.products, w.db.productCategories)) w w') : Filed w' := by
  obtain ⟨hproducts, hcategories⟩ := Prod.mk.inj hsame
  refine ⟨?_, single_productCategory w'⟩
  rw [hproducts, hcategories]
  exact h.primary

lemma categoriesOwned_of_history {ok : World → ProductCall → Prop}
    (hcategories : w₀.db.productCategories.rows = []) (h : ProductHistory ok w₀ w) :
    CategoriesOwned w := by
  induction h with
  | refl => simp [CategoriesOwned, hcategories]
  | call _ _ _ ih => exact ProductCall.categoriesOwned_run ih
  | env _ hsame ih => exact ih.of_same hsame

lemma filed_of_history (hproducts : w₀.db.products.rows = [])
    (hcategories : w₀.db.productCategories.rows = [])
    (h : ProductHistory (fun w call => call.Safe w) w₀ w) : Filed w := by
  induction h with
  | refl => exact ⟨by simp [hproducts], single_productCategory w₀⟩
  | call c hbefore hsafe ih =>
      have howned := categoriesOwned_of_history hcategories hbefore
      exact (ProductCall.filed_run_iff howned ih).2 hsafe
  | env _ hsame ih => exact ih.of_same hsame

/-- After any calls, a call succeeds or leaves no product behind exactly when it is refused for the
primary category, the category or the brand of the product is not stored, or its list names stored
categories and none of them twice.  As long as every call is of this kind every product has the row
of its primary category, and the first other call ends this. -/
theorem filed_iff_safe (hproducts : w₀.db.products.rows = [])
    (hcategories : w₀.db.productCategories.rows = []) :
    (∀ w, ProductHistory (fun _ _ => True) w₀ w → ∀ call : ProductCall,
      call.Whole w ↔ call.Safe w) ∧
    (∀ w, ProductHistory (fun w call => call.Safe w) w₀ w →
      Filed w ∧ ∀ call : ProductCall, Filed (call.service.run w).2 ↔ call.Safe w) := by
  constructor
  · intro w h call
    exact ProductCall.whole_iff (categoriesOwned_of_history hcategories h)
  · intro w h
    have hfiled := filed_of_history hproducts hcategories h
    refine ⟨hfiled, fun call => ?_⟩
    exact ProductCall.filed_run_iff (categoriesOwned_of_history hcategories h) hfiled

end Histories

/-! ### A list without repetition and one with -/

section Example

/-- A product in both categories, with the first as the primary one. -/
def plainProductCall : ProductCall := ⟨⟨0, none⟩, some [⟨0, none⟩, ⟨1, none⟩], none⟩

/-- The same with the primary category named twice. -/
def repeatedProductCall : ProductCall := ⟨⟨0, none⟩, some [⟨0, none⟩, ⟨0, none⟩], none⟩

lemma insertable_repeatedProductCall : repeatedProductCall.Insertable twoCategories :=
  ⟨⟨⟨0, none⟩, by decide, rfl⟩, fun _ hid => by cases hid⟩

theorem filed_after_plainProductCall :
    plainProductCall.Whole twoCategories ∧
      Filed (plainProductCall.service.run twoCategories).2 := by
  have hlist : plainProductCall.Listable twoCategories :=
    ⟨by decide, by unfold HasRow; decide⟩
  have hsafe : plainProductCall.Safe twoCategories := Or.inr (Or.inr hlist)
  exact ⟨((filed_iff_safe rfl rfl).1 twoCategories .refl plainProductCall).2 hsafe,
    (((filed_iff_safe rfl rfl).2 twoCategories .refl).2 plainProductCall).2 hsafe⟩

/-- The first product is left without any category. -/
theorem not_whole_repeatedProductCall :
    ¬ repeatedProductCall.Whole twoCategories ∧
      ¬ Filed (repeatedProductCall.service.run twoCategories).2 := by
  have howned : CategoriesOwned twoCategories := categoriesOwned_of_history rfl
    (@Program.Sequence.refl _ _ _ _ ProductCall.service (fun _ _ => True) _ twoCategories)
  have hsafe : ¬ repeatedProductCall.Safe twoCategories :=
    ProductCall.not_safe_of_abandoned (by decide) insertable_repeatedProductCall
      fun hlist => absurd hlist.1 (by decide)
  have hfiled : Filed twoCategories :=
    ⟨List.forall_mem_nil _, single_productCategory twoCategories⟩
  rw [ProductCall.whole_iff howned, ProductCall.filed_run_iff howned hfiled]
  exact ⟨hsafe, hsafe⟩

end Example

end BePyEco
