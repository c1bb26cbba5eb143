import BePyEco.Catalog.Products
import BePyEco.Common.AcceptLanguage
import BePyEco.Library.Recording

/-!
# The storefront

The list and the detail of the published products.  A view is one query for the products and one
read for each product that it serializes, so the two may see different states; a product that is
not active when the first query runs, and is not made active in between, is in neither response.
-/

namespace BePyEco

open Library

/-! ## Locales -/

/-- `_ALLOWED_LOCALES`. -/
def allowedLocales : List String := ["vi", "en"]

section Views

variable [PyText]

/-- `_resolve_locale(request)`, from the header. -/
def resolveLocale (acceptLanguage : Option String) : String :=
  ((((acceptLanguage.getD "").splitOn ",").map languageOf).find? fun lang =>
    decide (lang ∈ allowedLocales)).getD defaultLocale

/-- The locale is the allowed language that the header names first. -/
theorem resolveLocale_headerText [AsciiText] (header : List LanguageRange) :
    resolveLocale (some (headerText header)) =
      (firstAllowed (offersOf header) allowedLocales).getD defaultLocale := by
  unfold resolveLocale
  rw [Option.getD_some]
  by_cases hheader : header = []
  · rw [hheader, languagesOf_nil]
    rfl
  · rw [languagesOf_headerText hheader, firstAllowed, map_fst_offersOf]

/-! ## Views -/

/-- `Product.objects.filter(status=ACTIVE).order_by("created_at")`. -/
def activeProducts : Statement (List Product) := Tx.read fun w =>
  (w.db.products.rows.filter fun p => decide (p.status = .active)).insertionSort
    fun a b => a.createdAt ≤ b.createdAt

/-- `Product.objects.get(pk=product_id, status=ACTIVE)`. -/
def getActiveProduct (productId : Id) : Statement Product :=
  (Objects.get fun p : Product => decide (p.id = productId) && decide (p.status = .active)).handling
    .doesNotExist (Tx.raise (.app .productNotFound))

/-- The loop of the list view: the items, and the locale of the last one. -/
def serializeProducts (locale : String) :
    List Product → String → Service (List ProductItem × String)
  | [], responseLocale => return ([], responseLocale)
  | product :: rest, _ => do
    let serialized ← (Tx.read fun w => serializeProduct w product locale :
      Statement (ProductItem × String))
    let response ← serializeProducts locale rest serialized.2
    return (serialized.1 :: response.1, response.2)

/-- `ProductListView.get`, with `Content-Language`. -/
def productListView (acceptLanguage : Option String) : Service (List ProductItem × String) := do
  let products ← activeProducts
  serializeProducts (resolveLocale acceptLanguage) products (resolveLocale acceptLanguage)

/-- `ProductDetailView.get`, with `Content-Language`. -/
def productDetailView (acceptLanguage : Option String) (productId : Id) :
    Service (ProductItem × String) := do
  let product ← getActiveProduct productId
  (Tx.read fun w => serializeProduct w product (resolveLocale acceptLanguage) :
    Statement (ProductItem × String))

/-! ## What the views return -/

/-- The product is not active. -/
def Retired (w : World) (productId : Id) : Prop :=
  ∀ p ∈ w.db.products.rows, p.id = productId → p.status ≠ .active

/-- While the product stays retired, a view that begins now writes nothing and does not return the
product. -/
structure Hidden (w : World) (productId : Id) : Prop where
  list : ∀ acceptLanguage, (productListView acceptLanguage).Relies
    (fun _ w' => Retired w' productId) (Same id)
    (fun response _ => ∀ item ∈ response.1, item.id ≠ productId) w
  detail : ∀ acceptLanguage, (productDetailView acceptLanguage productId).Relies
    (fun _ w' => Retired w' productId) (Same id) (fun _ _ => False) w

variable {productId : Id}

omit [PyText] in
/-- The items are those of the products that the query found. -/
lemma serializeProducts_relies {R : World → World → Prop} (locale : String)
    {products : List Product}
    (h : ∀ p ∈ products, p.id ≠ productId) (responseLocale : String) (w : World) :
    (serializeProducts locale products responseLocale).Relies R (Same id)
      (fun response _ => ∀ item ∈ response.1, item.id ≠ productId) w := by
  induction products generalizing responseLocale w with
  | nil => simp [serializeProducts, Program.Relies]
  | cons product rest ih =>
      have hread : (Program.exec (Tx.read fun w => serializeProduct w product locale) :
          Service (ProductItem × String)).Relies R (Same id)
            (fun serialized _ => serialized.1.id ≠ productId) w := by
        refine Program.relies_exec fun w₁ serialized w₂ _ hrun => ?_
        cases hrun
        exact ⟨rfl, h product List.mem_cons_self⟩
      refine Program.Relies.bind hread fun serialized w₁ hid => ?_
      refine Program.Relies.bind (ih (fun p hp => h p (List.mem_cons_of_mem _ hp)) _ w₁)
        fun response w₂ hresponse => ?_
      intro item hitem
      obtain rfl | hitem := List.mem_cons.1 hitem
      · exact hid
      · exact hresponse item hitem

/-- A product that is not active is not shown. -/
theorem hidden (w : World) (productId : Id) : Hidden w productId where
  list acceptLanguage := by
    have hquery : (Program.exec activeProducts : Service (List Product)).Relies
        (fun _ w' => Retired w' productId) (Same id)
        (fun products _ => ∀ p ∈ products, p.id ≠ productId) w := by
      refine Program.relies_exec fun w₁ products w₂ hretired hrun => ?_
      cases hrun
      refine ⟨rfl, fun p hp hid => ?_⟩
      obtain ⟨hp, hactive⟩ := List.mem_filter.1 ((List.perm_insertionSort _ _).subset hp)
      exact hretired p hp hid (of_decide_eq_true hactive)
    exact Program.Relies.bind hquery fun products w₁ h => serializeProducts_relies _ h _ w₁
  detail acceptLanguage := by
    have hquery : (Program.exec (getActiveProduct productId) : Service Product).Relies
        (fun _ w' => Retired w' productId) (Same id) (fun _ _ => False) w := by
      refine Program.relies_exec fun w₁ product w₂ hretired hrun => ?_
      obtain hget | ⟨-, hraise⟩ := Tx.handling_ok hrun
      · obtain ⟨-, hrow⟩ := Objects.get_ok hget
        have hholds := Table.holds_of_get hrow
        simp only [Bool.and_eq_true, decide_eq_true_eq] at hholds
        exact absurd hholds.2 (hretired product (Table.mem_of_get hrow) hholds.1)
      · cases hraise
    exact Program.Relies.bind hquery fun _ _ h => h.elim

end Views

end BePyEco
