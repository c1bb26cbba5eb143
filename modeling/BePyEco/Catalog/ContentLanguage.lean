import BePyEco.Catalog.CompleteProducts
import BePyEco.Catalog.Storefront

/-!
# Content-Language

The list view sends the locale of the product that it serializes last (`productListView_run`).  That
locale describes the whole list when no product falls back to the default locale or all of them do,
and the order of the products does not matter then; otherwise it does (`describesList_iff`).
-/

namespace BePyEco

open Library

/-! ## Names -/

/-- The product has an approved name in a locale. -/
def ApprovedName (w : World) (locale : String) (productId : Id) : Prop :=
  ∃ e ∈ w.db.translationEntries.rows,
    e.slot = ⟨⟨⟨"catalog", "product"⟩, productId⟩, locale, "name"⟩ ∧ e.isApproved = true

instance (w : World) (locale : String) (productId : Id) :
    Decidable (ApprovedName w locale productId) :=
  inferInstanceAs (Decidable (∃ e ∈ w.db.translationEntries.rows, _))

/-- Readers of a locale see the name of the default locale. -/
def FallsBack (w : World) (locale : String) (productId : Id) : Prop :=
  ¬ ApprovedName w locale productId ∧ ApprovedName w defaultLocale productId

instance (w : World) (locale : String) (productId : Id) :
    Decidable (FallsBack w locale productId) :=
  inferInstanceAs (Decidable (_ ∧ _))

/-- The locale of the name that readers of a locale see. -/
def nameLocale (w : World) (locale : String) (productId : Id) : Option String :=
  (getLocalizedField w ⟨⟨"catalog", "product"⟩, productId⟩ "name" locale defaultLocale).locale

section Names

variable {w : World} {locale : String} {productId : Id}

lemma entryIn_ne_none_iff (p : Product) :
    entryIn locale (approvedEntries w p.entity "name") ≠ none ↔ ApprovedName w locale p.id := by
  rw [Ne, entryIn_eq_none]
  push Not
  constructor
  · rintro ⟨e, he, hlocale⟩
    obtain ⟨hmem, hentity, hfield, happroved⟩ := mem_approvedEntries.1 he
    refine ⟨e, hmem, ?_, happroved⟩
    rw [TranslationEntry.slot, hentity, hlocale, hfield]
    rfl
  · rintro ⟨e, hmem, hslot, happroved⟩
    exact ⟨e, mem_approvedEntries.2 ⟨hmem, congrArg TranslationSlot.entity hslot,
      congrArg TranslationSlot.field hslot, happroved⟩, congrArg TranslationSlot.locale hslot⟩

/-- The locale that is sent with one product. -/
lemma sent_cases (p : Product) :
    FallsBack w locale p.id ∧ (serializeProduct w p locale).2 = defaultLocale ∨
      ¬ FallsBack w locale p.id ∧ (serializeProduct w p locale).2 = locale := by
  have hsent : (serializeProduct w p locale).2 = (localize (approvedEntries w p.entity "name")
      locale defaultLocale).locale.getD locale := rfl
  rw [hsent, FallsBack, ← entryIn_ne_none_iff, ← entryIn_ne_none_iff]
  unfold localize
  cases hrequested : entryIn locale (approvedEntries w p.entity "name") with
  | some e => simp
  | none =>
      by_cases hdefault : locale = defaultLocale
      · rw [hdefault] at hrequested ⊢
        simp [hrequested]
      · cases hfallback : entryIn defaultLocale (approvedEntries w p.entity "name") with
        | some e => simp [hdefault]
        | none => simp

/-- A name that is shown has a locale, which is sent. -/
lemma nameLocale_eq (p : Product) (hname : (serializeProduct w p locale).1.name ≠ none) :
    nameLocale w locale p.id = some (serializeProduct w p locale).2 := by
  have hlocale : (getLocalizedField w p.entity "name" locale defaultLocale).value ≠ none →
      (getLocalizedField w p.entity "name" locale defaultLocale).locale ≠ none := by
    unfold getLocalizedField localize
    split
    · exact fun _ => nofun
    · split
      · exact fun _ => nofun
      · exact fun h => absurd rfl h
  obtain ⟨l, hl⟩ := Option.ne_none_iff_exists'.1 (hlocale hname)
  have hshown : nameLocale w locale p.id = some l := hl
  have hsent : (serializeProduct w p locale).2 = l := congrArg (Option.getD · locale) hl
  rw [hshown, hsent]

end Names

/-! ## The list -/

/-- The products of the list, in its order. -/
def shownProducts (w : World) : List Product :=
  (w.db.products.rows.filter fun p => decide (p.status = .active)).insertionSort
    fun a b => a.createdAt ≤ b.createdAt

section Shown

variable {w : World}

lemma mem_shownProducts {p : Product} :
    p ∈ shownProducts w ↔ p ∈ w.db.products.rows ∧ p.status = .active := by
  rw [shownProducts, (List.perm_insertionSort _ _).mem_iff, List.mem_filter, decide_eq_true_eq]

/-- The only active product is the whole list. -/
lemma shownProducts_eq_singleton {p : Product} (hp : p ∈ w.db.products.rows)
    (hactive : p.status = .active)
    (honly : ∀ q ∈ w.db.products.rows, q.status = .active → q = p) : shownProducts w = [p] := by
  have hnodup : (shownProducts w).Nodup :=
    (List.perm_insertionSort _ _).nodup_iff.2 ((List.Nodup.of_map _ w.db.products.nodup).filter _)
  have hmem : ∀ q, q ∈ shownProducts w ↔ q ∈ [p] := by
    intro q
    rw [mem_shownProducts, List.mem_singleton]
    constructor
    · exact fun h => honly q h.1 h.2
    · rintro rfl
      exact ⟨hp, hactive⟩
  exact List.perm_singleton.1 ((List.perm_ext_iff_of_nodup hnodup (List.nodup_singleton p)).2 hmem)

/-- The loop keeps the locale of the last product. -/
lemma serializeProducts_run (w : World) (locale : String) (products : List Product)
    (responseLocale : String) :
    (serializeProducts locale products responseLocale).run w =
      (.ok (products.map fun p => (serializeProduct w p locale).1,
        (products.map fun p => (serializeProduct w p locale).2).getLastD responseLocale), w) := by
  induction products generalizing responseLocale with
  | nil => rfl
  | cons product rest ih =>
      have hread : (Tx.read fun w => serializeProduct w product locale :
          Statement (ProductItem × String)).run w = .ok (serializeProduct w product locale, w) :=
        rfl
      rw [serializeProducts, Program.liftM_eq, Program.run_exec_bind_of_ok hread, Program.run_bind,
        ih, List.map_cons, List.map_cons, List.getLastD_cons]
      rfl

/-- Where one locale is sent with every product, it is sent with the list. -/
lemma getLastD_sent {products : List Product} {locale sent : String}
    (h : ∀ p ∈ products, (serializeProduct w p locale).2 = sent) :
    (products.map fun p => (serializeProduct w p locale).2).getLastD locale =
      if products = [] then locale else sent := by
  cases products with
  | nil => rfl
  | cons p rest =>
      have hne := List.cons_ne_nil p rest
      rw [if_neg hne, List.getLastD_eq_getLast?, List.getLast?_map,
        List.getLast?_eq_some_getLast hne, Option.map_some, Option.getD_some]
      exact h _ (List.getLast_mem hne)

end Shown

/-! ## Other orders -/

/-- The products as if they had been created at other times, in any order. -/
def reordered (createdAt : Id → Time) (w : World) : World :=
  Stored.put (w.db.products.update (fun _ => true) (Product.setCreatedAt createdAt)) w

section Reordered

variable {w : World}

/-- The same products are shown in another order. -/
lemma mem_reordered {createdAt : Id → Time} {p : Product} :
    p ∈ (reordered createdAt w).db.products.rows ↔
      ∃ q ∈ w.db.products.rows, p = { q with createdAt := createdAt q.id } := by
  show p ∈ (w.db.products.update _ _).rows ↔ _
  rw [Table.mem_update]
  exact exists_congr fun q => and_congr_right fun _ => eq_comm

lemma shownProducts_reordered_eq_nil_iff {createdAt : Id → Time} :
    shownProducts (reordered createdAt w) = [] ↔ shownProducts w = [] := by
  simp only [List.eq_nil_iff_forall_not_mem, mem_shownProducts, mem_reordered]
  constructor
  · rintro h p ⟨hp, hactive⟩
    exact h { p with createdAt := createdAt p.id } ⟨⟨p, hp, rfl⟩, hactive⟩
  · rintro h p ⟨⟨q, hq, rfl⟩, hactive⟩
    exact h q ⟨hq, hactive⟩

/-- A product that is made the newest is shown last. -/
lemma exists_last {p : Product} (hp : p ∈ w.db.products.rows) (hactive : p.status = .active) :
    ∃ older last, shownProducts (reordered (fun id => if id = p.id then 1 else 0) w) =
      older ++ [last] ∧ last.id = p.id := by
  let later : Product → Product → Prop := fun a b => a.createdAt ≤ b.createdAt
  have htotal : Std.Total later := ⟨fun a b => Nat.le_total a.createdAt b.createdAt⟩
  have htrans : IsTrans Product later := ⟨fun _ _ _ => Nat.le_trans⟩
  have hrefl : Std.Refl later := ⟨fun a => Nat.le_refl a.createdAt⟩
  have hnewest : { p with createdAt := 1 } ∈
      shownProducts (reordered (fun id => if id = p.id then 1 else 0) w) := by
    refine mem_shownProducts.2 ⟨mem_reordered.2 ⟨p, hp, ?_⟩, hactive⟩
    simp
  have hne := List.ne_nil_of_mem hnewest
  have hsorted :
      (shownProducts (reordered (fun id => if id = p.id then 1 else 0) w)).Pairwise later :=
    List.pairwise_insertionSort later _
  have hlater := hsorted.rel_getLast hnewest
  refine ⟨_, _, (List.dropLast_concat_getLast hne).symm, ?_⟩
  obtain ⟨hrow, -⟩ := mem_shownProducts.1 (List.getLast_mem hne)
  obtain ⟨q, -, hq⟩ := mem_reordered.1 hrow
  rw [hq] at hlater ⊢
  by_contra hid
  have hone : 1 ≤ if q.id = p.id then 1 else 0 := hlater
  rw [if_neg hid] at hone
  exact absurd hone (by decide)

end Reordered

/-! ## Fallbacks -/

/-- No active product falls back. -/
def NoneFallsBack (w : World) (locale : String) : Prop :=
  ∀ p ∈ w.db.products.rows, p.status = .active → ¬ FallsBack w locale p.id

/-- Every active product falls back. -/
def AllFallBack (w : World) (locale : String) : Prop :=
  ∀ p ∈ w.db.products.rows, p.status = .active → FallsBack w locale p.id

/-- The locale that is sent with each active product, where none or all of them fall back. -/
lemma exists_sent {w : World} {locale : String}
    (h : NoneFallsBack w locale ∨ AllFallBack w locale) :
    ∃ sent, ∀ p ∈ shownProducts w, (serializeProduct w p locale).2 = sent := by
  obtain hnone | hall := h
  · refine ⟨locale, fun p hp => ?_⟩
    obtain ⟨hrow, hactive⟩ := mem_shownProducts.1 hp
    obtain ⟨hfalls, -⟩ | ⟨-, hsent⟩ := @sent_cases w locale p
    · exact absurd hfalls (hnone p hrow hactive)
    · exact hsent
  · refine ⟨defaultLocale, fun p hp => ?_⟩
    obtain ⟨hrow, hactive⟩ := mem_shownProducts.1 hp
    obtain ⟨-, hsent⟩ | ⟨hfalls, -⟩ := @sent_cases w locale p
    · exact hsent
    · exact absurd (hall p hrow hactive) hfalls

/-! ## The header -/

section Header

variable [PyText]

/-- What the list view returns. -/
theorem productListView_run (w : World) (acceptLanguage : Option String) :
    (productListView acceptLanguage).run w =
      (.ok ((shownProducts w).map fun p => (serializeProduct w p (resolveLocale acceptLanguage)).1,
        ((shownProducts w).map fun p =>
          (serializeProduct w p (resolveLocale acceptLanguage)).2).getLastD
            (resolveLocale acceptLanguage)), w) := by
  have hquery : activeProducts.run w = .ok (shownProducts w, w) := rfl
  rw [productListView, Program.liftM_eq, Program.run_exec_bind_of_ok hquery, serializeProducts_run]

/-- A locale is that of every name in a list. -/
def NamesIn (w : World) (locale : String) (items : List ProductItem)
    (contentLanguage : String) : Prop :=
  ∀ item ∈ items, item.name ≠ none → nameLocale w locale item.id = some contentLanguage

/-- `Content-Language` describes the list: it is the locale of every name in it, it is so in every
order of the products and does not depend on the order, and a list of one product has the header of
its detail. -/
structure DescribesList (w : World) (acceptLanguage : Option String) : Prop where
  names : ∃ items contentLanguage w',
    (productListView acceptLanguage).run w = (.ok (items, contentLanguage), w') ∧
      NamesIn w (resolveLocale acceptLanguage) items contentLanguage
  order : ∀ createdAt, ∃ items items' contentLanguage w₁ w₂,
    (productListView acceptLanguage).run w = (.ok (items, contentLanguage), w₁) ∧
      (productListView acceptLanguage).run (reordered createdAt w) =
        (.ok (items', contentLanguage), w₂) ∧
          NamesIn w (resolveLocale acceptLanguage) items' contentLanguage
  detail : ∀ p ∈ w.db.products.rows, p.status = .active →
    (∀ q ∈ w.db.products.rows, q.status = .active → q = p) →
      ∃ item contentLanguage w₁ w₂,
        (productListView acceptLanguage).run w = (.ok ([item], contentLanguage), w₁) ∧
          (productDetailView acceptLanguage p.id).run w = (.ok (item, contentLanguage), w₂)

variable {w : World} {acceptLanguage : Option String}

/-- The header of a list. -/
lemma contentLanguage_append {items : List ProductItem} {contentLanguage : String} {w' : World}
    (hrun : (productListView acceptLanguage).run w = (.ok (items, contentLanguage), w'))
    {older : List Product} {last : Product} (hshown : shownProducts w = older ++ [last]) :
    contentLanguage = (serializeProduct w last (resolveLocale acceptLanguage)).2 := by
  rw [productListView_run, hshown] at hrun
  cases hrun
  simp

/-- The list whose products all have one locale is described by it. -/
lemma productListView_run_of_sent {sent : String}
    (h : ∀ p ∈ shownProducts w, (serializeProduct w p (resolveLocale acceptLanguage)).2 = sent) :
    ∃ items, (productListView acceptLanguage).run w =
        (.ok (items, if shownProducts w = [] then resolveLocale acceptLanguage else sent), w) ∧
      NamesIn w (resolveLocale acceptLanguage) items
        (if shownProducts w = [] then resolveLocale acceptLanguage else sent) := by
  have hrun := productListView_run w acceptLanguage
  rw [getLastD_sent h] at hrun
  refine ⟨_, hrun, fun item hitem hname => ?_⟩
  obtain ⟨p, hp, rfl⟩ := List.mem_map.1 hitem
  rw [if_neg (List.ne_nil_of_mem hp), ← h p hp]
  exact nameLocale_eq p hname

lemma productDetailView_run {p : Product} (hp : p ∈ w.db.products.rows)
    (hactive : p.status = .active) :
    (productDetailView acceptLanguage p.id).run w =
      (.ok (serializeProduct w p (resolveLocale acceptLanguage)), w) := by
  have hget : (getActiveProduct p.id).run w = .ok (p, w) := by
    refine Tx.run_handling_ok (Objects.run_get_of_ok
      (Table.get_of_unique hp (by simp [hactive]) fun q hq hholds => ?_))
    simp only [Bool.and_eq_true, decide_eq_true_eq] at hholds
    exact w.db.products.eq_of_pk hq hp hholds.1
  rw [productDetailView, Program.liftM_eq, Program.run_exec_bind_of_ok hget]
  rfl

/-- The header of a list is that of every name in it. -/
lemma DescribesList.nameLocale_eq (h : DescribesList w acceptLanguage) {p : Product}
    (hp : p ∈ shownProducts w)
    (hname : (serializeProduct w p (resolveLocale acceptLanguage)).1.name ≠ none) :
    nameLocale w (resolveLocale acceptLanguage) p.id =
      some (((shownProducts w).map fun q =>
        (serializeProduct w q (resolveLocale acceptLanguage)).2).getLastD
          (resolveLocale acceptLanguage)) := by
  obtain ⟨items, contentLanguage, w', hrun, hnames⟩ := h.names
  rw [productListView_run] at hrun
  cases hrun
  exact hnames _ (List.mem_map_of_mem hp) hname

/-- Where the order does not matter, the header is what any of the active products would send. -/
lemma DescribesList.sent_eq (h : DescribesList w acceptLanguage) {items : List ProductItem}
    {contentLanguage : String} {w' : World}
    (hrun : (productListView acceptLanguage).run w = (.ok (items, contentLanguage), w'))
    {p : Product} (hp : p ∈ w.db.products.rows) (hactive : p.status = .active) :
    contentLanguage = (serializeProduct w p (resolveLocale acceptLanguage)).2 := by
  obtain ⟨_, items', contentLanguage', w₁, w₂, hrun', hreordered, -⟩ :=
    h.order fun id => if id = p.id then 1 else 0
  rw [hrun] at hrun'
  cases hrun'
  obtain ⟨older, last, hshown, hid⟩ := exists_last hp hactive
  rw [contentLanguage_append hreordered hshown]
  unfold serializeProduct Product.entity
  rw [hid]
  rfl

/-- A product that falls back and one that does not send different locales. -/
lemma DescribesList.noneFallsBack_or_all (h : DescribesList w acceptLanguage) :
    NoneFallsBack w (resolveLocale acceptLanguage) ∨
      AllFallBack w (resolveLocale acceptLanguage) := by
  by_contra hmixed
  rw [not_or] at hmixed
  obtain ⟨hsome, hnotAll⟩ := hmixed
  unfold NoneFallsBack at hsome
  unfold AllFallBack at hnotAll
  push Not at hsome hnotAll
  obtain ⟨p, hp, hactive, hfalls⟩ := hsome
  obtain ⟨q, hq, hactive', hkeeps⟩ := hnotAll
  obtain ⟨items, contentLanguage, w', hrun, -⟩ := h.names
  have hsent := h.sent_eq hrun hp hactive
  have hsent' := h.sent_eq hrun hq hactive'
  obtain ⟨-, hdefault⟩ | ⟨hnot, -⟩ := @sent_cases w (resolveLocale acceptLanguage) p
  · obtain ⟨hfalls', -⟩ | ⟨-, hlocale⟩ := @sent_cases w (resolveLocale acceptLanguage) q
    · exact hkeeps hfalls'
    · have heq : resolveLocale acceptLanguage = defaultLocale := by
        rw [← hlocale, ← hsent', hsent, hdefault]
      rw [heq] at hfalls
      exact hfalls.1 hfalls.2
  · exact hnot hfalls

/-- `Content-Language` describes the list exactly when no active product falls back to the default
locale or every one does. -/
theorem describesList_iff (w : World) (acceptLanguage : Option String) :
    DescribesList w acceptLanguage ↔
      NoneFallsBack w (resolveLocale acceptLanguage) ∨
        AllFallBack w (resolveLocale acceptLanguage) := by
  refine ⟨DescribesList.noneFallsBack_or_all, fun h => ?_⟩
  obtain ⟨sent, hsent⟩ := exists_sent h
  obtain ⟨items, hrun, hnames⟩ := productListView_run_of_sent hsent
  refine ⟨⟨items, _, _, hrun, hnames⟩, fun createdAt => ?_, fun p hp hactive honly => ?_⟩
  · have hsent' : ∀ p ∈ shownProducts (reordered createdAt w), (serializeProduct
        (reordered createdAt w) p (resolveLocale acceptLanguage)).2 = sent := by
      intro p hp
      obtain ⟨hrow, hactive⟩ := mem_shownProducts.1 hp
      obtain ⟨q, hq, rfl⟩ := mem_reordered.1 hrow
      exact hsent q (mem_shownProducts.2 ⟨hq, hactive⟩)
    obtain ⟨items', hrun', hnames'⟩ := productListView_run_of_sent hsent'
    simp only [shownProducts_reordered_eq_nil_iff] at hrun' hnames'
    exact ⟨items, items', _, _, _, hrun, hrun', hnames'⟩
  · have hone := productListView_run w acceptLanguage
    rw [shownProducts_eq_singleton hp hactive honly] at hone
    exact ⟨_, _, _, _, hone, productDetailView_run hp hactive⟩

end Header

/-! ### A product with an English name and a newer one without -/

section Example

attribute [local instance] pngLibraries localPosts asciiText

def secondProduct : Product := { firstProduct with id := 1 }

def secondUpload : MediaUpload := { firstUpload with id := 1 }

/-- Two products are published; the first one also gets an English name. -/
def twoPublications : List CatalogCall := preparation ++ [
  .createProduct { id := 0 } none none,
  .createVariant secondProduct "sku2" 1000 100 none,
  .setTranslation secondProduct.entity "vi" "name" "name" false,
  .requestUpload "image/png" 3,
  .validateUpload workingScanner 1,
  .attachMediaToProduct secondUpload secondProduct,
  .publishProduct secondProduct,
  .setTranslation firstProduct.entity "en" "name" "name" false]

/-- The list is asked for in English. -/
theorem not_describesList :
    ¬ DescribesList (Program.Sequence.replay CatalogCall.service twoPublications
      twoCategories)
      (some (headerText [english])) := by
  have hlocale : resolveLocale (some (headerText [english])) = "en" := by
    rw [resolveLocale_headerText]
    decide
  intro h
  have hfirst := @DescribesList.nameLocale_eq _ _ _ h { firstProduct with status := .active }
  rw [hlocale] at hfirst
  exact absurd (hfirst (by decide +kernel) (by decide +kernel)) (by decide +kernel)

end Example

end BePyEco
