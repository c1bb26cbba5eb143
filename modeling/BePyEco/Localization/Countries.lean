import BePyEco.Database

/-!
# Supported countries

Vietnam is the only country at launch; the services take the first active one.
-/

namespace BePyEco

open Library

/-- `SupportedCountry.objects.filter(is_active=True).first()`: rows without an order of their own
are taken in that of the primary key. -/
def firstActiveCountry : Statement (Option SupportedCountry) := do
  let countries ← Objects.filter SupportedCountry.isActive
  return (countries.insertionSort fun a b => a.uuid ≤ b.uuid).head?

def validateLocaleAndCurrency (locale currency : String) : Service SupportedCountry := do
  match ← firstActiveCountry with
  | none => Program.raise .supportedCountryNotConfigured
  | some country =>
    Program.require (decide (locale ∈ country.allowedLocales)) .unsupportedLocale
    Program.require (decide (currency ∈ country.allowedCurrencies)) .unsupportedCurrency
    return country

/-! ## The first active country -/

/-- The active country with the least primary key. -/
structure FirstActive (w : World) (country : SupportedCountry) : Prop where
  stored : country ∈ w.db.supportedCountries.rows
  active : country.isActive = true
  least : ∀ c ∈ w.db.supportedCountries.rows, c.isActive = true → country.uuid ≤ c.uuid

section FirstActive

variable {w w' : World} {country : SupportedCountry}

lemma firstActiveCountry_ok (h : firstActiveCountry.run w = .ok (some country, w')) :
    w' = w ∧ FirstActive w country := by
  have hmem : ∀ {c}, c ∈ (w.db.supportedCountries.rows.filter
      SupportedCountry.isActive).insertionSort (fun a b => a.uuid ≤ b.uuid) ↔
        c ∈ w.db.supportedCountries.rows ∧ c.isActive = true := by
    intro c
    rw [(List.perm_insertionSort _ _).mem_iff, List.mem_filter]
  obtain ⟨hfirst, rfl⟩ : ((w.db.supportedCountries.rows.filter
      SupportedCountry.isActive).insertionSort fun a b => a.uuid ≤ b.uuid).head? = some country ∧
        w = w' := by
    simpa [firstActiveCountry] using h
  obtain ⟨rest, hsorted⟩ := List.head?_eq_some_iff.1 hfirst
  have hpairwise := List.pairwise_insertionSort (fun a b : SupportedCountry => a.uuid ≤ b.uuid)
    (w.db.supportedCountries.rows.filter SupportedCountry.isActive)
  rw [hsorted] at hpairwise hmem
  obtain ⟨hstored, hactive⟩ := hmem.1 List.mem_cons_self
  refine ⟨rfl, hstored, hactive, fun c hc hcactive => ?_⟩
  obtain rfl | hrest := List.mem_cons.1 (hmem.2 ⟨hc, hcactive⟩)
  · exact le_rfl
  · exact (List.pairwise_cons.1 hpairwise).1 c hrest

/-- There is one where a country is active. -/
lemma firstActiveCountry_of_active (hcountry : country ∈ w.db.supportedCountries.rows)
    (hactive : country.isActive = true) :
    ∃ first, firstActiveCountry.run w = .ok (some first, w) ∧ FirstActive w first := by
  have hrun : firstActiveCountry.run w = .ok (((w.db.supportedCountries.rows.filter
      SupportedCountry.isActive).insertionSort fun a b => a.uuid ≤ b.uuid).head?, w) := rfl
  cases hfirst : ((w.db.supportedCountries.rows.filter
      SupportedCountry.isActive).insertionSort fun a b => a.uuid ≤ b.uuid).head? with
  | none =>
      have hmem : country ∈ (w.db.supportedCountries.rows.filter
          SupportedCountry.isActive).insertionSort fun a b => a.uuid ≤ b.uuid :=
        (List.perm_insertionSort _ _).mem_iff.2 (List.mem_filter.2 ⟨hcountry, hactive⟩)
      rw [List.head?_eq_none_iff.1 hfirst] at hmem
      cases hmem
  | some first =>
      rw [hfirst] at hrun
      exact ⟨first, hrun, (firstActiveCountry_ok hrun).2⟩

/-- Two active countries that are first are one, since no two have one primary key. -/
lemma FirstActive.unique {country' : SupportedCountry} (h : FirstActive w country)
    (h' : FirstActive w country') : country = country' := by
  have huuid := le_antisymm (h.least _ h'.stored h'.active) (h'.least _ h.stored h.active)
  exact w.db.supportedCountries.eq_of_conflicts h.stored h'.stored (decide_eq_true (Or.inr huuid))

lemma FirstActive.run (h : FirstActive w country) :
    firstActiveCountry.run w = .ok (some country, w) := by
  obtain ⟨first, hrun, hfirst⟩ := firstActiveCountry_of_active h.stored h.active
  rw [hrun, hfirst.unique h]

end FirstActive

end BePyEco
