import BePyEco.Catalog.Storefront
import BePyEco.Localization.SuggestLocale

/-!
# Language negotiation

The locale suggestion and the storefront both take the language that the header names first of those
they allow (`suggestedLocale_headerText`, `resolveLocale_headerText`); neither looks at q-values.
This is the best language when the header lists its languages by preference (`negotiatesBest_iff`).
-/

namespace BePyEco

open Library

/-- For this header both services return the best language that they allow, and for the same
languages and the same default they return the same. -/
structure NegotiatesBest [PyText] (header : List LanguageRange) (allowed : List String)
    (default : String) : Prop where
  suggested : Negotiated (offersOf header) allowed default
    (suggestedLocale (some (headerText header)) allowed default)
  resolved : Negotiated (offersOf header) allowedLocales defaultLocale
    (resolveLocale (some (headerText header)))
  agree : suggestedLocale (some (headerText header)) allowedLocales defaultLocale =
    resolveLocale (some (headerText header))

section Negotiation

variable [PyText] [AsciiText] (header : List LanguageRange)

/-- The suggestion is the allowed language that the header names first. -/
theorem suggestedLocale_headerText (allowed : List String) (default : String) :
    suggestedLocale (some (headerText header)) allowed default =
      (firstAllowed (offersOf header) allowed).getD default := by
  unfold suggestedLocale bestLocaleMatch
  rw [Option.getD_some]
  by_cases hheader : header = []
  · rw [hheader, languagesOf_nil]
    by_cases hempty : "" ∈ allowed
    · simp [hempty, firstAllowed, offersOf]
    · simp [hempty, firstAllowed, offersOf]
  · rw [languagesOf_headerText hheader, firstAllowed, map_fst_offersOf]
    cases hfind : (header.map LanguageRange.language).find? fun k => decide (k ∈ allowed) with
    | none => rfl
    | some language =>
        obtain ⟨r, -, rfl⟩ := List.mem_map.1 (List.mem_of_find?_eq_some hfind)
        exact if_neg r.language_ne_empty

/-- A first visit is suggested the language of the active country that the header names first. -/
theorem suggestLocale_headerText {w : World} {country : SupportedCountry} {currency : String}
    {others : List String}
    (hactive : FirstActive w country)
    (hcurrencies : country.allowedCurrencies = currency :: others) :
    (suggestLocale (some (headerText header))).run w = (.ok {
      countryCode := country.code
      locale := (firstAllowed (offersOf header) country.allowedLocales).getD country.defaultLocale
      currency := currency }, w) := by
  rw [suggestLocale, Program.liftM_eq, Program.run_exec_bind_of_ok hactive.run,
    ← suggestedLocale_headerText]
  simp only [hcurrencies]
  rfl

/-- The services negotiate as the header asks exactly when, for the languages of each, none has a
higher q-value than the one that the header names first. -/
theorem negotiatesBest_iff (allowed : List String) (default : String) :
    NegotiatesBest header allowed default ↔
      FirstIsBest (offersOf header) allowed default ∧
        FirstIsBest (offersOf header) allowedLocales defaultLocale := by
  have hagree : suggestedLocale (some (headerText header)) allowedLocales defaultLocale =
      resolveLocale (some (headerText header)) := by
    rw [suggestedLocale_headerText, resolveLocale_headerText]
  rw [← negotiated_firstAllowed_iff, ← negotiated_firstAllowed_iff,
    ← suggestedLocale_headerText header, ← resolveLocale_headerText]
  exact ⟨fun h => ⟨h.suggested, h.resolved⟩, fun h => ⟨h.1, h.2, hagree⟩⟩

end Negotiation

section Example

attribute [local instance] asciiText

theorem negotiatesBest_englishFirst :
    NegotiatesBest [english, halfVietnamese] ["vi", "en"] "vi" := by
  have hoffers : offersOf [english, halfVietnamese] = [("en", 1000), ("vi", 500)] := by decide
  rw [negotiatesBest_iff, hoffers]
  exact ⟨firstIsBest_of_sorted (by decide) (by decide),
    firstIsBest_of_sorted (by decide) (by decide)⟩

/-- The header prefers English and names Vietnamese first. -/
theorem not_negotiatesBest : ¬ NegotiatesBest [halfVietnamese, english] ["vi", "en"] "vi" := by
  rintro ⟨hsuggested, -, -⟩
  rw [suggestedLocale_headerText] at hsuggested
  have hoffers : offersOf [halfVietnamese, english] = [("vi", 500), ("en", 1000)] := by decide
  rw [hoffers] at hsuggested
  have hfirst : firstAllowed [("vi", 500), ("en", 1000)] ["vi", "en"] = some "vi" := by decide
  rw [hfirst] at hsuggested
  obtain hpreferred | ⟨hnone, -⟩ := hsuggested
  · exact absurd (hpreferred.maximal "en" (by decide)) (by decide)
  · exact absurd (hnone "vi" (by decide)) (by decide)

end Example

end BePyEco
