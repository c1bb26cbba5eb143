import BePyEco.Common.AcceptLanguage
import BePyEco.Localization.Countries

/-!
# The locale suggestion

What a first visit is offered: the active country, one of its locales and its first currency.
-/

namespace BePyEco

open Library

structure LocaleSuggestion where
  countryCode : String
  locale : String
  currency : String
  deriving DecidableEq, Repr

variable [PyText]

/-- `_best_locale_match(request, allowed_locales)`, from the header. -/
def bestLocaleMatch (acceptLanguage : Option String) (allowedLocales : List String) :
    Option String :=
  (((acceptLanguage.getD "").splitOn ",").map languageOf).find? fun lang =>
    decide (lang ∈ allowedLocales)

/-- `_best_locale_match(...) or default_locale`: the empty text counts as no match. -/
def suggestedLocale (acceptLanguage : Option String) (allowedLocales : List String)
    (defaultLocale : String) : String :=
  match bestLocaleMatch acceptLanguage allowedLocales with
  | none => defaultLocale
  | some locale => if locale = "" then defaultLocale else locale

/-- The suggested locale is allowed, or the default one. -/
lemma suggestedLocale_mem (acceptLanguage : Option String) (allowedLocales : List String)
    (defaultLocale : String) :
    suggestedLocale acceptLanguage allowedLocales defaultLocale ∈ allowedLocales ∨
      suggestedLocale acceptLanguage allowedLocales defaultLocale = defaultLocale := by
  unfold suggestedLocale
  cases hbest : bestLocaleMatch acceptLanguage allowedLocales with
  | none => exact Or.inr rfl
  | some locale =>
      unfold bestLocaleMatch at hbest
      have hallowed : locale ∈ allowedLocales := by simpa using List.find?_some hbest
      dsimp only
      split
      · exact Or.inr rfl
      · exact Or.inl hallowed

/-- `allowed_currencies[0]` of an empty list is an error of Python. -/
def suggestLocale (acceptLanguage : Option String) : Service LocaleSuggestion := do
  match ← firstActiveCountry with
  | none => Program.raise .supportedCountryNotConfigured
  | some country =>
    match country.allowedCurrencies with
    | [] => Program.raise (.libraryError "IndexError")
    | currency :: _ =>
      return {
        countryCode := country.code
        locale := suggestedLocale acceptLanguage country.allowedLocales country.defaultLocale
        currency := currency }

end BePyEco
