import BePyEco.Common.Values
import BePyEco.Library.Table

/-!
# Supported countries

The locales and currencies that a customer may choose are those of the active country, which also
has the locale that is suggested when the browser names none of them.
-/

namespace BePyEco

open Library

/-- `uuid` is the value of the primary key, in whose order `first()` takes the rows; `id` numbers
them. -/
structure SupportedCountry where
  id : Id
  uuid : ℕ
  code : String
  defaultLocale : String
  allowedLocales : List String
  allowedCurrencies : List String
  isActive : Bool := true
  deriving DecidableEq, Repr

instance : Model SupportedCountry where
  pk := SupportedCountry.id
  fits c := decide (c.code.length ≤ 2) && decide (c.defaultLocale.length ≤ 10) &&
    c.allowedLocales.all (fun l => decide (l.length ≤ 10)) &&
    c.allowedCurrencies.all fun l => decide (l.length ≤ 3)
  conflicts a b := decide (a.code = b.code ∨ a.uuid = b.uuid)
  conflicts_symm a b := by simp [eq_comm]

end BePyEco
