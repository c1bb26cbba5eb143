import BePyEco.Accounts.AdminViews

/-!
# Management commands

The two commands that set a shop up: `create_master_admin`, after which somebody can create the
other staff, and `seed_supported_countries`.
-/

namespace BePyEco

open Library

/-! ## The first master admin -/

/-- `Staff.objects.create(...)` of the command; the address is normalized already. -/
def insertMasterAdmin (email password : String) : Statement Staff :=
  Objects.create fun id => {
    id := id
    email := email
    passwordHash := makePassword password
    role := .masterAdmin }

/-- `create_master_admin --email ... --password ...`. -/
def createMasterAdmin [SerializerFields] [PyText] (email password : String) : Service Staff := do
  let email := normalizeEmail email
  let taken ← (Objects.exists? fun s : Staff => decide (s.email = email) : Statement Bool)
  Program.require (!taken) (.libraryError "CommandError")
  Program.require (SerializerFields.validatePassword password) (.libraryError "CommandError")
  insertMasterAdmin email password

/-! ## The countries -/

/-- The row that the command creates, with the primary key that is generated for it. -/
def vietnam (uuid : ℕ) (id : Id) : SupportedCountry where
  id := id
  uuid := uuid
  code := "VN"
  defaultLocale := "vi"
  allowedLocales := ["vi", "en"]
  allowedCurrencies := ["VND", "USD"]

/-- `SupportedCountry.objects.get(code="VN")`. -/
def getVietnam : Statement SupportedCountry :=
  Objects.get fun c : SupportedCountry => decide (c.code = "VN")

/-- `get_or_create(code="VN", ...)`: look the row up, else insert it; a conflict is looked up
again.  The primary key is whatever `generate_id()` returns then. -/
def seedSupportedCountries (uuid : ℕ) : Service (SupportedCountry × Bool) := do
  let found ← (do
    let country ← getVietnam
    return some country : Statement (Option SupportedCountry)).handling .doesNotExist (pure none)
  match found with
  | some country => return (country, false)
  | none =>
    (do let country ← Objects.create (vietnam uuid)
        return (country, true) : Statement (SupportedCountry × Bool)).handling .integrityError
      (do let country ← getVietnam.handling .doesNotExist (Tx.raise (.db .integrityError))
          return (country, false))

end BePyEco
