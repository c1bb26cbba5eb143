import BePyEco.Common.Errors
import BePyEco.Library.Program
import BePyEco.Models.Accounts
import BePyEco.Models.Catalog
import BePyEco.Models.Common
import BePyEco.Models.Localization
import BePyEco.Models.Media
import BePyEco.Models.Translation

/-!
# The database and the world around it

`Database` is the record of the tables.  `World` adds what the services read or change besides
them: the clock, the source of random values and the outgoing mail.

`Statement` is database code that commits as a whole, `Service` a call made of such statements.
-/

namespace BePyEco

open Library

/-- The tables. -/
structure Database where
  customers : Table Customer := .empty
  loginMethods : Table LoginMethod := .empty
  sessions : Table Session := .empty
  verificationTokens : Table VerificationToken := .empty
  staff : Table Staff := .empty
  staffTotpDevices : Table StaffTOTPDevice := .empty
  auditLog : Table AuditLogEntry := .empty
  idempotencyRecords : Table IdempotencyRecord := .empty
  categories : Table Category := .empty
  brands : Table Brand := .empty
  products : Table Product := .empty
  productCategories : Table ProductCategory := .empty
  variants : Table Variant := .empty
  variantAttributeValues : Table VariantAttributeValue := .empty
  mediaUploads : Table MediaUpload := .empty
  translationEntries : Table TranslationEntry := .empty
  outboxEvents : Table OutboxEvent := .empty
  supportedCountries : Table SupportedCountry := .empty

/-- A mail with a verification token in it. -/
structure Mail where
  recipient : String
  token : RawToken
  deriving DecidableEq, Repr

/-- The tables, the clock, the next random value, and the mail sent so far, newest first. -/
structure World where
  db : Database := {}
  now : Time := 0
  entropy : ℕ := 0
  mailbox : List Mail := []

/-- A statement or a transaction block. -/
abbrev Statement := Tx World ApiError

/-- A call of the application. -/
abbrev Service := Program World ApiError

/-! ## The tables of a world -/

instance : Stored World Customer where
  table w := w.db.customers
  put t w := { w with db := { w.db with customers := t } }
  table_put _ _ := rfl
  put_table _ := rfl
  put_put _ _ _ := rfl

instance : Stored World LoginMethod where
  table w := w.db.loginMethods
  put t w := { w with db := { w.db with loginMethods := t } }
  table_put _ _ := rfl
  put_table _ := rfl
  put_put _ _ _ := rfl

instance : Stored World Session where
  table w := w.db.sessions
  put t w := { w with db := { w.db with sessions := t } }
  table_put _ _ := rfl
  put_table _ := rfl
  put_put _ _ _ := rfl

instance : Stored World VerificationToken where
  table w := w.db.verificationTokens
  put t w := { w with db := { w.db with verificationTokens := t } }
  table_put _ _ := rfl
  put_table _ := rfl
  put_put _ _ _ := rfl

instance : Stored World Staff where
  table w := w.db.staff
  put t w := { w with db := { w.db with staff := t } }
  table_put _ _ := rfl
  put_table _ := rfl
  put_put _ _ _ := rfl

instance : Stored World StaffTOTPDevice where
  table w := w.db.staffTotpDevices
  put t w := { w with db := { w.db with staffTotpDevices := t } }
  table_put _ _ := rfl
  put_table _ := rfl
  put_put _ _ _ := rfl

instance : Stored World AuditLogEntry where
  table w := w.db.auditLog
  put t w := { w with db := { w.db with auditLog := t } }
  table_put _ _ := rfl
  put_table _ := rfl
  put_put _ _ _ := rfl

instance : Stored World IdempotencyRecord where
  table w := w.db.idempotencyRecords
  put t w := { w with db := { w.db with idempotencyRecords := t } }
  table_put _ _ := rfl
  put_table _ := rfl
  put_put _ _ _ := rfl

instance : Stored World Category where
  table w := w.db.categories
  put t w := { w with db := { w.db with categories := t } }
  table_put _ _ := rfl
  put_table _ := rfl
  put_put _ _ _ := rfl

instance : Stored World Brand where
  table w := w.db.brands
  put t w := { w with db := { w.db with brands := t } }
  table_put _ _ := rfl
  put_table _ := rfl
  put_put _ _ _ := rfl

instance : Stored World Product where
  table w := w.db.products
  put t w := { w with db := { w.db with products := t } }
  table_put _ _ := rfl
  put_table _ := rfl
  put_put _ _ _ := rfl

instance : Stored World ProductCategory where
  table w := w.db.productCategories
  put t w := { w with db := { w.db with productCategories := t } }
  table_put _ _ := rfl
  put_table _ := rfl
  put_put _ _ _ := rfl

instance : Stored World Variant where
  table w := w.db.variants
  put t w := { w with db := { w.db with variants := t } }
  table_put _ _ := rfl
  put_table _ := rfl
  put_put _ _ _ := rfl

instance : Stored World VariantAttributeValue where
  table w := w.db.variantAttributeValues
  put t w := { w with db := { w.db with variantAttributeValues := t } }
  table_put _ _ := rfl
  put_table _ := rfl
  put_put _ _ _ := rfl

instance : Stored World MediaUpload where
  table w := w.db.mediaUploads
  put t w := { w with db := { w.db with mediaUploads := t } }
  table_put _ _ := rfl
  put_table _ := rfl
  put_put _ _ _ := rfl

instance : Stored World TranslationEntry where
  table w := w.db.translationEntries
  put t w := { w with db := { w.db with translationEntries := t } }
  table_put _ _ := rfl
  put_table _ := rfl
  put_put _ _ _ := rfl

instance : Stored World OutboxEvent where
  table w := w.db.outboxEvents
  put t w := { w with db := { w.db with outboxEvents := t } }
  table_put _ _ := rfl
  put_table _ := rfl
  put_put _ _ _ := rfl

instance : Stored World SupportedCountry where
  table w := w.db.supportedCountries
  put t w := { w with db := { w.db with supportedCountries := t } }
  table_put _ _ := rfl
  put_table _ := rfl
  put_put _ _ _ := rfl

section Tables

variable (w : World)

@[simp] lemma table_customer : (Stored.table w : Table Customer) = w.db.customers := rfl
@[simp] lemma table_loginMethod : (Stored.table w : Table LoginMethod) = w.db.loginMethods := rfl
@[simp] lemma table_session : (Stored.table w : Table Session) = w.db.sessions := rfl
@[simp] lemma table_verificationToken :
    (Stored.table w : Table VerificationToken) = w.db.verificationTokens := rfl
@[simp] lemma table_staff : (Stored.table w : Table Staff) = w.db.staff := rfl
@[simp] lemma table_staffTOTPDevice :
    (Stored.table w : Table StaffTOTPDevice) = w.db.staffTotpDevices := rfl
@[simp] lemma table_auditLogEntry : (Stored.table w : Table AuditLogEntry) = w.db.auditLog := rfl
@[simp] lemma table_idempotencyRecord :
    (Stored.table w : Table IdempotencyRecord) = w.db.idempotencyRecords := rfl
@[simp] lemma table_category : (Stored.table w : Table Category) = w.db.categories := rfl
@[simp] lemma table_brand : (Stored.table w : Table Brand) = w.db.brands := rfl
@[simp] lemma table_product : (Stored.table w : Table Product) = w.db.products := rfl
@[simp] lemma table_productCategory :
    (Stored.table w : Table ProductCategory) = w.db.productCategories := rfl
@[simp] lemma table_variant : (Stored.table w : Table Variant) = w.db.variants := rfl
@[simp] lemma table_variantAttributeValue :
    (Stored.table w : Table VariantAttributeValue) = w.db.variantAttributeValues := rfl
@[simp] lemma table_mediaUpload : (Stored.table w : Table MediaUpload) = w.db.mediaUploads := rfl
@[simp] lemma table_translationEntry :
    (Stored.table w : Table TranslationEntry) = w.db.translationEntries := rfl
@[simp] lemma table_outboxEvent : (Stored.table w : Table OutboxEvent) = w.db.outboxEvents := rfl
@[simp] lemma table_supportedCountry :
    (Stored.table w : Table SupportedCountry) = w.db.supportedCountries := rfl

@[simp] lemma put_customer (t : Table Customer) :
    Stored.put t w = { w with db := { w.db with customers := t } } := rfl
@[simp] lemma put_loginMethod (t : Table LoginMethod) :
    Stored.put t w = { w with db := { w.db with loginMethods := t } } := rfl
@[simp] lemma put_session (t : Table Session) :
    Stored.put t w = { w with db := { w.db with sessions := t } } := rfl
@[simp] lemma put_verificationToken (t : Table VerificationToken) :
    Stored.put t w = { w with db := { w.db with verificationTokens := t } } := rfl
@[simp] lemma put_staff (t : Table Staff) :
    Stored.put t w = { w with db := { w.db with staff := t } } := rfl
@[simp] lemma put_staffTOTPDevice (t : Table StaffTOTPDevice) :
    Stored.put t w = { w with db := { w.db with staffTotpDevices := t } } := rfl
@[simp] lemma put_auditLogEntry (t : Table AuditLogEntry) :
    Stored.put t w = { w with db := { w.db with auditLog := t } } := rfl
@[simp] lemma put_idempotencyRecord (t : Table IdempotencyRecord) :
    Stored.put t w = { w with db := { w.db with idempotencyRecords := t } } := rfl
@[simp] lemma put_category (t : Table Category) :
    Stored.put t w = { w with db := { w.db with categories := t } } := rfl
@[simp] lemma put_brand (t : Table Brand) :
    Stored.put t w = { w with db := { w.db with brands := t } } := rfl
@[simp] lemma put_product (t : Table Product) :
    Stored.put t w = { w with db := { w.db with products := t } } := rfl
@[simp] lemma put_productCategory (t : Table ProductCategory) :
    Stored.put t w = { w with db := { w.db with productCategories := t } } := rfl
@[simp] lemma put_variant (t : Table Variant) :
    Stored.put t w = { w with db := { w.db with variants := t } } := rfl
@[simp] lemma put_variantAttributeValue (t : Table VariantAttributeValue) :
    Stored.put t w = { w with db := { w.db with variantAttributeValues := t } } := rfl
@[simp] lemma put_mediaUpload (t : Table MediaUpload) :
    Stored.put t w = { w with db := { w.db with mediaUploads := t } } := rfl
@[simp] lemma put_translationEntry (t : Table TranslationEntry) :
    Stored.put t w = { w with db := { w.db with translationEntries := t } } := rfl
@[simp] lemma put_outboxEvent (t : Table OutboxEvent) :
    Stored.put t w = { w with db := { w.db with outboxEvents := t } } := rfl
@[simp] lemma put_supportedCountry (t : Table SupportedCountry) :
    Stored.put t w = { w with db := { w.db with supportedCountries := t } } := rfl

end Tables

/-! ## Foreign keys -/

section ForeignKeys

variable (Row : Type) [Model Row] [Stored World Row]

/-- A row with the key is stored. -/
def HasRow (w : World) (id : Id) : Prop := ∃ r ∈ (Stored.table w : Table Row).rows, Model.pk r = id

/-- The foreign keys that a statement inserts refer to stored rows.  They are checked when it
commits, so that nothing of the statement stays. -/
def requireStored (keys : List Id) : Statement Unit := do
  let stored ← Tx.read fun w : World => (Stored.table w : Table Row).rows.map Model.pk
  if keys.all fun id => stored.contains id then return ()
  else Tx.raise (.db .integrityError)

variable {Row} {keys : List Id} {w w' : World}

lemma run_requireStored (h : ∀ id ∈ keys, HasRow Row w id) :
    (requireStored Row keys).run w = .ok ((), w) := by
  have hall : keys.all (fun id => ((Stored.table w : Table Row).rows.map Model.pk).contains id) =
      true := by simpa [HasRow] using h
  rw [requireStored, Tx.run_bind, Tx.run_read]
  dsimp only
  rw [hall]
  rfl

lemma run_requireStored_singleton {key : Id} (h : HasRow Row w key) :
    (requireStored Row [key]).run w = .ok ((), w) := by
  refine run_requireStored fun id hid => ?_
  cases List.mem_singleton.1 hid
  exact h

lemma run_requireStored_of_missing (h : ¬ ∀ id ∈ keys, HasRow Row w id) :
    (requireStored Row keys).run w = .error (.db .integrityError) := by
  have hall : keys.all (fun id => ((Stored.table w : Table Row).rows.map Model.pk).contains id) =
      false := by
    rw [Bool.eq_false_iff]
    intro hall
    exact h (by simpa [HasRow] using hall)
  rw [requireStored, Tx.run_bind, Tx.run_read]
  dsimp only
  rw [hall]
  rfl

lemma requireStored_ok {u : Unit} (h : (requireStored Row keys).run w = .ok (u, w')) :
    w' = w ∧ ∀ id ∈ keys, HasRow Row w id := by
  by_cases hstored : ∀ id ∈ keys, HasRow Row w id
  · rw [run_requireStored hstored] at h
    cases h
    exact ⟨rfl, hstored⟩
  · rw [run_requireStored_of_missing hstored] at h
    cases h

lemma requireStored_guarantees {R : World → World → Prop} [Std.Refl R] (keys : List Id) :
    (requireStored Row keys).Guarantees R := by
  intro w u w' h
  obtain ⟨rfl, -⟩ := requireStored_ok h
  exact refl_of R w'

end ForeignKeys

/-! ## Clock, random values and mail -/

/-- `timezone.now()`. -/
def timezoneNow : Statement Time := Tx.read World.now

/-- Nothing but the clock moves. -/
def TimePasses (w w' : World) : Prop := ∃ t : Time, w' = { w with now := w.now + t }

/-- Draw a random value that was never drawn before. -/
def drawRandom : Statement ℕ := ⟨fun w => .ok (w.entropy, { w with entropy := w.entropy + 1 })⟩

/-- `send_mail(...)` with a raw token in the message. -/
def sendMail (recipient : String) (token : RawToken) : Statement Unit :=
  Tx.modify fun w => { w with mailbox := ⟨recipient, token⟩ :: w.mailbox }

@[simp] lemma run_timezoneNow (w : World) : timezoneNow.run w = .ok (w.now, w) := rfl

@[simp] lemma run_drawRandom (w : World) :
    drawRandom.run w = .ok (w.entropy, { w with entropy := w.entropy + 1 }) := rfl

end BePyEco
