import BePyEco.Api.Endpoints
import BePyEco.Library.Policies

/-!
# Write policies of the database

A `WorldPolicy` is a write policy for every table and for the outgoing mail.  `Governed` is what the
rules for the statements need to know of a row type: which of the policies is its own.
-/

namespace BePyEco

open Library

/-! ## The tables by name -/

inductive TableName
  | customers
  | loginMethods
  | sessions
  | verificationTokens
  | staff
  | staffTotpDevices
  | auditLog
  | idempotencyRecords
  | categories
  | brands
  | products
  | productCategories
  | variants
  | variantAttributeValues
  | mediaUploads
  | translationEntries
  | outboxEvents
  | supportedCountries
  deriving DecidableEq

namespace TableName

/-- The type of the rows. -/
@[reducible] def Row : TableName → Type
  | customers => Customer
  | loginMethods => LoginMethod
  | sessions => Session
  | verificationTokens => VerificationToken
  | staff => Staff
  | staffTotpDevices => StaffTOTPDevice
  | auditLog => AuditLogEntry
  | idempotencyRecords => IdempotencyRecord
  | categories => Category
  | brands => Brand
  | products => Product
  | productCategories => ProductCategory
  | variants => Variant
  | variantAttributeValues => VariantAttributeValue
  | mediaUploads => MediaUpload
  | translationEntries => TranslationEntry
  | outboxEvents => OutboxEvent
  | supportedCountries => SupportedCountry

@[reducible] instance model : (name : TableName) → Model name.Row
  | customers => inferInstanceAs (Model Customer)
  | loginMethods => inferInstanceAs (Model LoginMethod)
  | sessions => inferInstanceAs (Model Session)
  | verificationTokens => inferInstanceAs (Model VerificationToken)
  | staff => inferInstanceAs (Model Staff)
  | staffTotpDevices => inferInstanceAs (Model StaffTOTPDevice)
  | auditLog => inferInstanceAs (Model AuditLogEntry)
  | idempotencyRecords => inferInstanceAs (Model IdempotencyRecord)
  | categories => inferInstanceAs (Model Category)
  | brands => inferInstanceAs (Model Brand)
  | products => inferInstanceAs (Model Product)
  | productCategories => inferInstanceAs (Model ProductCategory)
  | variants => inferInstanceAs (Model Variant)
  | variantAttributeValues => inferInstanceAs (Model VariantAttributeValue)
  | mediaUploads => inferInstanceAs (Model MediaUpload)
  | translationEntries => inferInstanceAs (Model TranslationEntry)
  | outboxEvents => inferInstanceAs (Model OutboxEvent)
  | supportedCountries => inferInstanceAs (Model SupportedCountry)

/-- The table of a database. -/
@[reducible] def table (db : Database) : (name : TableName) → Table name.Row
  | customers => db.customers
  | loginMethods => db.loginMethods
  | sessions => db.sessions
  | verificationTokens => db.verificationTokens
  | staff => db.staff
  | staffTotpDevices => db.staffTotpDevices
  | auditLog => db.auditLog
  | idempotencyRecords => db.idempotencyRecords
  | categories => db.categories
  | brands => db.brands
  | products => db.products
  | productCategories => db.productCategories
  | variants => db.variants
  | variantAttributeValues => db.variantAttributeValues
  | mediaUploads => db.mediaUploads
  | translationEntries => db.translationEntries
  | outboxEvents => db.outboxEvents
  | supportedCountries => db.supportedCountries

end TableName

/-! ## Policies -/

/-- A write policy for every table, and the mail that may be sent. -/
structure WorldPolicy where
  tables : (name : TableName) → TablePolicy name.Row
  mails : Mail → Prop := fun _ => False

namespace WorldPolicy

instance : CoeFun WorldPolicy fun _ => (name : TableName) → TablePolicy name.Row := ⟨tables⟩

/-- The tables move as their policies allow, and the mail that is sent may be sent; the clock and
the random values are not the business of a policy. -/
structure Allows (P : WorldPolicy) (w w' : World) : Prop where
  tables : ∀ name : TableName, (P name).Allows (name.table w.db) (name.table w'.db)
  mails : ∃ sent, w'.mailbox = sent ++ w.mailbox ∧ ∀ m ∈ sent, P.mails m

/-- What one of the policies allows. -/
def union {ι : Type} (P : ι → WorldPolicy) : WorldPolicy where
  tables name := .union fun i => P i name
  mails m := ∃ i, (P i).mails m

/-- The policy of what sends no mail. -/
def writing (tables : (name : TableName) → TablePolicy name.Row) : WorldPolicy where
  tables := tables

/-- The policy of what writes nothing. -/
def nothing : WorldPolicy where
  tables _ := {}

instance (P : WorldPolicy) : Std.Refl P.Allows :=
  ⟨fun _ => ⟨fun _ => .refl _ _, [], rfl, List.forall_mem_nil _⟩⟩

instance (P : WorldPolicy) : IsTrans World P.Allows where
  trans w w' w'' h h' := by
    obtain ⟨sent, hsent, hmay⟩ := h.mails
    obtain ⟨sent', hsent', hmay'⟩ := h'.mails
    refine ⟨fun name => (h.tables name).trans (h'.tables name), sent' ++ sent, ?_, ?_⟩
    · rw [hsent', hsent, List.append_assoc]
    · exact List.forall_mem_append.2 ⟨hmay', hmay⟩

/-- Whatever one policy allows, the other one does. -/
structure Le (P Q : WorldPolicy) : Prop where
  tables : ∀ name, (P name).Le (Q name)
  mails : ∀ m, P.mails m → Q.mails m

variable {P Q : WorldPolicy} {w w' : World}

lemma Allows.mono (hle : P.Le Q) (h : P.Allows w w') : Q.Allows w w' := by
  obtain ⟨sent, hsent, hmay⟩ := h.mails
  exact ⟨fun name => (h.tables name).mono (hle.tables name), sent, hsent,
    fun m hm => hle.mails m (hmay m hm)⟩

lemma le_union {ι : Type} (P : ι → WorldPolicy) (i : ι) : (P i).Le (union P) :=
  ⟨fun name => TablePolicy.le_union (fun j => P j name) i, fun _ hm => ⟨i, hm⟩⟩

/-- What is within one of the policies is within their union. -/
lemma allows_union {ι : Type} {P : ι → WorldPolicy} (i : ι) (h : (P i).Allows w w') :
    (union P).Allows w w' := h.mono (le_union P i)

lemma union_le {ι : Type} {P : ι → WorldPolicy} (h : ∀ i, (P i).Le Q) : (union P).Le Q :=
  ⟨fun name => TablePolicy.union_le fun i => (h i).tables name,
    fun m ⟨i, hm⟩ => (h i).mails m hm⟩

lemma guarantees_union {ι α : Type} {P : ι → WorldPolicy} (i : ι) {p : Service α}
    (hp : p.Guarantees (P i).Allows) : p.Guarantees (union P).Allows :=
  hp.mono fun _ _ h => allows_union i h

lemma allows_of_eq (hdb : w'.db = w.db) (hmail : w'.mailbox = w.mailbox) : P.Allows w w' := by
  refine ⟨fun name => ?_, [], hmail, List.forall_mem_nil _⟩
  rw [hdb]
  exact .refl _ _

end WorldPolicy

/-- The row type of a table, with the policy that governs it. -/
class Governed (Row : Type) [Model Row] [Stored World Row] where
  policy : WorldPolicy → TablePolicy Row
  allows_put : ∀ {P : WorldPolicy} {w : World} {t : Table Row},
    (policy P).Allows (Stored.table w) t → P.Allows w (Stored.put t w)

/-- One table is written, the others are not. -/
lemma WorldPolicy.allows_of_only {P : WorldPolicy} {w w' : World} {name : TableName}
    (h : (P name).Allows (name.table w.db) (name.table w'.db))
    (hother : ∀ other ≠ name, other.table w'.db = other.table w.db)
    (hmail : w'.mailbox = w.mailbox) : P.Allows w w' := by
  refine ⟨fun other => ?_, [], hmail, List.forall_mem_nil _⟩
  by_cases heq : other = name
  · subst heq
    exact h
  · rw [hother other heq]
    exact .refl _ _

instance : Governed Customer where
  policy P := P .customers
  allows_put h := @WorldPolicy.allows_of_only _ _ _ .customers h (fun other hne => by
    cases other <;> first | rfl | exact absurd rfl hne) rfl

instance : Governed LoginMethod where
  policy P := P .loginMethods
  allows_put h := @WorldPolicy.allows_of_only _ _ _ .loginMethods h (fun other hne => by
    cases other <;> first | rfl | exact absurd rfl hne) rfl

instance : Governed Session where
  policy P := P .sessions
  allows_put h := @WorldPolicy.allows_of_only _ _ _ .sessions h (fun other hne => by
    cases other <;> first | rfl | exact absurd rfl hne) rfl

instance : Governed VerificationToken where
  policy P := P .verificationTokens
  allows_put h := @WorldPolicy.allows_of_only _ _ _ .verificationTokens h (fun other hne => by
    cases other <;> first | rfl | exact absurd rfl hne) rfl

instance : Governed Staff where
  policy P := P .staff
  allows_put h := @WorldPolicy.allows_of_only _ _ _ .staff h (fun other hne => by
    cases other <;> first | rfl | exact absurd rfl hne) rfl

instance : Governed StaffTOTPDevice where
  policy P := P .staffTotpDevices
  allows_put h := @WorldPolicy.allows_of_only _ _ _ .staffTotpDevices h (fun other hne => by
    cases other <;> first | rfl | exact absurd rfl hne) rfl

instance : Governed AuditLogEntry where
  policy P := P .auditLog
  allows_put h := @WorldPolicy.allows_of_only _ _ _ .auditLog h (fun other hne => by
    cases other <;> first | rfl | exact absurd rfl hne) rfl

instance : Governed IdempotencyRecord where
  policy P := P .idempotencyRecords
  allows_put h := @WorldPolicy.allows_of_only _ _ _ .idempotencyRecords h (fun other hne => by
    cases other <;> first | rfl | exact absurd rfl hne) rfl

instance : Governed Category where
  policy P := P .categories
  allows_put h := @WorldPolicy.allows_of_only _ _ _ .categories h (fun other hne => by
    cases other <;> first | rfl | exact absurd rfl hne) rfl

instance : Governed Product where
  policy P := P .products
  allows_put h := @WorldPolicy.allows_of_only _ _ _ .products h (fun other hne => by
    cases other <;> first | rfl | exact absurd rfl hne) rfl

instance : Governed ProductCategory where
  policy P := P .productCategories
  allows_put h := @WorldPolicy.allows_of_only _ _ _ .productCategories h (fun other hne => by
    cases other <;> first | rfl | exact absurd rfl hne) rfl

instance : Governed Variant where
  policy P := P .variants
  allows_put h := @WorldPolicy.allows_of_only _ _ _ .variants h (fun other hne => by
    cases other <;> first | rfl | exact absurd rfl hne) rfl

instance : Governed VariantAttributeValue where
  policy P := P .variantAttributeValues
  allows_put h := @WorldPolicy.allows_of_only _ _ _ .variantAttributeValues h (fun other hne => by
    cases other <;> first | rfl | exact absurd rfl hne) rfl

instance : Governed MediaUpload where
  policy P := P .mediaUploads
  allows_put h := @WorldPolicy.allows_of_only _ _ _ .mediaUploads h (fun other hne => by
    cases other <;> first | rfl | exact absurd rfl hne) rfl

instance : Governed TranslationEntry where
  policy P := P .translationEntries
  allows_put h := @WorldPolicy.allows_of_only _ _ _ .translationEntries h (fun other hne => by
    cases other <;> first | rfl | exact absurd rfl hne) rfl

instance : Governed OutboxEvent where
  policy P := P .outboxEvents
  allows_put h := @WorldPolicy.allows_of_only _ _ _ .outboxEvents h (fun other hne => by
    cases other <;> first | rfl | exact absurd rfl hne) rfl

instance : Governed SupportedCountry where
  policy P := P .supportedCountries
  allows_put h := @WorldPolicy.allows_of_only _ _ _ .supportedCountries h (fun other hne => by
    cases other <;> first | rfl | exact absurd rfl hne) rfl

/-! ## Statements -/

section Statements

variable {P : WorldPolicy} {Row : Type} [Model Row] [Stored World Row] [Governed Row]

lemma allows_create {mk : ℕ → Row} {hpk : ∀ i, Model.pk (mk i) = i}
    (h : ∀ id, (Governed.policy P : TablePolicy Row).add (mk id)) :
    (Objects.create mk hpk : Statement Row).Guarantees P.Allows :=
  Objects.guarantees_insert fun _ _ hrows =>
    Governed.allows_put (TablePolicy.allows_insert (h _) (hpk _) hrows)

lemma allows_bulkCreate {β : Type} {mk : β → ℕ → Row} {hpk : ∀ b i, Model.pk (mk b i) = i}
    (h : ∀ b id, (Governed.policy P : TablePolicy Row).add (mk b id)) (bs : List β) :
    (Objects.bulkCreate mk hpk bs : Statement Unit).Guarantees P.Allows := by
  induction bs with
  | nil => exact Tx.guarantees_pure ()
  | cons b rest ih => exact Tx.Guarantees.bind (allows_create (h b)) fun _ => ih

lemma allows_update {p : Row → Bool} {a : Assignment Row}
    (h : ∀ r, p r = true → (Governed.policy P : TablePolicy Row).change r (a.apply r)) :
    (Objects.update p a : Statement ℕ).Guarantees P.Allows :=
  Objects.guarantees_update fun _ => Governed.allows_put
    (TablePolicy.allows_update fun r _ hr => h r hr)

lemma allows_save {key : ℕ} {a : Assignment Row}
    (h : ∀ r, Model.pk r = key → (Governed.policy P : TablePolicy Row).change r (a.apply r)) :
    (Objects.save key a : Statement Unit).Guarantees P.Allows :=
  Objects.guarantees_save fun _ => Governed.allows_put
    (TablePolicy.allows_update fun r _ hr => h r (beq_iff_eq.1 hr))

/-- The save of a row that was got is a change of that row. -/
lemma allows_getSave {p : Row → Bool} {a : Row → Assignment Row}
    (h : ∀ r, p r = true → (Governed.policy P : TablePolicy Row).change r ((a r).apply r)) :
    (do let r ← Objects.get p
        Objects.save (Model.pk r) (a r) : Statement Unit).Guarantees P.Allows := by
  intro w u w' hrun
  obtain ⟨row, w₁, hget, hsave⟩ := Tx.bind_ok hrun
  obtain ⟨rfl, hrow⟩ := Objects.get_ok hget
  rw [Objects.save_ok hsave]
  refine Governed.allows_put (TablePolicy.allows_update fun r hr hpk => ?_)
  rw [Table.eq_of_pk _ hr (Table.mem_of_get hrow) (beq_iff_eq.1 hpk)]
  exact h row (Table.holds_of_get hrow)

lemma allows_saveChecked {key : ℕ} {f : Row → Row} {hpk : ∀ r, Model.pk (f r) = Model.pk r}
    (h : ∀ r, Model.pk r = key → (Governed.policy P : TablePolicy Row).change r (f r)) :
    (Objects.saveChecked key f hpk : Statement Unit).Guarantees P.Allows :=
  Objects.guarantees_rewrite fun _ _ ht => Governed.allows_put
    (TablePolicy.allows_rewrite (fun r hr => h r (beq_iff_eq.1 hr)) ht)

lemma allows_delete {p : Row → Bool}
    (h : ∀ r, p r = true → (Governed.policy P : TablePolicy Row).remove r) :
    (Objects.delete p : Statement Unit).Guarantees P.Allows :=
  Objects.guarantees_delete fun _ => Governed.allows_put (TablePolicy.allows_delete h)

lemma allows_drawRandom : drawRandom.Guarantees P.Allows := by
  intro w n w' h
  cases h
  exact WorldPolicy.allows_of_eq rfl rfl

lemma allows_sendMail {recipient : String} {token : RawToken} (h : P.mails ⟨recipient, token⟩) :
    (sendMail recipient token).Guarantees P.Allows := by
  intro w u w' hrun
  cases hrun
  exact ⟨fun _ => .refl _ _, [⟨recipient, token⟩], rfl, List.forall_mem_singleton.2 h⟩

lemma allows_timezoneNow : timezoneNow.Guarantees P.Allows := Tx.guarantees_read _

lemma allows_ofExcept {α : Type} (r : Except ApiError α) :
    (Tx.ofExcept r : Statement α).Guarantees P.Allows := by
  cases r with
  | ok a => exact Tx.guarantees_pure a
  | error e => exact Tx.guarantees_raise _

end Statements

end BePyEco
