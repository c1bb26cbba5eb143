import BePyEco.Api.WorkWrites

/-!
# Nothing is deleted

`appPolicy` is what the application as a whole may write.  It removes idempotency records, TOTP
devices and the attribute values of variants, and no other row; of the rows that it changes it
leaves the identifying columns, and it never takes back a revocation, a consumption, an archiving,
a verified address or the end of an account.

`permanent` says so of the database between any two points of a run, whatever the interleaving.
-/

namespace BePyEco

open Library

/-- What any work may write, whatever it has found, or the surroundings. -/
def sourcePolicy [Libraries] : Option (Work × Set World) → WorldPolicy
  | none => surroundingsPolicy
  | some (work, found) => work.policy found

def appPolicy [Libraries] : WorldPolicy := .union sourcePolicy

section Runs

variable [Libraries] {ι : Type} [DecidableEq ι] {w : World} {work : ι → Work}
  {Q Q' : Pool ι (Service (Option Answer)) World}

omit [DecidableEq ι] in
lemma earnedPolicy_le (visited : Set World) : (earnedPolicy work visited).Le appPolicy := by
  refine WorldPolicy.union_le fun source => ?_
  cases source with
  | none => exact WorldPolicy.le_union sourcePolicy none
  | some s => exact WorldPolicy.le_union sourcePolicy (some (work s.1, s.2))

/-- Any run keeps to the policy of the application. -/
lemma app_policy (h : ApiRun (apiPool w work) Q) (h' : ApiRun Q Q') :
    appPolicy.Allows Q.store Q'.store := by
  obtain ⟨visited, hvisits⟩ := h.visits
  obtain ⟨visited', hvisits'⟩ := h'.visits
  exact (run_allows hvisits hvisits').mono (earnedPolicy_le _)

end Runs

/-! ## Which tables lose or change rows -/

/-- The tables that lose rows. -/
def TableName.losesRows : TableName → Bool
  | idempotencyRecords => true
  | staffTotpDevices => true
  | variantAttributeValues => true
  | _ => false

/-- Only expired records, TOTP devices and attribute values are removed. -/
lemma not_removed [Libraries] {source : Option (Work × Set World)} {name : TableName}
    {r : name.Row} (hname : name.losesRows = false) : ¬ (sourcePolicy source name).remove r := by
  intro h
  cases source with
  | none => cases name <;> exact h.elim
  | some s =>
      obtain ⟨work, found⟩ := s
      cases work with
      | http endpoint request =>
          cases endpoint <;> cases name <;> first
            | exact h.elim
            | exact h.elim fun _ h => h.elim
            | cases hname
      | internal call => cases call <;> cases name <;> first | exact h.elim | cases hname
      | _ => cases name <;> exact h.elim

/-- The tables whose rows never change. -/
def TableName.isConstant : TableName → Bool
  | auditLog => true
  | outboxEvents => true
  | staff => true
  | brands => true
  | productCategories => true
  | supportedCountries => true
  | _ => false

lemma not_changed [Libraries] {source : Option (Work × Set World)} {name : TableName}
    {r r' : name.Row} (hname : name.isConstant = true) :
    ¬ (sourcePolicy source name).change r r' := by
  intro h
  cases source with
  | none => cases name <;> first | exact h.elim | cases hname
  | some s =>
      obtain ⟨work, found⟩ := s
      cases work with
      | http endpoint request =>
          cases endpoint <;> cases name <;> first
            | exact h.elim
            | exact h.elim fun _ h => h.elim
            | cases hname
      | internal call => cases call <;> cases name <;> first | exact h.elim | cases hname
      | _ => cases name <;> exact h.elim

/-! ## What the changes leave -/

/-- A customer keeps the key; a verified address stays verified, a disabled account disabled. -/
abbrev CustomerKept : Customer → Customer → Prop :=
  TablePolicy.Settles Customer.id [fun c => c.isEmailVerified = true, fun c => c.isActive = false]

/-- A login method belongs to its customer and its provider's subject for good. -/
abbrev LoginMethodKept : LoginMethod → LoginMethod → Prop :=
  TablePolicy.Settles (fun m => (m.id, m.customerId, m.provider, m.providerSubjectId)) []

/-- A session is never extended, handed over or revived. -/
abbrev SessionKept : Session → Session → Prop :=
  TablePolicy.Settles (fun s => (s.id, s.customerId, s.refreshTokenHash, s.expiresAt))
    [fun s => s.revokedAt ≠ none]

/-- A verification token is never extended, handed over or used anew. -/
abbrev VerificationTokenKept : VerificationToken → VerificationToken → Prop :=
  TablePolicy.Settles
    (fun t => (t.id, t.customerId, t.purpose, t.tokenHash, t.newEmail, t.expiresAt))
    [fun t => t.consumedAt ≠ none]

/-- A product that is no draft never becomes one. -/
abbrev ProductKept : Product → Product → Prop :=
  TablePolicy.Settles (fun p => (p.id, p.createdAt, p.brandId, p.primaryCategoryId))
    [fun p => p.status ≠ .draft]

/-- A variant keeps its SKU, barcode, price and weight, and stays archived. -/
abbrev VariantKept : Variant → Variant → Prop :=
  TablePolicy.Settles
    (fun v => (v.id, v.createdAt, v.productId, v.sku, v.barcode, v.basePriceVnd, v.weightGrams))
    [fun v => v.isArchived = true]

/-- An upload keeps its key and its declaration; a judged one stays judged, an attached one
attached. -/
abbrev MediaUploadKept : MediaUpload → MediaUpload → Prop :=
  TablePolicy.Settles
    (fun m => (m.id, m.storageKey, m.declaredContentType, m.declaredSizeBytes))
    [fun m => m.status ≠ .pending, fun m => m.productId ≠ none]

/-- A translation stays where it was made. -/
abbrev TranslationEntryKept : TranslationEntry → TranslationEntry → Prop :=
  TablePolicy.Settles (fun e => (e.id, e.slot)) []

section Changes

variable [Libraries] {source : Option (Work × Set World)}

lemma customer_change {c c' : Customer}
    (h : (sourcePolicy source .customers).change c c') :
    CustomerKept c c' := by
  have hchange : c.Verifies c' ∨ (∃ email, c.Readdresses email c') ∨
      (∃ locale currency, c.Prefers locale currency c') ∨ c.Disables c' := by
    cases source with
    | none => exact h.elim
    | some s =>
        obtain ⟨work, found⟩ := s
        cases work with
        | http endpoint request =>
            cases endpoint
            case verifyEmail => exact h.elim fun _ h => Or.inl h.2
            case googleLogin => exact h.elim fun _ h => Or.inl h.2.2
            case confirmEmailChange => exact h.elim fun _ h => Or.inr (Or.inl ⟨_, h.2⟩)
            case updateLocalePreference =>
              obtain ⟨_, -, locale, currency, -, -, h⟩ := h
              exact Or.inr (Or.inr (Or.inl ⟨locale, currency, h⟩))
            case disableCustomer => exact h.elim fun _ h => Or.inr (Or.inr (Or.inr h.2))
            all_goals first | exact h.elim | exact h.elim fun _ h => h.elim
        | internal call => cases call <;> exact h.elim
        | _ => exact h.elim
  obtain ⟨t, rfl⟩ | ⟨email, t, rfl⟩ | ⟨locale, currency, rfl⟩ | rfl := hchange
  · exact ⟨rfl, by simp [Customer.isEmailVerified]⟩
  · exact ⟨rfl, by simp [Customer.isEmailVerified, setEmail]⟩
  · exact ⟨rfl, by simp [Customer.isEmailVerified, setPreference]⟩
  · exact ⟨rfl, by simp [Customer.isEmailVerified]⟩

lemma loginMethod_change {m m' : LoginMethod}
    (h : (sourcePolicy source .loginMethods).change m m') :
    LoginMethodKept m m' := by
  have hchange : ∃ password, m.Rehashes password m' := by
    cases source with
    | none => exact h.elim
    | some s =>
        obtain ⟨work, found⟩ := s
        cases work with
        | http endpoint request =>
            cases endpoint
            case confirmPasswordReset =>
              obtain ⟨_, -, -, password, -, h⟩ := h
              exact ⟨password, h⟩
            all_goals first | exact h.elim | exact h.elim fun _ h => h.elim
        | internal call => cases call <;> exact h.elim
        | _ => exact h.elim
  obtain ⟨password, rfl⟩ := hchange
  exact ⟨rfl, by simp⟩

lemma session_change {s s' : Session}
    (h : (sourcePolicy source .sessions).change s s') :
    SessionKept s s' := by
  have hchange : s.Revokes s' := by
    cases source with
    | none => exact h.elim
    | some s =>
        obtain ⟨work, found⟩ := s
        cases work with
        | http endpoint request =>
            cases endpoint
            case refreshToken => exact h.elim fun _ h => h.2
            case sessionRevoke => exact h.elim fun _ h => h.2.2
            case sessionRevokeAll => exact h.elim fun _ h => h.2
            case disableCustomer => exact h.elim fun _ h => h.2
            all_goals first | exact h.elim | exact h.elim fun _ h => h.elim
        | internal call => cases call <;> exact h.elim
        | _ => exact h.elim
  obtain ⟨t, rfl⟩ := hchange
  exact ⟨rfl, by simp⟩

lemma verificationToken_change {t t' : VerificationToken}
    (h : (sourcePolicy source .verificationTokens).change t t') :
    VerificationTokenKept t t' := by
  have hchange : t.Consumes t' := by
    cases source with
    | none => exact h.elim
    | some s =>
        obtain ⟨work, found⟩ := s
        cases work with
        | http endpoint request =>
            cases endpoint
            case verifyEmail => exact h.elim fun _ h => h.2
            case confirmPasswordReset => exact h.elim fun _ h => h.2
            case confirmEmailChange => exact h.elim fun _ h => h.2
            all_goals first | exact h.elim | exact h.elim fun _ h => h.elim
        | internal call => cases call <;> exact h.elim
        | _ => exact h.elim
  obtain ⟨now, rfl⟩ := hchange
  exact ⟨rfl, by simp⟩

lemma product_change {p p' : Product}
    (h : (sourcePolicy source .products).change p p') :
    ProductKept p p' := by
  have hchange : p.Changes .active p' ∨ p.Changes .archived p' := by
    cases source with
    | none => exact h.elim
    | some s =>
        obtain ⟨work, found⟩ := s
        cases work with
        | http endpoint request =>
            cases endpoint
            case productPublish => exact h.elim fun _ h => Or.inl h.2
            all_goals first | exact h.elim | exact h.elim fun _ h => h.elim
        | internal call =>
            cases call
            case publishProduct => exact Or.inl h.2
            case archiveProduct => exact Or.inr h.2
            all_goals exact h.elim
        | _ => exact h.elim
  obtain rfl | rfl := hchange
  · exact ⟨rfl, by simp⟩
  · exact ⟨rfl, by simp⟩

lemma variant_change {v v' : Variant}
    (h : (sourcePolicy source .variants).change v v') :
    VariantKept v v' := by
  have hchange : v.Archives v' ∨ v.Rekeys v' := by
    cases source with
    | none => exact h.elim
    | some s =>
        obtain ⟨work, found⟩ := s
        cases work with
        | http endpoint request =>
            cases endpoint <;> first | exact h.elim | exact h.elim fun _ h => h.elim
        | internal call =>
            cases call
            case archiveVariant => exact Or.inl h.2
            case setVariantAttributes => exact Or.inr h.2
            all_goals exact h.elim
        | _ => exact h.elim
  obtain rfl | ⟨key, rfl⟩ := hchange
  · exact ⟨rfl, by simp⟩
  · exact ⟨rfl, by simp⟩

lemma mediaUpload_change {m m' : MediaUpload}
    (h : (sourcePolicy source .mediaUploads).change m m') :
    MediaUploadKept m m' := by
  have hchange : m.Judges m' ∨ m.Attaches m' := by
    cases source with
    | none => exact h.elim
    | some s =>
        obtain ⟨work, found⟩ := s
        cases work with
        | http endpoint request =>
            cases endpoint <;> first | exact h.elim | exact h.elim fun _ h => h.elim
        | internal call =>
            cases call
            case validateUpload => exact Or.inl h.2
            case attachMediaToProduct => exact Or.inr h.2
            all_goals exact h.elim
        | _ => exact h.elim
  obtain (⟨reason, rfl⟩ | ⟨webpKey, avifKey, thumbnailKey, rfl⟩) | ⟨productId, rfl⟩ := hchange
  · exact ⟨rfl, by simp [MediaUpload.reject]⟩
  · exact ⟨rfl, by simp [MediaUpload.makeReady]⟩
  · exact ⟨rfl, by simp⟩

lemma translationEntry_change {e e' : TranslationEntry}
    (h : (sourcePolicy source .translationEntries).change e e') :
    TranslationEntryKept e e' := by
  have hchange : (∃ value isAiGenerated,
      e' = (TranslationEntry.setValue value isAiGenerated).apply e) ∨ e.Approves e' := by
    cases source with
    | none => exact h.elim
    | some s =>
        obtain ⟨work, found⟩ := s
        cases work with
        | http endpoint request =>
            cases endpoint <;> first | exact h.elim | exact h.elim fun _ h => h.elim
        | internal call =>
            cases call
            case setTranslation => exact Or.inl ⟨_, _, h.2⟩
            case approveTranslation => exact Or.inr h.2
            all_goals exact h.elim
        | _ => exact h.elim
  obtain ⟨value, isAiGenerated, rfl⟩ | rfl := hchange
  · exact ⟨rfl, by simp⟩
  · exact ⟨rfl, by simp⟩

end Changes

/-! ## The theorem -/

/-- Every row of a table is there in a later one, up to `K`. -/
def KeptAs {Row : Type} (K : Row → Row → Prop) (rows rows' : List Row) : Prop :=
  ∀ r ∈ rows, ∃ r' ∈ rows', K r r'

/-- What holds of a database and any later one. -/
structure Permanent (db db' : Database) : Prop where
  auditLog : db.auditLog.rows <+: db'.auditLog.rows
  outboxEvents : db.outboxEvents.rows <+: db'.outboxEvents.rows
  staff : db.staff.rows <+: db'.staff.rows
  brands : db.brands.rows <+: db'.brands.rows
  productCategories : db.productCategories.rows <+: db'.productCategories.rows
  supportedCountries : db.supportedCountries.rows <+: db'.supportedCountries.rows
  customers : KeptAs CustomerKept db.customers.rows db'.customers.rows
  loginMethods : KeptAs LoginMethodKept db.loginMethods.rows db'.loginMethods.rows
  sessions : KeptAs SessionKept db.sessions.rows db'.sessions.rows
  verificationTokens :
    KeptAs VerificationTokenKept db.verificationTokens.rows db'.verificationTokens.rows
  products : KeptAs ProductKept db.products.rows db'.products.rows
  variants : KeptAs VariantKept db.variants.rows db'.variants.rows
  mediaUploads : KeptAs MediaUploadKept db.mediaUploads.rows db'.mediaUploads.rows
  translationEntries :
    KeptAs TranslationEntryKept db.translationEntries.rows db'.translationEntries.rows

section Tables

variable [Libraries] {name : TableName} {t t' : Table name.Row}

/-- A table whose rows never change is only added to. -/
lemma prefix_of_appPolicy (hname : name.isConstant = true) (h : (appPolicy name).Allows t t') :
    t.rows <+: t'.rows := by
  refine TablePolicy.prefix_of_allows ⟨?_, ?_⟩ h
  · rintro r r' ⟨source, hchange⟩
    exact not_changed hname hchange
  · rintro r ⟨source, hremove⟩
    refine not_removed ?_ hremove
    cases name <;> first | rfl | cases hname

/-- The rows of a table that loses none are kept, as its changes keep them. -/
lemma keptAs_of_appPolicy {K : name.Row → name.Row → Prop} [Std.Refl K] [IsTrans name.Row K]
    (hname : name.losesRows = false)
    (hchange : ∀ {source : Option (Work × Set World)} {r r'},
      (sourcePolicy source name).change r r' → K r r')
    (h : (appPolicy name).Allows t t') : KeptAs K t.rows t'.rows := by
  have hkeeps : ∀ r, ¬ (appPolicy name).remove r := by
    rintro r ⟨source, hremove⟩
    exact not_removed hname hremove
  have hmoves : ∀ r r', (appPolicy name).change r r' → K r r' := by
    rintro r r' ⟨source, hmove⟩
    exact hchange hmove
  intro r hr
  obtain ⟨r', hr', -, hK⟩ := TablePolicy.kept_of_allows hkeeps hmoves h hr
  exact ⟨r', hr', hK⟩

end Tables

/-- Whatever the application writes, it keeps what is permanent. -/
lemma permanent_of_allows [Libraries] {w w' : World} (h : appPolicy.Allows w w') :
    Permanent w.db w'.db :=
  {
    auditLog := prefix_of_appPolicy rfl (h.tables .auditLog)
    outboxEvents := prefix_of_appPolicy rfl (h.tables .outboxEvents)
    staff := prefix_of_appPolicy rfl (h.tables .staff)
    brands := prefix_of_appPolicy rfl (h.tables .brands)
    productCategories := prefix_of_appPolicy rfl (h.tables .productCategories)
    supportedCountries := prefix_of_appPolicy rfl (h.tables .supportedCountries)
    customers := keptAs_of_appPolicy rfl customer_change (h.tables .customers)
    loginMethods := keptAs_of_appPolicy rfl loginMethod_change (h.tables .loginMethods)
    sessions := keptAs_of_appPolicy rfl session_change (h.tables .sessions)
    verificationTokens := keptAs_of_appPolicy rfl verificationToken_change
      (h.tables .verificationTokens)
    products := keptAs_of_appPolicy rfl product_change (h.tables .products)
    variants := keptAs_of_appPolicy rfl variant_change (h.tables .variants)
    mediaUploads := keptAs_of_appPolicy rfl mediaUpload_change (h.tables .mediaUploads)
    translationEntries := keptAs_of_appPolicy rfl translationEntry_change
      (h.tables .translationEntries) }

section Visited

variable [Libraries] {ι : Type} [DecidableEq ι] {w w' : World} {work : ι → Work}
  {Q Q' : Pool ι (Service (Option Answer)) World} {visited : Set World}

/-- What a run starts from is kept in all that it visits. -/
lemma permanent_to_visited (h : ApiRun (apiPool w work) Q) (h' : ApiVisits Q visited Q')
    (hw' : w' ∈ visited) : Permanent Q.store.db w'.db := by
  obtain ⟨P, hrun, -, rfl⟩ := h'.exists_run hw'
  exact permanent_of_allows (app_policy h hrun)

/-- What a run has visited is kept at its end. -/
lemma permanent_of_visited (h : ApiRun (apiPool w work) Q) (h' : ApiVisits Q visited Q')
    (hw' : w' ∈ visited) : Permanent w'.db Q'.store.db := by
  obtain ⟨P, hrun, hrest, rfl⟩ := h'.exists_run hw'
  exact permanent_of_allows (app_policy (h.trans hrun) hrest)

end Visited

section Example

attribute [local instance] plainLibraries

end Example

end BePyEco
