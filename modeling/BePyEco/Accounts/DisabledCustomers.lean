import BePyEco.Accounts.Customers
import BePyEco.Accounts.Staff

/-!
# Disabled customers

`disable_customer` clears `is_active` and revokes the sessions of the customer.  `SessionsRevoked`
is the invariant that this is meant to give: every session of a disabled customer is revoked.

The services that issue no session and disable nobody move the world along `Quiet`, which keeps
the invariant; this module goes through them.
-/

namespace BePyEco

open Library

/-! ## The invariant -/

/-- There is a disabled customer with this id. -/
def IsDisabled (w : World) (customerId : Id) : Prop :=
  ∃ c ∈ w.db.customers.rows, c.id = customerId ∧ c.isActive = false

/-- Every session of a disabled customer is revoked. -/
def SessionsRevoked (w : World) : Prop :=
  ∀ s ∈ w.db.sessions.rows, IsDisabled w s.customerId → s.revokedAt ≠ none

/-- No disabled customer has an active session. -/
def NoDisabledSession (w : World) : Prop :=
  ∀ c ∈ w.db.customers.rows, c.isActive = false →
    ∀ s ∈ w.db.sessions.rows, s.customerId = c.id → s.isActive w.now = false

lemma SessionsRevoked.noDisabledSession {w : World} (h : SessionsRevoked w) :
    NoDisabledSession w := by
  intro c hc hinactive s hs hcustomer
  have hrevoked := h s hs ⟨c, hc, hcustomer.symm, hinactive⟩
  simp [Session.isActive, hrevoked]

/-- The world has no disabled customer and no unrevoked session that it did not have before. -/
structure Quiet (w w' : World) : Prop where
  disabled : ∀ customerId, IsDisabled w' customerId → IsDisabled w customerId
  unrevoked : ∀ s' ∈ w'.db.sessions.rows, s'.revokedAt = none →
    ∃ s ∈ w.db.sessions.rows, s.customerId = s'.customerId ∧ s.revokedAt = none

instance : Std.Refl Quiet where
  refl _ := ⟨fun _ h => h, fun s hs hnone => ⟨s, hs, rfl, hnone⟩⟩

instance : IsTrans World Quiet where
  trans a b c hab hbc := by
    refine ⟨fun id h => hab.disabled id (hbc.disabled id h), fun s'' hs'' hnone'' => ?_⟩
    obtain ⟨s', hs', hcustomer', hnone'⟩ := hbc.unrevoked s'' hs'' hnone''
    obtain ⟨s, hs, hcustomer, hnone⟩ := hab.unrevoked s' hs' hnone'
    exact ⟨s, hs, hcustomer.trans hcustomer', hnone⟩

lemma Quiet.sessionsRevoked {w w' : World} (h : Quiet w w') (hw : SessionsRevoked w) :
    SessionsRevoked w' := by
  intro s' hs' hdisabled hnone'
  obtain ⟨s, hs, hcustomer, hnone⟩ := h.unrevoked s' hs' hnone'
  refine hw s hs ?_ hnone
  rw [hcustomer]
  exact h.disabled _ hdisabled

/-! ## Quiet statements -/

/-- A change of other tables. -/
lemma Quiet.of_eq {w w' : World} (hcustomers : w'.db.customers = w.db.customers)
    (hsessions : w'.db.sessions = w.db.sessions) : Quiet w w' := by
  refine ⟨fun id h => ?_, fun s hs hnone => ?_⟩
  · unfold IsDisabled at h
    rw [hcustomers] at h
    exact h
  · rw [hsessions] at hs
    exact ⟨s, hs, rfl, hnone⟩

/-- A change of the customers that disables nobody. -/
lemma Quiet.of_customers {w w' : World}
    (hcustomers : ∀ c' ∈ w'.db.customers.rows, c'.isActive = false →
      ∃ c ∈ w.db.customers.rows, c.id = c'.id ∧ c.isActive = false)
    (hsessions : w'.db.sessions = w.db.sessions) : Quiet w w' := by
  refine ⟨?_, fun s hs hnone => ?_⟩
  · rintro id ⟨c', hc', hid, hinactive'⟩
    obtain ⟨c, hc, hid', hinactive⟩ := hcustomers c' hc' hinactive'
    exact ⟨c, hc, hid'.trans hid, hinactive⟩
  · rw [hsessions] at hs
    exact ⟨s, hs, rfl, hnone⟩

/-- An `UPDATE` that only revokes. -/
lemma quiet_revoke (w : World) (p : Session → Bool) (t : Time) :
    Quiet w (Stored.put (w.db.sessions.update p (Session.setRevokedAt t)) w) := by
  refine ⟨fun _ h => h, fun s' hs' hnone' => ?_⟩
  obtain ⟨s, hs, rfl⟩ := (Table.mem_update _).1 hs'
  cases hp : p s with
  | true =>
      rw [Assignment.on_pos _ hp] at hnone'
      simp [Session.setRevokedAt] at hnone'
  | false =>
      rw [Assignment.on_neg _ hp] at hnone' ⊢
      exact ⟨s, hs, rfl, hnone'⟩

lemma createCustomer_quiet {mk : ℕ → Customer} {hpk : ∀ i, Model.pk (mk i) = i}
    (h : ∀ i, (mk i).isActive = true) :
    (Objects.create mk hpk : Statement Customer).Guarantees Quiet := by
  intro w c w' hrun
  obtain ⟨t, hinsert, rfl⟩ := Objects.create_ok hrun
  refine .of_customers (fun c' hc' hinactive => ?_) rfl
  obtain hc' | rfl := (Table.mem_insert hinsert).1 hc'
  · exact ⟨c', hc', rfl, hinactive⟩
  · rw [(Table.insert_spec hinsert).1, h] at hinactive
    cases hinactive

lemma saveEmailVerifiedAt_quiet (customerId : Id) (t : Time) :
    (Objects.save customerId (Customer.setEmailVerifiedAt t) : Statement Unit).Guarantees
      Quiet := by
  refine Objects.guarantees_save fun w => .of_customers (fun c' hc' hinactive => ?_) rfl
  obtain ⟨c, hc, rfl⟩ := (Table.mem_update _).1 hc'
  refine ⟨c, hc, (Assignment.pk_on _ _ c).symm, ?_⟩
  unfold Assignment.on at hinactive
  split at hinactive
  · exact hinactive
  · exact hinactive

lemma saveEmail_quiet (customerId : Id) (email : String) (t : Time) :
    (Objects.saveChecked customerId (setEmail email t) fun _ => rfl : Statement Unit).Guarantees
      Quiet := by
  intro w u w' hrun
  obtain ⟨table, hrewrite, rfl⟩ := Objects.saveChecked_ok hrun
  refine .of_customers (fun c' hc' hinactive => ?_) rfl
  obtain ⟨c, hc, rfl⟩ := (Table.mem_rewrite hrewrite).1 hc'
  refine ⟨c, hc, ?_, ?_⟩
  · split <;> rfl
  · split at hinactive
    · exact hinactive
    · exact hinactive

/-- A table that is neither that of customers nor that of sessions. -/
class OtherTable (Row : Type) [Model Row] [Stored World Row] : Prop where
  quiet : ∀ (w : World) (t : Table Row), Quiet w (Stored.put t w)

instance : OtherTable LoginMethod := ⟨fun _ _ => .of_eq rfl rfl⟩
instance : OtherTable VerificationToken := ⟨fun _ _ => .of_eq rfl rfl⟩
instance : OtherTable AuditLogEntry := ⟨fun _ _ => .of_eq rfl rfl⟩

section Other

variable {Row : Type} [Model Row] [Stored World Row] [OtherTable Row]

lemma create_quiet {mk : ℕ → Row} {hpk : ∀ i, Model.pk (mk i) = i} :
    (Objects.create mk hpk : Statement Row).Guarantees Quiet :=
  Objects.guarantees_create OtherTable.quiet

end Other

/-! ## Quiet services -/

lemma drawRandom_quiet : drawRandom.Guarantees Quiet := by
  intro w n w' h
  cases h
  exact .of_eq rfl rfl

lemma sendMail_quiet (recipient : String) (token : RawToken) :
    (sendMail recipient token).Guarantees Quiet :=
  Tx.guarantees_modify fun _ => .of_eq rfl rfl

lemma verifyEmailNow_quiet (customer : Customer) : (verifyEmailNow customer).Guarantees Quiet := by
  refine Tx.Guarantees.bind (Tx.guarantees_read _) fun _ => ?_
  exact Tx.Guarantees.bind (saveEmailVerifiedAt_quiet _ _) fun _ => Tx.guarantees_pure _

lemma verifyEmail_quiet (rawToken : RawToken) : (verifyEmail rawToken).Guarantees Quiet :=
  consumeToken_guarantees OtherTable.quiet fun _ customer => verifyEmailNow_quiet customer

lemma confirmPasswordReset_quiet (rawToken : RawToken) (newPassword : String) :
    (confirmPasswordReset rawToken newPassword).Guarantees Quiet :=
  consumeToken_guarantees OtherTable.quiet fun _ _ =>
    Tx.Guarantees.bind (setPassword_guarantees OtherTable.quiet) fun _ => Tx.guarantees_pure _

lemma confirmEmailChange_quiet (rawToken : RawToken) :
    (confirmEmailChange rawToken).Guarantees Quiet := by
  refine consumeToken_guarantees OtherTable.quiet fun token customer => ?_
  refine Tx.Guarantees.bind (Tx.guarantees_read _) fun _ => ?_
  refine Tx.Guarantees.bind ?_ fun _ => Tx.guarantees_pure _
  exact (saveEmail_quiet _ _ _).handling _ (Tx.guarantees_raise _)

lemma revokeUnrevoked_quiet (customerId : Id) : (revokeUnrevoked customerId).Guarantees Quiet :=
  Tx.Guarantees.bind (Tx.guarantees_read _) fun _ =>
    Objects.guarantees_update fun w => quiet_revoke w _ _

section Text

variable [PyText]

lemma registerCustomer_quiet (email password : String) :
    (registerCustomer email password).Guarantees Quiet :=
  registerCustomer_guarantees (fun _ => createCustomer_quiet fun _ => rfl) OtherTable.quiet
    OtherTable.quiet drawRandom_quiet sendMail_quiet

lemma requestPasswordReset_quiet (email : String) :
    (requestPasswordReset email).Guarantees Quiet :=
  requestPasswordReset_guarantees OtherTable.quiet drawRandom_quiet sendMail_quiet

lemma requestEmailChange_quiet (customer : Customer) (newEmail : String) :
    (requestEmailChange customer newEmail).Guarantees Quiet :=
  requestEmailChange_guarantees OtherTable.quiet drawRandom_quiet sendMail_quiet

lemma revokeSession_quiet (customer : Customer) (sessionId : Id)
    (request : Option RequestContext) :
    (revokeSession customer sessionId request).Guarantees Quiet := by
  refine revokeSession_guarantees (fun w t => OtherTable.quiet w t) ?_
  exact Tx.Guarantees.bind (Tx.guarantees_read _) fun _ =>
    Objects.guarantees_update fun w => quiet_revoke w _ _

end Text

end BePyEco
