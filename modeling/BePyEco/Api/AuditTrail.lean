import BePyEco.Api.Ownership

/-!
# The audit trail of a run

An entry of the audit log is written after what it reports, in a statement of its own.  `Recounts`
says what a reader may conclude from one: who did it, that the actor was entitled to, and that what
is reported has been so and, where nothing can undo it, is so to this day.

`audit_trail` says that every entry that a run adds can be read like this, in any interleaving.
-/

namespace BePyEco

open Library

section Trail

variable [Libraries] {ι : Type} {work : ι → Work} {visited : Set World} {db : Database}

/-- What an entry tells, with these databases for evidence, and what is still so. -/
inductive Recounts (work : ι → Work) (visited : Set World) (db : Database)
    (e : AuditLogEntry) : Prop
  | disabled {i : ι} {request : HttpRequest} {customerId : Id} {staff : Staff}
      (hwork : work i = .http (.disableCustomer customerId) request)
      (hauthorized : AuthorizedTo request visited "accounts.disable_customer" staff)
      (hentry : e.actorType = .staff ∧ e.actorId = staff.id ∧
        e.action = "accounts.disable_customer" ∧ e.resourceId = customerId)
      (hstill : ∃ c ∈ db.customers.rows, c.id = customerId ∧ c.isActive = false) :
      Recounts work visited db e
  | created {i : ι} {request : HttpRequest} {staff created : Staff}
      (hwork : work i = .http .createStaff request)
      (hauthorized : AuthorizedTo request visited "accounts.create_staff" staff)
      (hentry : e.actorType = .staff ∧ e.actorId = staff.id ∧
        e.action = "accounts.create_staff" ∧ e.resourceId = created.id ∧
        e.after = .obj (redact [("email", .str created.email), ("role", .str created.role.value)]))
      (hstill : created ∈ db.staff.rows) : Recounts work visited db e
  | reset {i : ι} {request : HttpRequest} {staffId : Id} {staff : Staff}
      (hwork : work i = .http (.resetStaffMfa staffId) request)
      (hauthorized : AuthorizedTo request visited "accounts.reset_staff_mfa" staff)
      (hentry : e.actorType = .staff ∧ e.actorId = staff.id ∧
        e.action = "accounts.reset_staff_mfa" ∧ e.resourceId = staffId)
      (hreset : ∃ w ∈ visited, ∀ d ∈ w.db.staffTotpDevices.rows, d.staffId ≠ staffId) :
      Recounts work visited db e
  | revoked {i : ι} {request : HttpRequest} {sessionId : Id} {customer : Customer}
      (hwork : work i = .http (.sessionRevoke sessionId) request)
      (hsigned : SignedIn request visited (.customer customer))
      (hentry : e.actorType = .customer ∧ e.actorId = customer.id ∧
        e.action = "accounts.revoke_session" ∧ e.resourceId = sessionId)
      (hstill : ∃ s ∈ db.sessions.rows, s.id = sessionId ∧ s.customerId = customer.id ∧
        s.revokedAt ≠ none) : Recounts work visited db e

/-- An entry that a piece of work may add, read at a database that has kept what was found. -/
lemma recounts_of_add {i : ι} {found : Set World} {e : AuditLogEntry}
    (hadd : ((work i).policy found .auditLog).add e) (hsub : found ⊆ visited)
    (hkept : ∀ w ∈ visited, Permanent w.db db) : Recounts work visited db e := by
  cases hwork : work i with
  | http endpoint request =>
      rw [hwork] at hadd
      cases endpoint
      case disableCustomer customerId =>
        obtain ⟨⟨staff, hauthorized⟩, ⟨htype, hactor, haction⟩, hresource, w, hw, c, hc, hid,
          hinactive⟩ := hadd
        obtain ⟨c', hc', hkeeps⟩ := (hkept w (hsub hw)).customers c hc
        refine .disabled hwork (hauthorized.mono hsub) ⟨htype, hactor, haction, hresource⟩ ?_
        exact ⟨c', hc', hkeeps.1.trans hid,
          hkeeps.2 (fun c => c.isActive = false) (by simp) hinactive⟩
      case createStaff =>
        obtain ⟨⟨staff, hauthorized⟩, ⟨htype, hactor, haction⟩, w, hw, created, hcreated, hid,
          hafter⟩ := hadd
        exact .created hwork (hauthorized.mono hsub) ⟨htype, hactor, haction, hid.symm, hafter⟩
          ((hkept w (hsub hw)).staff.subset hcreated)
      case resetStaffMfa staffId =>
        obtain ⟨⟨staff, hauthorized⟩, ⟨htype, hactor, haction⟩, hresource, w, hw, hreset⟩ := hadd
        exact .reset hwork (hauthorized.mono hsub) ⟨htype, hactor, haction, hresource⟩
          ⟨w, hsub hw, hreset⟩
      case sessionRevoke sessionId =>
        obtain ⟨⟨customer, hsigned⟩, ⟨htype, hactor, haction⟩, hresource, w, hw, s, hs, hid, howner,
          hrevoked⟩ := hadd
        obtain ⟨s', hs', hkeeps⟩ := (hkept w (hsub hw)).sessions s hs
        refine .revoked hwork (hsigned.mono hsub) ⟨htype, hactor, haction, hresource⟩ ?_
        have hid' : s'.id = s.id := congrArg Prod.fst hkeeps.1
        have howner' : s'.customerId = s.customerId := congrArg (fun k => k.2.1) hkeeps.1
        exact ⟨s', hs', hid'.trans hid, howner'.trans howner,
          hkeeps.2 (fun s => s.revokedAt ≠ none) (by simp) hrevoked⟩
      all_goals first | exact hadd.elim | exact hadd.elim fun _ h => h.elim
  | internal call =>
      rw [hwork] at hadd
      cases call <;> exact hadd.elim
  | createMasterAdmin email password =>
      rw [hwork] at hadd
      exact hadd.elim
  | seedSupportedCountries uuid =>
      rw [hwork] at hadd
      exact hadd.elim

/-- In any interleaving of any work, an entry that is added to the log is by somebody entitled, was
true when it was written and, but for a reset that may be followed by a new setup, still is. -/
theorem audit_trail [DecidableEq ι] {w : World} {P : Pool ι (Service (Option Answer)) World}
    (h : ApiVisits (apiPool w work) visited P) {e : AuditLogEntry}
    (he : e ∈ P.store.db.auditLog.rows) :
    e ∈ w.db.auditLog.rows ∨ Recounts work visited P.store.db e := by
  have hrow : e ∈ (TableName.auditLog.table P.store.db).rows := he
  obtain hold | ⟨i, found, hsub, hadd⟩ := origin_of_row (by decide) (not_changed rfl) h hrow
  · exact Or.inl hold
  · exact Or.inr (recounts_of_add hadd hsub fun _ => permanent_of_visited .refl h)

end Trail

section Example

attribute [local instance] plainLibraries

/-- The entry about the first customer can be relied on. -/
lemma audit_trail_disabledCustomer : ∃ visited,
    ApiVisits (apiPool openingWorld errands) visited errandsDone ∧
      ∃ e ∈ errandsDone.store.db.auditLog.rows, e.action = "accounts.disable_customer" ∧
        Recounts errands visited errandsDone.store.db e := by
  have hentry : ∃ e ∈ errandsDone.store.db.auditLog.rows,
      e.action = "accounts.disable_customer" := by decide
  obtain ⟨e, he, haction⟩ := hentry
  have hempty : openingWorld.db.auditLog.rows = [] := by decide
  obtain ⟨visited, h⟩ := (rootEnrolled_run.trans errandsDone_run).visits
  obtain hold | hrecounts := audit_trail h he
  · rw [hempty] at hold
    cases hold
  · exact ⟨visited, h, e, he, haction, hrecounts⟩

end Example

end BePyEco
