import BePyEco.Accounts.Staff

/-!
# Audited actions under faults

`create_staff`, `disable_customer`, `reset_staff_mfa` and `revoke_session` each end with the insert
of their audit entry, and nothing encloses the statements before it.  A call is run with a fault
that makes its `n`-th statement fail from outside; a call of at most `n` statements is not
disturbed, so `n` ranges over "no fault" as well.

`AuditedCall.FailsAfterWrite` says, from the arguments, the state before the call and `n` alone,
that a statement fails after one that changed a row.  The call is all-or-nothing exactly when it
does not (`allOrNothing_iff`).
-/

namespace BePyEco

open Library

/-! ## The outcome of a call -/

/-- What an all-or-nothing call from `w₀` ends in: the database of `w₀` when it raised, and one
more audit entry for the action when it returned. -/
def Audited (action : String) (w₀ : World) {α : Type} :
    Except (Raised ApiError) α × World → Prop
  | (.ok _, w) => ∃ entry : AuditLogEntry, entry.action = action ∧
      w.db.auditLog.rows = w₀.db.auditLog.rows ++ [entry]
  | (.error _, w) => w.db = w₀.db

section Outcome

variable {α β : Type} {action : String} {w₀ w w' : World}

lemma audited_map {f : α → β} {r : Except (Raised ApiError) α} :
    Audited action w₀ (r.map f, w) ↔ Audited action w₀ (r, w) := by
  cases r <;> rfl

/-- A statement that raises: the fault makes no difference. -/
lemma audited_raise_iff {x : Statement α} {k : α → Service β} {n : ℕ} {e : Raised ApiError}
    (hx : x.run w = .error e) :
    Audited action w₀ ((Program.exec x >>= k).runFault n w) ↔ w.db = w₀.db := by
  cases n with
  | zero => exact Iff.rfl
  | succ n =>
      rw [Program.runFault_exec_bind_succ, Tx.exec_error hx]
      exact Iff.rfl

/-- A statement that works, unless the fault hits it. -/
lemma audited_exec_iff {x : Statement α} {k : α → Service β} {n : ℕ} {a : α}
    (hx : x.run w = .ok (a, w')) :
    Audited action w₀ ((Program.exec x >>= k).runFault n w) ↔
      (n = 0 → w.db = w₀.db) ∧
        ∀ m, n = m + 1 → Audited action w₀ ((k a).runFault m w') := by
  cases n with
  | zero =>
      rw [Program.runFault_exec_bind_zero]
      constructor
      · intro h
        exact ⟨fun _ => h, fun m hm => absurd hm (by omega)⟩
      · intro h
        exact h.1 rfl
  | succ n =>
      rw [Program.runFault_exec_bind_succ, Tx.exec_ok hx]
      constructor
      · intro h
        refine ⟨fun hn => absurd hn (by omega), fun m hm => ?_⟩
        have hmn : m = n := by omega
        rw [hmn]
        exact h
      · intro h
        exact h.2 n rfl

/-- A working statement of a call that has not changed anything. -/
lemma audited_exec_iff_of_unchanged {x : Statement α} {k : α → Service β} {n : ℕ} {a : α}
    (hx : x.run w = .ok (a, w')) (hw : w.db = w₀.db) :
    Audited action w₀ ((Program.exec x >>= k).runFault n w) ↔
      ∀ m, n = m + 1 → Audited action w₀ ((k a).runFault m w') := by
  rw [audited_exec_iff hx]
  exact and_iff_right fun _ => hw

end Outcome

/-! ## The audit entry -/

section Audit

variable [PyText] {α : Type} {w₀ w : World} {actorType : ActorType} {actorId : Id}
  {action resourceType : String} {resourceId : Id} {before after : List (String × Json)}
  {reason : String} {ipAddress : Option String} {requestId : Option Id}

/-- The audit entry as the last statement of a call: it works, or nothing before it has changed
anything. -/
lemma audited_writeAuditLog_iff {n : ℕ} {a : α} (haction : action.length ≤ 100)
    (hresource : resourceType.length ≤ 100) (hlog : w.db.auditLog = w₀.db.auditLog) :
    Audited action w₀ ((Program.exec (writeAuditLog actorType actorId action resourceType
        resourceId before after reason ipAddress requestId) >>= fun _ =>
        (.done (.ok a) : Service α)).runFault n w) ↔
      (n = 0 ∨ 255 < reason.length → w.db = w₀.db) := by
  by_cases hreason : 255 < reason.length
  · rw [audited_raise_iff (writeAuditLog_run_of_long hreason)]
    simp only [hreason, or_true, forall_const]
  · obtain ⟨entry, w', hrun, hentry, -, -, hrows⟩ :=
      @writeAuditLog_run _ w _ _ _ _ _ _ _ _ _ _ haction hresource (Nat.le_of_not_lt hreason)
    have hdone : ∀ m, Audited action w₀ ((.done (.ok a) : Service α).runFault m w') := by
      intro m
      rw [Program.runFault_done]
      exact ⟨entry, hentry, by rw [hrows, hlog]⟩
    rw [audited_exec_iff hrun]
    simp only [hdone, implies_true, and_true, hreason, or_false]

end Audit

/-! ## The guards -/

/-- How many statements the look at `has_confirmed_mfa` takes. -/
def mfaLookups (staff : StaffInstance) : ℕ := if staff.totpDevice.isNone then 1 else 0

section Guards

variable {α : Type} {action : String} {w₀ w : World}

/-- The look at `has_confirmed_mfa` changes nothing, and tells whether there is a confirmed
device. -/
lemma audited_hasConfirmedMfa_iff (staff : StaffInstance) (hw : w.db = w₀.db) :
    ∃ confirmed staff', (confirmed = true ↔ ConfirmedMfa w staff) ∧ staff'.staff = staff.staff ∧
      ∀ (k : Bool × StaffInstance → Service α) n,
        Audited action w₀ ((hasConfirmedMfa staff >>= k).runFault n w) ↔
          ∀ m, n = mfaLookups staff + m →
            Audited action w₀ ((k (confirmed, staff')).runFault m w) := by
  unfold ConfirmedMfa mfaLookups
  cases hcache : staff.totpDevice with
  | some device =>
      refine ⟨device.any StaffTOTPDevice.isConfirmed, { staff with totpDevice := some device },
        Iff.rfl, rfl, fun k n => ?_⟩
      have hload : hasConfirmedMfa staff = .done (.ok (device.any StaffTOTPDevice.isConfirmed,
          { staff with totpDevice := some device })) := by
        unfold hasConfirmedMfa loadTotpDevice
        rw [hcache]
        rfl
      rw [hload, Program.done_ok_bind]
      constructor
      · intro h m hm
        have hnm : n = m := by simpa using hm
        rw [← hnm]
        exact h
      · intro h
        exact h n (by simp)
  | none =>
      obtain ⟨device, hrun, hconfirmed⟩ := findTotpDevice_run staff.staff.id w
      refine ⟨device.any StaffTOTPDevice.isConfirmed, { staff with totpDevice := some device },
        hconfirmed, rfl, fun k n => ?_⟩
      have hload : hasConfirmedMfa staff >>= k = Program.exec (findTotpDevice staff.staff.id) >>=
          fun device => k (device.any StaffTOTPDevice.isConfirmed,
            { staff with totpDevice := some device }) := by
        unfold hasConfirmedMfa loadTotpDevice
        rw [hcache, Program.bind_assoc]
        rfl
      rw [hload, audited_exec_iff_of_unchanged hrun hw]
      constructor
      · intro h m hm
        exact h m (by simpa [Nat.add_comm] using hm)
      · intro h m hm
        exact h m (by simpa [Nat.add_comm] using hm)

lemma audited_require_iff {c : Bool} {e : ApiError} {k : Unit → Service α} {n : ℕ}
    (hw : w.db = w₀.db) :
    Audited action w₀ ((Program.require c e >>= k).runFault n w) ↔
      (c = true → Audited action w₀ ((k ()).runFault n w)) := by
  by_cases hc : c = true
  · rw [hc, Program.require_true, Program.done_ok_bind]
    exact ⟨fun h _ => h, fun h => h rfl⟩
  · rw [Bool.not_eq_true] at hc
    rw [hc, Program.require_false, Program.done_error_bind, Program.runFault_done]
    exact ⟨fun _ h => absurd h (by decide), fun _ => hw⟩

lemma audited_requireConfirmedMfa_iff (staff : StaffInstance) (hw : w.db = w₀.db) :
    ∃ staff', staff'.staff = staff.staff ∧ ∀ (k : StaffInstance → Service α) n,
      Audited action w₀ ((requireConfirmedMfa staff >>= k).runFault n w) ↔
        (ConfirmedMfa w staff → ∀ m, n = mfaLookups staff + m →
          Audited action w₀ ((k staff').runFault m w)) := by
  obtain ⟨confirmed, staff', hconfirmed, hstaff, hiff⟩ :=
    @audited_hasConfirmedMfa_iff α action w₀ w staff hw
  refine ⟨staff', hstaff, fun k n => ?_⟩
  have hbind : requireConfirmedMfa staff >>= k = hasConfirmedMfa staff >>= fun r =>
      Program.require r.1 .mfaNotConfigured >>= fun _ => k r.2 := by
    unfold requireConfirmedMfa
    rw [Program.bind_assoc]
    congr 1
    funext r
    rw [Program.bind_assoc]
    rfl
  rw [hbind, hiff, ← hconfirmed]
  simp only [audited_require_iff hw]
  constructor
  · intro h hc m hm
    exact h m hm hc
  · intro h m hm hc
    exact h hc m hm

end Guards

/-! ## Creating staff -/

section Actions

variable [PyText]

/-- Where a call of `create_staff` fails after it has inserted the staff member: at the audit
entry. -/
def CreateStaffFailsAfterWrite (actor : StaffInstance) (email : String) (w : World) (n : ℕ) :
    Prop :=
  checkPolicy actor.staff.role "accounts.create_staff" = true ∧ ConfirmedMfa w actor ∧
    StaffInsertable w email ∧ n = mfaLookups actor + 1

lemma createStaff_audited_iff (actor : StaffInstance) (email password : String) (role : Role)
    (request : Option RequestContext) (w : World) (n : ℕ) :
    Audited "accounts.create_staff" w
        ((createStaff actor email password role request).runFault n w) ↔
      ¬ CreateStaffFailsAfterWrite actor email w n := by
  unfold createStaff CreateStaffFailsAfterWrite
  rw [audited_require_iff rfl]
  obtain ⟨actor', -, hiff⟩ :=
    @audited_requireConfirmedMfa_iff Staff "accounts.create_staff" w w actor rfl
  rw [hiff]
  constructor
  · rintro h ⟨hpolicy, hmfa, hinsert, hn⟩
    obtain ⟨staff, w', hrun, hchanged, hlog⟩ := @insertStaff_run _ w email password role hinsert
    have htail := h hpolicy hmfa 1 hn
    simp only [Program.liftM_eq] at htail
    rw [audited_exec_iff_of_unchanged hrun rfl] at htail
    have hentry := htail 0 rfl
    rw [Program.pure_eq, audited_writeAuditLog_iff (by decide) (by decide) hlog] at hentry
    exact hchanged (hentry (Or.inl rfl))
  · intro h hpolicy hmfa m hn
    simp only [Program.liftM_eq]
    by_cases hinsert : StaffInsertable w email
    · obtain ⟨staff, w', hrun, -, hlog⟩ := @insertStaff_run _ w email password role hinsert
      rw [audited_exec_iff_of_unchanged hrun rfl]
      intro m' hm'
      rw [Program.pure_eq, audited_writeAuditLog_iff (by decide) (by decide) hlog]
      rintro (hzero | hlong)
      · exact absurd ⟨hpolicy, hmfa, hinsert, by omega⟩ h
      · exact absurd hlong (by decide)
    · obtain ⟨e, hrun⟩ := @insertStaff_run_of_not _ w email password role hinsert
      rw [audited_raise_iff hrun]

/-! ## Disabling a customer -/

/-- Where a call of `disable_customer` fails after it has changed a row: at the `UPDATE` of the
sessions, or at the audit entry, for which the reason may also be too long. -/
def DisableCustomerFailsAfterWrite (actor : StaffInstance) (customerId : Id) (reason : String)
    (w : World) (n : ℕ) : Prop :=
  checkPolicy actor.staff.role "accounts.disable_customer" = true ∧ ConfirmedMfa w actor ∧
    PyText.strip reason ≠ "" ∧ ∃ c ∈ w.db.customers.rows, c.id = customerId ∧
      ((n = mfaLookups actor + 2 ∧ c.isActive = true) ∨
        ((n = mfaLookups actor + 3 ∨
            mfaLookups actor + 3 < n ∧ 255 < (PyText.strip reason).length) ∧
          (c.isActive = true ∨ ∃ s ∈ w.db.sessions.rows, unrevokedOf customerId s = true)))

lemma disableCustomer_audited_iff (actor : StaffInstance) (customerId : Id) (reason : String)
    (request : Option RequestContext) (w : World) (n : ℕ) :
    Audited "accounts.disable_customer" w
        ((disableCustomer actor customerId reason request).runFault n w) ↔
      ¬ DisableCustomerFailsAfterWrite actor customerId reason w n := by
  unfold disableCustomer DisableCustomerFailsAfterWrite
  rw [audited_require_iff rfl]
  obtain ⟨confirmed, actor', hconfirmed, -, hiff⟩ :=
    @audited_hasConfirmedMfa_iff Customer "accounts.disable_customer" w w actor rfl
  rw [hiff, ← hconfirmed]
  simp only [audited_require_iff rfl, decide_eq_true_eq, Program.liftM_eq]
  by_cases hcustomer : ∃ c ∈ w.db.customers.rows, c.id = customerId
  · obtain ⟨c, hc, rfl⟩ := hcustomer
    obtain ⟨w₁, k, w₂, hsave, hsave_same, hrevoke, hrevoke_same, hlog⟩ := disableWrites_run hc
    simp only [audited_exec_iff_of_unchanged (getCustomer_run hc) rfl,
      audited_exec_iff_of_unchanged hsave rfl, revokeAllSessions, Program.liftM_eq,
      Program.bind_assoc, Program.pure_eq, Program.done_ok_bind, audited_exec_iff hrevoke,
      hsave_same]
    simp only [audited_writeAuditLog_iff (show "accounts.disable_customer".length ≤ 100 by decide)
      (show "customer".length ≤ 100 by decide) hlog, hrevoke_same]
    constructor
    · rintro h ⟨hpolicy, hmfa, hreason, c', hc', hid, hcase⟩
      have heq : c' = c := w.db.customers.eq_of_pk hc' hc hid
      rw [heq] at hcase
      obtain ⟨hn, hactive⟩ | ⟨hn, hchange⟩ := hcase
      · have hinactive : c.isActive = false := (h hpolicy 2 hn hmfa hreason 1 rfl 0 rfl).1 rfl
        exact Bool.false_ne_true (hinactive.symm.trans hactive)
      · have hfault : ∃ m, n = mfaLookups actor + (m + 3) ∧
            (m = 0 ∨ 255 < (PyText.strip reason).length) := by
          obtain hn | ⟨hlt, hlong⟩ := hn
          · exact ⟨0, hn, Or.inl rfl⟩
          · exact ⟨n - (mfaLookups actor + 3), by omega, Or.inr hlong⟩
        obtain ⟨m, hm, hlong⟩ := hfault
        have hsame := (h hpolicy (m + 3) hm hmfa hreason (m + 2) rfl (m + 1) rfl).2 m rfl hlong
        obtain hactive | ⟨s, hs, hmatch⟩ := hchange
        · exact Bool.false_ne_true (hsame.1.symm.trans hactive)
        · exact Bool.false_ne_true ((hsame.2 s hs).symm.trans hmatch)
    · intro h hpolicy m hn hmfa hreason m₁ hm₁ m₂ hm₂
      refine ⟨fun hzero => ?_, fun m₃ hm₃ hlong => ?_⟩
      · by_contra hactive
        rw [Bool.not_eq_false] at hactive
        exact h ⟨hpolicy, hmfa, hreason, c, hc, rfl, Or.inl ⟨by omega, hactive⟩⟩
      · by_contra hchange
        refine h ⟨hpolicy, hmfa, hreason, c, hc, rfl, Or.inr ⟨?_, ?_⟩⟩
        · by_cases hm₃_zero : m₃ = 0
          · exact Or.inl (by omega)
          · exact Or.inr ⟨by omega, hlong.resolve_left hm₃_zero⟩
        · by_contra hnone
          push Not at hnone
          refine hchange ⟨by simpa using hnone.1, fun s hs => ?_⟩
          simpa using hnone.2 s hs
  · push Not at hcustomer
    simp only [audited_raise_iff (getCustomer_run_of_not_mem hcustomer)]
    refine ⟨fun _ hfails => ?_, fun _ _ _ _ _ _ => trivial⟩
    obtain ⟨-, -, -, c, hc, hid, -⟩ := hfails
    exact hcustomer c hc hid

/-! ## Resetting a device -/

/-- Where a call of `reset_staff_mfa` fails after it has deleted a device: at the audit entry. -/
def ResetStaffMfaFailsAfterWrite (actor targetStaff : StaffInstance) (w : World) (n : ℕ) : Prop :=
  checkPolicy actor.staff.role "accounts.reset_staff_mfa" = true ∧ ConfirmedMfa w actor ∧
    (∃ d ∈ w.db.staffTotpDevices.rows, d.staffId = targetStaff.staff.id) ∧
      n = mfaLookups actor + mfaLookups targetStaff + 1

lemma resetStaffMfa_audited_iff (actor targetStaff : StaffInstance)
    (request : Option RequestContext) (w : World) (n : ℕ) :
    Audited "accounts.reset_staff_mfa" w
        ((resetStaffMfa actor targetStaff request).runFault n w) ↔
      ¬ ResetStaffMfaFailsAfterWrite actor targetStaff w n := by
  unfold resetStaffMfa ResetStaffMfaFailsAfterWrite
  rw [audited_require_iff rfl]
  obtain ⟨actor', -, hactor⟩ :=
    @audited_requireConfirmedMfa_iff Unit "accounts.reset_staff_mfa" w w actor rfl
  obtain ⟨hadConfirmedMfa, target', -, htarget, hlookup⟩ :=
    @audited_hasConfirmedMfa_iff Unit "accounts.reset_staff_mfa" w w targetStaff rfl
  obtain ⟨w', hdelete, hsame, hlog⟩ := deleteTotpDevices_run targetStaff.staff.id w
  simp only [hactor, hlookup, htarget, Program.liftM_eq, Program.pure_eq,
    audited_exec_iff_of_unchanged hdelete rfl]
  simp only [audited_writeAuditLog_iff (show "accounts.reset_staff_mfa".length ≤ 100 by decide)
    (show "staff".length ≤ 100 by decide) hlog, hsame]
  constructor
  · rintro h ⟨hpolicy, hmfa, ⟨d, hd, hstaff⟩, hn⟩
    have hnone := h hpolicy hmfa (mfaLookups targetStaff + 1) (by omega) 1 rfl 0 rfl (Or.inl rfl)
    exact hnone d hd hstaff
  · intro h hpolicy hmfa m hm m₁ hm₁ m₂ hm₂ hfault d hd hstaff
    obtain hzero | hlong := hfault
    · exact h ⟨hpolicy, hmfa, ⟨d, hd, hstaff⟩, by omega⟩
    · exact absurd hlong (by decide)

/-! ## Revoking a session -/

/-- Where a call of `revoke_session` fails after it has revoked the session: at the audit entry. -/
def RevokeSessionFailsAfterWrite (customer : Customer) (sessionId : Id) (w : World) (n : ℕ) :
    Prop :=
  (∃ s ∈ w.db.sessions.rows, revocable customer.id sessionId s = true) ∧ n = 1

lemma revokeSession_audited_iff (customer : Customer) (sessionId : Id)
    (request : Option RequestContext) (w : World) (n : ℕ) :
    Audited "accounts.revoke_session" w
        ((revokeSession customer sessionId request).runFault n w) ↔
      ¬ RevokeSessionFailsAfterWrite customer sessionId w n := by
  unfold revokeSession RevokeSessionFailsAfterWrite
  obtain ⟨k, w', hrevoke, hcount, hsame, hlog⟩ := revokeOwn_run customer.id sessionId w
  simp only [Program.liftM_eq, Program.pure_eq, audited_exec_iff_of_unchanged hrevoke rfl]
  by_cases hnone : ∀ s ∈ w.db.sessions.rows, revocable customer.id sessionId s = false
  · have hzero : decide (k ≠ 0) = false := by simpa using hcount.2 hnone
    simp only [hzero, Program.require_false, Program.done_error_bind, Program.runFault_done]
    refine ⟨fun _ hfails => ?_, fun _ _ _ => hsame.2 hnone⟩
    obtain ⟨⟨s, hs, hmatch⟩, -⟩ := hfails
    exact Bool.false_ne_true ((hnone s hs).symm.trans hmatch)
  · have hpos : decide (k ≠ 0) = true := by
      refine decide_eq_true fun hk => ?_
      exact hnone (hcount.1 hk)
    simp only [hpos, Program.require_true, Program.done_ok_bind]
    simp only [audited_writeAuditLog_iff (show "accounts.revoke_session".length ≤ 100 by decide)
      (show "session".length ≤ 100 by decide) hlog, hsame]
    constructor
    · rintro h ⟨-, hn⟩
      exact hnone (h 0 hn (Or.inl rfl))
    · intro h m hm hfault
      obtain hzero | hlong := hfault
      · by_contra hchange
        push Not at hnone
        obtain ⟨s, hs, hmatch⟩ := hnone
        exact h ⟨⟨s, hs, by simpa using hmatch⟩, by omega⟩
      · exact absurd hlong (by decide)

/-! ## The four actions -/

/-- A call of an audited action. -/
inductive AuditedCall
  | createStaff (actor : StaffInstance) (email password : String) (role : Role)
      (request : Option RequestContext)
  | disableCustomer (actor : StaffInstance) (customerId : Id) (reason : String)
      (request : Option RequestContext)
  | resetStaffMfa (actor targetStaff : StaffInstance) (request : Option RequestContext)
  | revokeSession (customer : Customer) (sessionId : Id) (request : Option RequestContext)

namespace AuditedCall

def service : AuditedCall → Service Unit
  | createStaff actor email password role request => do
    let _ ← BePyEco.createStaff actor email password role request
    return ()
  | disableCustomer actor customerId reason request => do
    let _ ← BePyEco.disableCustomer actor customerId reason request
    return ()
  | resetStaffMfa actor targetStaff request => BePyEco.resetStaffMfa actor targetStaff request
  | revokeSession customer sessionId request => BePyEco.revokeSession customer sessionId request

/-- The action of the audit entry. -/
def action : AuditedCall → String
  | createStaff .. => "accounts.create_staff"
  | disableCustomer .. => "accounts.disable_customer"
  | resetStaffMfa .. => "accounts.reset_staff_mfa"
  | revokeSession .. => "accounts.revoke_session"

/-- The call fails at a statement after one that changed a row. -/
def FailsAfterWrite (w : World) (n : ℕ) : AuditedCall → Prop
  | createStaff actor email _ _ _ => CreateStaffFailsAfterWrite actor email w n
  | disableCustomer actor customerId reason _ =>
    DisableCustomerFailsAfterWrite actor customerId reason w n
  | resetStaffMfa actor targetStaff _ => ResetStaffMfaFailsAfterWrite actor targetStaff w n
  | revokeSession customer sessionId _ => RevokeSessionFailsAfterWrite customer sessionId w n

/-- The call from `w`, whose statement number `n` fails, either raises and leaves every table as it
was, or returns and leaves exactly one more audit entry, for its action. -/
def AllOrNothing (call : AuditedCall) (w : World) (n : ℕ) : Prop :=
  Audited call.action w (call.service.runFault n w)

/-- An audited action is all-or-nothing exactly when it does not fail after a write. -/
theorem allOrNothing_iff (call : AuditedCall) (w : World) (n : ℕ) :
    call.AllOrNothing w n ↔ ¬ call.FailsAfterWrite w n := by
  unfold AllOrNothing
  cases call with
  | createStaff actor email password role request =>
      refine Iff.trans ?_ (createStaff_audited_iff actor email password role request w n)
      unfold service
      simp only [Program.pure_eq, Program.runFault_bind_return]
      exact audited_map
  | disableCustomer actor customerId reason request =>
      refine Iff.trans ?_ (disableCustomer_audited_iff actor customerId reason request w n)
      unfold service
      simp only [Program.pure_eq, Program.runFault_bind_return]
      exact audited_map
  | resetStaffMfa actor targetStaff request =>
      exact resetStaffMfa_audited_iff actor targetStaff request w n
  | revokeSession customer sessionId request =>
      exact revokeSession_audited_iff customer sessionId request w n

end AuditedCall

end Actions

section Example

attribute [local instance] plainText

/-- An administrator and a customer. -/
def auditedWorld : World :=
  ((insertCustomer "a@example.com").exec administeredWorld).2

/-- With a reason that the audit log does not hold, disabling the customer raises at the audit
entry and leaves the customer disabled. -/
lemma not_allOrNothing_of_long {reason : String} (hlong : 255 < reason.length) :
    ¬ (AuditedCall.disableCustomer administrator 0 reason none).AllOrNothing auditedWorld 10 := by
  intro h
  unfold AuditedCall.AllOrNothing AuditedCall.service at h
  simp only [Program.pure_eq, Program.runFault_bind_return] at h
  have hreason : reason ≠ "" := by
    intro hempty
    rw [hempty] at hlong
    exact absurd hlong (by decide)
  have hmfa : ConfirmedMfa auditedWorld administrator :=
    ⟨⟨0, 0, 0, some 0⟩, by decide, rfl, rfl⟩
  have hfails : DisableCustomerFailsAfterWrite administrator 0 reason auditedWorld 10 :=
    ⟨by decide, hmfa, hreason, ⟨0, "a@example.com", none, true, "", ""⟩, by decide, rfl,
      Or.inr ⟨Or.inr ⟨by decide, hlong⟩, Or.inl rfl⟩⟩
  exact (disableCustomer_audited_iff _ _ _ _ _ _).1 (audited_map.1 h) hfails

/-- A reason that the serializer accepts. -/
lemma exists_longReason : ∃ reason : String, reason.length = 256 := by
  refine ⟨String.ofList (List.replicate 256 'a'), ?_⟩
  rw [String.length_ofList, List.length_replicate]

/-- Disabling a customer for a reason of 256 characters is not all-or-nothing, without any fault. -/
theorem not_allOrNothing :
    ¬ ∀ (call : AuditedCall) (w : World) (n : ℕ), call.AllOrNothing w n := by
  intro hclaim
  obtain ⟨reason, hlength⟩ := exists_longReason
  exact not_allOrNothing_of_long (by omega)
    (hclaim (.disableCustomer administrator 0 reason none) _ _)

end Example

end BePyEco
