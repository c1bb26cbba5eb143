import BePyEco.Accounts.AuditedActions
import BePyEco.Accounts.ReplayedResources
import BePyEco.Accounts.ViewControl

/-!
# Effects and their records

A request to an idempotent endpoint with an unused key commits the statements of its effect one by
one, and inserts the idempotency record after them.  The request is executed with a fault that makes
its `n`-th statement fail from outside; the header of the key has no length check, so the insert of
the record can also fail by itself.

`CommitsApart` says, from the request, the state before it and `n` alone, that the request ends
between its first write and its record.  Otherwise effect and record are committed together, and a
retry within the lifetime of the record changes nothing (`commitsTogether_iff`).
-/

namespace BePyEco

open Library

/-! ## The effects under faults -/

/-- The instance of a staff member whose device was looked up. -/
@[reducible] def StaffInstance.withDevice (staff : Staff) (device : Option StaffTOTPDevice) :
    StaffInstance where
  staff := staff
  totpDevice := some device

lemma mfaLookups_withDevice (staff : Staff) (device : Option StaffTOTPDevice) :
    mfaLookups (.withDevice staff device) = 0 := rfl

lemma getStaff_run_of_not_mem {w : World} {staffId : Id}
    (h : ∀ s ∈ w.db.staff.rows, s.id ≠ staffId) :
    (getStaff staffId).run w = .error (.db .doesNotExist) :=
  Objects.run_get_of_error (Table.get_eq_doesNotExist_iff.2 fun s hs => decide_eq_false (h s hs))

namespace IdempotentEndpoint

variable [SerializerFields] [PyText]

/-- The effect works: the body is accepted, and what it asks for meets no constraint. -/
def Performable (w : World) (data : Json) : IdempotentEndpoint → Prop
  | createStaff => ∃ email password role, createStaffSerializer data = .ok (email, password, role) ∧
      StaffInsertable w email
  | disableCustomer customerId => ResourceEndpoint.disableCustomer.Feasible w data customerId
  | resetStaffMfa staffId => ResourceEndpoint.resetStaffMfa.Feasible w data staffId

/-- How many statements the effect takes when it works. -/
def effectStatements : IdempotentEndpoint → ℕ
  | createStaff => 2
  | disableCustomer _ => 4
  | resetStaffMfa _ => 4

/-- Statement number `n` of the effect fails, and one before it has changed a row. -/
def FailsInEffect (w : World) (data : Json) (n : ℕ) : IdempotentEndpoint → Prop
  | createStaff => createStaff.Performable w data ∧ n = 1
  | disableCustomer customerId => ∃ reason, disableCustomerSerializer data = .ok reason ∧
      PyText.strip reason ≠ "" ∧ ∃ c ∈ w.db.customers.rows, c.id = customerId ∧
        ((n = 2 ∧ c.isActive = true) ∨
          ((n = 3 ∨ 3 < n ∧ 255 < (PyText.strip reason).length) ∧
            (c.isActive = true ∨ ∃ s ∈ w.db.sessions.rows, unrevokedOf customerId s = true)))
  | resetStaffMfa staffId => (∃ s ∈ w.db.staff.rows, s.id = staffId) ∧
      (∃ d ∈ w.db.staffTotpDevices.rows, d.staffId = staffId) ∧ n = 3

section Effect

variable {w : World} {request : Request} {device : Option StaffTOTPDevice}

lemma createStaffEffect_audited_iff (n : ℕ)
    (hpolicy : checkPolicy request.user.role "accounts.create_staff" = true)
    (hmfa : device.any StaffTOTPDevice.isConfirmed = true) :
    Audited "accounts.create_staff" w
        ((createStaffEffect (.withDevice request.user device) request).runFault n w) ↔
      ¬ createStaff.FailsInEffect w request.data n := by
  unfold createStaffEffect FailsInEffect Performable
  cases hserializer : createStaffSerializer request.data with
  | error e =>
      rw [Program.ofExcept_error, Program.done_error_bind, Program.runFault_done]
      refine ⟨fun _ hfails => ?_, fun _ => rfl⟩
      obtain ⟨⟨_, _, _, hok, -⟩, -⟩ := hfails
      cases hok
  | ok fields =>
      obtain ⟨email, password, role⟩ := fields
      rw [Program.ofExcept_ok, Program.done_ok_bind]
      dsimp only
      simp only [Program.pure_eq, Program.runFault_bind_return]
      rw [audited_map, createStaff_audited_iff]
      unfold CreateStaffFailsAfterWrite
      refine not_congr ?_
      constructor
      · rintro ⟨-, -, hinsert, hn⟩
        exact ⟨⟨email, password, role, rfl, hinsert⟩, hn⟩
      · rintro ⟨⟨_, _, _, hok, hinsert⟩, hn⟩
        cases hok
        exact ⟨hpolicy, hmfa, hinsert, hn⟩

lemma disableCustomerEffect_audited_iff (customerId : Id) (n : ℕ)
    (hpolicy : checkPolicy request.user.role "accounts.disable_customer" = true)
    (hmfa : device.any StaffTOTPDevice.isConfirmed = true) :
    Audited "accounts.disable_customer" w ((disableCustomerEffect customerId
        (.withDevice request.user device) request).runFault n w) ↔
      ¬ (disableCustomer customerId).FailsInEffect w request.data n := by
  unfold disableCustomerEffect FailsInEffect
  cases hserializer : disableCustomerSerializer request.data with
  | error e =>
      rw [Program.ofExcept_error, Program.done_error_bind, Program.runFault_done]
      refine ⟨fun _ hfails => ?_, fun _ => rfl⟩
      obtain ⟨_, hok, -⟩ := hfails
      cases hok
  | ok reason =>
      rw [Program.ofExcept_ok, Program.done_ok_bind]
      simp only [Program.pure_eq]
      have hreturn := Program.runFault_bind_return
        (fun _ : Customer => ({ status := 204 } : Response)) n
        (BePyEco.disableCustomer (.withDevice request.user device) customerId reason
          (some request.context)) w
      rw [hreturn, audited_map, disableCustomer_audited_iff]
      unfold DisableCustomerFailsAfterWrite
      rw [mfaLookups_withDevice]
      simp only [Nat.zero_add]
      refine not_congr ?_
      constructor
      · rintro ⟨-, -, hreason, hcustomer⟩
        exact ⟨reason, rfl, hreason, hcustomer⟩
      · rintro ⟨_, hok, hreason, hcustomer⟩
        cases hok
        exact ⟨hpolicy, hmfa, hreason, hcustomer⟩

lemma resetStaffMfaEffect_audited_iff (staffId : Id) (n : ℕ)
    (hpolicy : checkPolicy request.user.role "accounts.reset_staff_mfa" = true)
    (hmfa : device.any StaffTOTPDevice.isConfirmed = true) :
    Audited "accounts.reset_staff_mfa" w ((resetStaffMfaEffect staffId
        (.withDevice request.user device) request).runFault n w) ↔
      ¬ (resetStaffMfa staffId).FailsInEffect w request.data n := by
  unfold resetStaffMfaEffect FailsInEffect
  by_cases hstaff : ∃ s ∈ w.db.staff.rows, s.id = staffId
  · obtain ⟨s, hs, rfl⟩ := hstaff
    have hreturn := fun m => Program.runFault_bind_return
      (fun _ : Unit => ({ status := 204 } : Response)) m (BePyEco.resetStaffMfa
        (.withDevice request.user device) { staff := s } (some request.context)) w
    simp only [Program.liftM_eq, Program.pure_eq,
      audited_exec_iff_of_unchanged (getStaff_run hs) rfl]
    simp only [hreturn, audited_map, Prod.mk.eta, resetStaffMfa_audited_iff]
    unfold ResetStaffMfaFailsAfterWrite
    constructor
    · rintro h ⟨-, hdevice, hn⟩
      exact h 2 hn ⟨hpolicy, hmfa, hdevice, rfl⟩
    · rintro h m hm ⟨-, -, hdevice, hlookups⟩
      have htwo : m = 2 := hlookups
      exact h ⟨⟨s, hs, rfl⟩, hdevice, by omega⟩
  · simp only [Program.liftM_eq]
    have hnone : ∀ s ∈ w.db.staff.rows, s.id ≠ staffId := fun s hs hid => hstaff ⟨s, hs, hid⟩
    rw [audited_raise_iff (getStaff_run_of_not_mem hnone)]
    exact ⟨fun _ hfails => hstaff hfails.1, fun _ => rfl⟩

/-- An effect behind the guards is all-or-nothing exactly when it does not fail after a write. -/
lemma effect_audited_iff (e : IdempotentEndpoint) (n : ℕ)
    (hpolicy : checkPolicy request.user.role e.action = true)
    (hmfa : device.any StaffTOTPDevice.isConfirmed = true) :
    Audited e.action w ((e.effect (.withDevice request.user device) request).runFault n w) ↔
      ¬ e.FailsInEffect w request.data n := by
  cases e with
  | createStaff => exact createStaffEffect_audited_iff n hpolicy hmfa
  | disableCustomer customerId => exact disableCustomerEffect_audited_iff customerId n hpolicy hmfa
  | resetStaffMfa staffId => exact resetStaffMfaEffect_audited_iff staffId n hpolicy hmfa

/-! ### When an effect returns -/

lemma createStaffEffect_returns
    (hpolicy : checkPolicy request.user.role "accounts.create_staff" = true)
    (hmfa : device.any StaffTOTPDevice.isConfirmed = true)
    (h : createStaff.Performable w request.data) :
    let p := createStaffEffect (.withDevice request.user device) request
    (∃ response w', p.run w = (.ok response, w')) ∧ p.statements w = 2 := by
  obtain ⟨email, password, role, hserializer, hinsert⟩ := h
  obtain ⟨staff, w₁, hrun, -, -⟩ := @insertStaff_run _ w email password role hinsert
  obtain ⟨entry, w₂, haudit, -⟩ := @writeAuditLog_run _ w₁ .staff request.user.id
    "accounts.create_staff" "staff" staff.id []
    [("email", .str staff.email), ("role", .str staff.role.value)] "" (clientIp request.context)
    (requestId request.context) (by decide) (by decide) (by decide)
  unfold createStaffEffect BePyEco.createStaff
  simp only [hserializer, Program.ofExcept_ok, Program.done_ok_bind, hpolicy, Program.require_true,
    requireConfirmedMfa_cached hmfa, Program.bind_assoc, Program.liftM_eq, Program.pure_eq]
  constructor
  · simp only [Program.run_bind, Program.run_exec, Tx.exec_ok hrun, Tx.exec_ok haudit,
      Program.run_done]
    exact ⟨_, _, rfl⟩
  · rw [Program.statements_exec_bind hrun, Program.statements_exec_bind haudit]
    rfl

lemma disableCustomerEffect_returns {customerId : Id}
    (hpolicy : checkPolicy request.user.role "accounts.disable_customer" = true)
    (hmfa : device.any StaffTOTPDevice.isConfirmed = true)
    (h : (disableCustomer customerId).Performable w request.data) :
    let p := disableCustomerEffect customerId (.withDevice request.user device) request
    (∃ response w', p.run w = (.ok response, w')) ∧ p.statements w = 4 := by
  refine ⟨?_, ?_⟩
  · obtain ⟨w', hrun⟩ := @ResourceEndpoint.effect_run _ _ .disableCustomer _
      (.withDevice request.user device) request w hpolicy hmfa h
    exact ⟨_, w', hrun⟩
  · obtain ⟨⟨reason, hserializer, hblank, hlength⟩, c, hc, rfl⟩ := h
    obtain ⟨w₁, k, w₂, hsave, -, hrevoke, -, -⟩ := disableWrites_run hc
    obtain ⟨entry, w₃, haudit, -⟩ := @writeAuditLog_run _ w₂ .staff request.user.id
      "accounts.disable_customer" "customer" c.id [("is_active", .bool true)]
      [("is_active", .bool false)] (PyText.strip reason) (clientIp request.context)
      (requestId request.context) (by decide) (by decide) hlength
    unfold disableCustomerEffect BePyEco.disableCustomer
    simp only [hserializer, Program.ofExcept_ok, Program.done_ok_bind, hpolicy,
      Program.require_true, hasConfirmedMfa_cached hmfa, decide_eq_true hblank,
      revokeAllSessions, Program.bind_assoc, Program.liftM_eq, Program.pure_eq]
    rw [Program.statements_exec_bind (getCustomer_run hc), Program.statements_exec_bind hsave,
      Program.statements_exec_bind hrevoke, Program.statements_exec_bind haudit]
    rfl

lemma resetStaffMfaEffect_returns {staffId : Id}
    (hpolicy : checkPolicy request.user.role "accounts.reset_staff_mfa" = true)
    (hmfa : device.any StaffTOTPDevice.isConfirmed = true)
    (h : (resetStaffMfa staffId).Performable w request.data) :
    let p := resetStaffMfaEffect staffId (.withDevice request.user device) request
    (∃ response w', p.run w = (.ok response, w')) ∧ p.statements w = 4 := by
  refine ⟨?_, ?_⟩
  · obtain ⟨w', hrun⟩ := @ResourceEndpoint.effect_run _ _ .resetStaffMfa _
      (.withDevice request.user device) request w hpolicy hmfa h
    exact ⟨_, w', hrun⟩
  · obtain ⟨s, hs, rfl⟩ := h
    obtain ⟨found, hlookup, -⟩ := findTotpDevice_run s.id w
    obtain ⟨w₁, hdelete, -, -⟩ := deleteTotpDevices_run s.id w
    obtain ⟨entry, w₂, haudit, -⟩ := @writeAuditLog_run _ w₁ .staff request.user.id
      "accounts.reset_staff_mfa" "staff" s.id
      [("mfa_confirmed", .bool (found.any StaffTOTPDevice.isConfirmed))]
      [("mfa_confirmed", .bool false)] "" (clientIp request.context) (requestId request.context)
      (by decide) (by decide) (by decide)
    unfold resetStaffMfaEffect BePyEco.resetStaffMfa
    simp only [hpolicy, Program.require_true, Program.done_ok_bind,
      requireConfirmedMfa_cached hmfa, hasConfirmedMfa, loadTotpDevice, Program.bind_assoc,
      Program.liftM_eq, Program.pure_eq]
    rw [Program.statements_exec_bind (getStaff_run hs), Program.statements_exec_bind hlookup,
      Program.statements_exec_bind hdelete, Program.statements_exec_bind haudit]
    rfl

/-- A performable effect behind the guards returns, after as many statements as it has. -/
lemma effect_returns (e : IdempotentEndpoint)
    (hpolicy : checkPolicy request.user.role e.action = true)
    (hmfa : device.any StaffTOTPDevice.isConfirmed = true) (h : e.Performable w request.data) :
    let p := e.effect (.withDevice request.user device) request
    (∃ response w', p.run w = (.ok response, w')) ∧ p.statements w = e.effectStatements := by
  cases e with
  | createStaff => exact createStaffEffect_returns hpolicy hmfa h
  | disableCustomer customerId => exact disableCustomerEffect_returns hpolicy hmfa h
  | resetStaffMfa staffId => exact resetStaffMfaEffect_returns hpolicy hmfa h

lemma createStaffEffect_ok {actor : StaffInstance} {response : Response} {w' : World}
    (h : (createStaffEffect actor request).run w = (.ok response, w')) :
    createStaff.Performable w request.data := by
  unfold createStaffEffect at h
  cases hserializer : createStaffSerializer request.data with
  | error e =>
      rw [hserializer] at h
      cases h
  | ok fields =>
      obtain ⟨email, password, role⟩ := fields
      rw [hserializer, Program.ofExcept_ok, Program.done_ok_bind] at h
      obtain ⟨staff, w₁, hcreate, -⟩ := Program.run_bind_ok h
      obtain ⟨_, w₂, hpolicy, h₂⟩ := Program.run_bind_ok hcreate
      obtain ⟨actor', w₃, hmfa, h₃⟩ := Program.run_bind_ok h₂
      obtain ⟨staff', w₄, hinsert, -⟩ := Program.run_bind_ok h₃
      have hw₂ := (Program.run_require_ok hpolicy).1
      have hw₃ : w₃ = w₂ := (requireConfirmedMfa_ok hmfa).1
      rw [hw₃, hw₂] at hinsert
      refine ⟨email, password, role, hserializer, ?_⟩
      by_contra hnot
      obtain ⟨e, hrun⟩ := @insertStaff_run_of_not _ w email password role hnot
      have hinserted : (insertStaff email password role).run w = .ok (staff', w₄) :=
        Program.run_exec_ok hinsert
      rw [hrun] at hinserted
      cases hinserted

/-- An effect that returned was performable. -/
lemma effect_ok (e : IdempotentEndpoint) {actor : StaffInstance} {response : Response}
    {w' : World} (h : (e.effect actor request).run w = (.ok response, w')) :
    e.Performable w request.data := by
  cases e with
  | createStaff => exact createStaffEffect_ok h
  | disableCustomer customerId =>
      exact (@ResourceEndpoint.effect_ok _ _ .disableCustomer customerId _ _ _ _ _ h).2.1
  | resetStaffMfa staffId =>
      exact (@ResourceEndpoint.effect_ok _ _ .resetStaffMfa staffId _ _ _ _ _ h).2.1

end Effect

end IdempotentEndpoint

/-! ## The whole request -/

section Request

variable [SerializerFields] [PyText] {e : IdempotentEndpoint} {key : String} {request : Request}
  {w : World}

/-- A request that the guards stop changes nothing. -/
lemma post_runFault_of_not_authorized (n : ℕ) (hkey : request.idempotencyKey = some key)
    (h : ¬ Authorized e.action w request key) : ((e.post request).runFault n w).2 = w := by
  by_cases hpolicy : checkPolicy request.user.role e.action = true
  · obtain ⟨device, hrun, hconfirmed⟩ := findTotpDevice_run request.user.id w
    have hstart : e.post request = _ := program_start hpolicy
    rw [hstart]
    cases n with
    | zero => rfl
    | succ n =>
        rw [Program.runFault_exec_bind_succ, Tx.exec_ok hrun]
        dsimp only
        unfold ViewPc.guarded
        by_cases hdevice : device.any StaffTOTPDevice.isConfirmed = true
        · have hblank : key = "" := by
            by_contra hne
            exact h ⟨hpolicy, hconfirmed.1 hdevice, hne⟩
          have hrequired : requireIdempotencyKey request = .error .idempotencyKeyRequired := by
            unfold requireIdempotencyKey
            rw [hkey]
            exact if_pos hblank
          rw [if_pos hdevice, hrequired]
          exact congrArg Prod.snd (Program.runFault_done n _ w)
        · rw [if_neg hdevice]
          exact congrArg Prod.snd (Program.runFault_done n _ w)
  · rw [Bool.not_eq_true] at hpolicy
    rw [e.post_eq, sensitiveView, hpolicy, Program.require_false, Program.done_error_bind,
      Program.runFault_done]

section Authorized

variable {found : Option IdempotencyRecord}

/-- Behind the guards and the lookup stands what the lookup found. -/
lemma post_runFault_of_authorized (hkey : request.idempotencyKey = some key)
    (h : Authorized e.action w request key)
    (hfind : (findRecord (request.scope e.action key)).run w = .ok (found, w)) :
    ∃ device : Option StaffTOTPDevice, device.any StaffTOTPDevice.isConfirmed = true ∧
      (∀ n < 2, ((e.post request).runFault n w).2 = w) ∧
      ∀ n, (e.post request).runFault (n + 2) w =
        ((ViewPc.lookedUp e request (.withDevice request.user device) key found).program e).runFault
          n w := by
  obtain ⟨device, hrun, hconfirmed⟩ := findTotpDevice_run request.user.id w
  have hdevice := hconfirmed.2 h.mfa
  have hguarded : ViewPc.guarded request device =
      .lookup request (.withDevice request.user device) key := by
    unfold ViewPc.guarded
    rw [if_pos hdevice, requireIdempotencyKey_eq hkey h.key]
  have hstart : e.post request = _ := program_start h.policy
  refine ⟨device, hdevice, fun n hn => ?_, fun n => ?_⟩
  · rw [hstart]
    cases n with
    | zero => rfl
    | succ n =>
        have hzero : n = 0 := by omega
        rw [Program.runFault_exec_bind_succ, Tx.exec_ok hrun]
        dsimp only
        rw [hguarded, program_lookup, hzero]
        rfl
  · rw [hstart, Program.runFault_exec_bind_succ, Tx.exec_ok hrun]
    dsimp only
    rw [hguarded, program_lookup, Program.runFault_exec_bind_succ, Tx.exec_ok hfind]

end Authorized

/-- A request whose record is found and alive changes nothing, wherever it fails. -/
lemma post_runFault_of_record {record : IdempotencyRecord} (n : ℕ)
    (hkey : request.idempotencyKey = some key)
    (hmem : record ∈ w.db.idempotencyRecords.rows)
    (hscope : record.scope = request.scope e.action key)
    (hhash : record.requestHash = hashRequest request.data) (halive : w.now ≤ record.expiresAt) :
    ((e.post request).runFault n w).2 = w := by
  by_cases hauthorized : Authorized e.action w request key
  · have hfind := findRecord_run_of_mem hmem
    rw [hscope] at hfind
    obtain ⟨device, -, hguards, hrest⟩ := post_runFault_of_authorized hkey hauthorized hfind
    by_cases hn : n < 2
    · exact hguards n hn
    · obtain ⟨m, rfl⟩ : ∃ m, n = m + 2 := ⟨n - 2, by omega⟩
      rw [hrest, ViewPc.lookedUp, program_clock]
      cases m with
      | zero => rfl
      | succ m =>
          rw [Program.runFault_exec_bind_succ, Tx.exec_ok (run_timezoneNow w)]
          dsimp only
          unfold ViewPc.compared
          rw [if_neg (Nat.not_lt.2 halive), if_pos hhash]
          exact congrArg Prod.snd (Program.runFault_done m _ w)
  · exact post_runFault_of_not_authorized n hkey hauthorized

end Request

/-! ## Effect and record -/

section Together

variable [SerializerFields] [PyText]

/-- From `w` to `w'` the effect ran to its end, and its response was remembered after it. -/
def BothCommitted (e : IdempotentEndpoint) (request : Request) (key : String) (w w' : World) :
    Prop :=
  ∃ actor response w₁ record, actor.staff = request.user ∧
    (e.effect actor request).run w = (.ok response, w₁) ∧
    (rememberResponse request e.action key response).run w₁ = .ok (record, w')

/-- The request from `w`, whose statement number `n` fails, leaves the database as it was, or
commits both its effect and its record. -/
def CommitsTogether (e : IdempotentEndpoint) (request : Request) (key : String) (w : World)
    (n : ℕ) : Prop :=
  let w' := ((e.post request).runFault n w).2
  w'.db = w.db ∨ BothCommitted e request key w w'

/-- When such a request has changed the database, a retry within the lifetime of a record does not
change it again, wherever the retry itself fails. -/
def RetriedQuietly (e : IdempotentEndpoint) (request : Request) (w : World) (n : ℕ) : Prop :=
  let w' := ((e.post request).runFault n w).2
  w'.db ≠ w.db → ∀ t m, w'.now ≤ t → t ≤ w'.now + idempotencyRecordTtl →
    ((e.post request).runFault m { w' with now := t }).2.db = w'.db

/-- The request ends between its first write and its record: inside the effect, or at the insert of
the record, which the key may also be too long for. -/
def CommitsApart (e : IdempotentEndpoint) (request : Request) (key : String) (w : World) (n : ℕ) :
    Prop :=
  Authorized e.action w request key ∧ ∃ m, n = m + 2 ∧
    (e.FailsInEffect w request.data m ∨
      (e.Performable w request.data ∧
        (m = e.effectStatements ∨ e.effectStatements < m ∧ 255 < key.length)))

variable {e : IdempotentEndpoint} {key : String} {request : Request} {w : World}

/-- An effect that returned wrote its audit entry and left the records alone. -/
lemma IdempotentEndpoint.effect_audits {actor : StaffInstance} {w' : World} {response : Response}
    (h : (e.effect actor request).run w = (.ok response, w')) :
    Audited e.action w ((.ok response : Except (Raised ApiError) Response), w') ∧
      w'.db.idempotencyRecords = w.db.idempotencyRecords ∧
      response.status ≤ maxPositiveSmallInteger := by
  have hends := (e.effect_endsWith actor request).runFault
    ((e.effect actor request).statements w) w
  rw [Program.runFault_of_statements_le (Nat.le_refl _), h] at hends
  obtain ⟨a, s₁, s', hrun, hsilent, haudits⟩ | ⟨raised, s', hrun, -⟩ := hends
  · cases hrun
    obtain ⟨entry, haction, hrows⟩ := haudits.entry
    rw [hsilent.auditLog] at hrows
    exact ⟨⟨entry, haction, hrows⟩, haudits.records.trans hsilent.records, haudits.status⟩
  · cases hrun

lemma IdempotentEndpoint.effect_records {actor : StaffInstance} {n : ℕ} {w' : World}
    {raised : Raised ApiError}
    (h : (e.effect actor request).runFault n w = (.error raised, w')) :
    w'.db.idempotencyRecords = w.db.idempotencyRecords := by
  obtain ⟨a, s₁, s', hrun, -⟩ | ⟨raised', s', hrun, hsilent⟩ :=
    (e.effect_endsWith actor request).runFault n w
  · rw [hrun] at h
    cases h
  · rw [hrun] at h
    cases h
    exact hsilent.records

omit [SerializerFields] [PyText] in
lemma Audited.db_ne {action : String} {w w' : World} {response : Response}
    (h : Audited action w ((.ok response : Except (Raised ApiError) Response), w')) :
    w'.db ≠ w.db := by
  intro hdb
  obtain ⟨entry, -, hrows⟩ := h
  have hlength := congrArg List.length hrows
  rw [hdb, List.length_append, List.length_singleton] at hlength
  omega

/-- A request that committed both has one record more. -/
lemma BothCommitted.records_ne {w' : World} (h : BothCommitted e request key w w') :
    w'.db.idempotencyRecords ≠ w.db.idempotencyRecords := by
  obtain ⟨actor, response, w₁, record, -, heffect, hremember⟩ := h
  intro hrecords
  have hrows := (storeResponse_ok hremember).rows
  have hlength := congrArg List.length hrows
  rw [hrecords, (IdempotentEndpoint.effect_audits heffect).2.1, List.length_append,
    List.length_singleton] at hlength
  omega

omit [SerializerFields] [PyText] in
/-- The insert of the record works when the key fits, and only then. -/
lemma rememberResponse_run {response : Response}
    (hunused : Unused (request.scope e.action key) w)
    (hstatus : response.status ≤ maxPositiveSmallInteger) :
    (key.length ≤ 255 → ∃ record w', (rememberResponse request e.action key response).run w =
        .ok (record, w')) ∧
      (255 < key.length → (rememberResponse request e.action key response).run w =
        .error (.db .dataError)) :=
  ⟨fun hkey => storeResponse_run e.action_length hkey hstatus hunused,
    fun hkey => storeResponse_run_of_long hkey⟩

section Effect

variable {device : Option StaffTOTPDevice} {m : ℕ}

/-- An effect that raised is settled as the effect alone is. -/
lemma settled_of_effect_error {w' : World} {raised : Raised ApiError}
    (hpolicy : checkPolicy request.user.role e.action = true)
    (hmfa : device.any StaffTOTPDevice.isConfirmed = true)
    (h : (e.effect (.withDevice request.user device) request).runFault m w =
      (.error raised, w')) :
    (w'.db = w.db ∨ BothCommitted e request key w w') ↔ ¬ e.FailsInEffect w request.data m := by
  have haudited := @IdempotentEndpoint.effect_audited_iff _ _ w request device e m hpolicy hmfa
  rw [h] at haudited
  refine Iff.trans ?_ haudited
  constructor
  · rintro (hdb | hboth)
    · exact hdb
    · exact absurd (IdempotentEndpoint.effect_records h) hboth.records_ne
  · exact fun hdb => Or.inl hdb

/-- What follows the lookup of an unused key, by where the fault hits. -/
lemma settled_runAndRemember_iff (hunused : Unused (request.scope e.action key) w)
    (hpolicy : checkPolicy request.user.role e.action = true)
    (hmfa : device.any StaffTOTPDevice.isConfirmed = true) :
    let actor := StaffInstance.withDevice request.user device
    let w' := ((runAndRemember request e.action key (e.effect actor request)).runFault m w).2
    (w'.db = w.db ∨ BothCommitted e request key w w') ↔
      ¬ (e.FailsInEffect w request.data m ∨
        (e.Performable w request.data ∧
          (m = e.effectStatements ∨ e.effectStatements < m ∧ 255 < key.length))) := by
  dsimp only
  unfold runAndRemember
  have hreturns := @IdempotentEndpoint.effect_returns _ _ w request device e hpolicy hmfa
  have hsettled := fun w' raised =>
    @settled_of_effect_error _ _ e key request w device m w' raised hpolicy hmfa
  have haudited := @IdempotentEndpoint.effect_audited_iff _ _ w request device e m hpolicy hmfa
  generalize hactor : StaffInstance.withDevice request.user device = actor at *
  generalize hp : e.effect actor request = p at *
  by_cases hm : m < p.statements w
  · -- the fault hits the effect
    have hnot : ¬ (e.Performable w request.data ∧
        (m = e.effectStatements ∨ e.effectStatements < m ∧ 255 < key.length)) := by
      rintro ⟨hperformable, hwhere⟩
      have hcount := (hreturns hperformable).2
      omega
    rw [Program.runFault_bind_of_lt hm, or_iff_left hnot]
    refine hsettled _ (.db .operationalError) ?_
    rw [← Program.runFault_of_lt hm]
  · have hm' : p.statements w ≤ m := Nat.le_of_not_lt hm
    rw [Program.runFault_bind_of_le hm']
    rw [Program.runFault_of_statements_le hm'] at hsettled haudited
    rcases hrun : p.run w with ⟨r, w₁⟩
    rw [hrun] at hsettled haudited
    cases r with
    | error raised =>
        have hnot : ¬ (e.Performable w request.data ∧
            (m = e.effectStatements ∨ e.effectStatements < m ∧ 255 < key.length)) := by
          rintro ⟨hperformable, -⟩
          obtain ⟨response, w', hok⟩ := (hreturns hperformable).1
          rw [hrun] at hok
          cases hok
        dsimp only
        rw [or_iff_left hnot]
        exact hsettled w₁ raised rfl
    | ok response =>
        rw [← hp] at hrun
        have hperformable := e.effect_ok hrun
        obtain ⟨haudit, hrecords, hstatus⟩ := IdempotentEndpoint.effect_audits hrun
        have hcount := (hreturns hperformable).2
        have hfails : ¬ e.FailsInEffect w request.data m := haudited.1 haudit
        have hunused₁ : Unused (request.scope e.action key) w₁ := by
          unfold Unused
          rw [hrecords]
          exact hunused
        obtain ⟨hfits, hlong⟩ := rememberResponse_run hunused₁ hstatus
        have happart : ¬ (w₁.db = w.db ∨ BothCommitted e request key w w₁) := by
          rintro (hdb | hboth)
          · exact haudit.db_ne hdb
          · exact hboth.records_ne hrecords
        dsimp only
        rw [or_iff_right hfails, and_iff_right hperformable, Program.liftM_eq]
        cases hj : m - p.statements w with
        | zero =>
            rw [Program.runFault_exec_bind_zero]
            exact iff_of_false happart fun h => h (Or.inl (by omega))
        | succ j =>
            rw [Program.runFault_exec_bind_succ]
            by_cases hkey : key.length ≤ 255
            · obtain ⟨record, w₂, hremember⟩ := hfits hkey
              rw [Tx.exec_ok hremember]
              dsimp only
              rw [Program.pure_eq, Program.runFault_done]
              refine iff_of_true ?_ (by omega)
              have hstaff : actor.staff = request.user := by rw [← hactor]
              exact Or.inr ⟨actor, response, w₁, record, hstaff, hrun, hremember⟩
            · rw [Tx.exec_error (hlong (Nat.lt_of_not_le hkey))]
              exact iff_of_false happart fun h => h (Or.inr (by omega))

end Effect

/-- A request commits its effect and its record together exactly when it does not end apart. -/
lemma commitsTogether_iff_not_apart (n : ℕ) (hkey : request.idempotencyKey = some key)
    (hunused : Unused (request.scope e.action key) w) :
    CommitsTogether e request key w n ↔ ¬ CommitsApart e request key w n := by
  unfold CommitsTogether CommitsApart
  by_cases hauthorized : Authorized e.action w request key
  · obtain ⟨device, hmfa, hguards, hrest⟩ :=
      post_runFault_of_authorized hkey hauthorized (findRecord_run_of_none hunused)
    rw [and_iff_right hauthorized]
    by_cases hn : n < 2
    · rw [hguards n hn]
      refine iff_of_true (Or.inl rfl) ?_
      rintro ⟨m, hm, -⟩
      omega
    · obtain ⟨m, rfl⟩ : ∃ m, n = m + 2 := ⟨n - 2, by omega⟩
      rw [hrest, ViewPc.lookedUp, ViewPc.program_enter]
      refine (settled_runAndRemember_iff hunused hauthorized.policy hmfa).trans (not_congr ?_)
      constructor
      · intro h
        exact ⟨m, rfl, h⟩
      · rintro ⟨m', hm', h⟩
        have heq : m = m' := by omega
        rw [heq]
        exact h
  · rw [post_runFault_of_not_authorized n hkey hauthorized]
    exact iff_of_true (Or.inl rfl) fun h => hauthorized h.1

/-- What was committed together is replayed. -/
lemma CommitsTogether.retriedQuietly {n : ℕ} (hkey : request.idempotencyKey = some key)
    (h : CommitsTogether e request key w n) : RetriedQuietly e request w n := by
  unfold CommitsTogether RetriedQuietly at *
  intro w' hchanged t m hlater hlifetime
  obtain hdb | ⟨actor, response, w₁, record, hactor, heffect, hremember⟩ := h
  · exact absurd hdb hchanged
  · obtain ⟨⟨id, hrow⟩, hrows, -, -⟩ := storeResponse_ok hremember
    have hnow : w'.now = w₁.now := storeResponse_now hremember
    have hmem : record ∈ ({ w' with now := t } : World).db.idempotencyRecords.rows := by
      change record ∈ w'.db.idempotencyRecords.rows
      rw [hrows]
      exact List.mem_append_right _ (List.mem_singleton_self record)
    have hscope : record.scope = request.scope e.action key := by rw [hrow]; rfl
    have hhash : record.requestHash = hashRequest request.data := by rw [hrow]; rfl
    have halive : ({ w' with now := t } : World).now ≤ record.expiresAt := by
      rw [hrow]
      change t ≤ w₁.now + idempotencyRecordTtl
      rw [← hnow]
      exact hlifetime
    rw [post_runFault_of_record m hkey hmem hscope hhash halive]

/-- A request with an unused key commits its effect and its record together, and is retried
quietly, exactly when it does not end between its first write and its record. -/
theorem commitsTogether_iff (e : IdempotentEndpoint) (request : Request) (key : String) (w : World)
    (n : ℕ) (hkey : request.idempotencyKey = some key)
    (hunused : Unused (request.scope e.action key) w) :
    (CommitsTogether e request key w n ∧ RetriedQuietly e request w n) ↔
      ¬ CommitsApart e request key w n := by
  rw [← commitsTogether_iff_not_apart n hkey hunused]
  exact and_iff_left_of_imp fun h => h.retriedQuietly hkey

end Together

/-! ### A key that is too long -/

section Example

attribute [local instance] plainText plainFields

/-- The request to disable a customer, with a key of choice. -/
def keyedRequest (key : String) : Request := { disableRequest with idempotencyKey := some key }

lemma unused_keyedRequest (key : String) :
    Unused ((keyedRequest key).scope "accounts.disable_customer" key) twoCustomers := by
  have hnone : twoCustomers.db.idempotencyRecords.rows = [] := by decide
  intro r hr
  rw [hnone] at hr
  cases hr

lemma authorized_keyedRequest {key : String} (hkey : key ≠ "") :
    Authorized "accounts.disable_customer" twoCustomers (keyedRequest key) key where
  policy := show checkPolicy administrator.staff.role "accounts.disable_customer" = true by decide
  mfa := ⟨⟨0, 0, 0, some 0⟩, by decide, rfl, rfl⟩
  key := hkey

/-- With a short key and no fault, the effect and the record are committed together. -/
theorem commitsTogether_short_key :
    (CommitsTogether (.disableCustomer 0) (keyedRequest "key") "key" twoCustomers 10 ∧
      RetriedQuietly (.disableCustomer 0) (keyedRequest "key") twoCustomers 10) := by
  refine (commitsTogether_iff (.disableCustomer 0) (keyedRequest "key") "key" twoCustomers 10 rfl
    (unused_keyedRequest "key")).2 ?_
  rintro ⟨-, m, hm, hfails | ⟨-, hlast | ⟨-, hlong⟩⟩⟩
  · obtain ⟨reason, hserializer, -, c, -, -, ⟨htwo, -⟩ | ⟨hthree | ⟨-, hlong⟩, -⟩⟩ := hfails
    · omega
    · omega
    · cases hserializer
      exact absurd hlong (by decide)
  · change m = 4 at hlast
    omega
  · exact absurd hlong (by decide)

/-- With a key of 256 characters the customer is disabled and the record is refused, without any
fault. -/
theorem not_commitsTogether :
    ¬ ∀ (e : IdempotentEndpoint) (request : Request) (key : String) (w : World) (n : ℕ),
      request.idempotencyKey = some key → Unused (request.scope e.action key) w →
      CommitsTogether e request key w n ∧ RetriedQuietly e request w n := by
  intro hclaim
  obtain ⟨key, hlength⟩ := exists_longReason
  have hne : key ≠ "" := by
    rintro rfl
    exact absurd hlength (by decide)
  have hsound := hclaim (.disableCustomer 0) (keyedRequest key) key twoCustomers 10 rfl
    (unused_keyedRequest key)
  refine (commitsTogether_iff_not_apart 10 rfl (unused_keyedRequest key)).1 hsound.1 ?_
  exact ⟨authorized_keyedRequest hne, 8, rfl, Or.inr ⟨admissible_disableRequest.feasible,
    Or.inr ⟨show 4 < 8 by decide, by omega⟩⟩⟩

end Example

end BePyEco
