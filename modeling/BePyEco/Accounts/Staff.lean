import BePyEco.Accounts.Sessions

/-!
# Audited staff actions

The MFA guard and the sensitive actions of staff: creating staff, disabling a customer and
resetting a TOTP device.  Each action is a list of autocommitted statements that ends with the
insert of its audit entry; no transaction encloses it.
-/

namespace BePyEco

open Library

/-! ## The MFA guard -/

/-- The lookup behind the reverse accessor `staff.totp_device`. -/
def findTotpDevice (staffId : Id) : Statement (Option StaffTOTPDevice) :=
  (do let device ← Objects.get fun d : StaffTOTPDevice => decide (d.staffId = staffId)
      return some device : Statement (Option StaffTOTPDevice)).handling .doesNotExist (pure none)

/-- `hasattr(staff, "totp_device")`: ask the database once, then the cache. -/
def loadTotpDevice (staff : StaffInstance) : Service (Option StaffTOTPDevice) :=
  match staff.totpDevice with
  | some device => pure device
  | none => findTotpDevice staff.staff.id

/-- `staff.has_confirmed_mfa`, and the instance with the device in its cache. -/
def hasConfirmedMfa (staff : StaffInstance) : Service (Bool × StaffInstance) := do
  let device ← loadTotpDevice staff
  return (device.any StaffTOTPDevice.isConfirmed, { staff with totpDevice := some device })

def requireConfirmedMfa (staff : StaffInstance) : Service StaffInstance := do
  let (confirmed, staff) ← hasConfirmedMfa staff
  Program.require confirmed .mfaNotConfigured
  return staff

/-- The staff member has a confirmed device: the one in the cache of the instance, or the stored
one. -/
def ConfirmedMfa (w : World) (staff : StaffInstance) : Prop :=
  match staff.totpDevice with
  | some device => device.any StaffTOTPDevice.isConfirmed = true
  | none => ∃ d ∈ w.db.staffTotpDevices.rows, d.staffId = staff.staff.id ∧ d.isConfirmed = true

lemma findTotpDevice_run (staffId : Id) (w : World) :
    ∃ device : Option StaffTOTPDevice, (findTotpDevice staffId).run w = .ok (device, w) ∧
      (device.any StaffTOTPDevice.isConfirmed = true ↔
        ∃ d ∈ w.db.staffTotpDevices.rows, d.staffId = staffId ∧ d.isConfirmed = true) := by
  have huniq : ∀ a ∈ w.db.staffTotpDevices.rows, ∀ b ∈ w.db.staffTotpDevices.rows,
      decide (a.staffId = staffId) = true → decide (b.staffId = staffId) = true → a = b := by
    intro a ha b hb hpa hpb
    refine w.db.staffTotpDevices.eq_of_conflicts ha hb (decide_eq_true ?_)
    rw [of_decide_eq_true hpa, of_decide_eq_true hpb]
  obtain ⟨d, hd, hp, hget⟩ | hnone := Table.get_cases huniq
  · refine ⟨some d, ?_, ?_⟩
    · refine Tx.run_handling_ok ?_
      rw [Tx.run_bind, Objects.run_get_of_ok hget]
      rfl
    · constructor
      · intro hconfirmed
        exact ⟨d, hd, of_decide_eq_true hp, hconfirmed⟩
      · rintro ⟨d', hd', hstaff, hconfirmed⟩
        rw [← huniq d' hd' d hd (decide_eq_true hstaff) hp]
        exact hconfirmed
  · refine ⟨none, ?_, ?_⟩
    · refine (Tx.run_handling_error ?_).trans rfl
      rw [Tx.run_bind, Objects.run_get_of_error hnone]
    · constructor
      · intro hconfirmed
        cases hconfirmed
      · rintro ⟨d, hd, hstaff, -⟩
        have hfalse := Table.get_eq_doesNotExist_iff.1 hnone d hd
        exact absurd hstaff (of_decide_eq_false hfalse)

/-- What the look at `has_confirmed_mfa` finds, and keeps in the cache. -/
lemma hasConfirmedMfa_run (staff : StaffInstance) (w : World) :
    ∃ device : Option StaffTOTPDevice, (hasConfirmedMfa staff).run w =
        (.ok (device.any StaffTOTPDevice.isConfirmed,
          { staff with totpDevice := some device }), w) ∧
      (device.any StaffTOTPDevice.isConfirmed = true ↔ ConfirmedMfa w staff) := by
  unfold hasConfirmedMfa loadTotpDevice ConfirmedMfa
  cases hcache : staff.totpDevice with
  | some device => exact ⟨device, rfl, Iff.rfl⟩
  | none =>
      obtain ⟨device, hrun, hconfirmed⟩ := findTotpDevice_run staff.staff.id w
      refine ⟨device, ?_, hconfirmed⟩
      rw [Program.run_bind, Program.liftM_eq, Program.run_exec, Tx.exec_ok hrun]
      rfl

/-- The guard lets a staff member with a confirmed device pass, with the device in the cache. -/
lemma requireConfirmedMfa_run {staff : StaffInstance} {w : World} (h : ConfirmedMfa w staff) :
    ∃ device : Option StaffTOTPDevice, device.any StaffTOTPDevice.isConfirmed = true ∧
      (requireConfirmedMfa staff).run w = (.ok { staff with totpDevice := some device }, w) := by
  obtain ⟨device, hrun, hconfirmed⟩ := hasConfirmedMfa_run staff w
  have htrue := hconfirmed.2 h
  rw [htrue] at hrun
  refine ⟨device, htrue, ?_⟩
  rw [requireConfirmedMfa, Program.run_bind, hrun]
  rfl

lemma requireConfirmedMfa_run_of_not {staff : StaffInstance} {w : World}
    (h : ¬ ConfirmedMfa w staff) :
    (requireConfirmedMfa staff).run w = (.error (.app .mfaNotConfigured), w) := by
  obtain ⟨device, hrun, hconfirmed⟩ := hasConfirmedMfa_run staff w
  have hfalse : device.any StaffTOTPDevice.isConfirmed = false := by
    rw [← Bool.not_eq_true]
    exact fun htrue => h (hconfirmed.1 htrue)
  rw [hfalse] at hrun
  rw [requireConfirmedMfa, Program.run_bind, hrun]
  rfl

/-- With the device in the cache the look asks nothing. -/
lemma hasConfirmedMfa_cached {staff : Staff} {device : Option StaffTOTPDevice}
    (h : device.any StaffTOTPDevice.isConfirmed = true) :
    hasConfirmedMfa { staff := staff, totpDevice := some device } =
      .done (.ok (true, { staff := staff, totpDevice := some device })) := by
  unfold hasConfirmedMfa loadTotpDevice
  simp only [Program.pure_eq, Program.done_ok_bind, h]

lemma requireConfirmedMfa_cached {staff : Staff} {device : Option StaffTOTPDevice}
    (h : device.any StaffTOTPDevice.isConfirmed = true) :
    requireConfirmedMfa { staff := staff, totpDevice := some device } =
      .done (.ok { staff := staff, totpDevice := some device }) := by
  rw [requireConfirmedMfa, hasConfirmedMfa_cached h, Program.done_ok_bind]
  rfl

/-- The guard changes nothing but the cache. -/
lemma requireConfirmedMfa_ok {staff staff' : StaffInstance} {w w' : World}
    (h : (requireConfirmedMfa staff).run w = (.ok staff', w')) :
    w' = w ∧ staff'.staff = staff.staff := by
  by_cases hconfirmed : ConfirmedMfa w staff
  · obtain ⟨device, -, hrun⟩ := requireConfirmedMfa_run hconfirmed
    rw [hrun] at h
    cases h
    exact ⟨rfl, rfl⟩
  · rw [requireConfirmedMfa_run_of_not hconfirmed] at h
    cases h

/-! ## The actions -/

variable [PyText]

/-- `Staff.objects.create(...)` of `create_staff`. -/
def insertStaff (email password : String) (role : Role) : Statement Staff :=
  Objects.create fun id => {
    id := id
    email := normalizeEmail email
    passwordHash := makePassword password
    role := role }

def createStaff (actor : StaffInstance) (email password : String) (role : Role)
    (request : Option RequestContext) : Service Staff := do
  Program.require (checkPolicy actor.staff.role "accounts.create_staff") .insufficientPermission
  let _ ← requireConfirmedMfa actor
  let staff ← insertStaff email password role
  let _ ← writeAuditLog .staff actor.staff.id "accounts.create_staff" "staff" staff.id
    [] [("email", .str staff.email), ("role", .str staff.role.value)] "" (clientIp request)
    (requestId request)
  return staff

/-- `Customer.objects.get(id=customer_id)`. -/
def getCustomer (customerId : Id) : Statement Customer :=
  (Objects.get fun c : Customer => decide (c.id = customerId)).handling .doesNotExist
    (Tx.raise (.app .customerNotFound))

/-- `customer.save(update_fields=["is_active"])` after `customer.is_active = False`. -/
def saveInactive (customerId : Id) : Statement Unit :=
  Objects.save customerId (Customer.setIsActive false)

def disableCustomer (actor : StaffInstance) (customerId : Id) (reason : String)
    (request : Option RequestContext) : Service Customer := do
  Program.require (checkPolicy actor.staff.role "accounts.disable_customer")
    .insufficientPermission
  let (confirmed, actor) ← hasConfirmedMfa actor
  Program.require confirmed .mfaNotConfigured
  Program.require (decide (PyText.strip reason ≠ "")) .reasonRequired
  let customer ← getCustomer customerId
  let customer := { customer with isActive := false }
  saveInactive customer.id
  revokeAllSessions customer.id
  let _ ← writeAuditLog .staff actor.staff.id "accounts.disable_customer" "customer" customer.id
    [("is_active", .bool true)] [("is_active", .bool false)] (PyText.strip reason)
    (clientIp request) (requestId request)
  return customer

/-- `StaffTOTPDevice.objects.filter(staff=target_staff).delete()`. -/
def deleteTotpDevices (staffId : Id) : Statement Unit :=
  Objects.delete fun d : StaffTOTPDevice => decide (d.staffId = staffId)

def resetStaffMfa (actor targetStaff : StaffInstance) (request : Option RequestContext) :
    Service Unit := do
  Program.require (checkPolicy actor.staff.role "accounts.reset_staff_mfa")
    .insufficientPermission
  let actor ← requireConfirmedMfa actor
  let (hadConfirmedMfa, targetStaff) ← hasConfirmedMfa targetStaff
  deleteTotpDevices targetStaff.staff.id
  let _ ← writeAuditLog .staff actor.staff.id "accounts.reset_staff_mfa" "staff"
    targetStaff.staff.id [("mfa_confirmed", .bool hadConfirmedMfa)]
    [("mfa_confirmed", .bool false)] "" (clientIp request) (requestId request)
  return ()

/-! ## What the statements do -/

section Runs

/-- The insert of the staff member meets no constraint. -/
def StaffInsertable (w : World) (email : String) : Prop :=
  (normalizeEmail email).length ≤ 254 ∧ ∀ s ∈ w.db.staff.rows, s.email ≠ normalizeEmail email

instance (w : World) (email : String) : Decidable (StaffInsertable w email) :=
  inferInstanceAs (Decidable (_ ∧ ∀ s ∈ w.db.staff.rows, s.email ≠ normalizeEmail email))

lemma insertStaff_run {w : World} {email password : String} {role : Role}
    (h : StaffInsertable w email) :
    ∃ staff w', (insertStaff email password role).run w = .ok (staff, w') ∧ w'.db ≠ w.db ∧
      w'.db.auditLog = w.db.auditLog := by
  let mk : ℕ → Staff := fun id => {
    id := id
    email := normalizeEmail email
    passwordHash := makePassword password
    role := role }
  have hfits : Model.fits (mk w.db.staff.next) = true := decide_eq_true h.1
  have hfree : ∀ s ∈ w.db.staff.rows, Model.conflicts s (mk w.db.staff.next) = false :=
    fun s hs => decide_eq_false (h.2 s hs)
  have hpk : ∀ i, Model.pk (mk i) = i := fun _ => rfl
  obtain ⟨t, hrun, hrows⟩ := @Objects.run_create_of_free _ ApiError _ _ _ mk hpk w hfits hfree
  refine ⟨_, _, hrun, ?_, rfl⟩
  intro hdb
  have hstaff : t.rows = w.db.staff.rows := congrArg (fun db => db.staff.rows) hdb
  have hlength := congrArg List.length (hrows.symm.trans hstaff)
  rw [List.length_append, List.length_singleton] at hlength
  exact absurd hlength (Nat.succ_ne_self _)

lemma insertStaff_isOk_iff {w : World} {email password : String} {role : Role} :
    (∃ r, (insertStaff email password role).run w = .ok r) ↔ StaffInsertable w email := by
  refine Objects.run_create_isOk_iff.trans ?_
  simp [Model.fits, Model.conflicts, StaffInsertable]

lemma insertStaff_run_of_not {w : World} {email password : String} {role : Role}
    (h : ¬ StaffInsertable w email) : ∃ e, (insertStaff email password role).run w = .error e := by
  cases hrun : (insertStaff email password role).run w with
  | ok r => exact absurd (insertStaff_isOk_iff.1 ⟨r, hrun⟩) h
  | error e => exact ⟨e, rfl⟩

omit [PyText] in
lemma getCustomer_ok {customerId : Id} {w w' : World} {c : Customer}
    (h : (getCustomer customerId).run w = .ok (c, w')) :
    w' = w ∧ c ∈ w.db.customers.rows ∧ c.id = customerId := by
  obtain hget | ⟨-, hraise⟩ := Tx.handling_ok h
  · obtain ⟨rfl, hrow⟩ := Objects.get_ok hget
    exact ⟨rfl, Table.mem_of_get hrow, by simpa using Table.holds_of_get hrow⟩
  · cases hraise

omit [PyText] in
lemma getCustomer_run {w : World} {c : Customer} (hc : c ∈ w.db.customers.rows) :
    (getCustomer c.id).run w = .ok (c, w) := by
  refine Tx.run_handling_ok (Objects.run_get_of_ok ?_)
  refine Table.get_of_unique hc (decide_eq_true rfl) fun c' hc' hid => ?_
  exact w.db.customers.eq_of_pk hc' hc (of_decide_eq_true hid)

omit [PyText] in
lemma getCustomer_run_of_not_mem {w : World} {customerId : Id}
    (h : ∀ c ∈ w.db.customers.rows, c.id ≠ customerId) :
    (getCustomer customerId).run w = .error (.app .customerNotFound) := by
  refine (Tx.run_handling_error (Objects.run_get_of_error ?_)).trans rfl
  exact Table.get_eq_doesNotExist_iff.2 fun c hc => decide_eq_false (h c hc)

omit [PyText] in
/-- The two updates work, and each changes the database unless it finds nothing to change. -/
lemma disableWrites_run {w : World} {c : Customer} (hc : c ∈ w.db.customers.rows) :
    ∃ w₁ n w₂, (saveInactive c.id).run w = .ok ((), w₁) ∧
      (w₁.db = w.db ↔ c.isActive = false) ∧
      (revokeUnrevoked c.id).run w₁ = .ok (n, w₂) ∧
      (w₂.db = w.db ↔
        c.isActive = false ∧ ∀ s ∈ w.db.sessions.rows, unrevokedOf c.id s = false) ∧
      w₂.db.auditLog = w.db.auditLog := by
  have hinactive : w.db.customers.update (fun r => Model.pk r == c.id)
      (Customer.setIsActive false) = w.db.customers ↔ c.isActive = false := by
    refine (w.db.customers.update_pk_eq_self_iff hc).trans ?_
    constructor
    · intro h
      exact (congrArg Customer.isActive h).symm
    · intro h
      change { c with isActive := false } = c
      rw [← h]
  have hrevoked : w.db.sessions.update (unrevokedOf c.id) (Session.setRevokedAt w.now) =
      w.db.sessions ↔ ∀ s ∈ w.db.sessions.rows, unrevokedOf c.id s = false :=
    revoke_eq_self_iff w.now fun _ => revokedAt_of_unrevokedOf
  refine ⟨_, _, _, Objects.run_save_of_mem hc rfl, ?_, rfl, ?_, rfl⟩
  · rw [← hinactive]
    constructor
    · intro h
      exact congrArg Database.customers h
    · intro h
      exact congrArg (fun t => { w.db with customers := t }) h
  · rw [← hinactive, ← hrevoked]
    constructor
    · intro h
      exact ⟨congrArg Database.customers h, congrArg Database.sessions h⟩
    · rintro ⟨hcustomers, hsessions⟩
      exact congrArg₂ (fun t u => { w.db with customers := t, sessions := u }) hcustomers hsessions

omit [PyText] in
lemma deleteTotpDevices_run (staffId : Id) (w : World) :
    ∃ w', (deleteTotpDevices staffId).run w = .ok ((), w') ∧
      (w'.db = w.db ↔ ∀ d ∈ w.db.staffTotpDevices.rows, d.staffId ≠ staffId) ∧
      w'.db.auditLog = w.db.auditLog := by
  refine ⟨_, rfl, ?_, rfl⟩
  have hsame := w.db.staffTotpDevices.delete_eq_self_iff
    (p := fun d : StaffTOTPDevice => decide (d.staffId = staffId))
  simp only [decide_eq_false_iff_not] at hsame
  rw [← hsame]
  constructor
  · intro h
    exact congrArg Database.staffTotpDevices h
  · intro h
    exact congrArg (fun t => { w.db with staffTotpDevices := t }) h

/-- What a call of `disable_customer` that returned has checked and written. -/
lemma disableCustomer_ok {actor : StaffInstance} {customerId : Id} {reason : String}
    {request : Option RequestContext} {w w' : World} {c' : Customer}
    (h : (disableCustomer actor customerId reason request).run w = (.ok c', w')) :
    checkPolicy actor.staff.role "accounts.disable_customer" = true ∧ ConfirmedMfa w actor ∧
      PyText.strip reason ≠ "" ∧ (PyText.strip reason).length ≤ 255 ∧
      (∃ c ∈ w.db.customers.rows, c.id = customerId) ∧
      w'.db.customers = w.db.customers.update (fun r => Model.pk r == customerId)
        (Customer.setIsActive false) ∧
      ∃ entry : AuditLogEntry, entry.action = "accounts.disable_customer" ∧
        entry.actorId = actor.staff.id ∧ entry.resourceId = customerId ∧
        entry.before = .obj (redact [("is_active", .bool true)]) ∧
        entry.after = .obj (redact [("is_active", .bool false)]) ∧
        w'.db.auditLog.rows = w.db.auditLog.rows ++ [entry] := by
  obtain ⟨_, w₁, hpolicy, h₁⟩ := Program.run_bind_ok h
  obtain ⟨⟨confirmed, actor'⟩, w₂, hmfa, h₂⟩ := Program.run_bind_ok h₁
  obtain ⟨_, w₃, hconfirmed, h₃⟩ := Program.run_bind_ok h₂
  obtain ⟨_, w₄, hreason, h₄⟩ := Program.run_bind_ok h₃
  obtain ⟨c, w₅, hget, h₅⟩ := Program.run_bind_ok h₄
  obtain ⟨_, w₆, hsave, h₆⟩ := Program.run_bind_ok h₅
  obtain ⟨_, w₇, hrevoke, h₇⟩ := Program.run_bind_ok h₆
  obtain ⟨entry, w₈, haudit, h₈⟩ := Program.run_bind_ok h₇
  cases h₈
  -- the guards change nothing
  obtain ⟨rfl, hallowed⟩ := Program.run_require_ok hpolicy
  obtain ⟨device, hrun, hdevice⟩ := hasConfirmedMfa_run actor w₁
  rw [hrun] at hmfa
  cases hmfa
  obtain ⟨rfl, hdeviceConfirmed⟩ := Program.run_require_ok hconfirmed
  obtain ⟨rfl, hgiven⟩ := Program.run_require_ok hreason
  obtain ⟨rfl, hmem, rfl⟩ := getCustomer_ok (Program.run_exec_ok hget)
  -- of the two updates, one is of the customer, and neither touches the log
  have hsaved := Objects.save_ok (Program.run_exec_ok hsave)
  have hrevoked : w₇.db.auditLog = w₆.db.auditLog ∧ w₇.db.customers = w₆.db.customers := by
    obtain ⟨_, _, hupdate, hdone⟩ := Program.run_bind_ok hrevoke
    cases hdone
    cases Program.run_exec_ok hupdate
    exact ⟨rfl, rfl⟩
  have hwrite := Program.run_exec_ok haudit
  obtain ⟨hlength, haction, hactor, hresource, hrows⟩ := writeAuditLog_ok hwrite
  obtain ⟨hbefore, hafter⟩ := writeAuditLog_values hwrite
  refine ⟨hallowed, hdevice.1 hdeviceConfirmed, by simpa using hgiven, hlength, ⟨c, hmem, rfl⟩, ?_,
    entry, haction, hactor, hresource, hbefore, hafter, ?_⟩
  · obtain ⟨t, -, rfl⟩ := Objects.create_ok hwrite
    change w₇.db.customers = _
    rw [hrevoked.2, hsaved]
    rfl
  · rw [hrows, hrevoked.1, hsaved]
    rfl

/-- What a call of `reset_staff_mfa` that returned has checked and written. -/
lemma resetStaffMfa_ok {actor targetStaff : StaffInstance} {request : Option RequestContext}
    {w w' : World} (h : (resetStaffMfa actor targetStaff request).run w = (.ok (), w')) :
    checkPolicy actor.staff.role "accounts.reset_staff_mfa" = true ∧ ConfirmedMfa w actor ∧
      w'.db.staffTotpDevices = w.db.staffTotpDevices.delete
        (fun d => decide (d.staffId = targetStaff.staff.id)) ∧
      ∃ (entry : AuditLogEntry) (had : Bool), (had = true ↔ ConfirmedMfa w targetStaff) ∧
        entry.action = "accounts.reset_staff_mfa" ∧ entry.actorId = actor.staff.id ∧
        entry.resourceId = targetStaff.staff.id ∧
        entry.before = .obj (redact [("mfa_confirmed", .bool had)]) ∧
        entry.after = .obj (redact [("mfa_confirmed", .bool false)]) ∧
        w'.db.auditLog.rows = w.db.auditLog.rows ++ [entry] := by
  obtain ⟨_, w₁, hpolicy, h₁⟩ := Program.run_bind_ok h
  obtain ⟨actor', w₂, hmfa, h₂⟩ := Program.run_bind_ok h₁
  obtain ⟨⟨confirmed, target'⟩, w₃, hlookup, h₃⟩ := Program.run_bind_ok h₂
  obtain ⟨_, w₄, hdelete, h₄⟩ := Program.run_bind_ok h₃
  obtain ⟨entry, w₅, haudit, h₅⟩ := Program.run_bind_ok h₄
  cases h₅
  obtain ⟨rfl, hallowed⟩ := Program.run_require_ok hpolicy
  have hguard : ConfirmedMfa w₁ actor := by
    by_contra hnot
    rw [requireConfirmedMfa_run_of_not hnot] at hmfa
    cases hmfa
  obtain ⟨rfl, hstaff⟩ := requireConfirmedMfa_ok hmfa
  obtain ⟨device, hrun, hdevice⟩ := hasConfirmedMfa_run targetStaff w₂
  rw [hrun] at hlookup
  cases hlookup
  have hwrite := Program.run_exec_ok haudit
  obtain ⟨-, haction, hactor, hresource, hrows⟩ := writeAuditLog_ok hwrite
  obtain ⟨hbefore, hafter⟩ := writeAuditLog_values hwrite
  cases Program.run_exec_ok hdelete
  refine ⟨hallowed, hguard, ?_, entry, _, hdevice, haction, ?_, hresource, hbefore, hafter, hrows⟩
  · obtain ⟨t, -, rfl⟩ := Objects.create_ok hwrite
    rfl
  · rw [hactor, hstaff]

end Runs

/-! ## Guarantees -/

section Guarantees

variable {R : World → World → Prop} [Std.Refl R] [IsTrans World R]

omit [PyText] in
lemma hasConfirmedMfa_guarantees (staff : StaffInstance) :
    (hasConfirmedMfa staff).Guarantees R := by
  have hfind : (findTotpDevice staff.staff.id).Guarantees R :=
    ((Objects.guarantees_get _).bind fun _ => Tx.guarantees_pure _).handling _
      (Tx.guarantees_pure _)
  have hload : (loadTotpDevice staff).Guarantees R := by
    unfold loadTotpDevice
    split
    · trivial
    · exact Program.guarantees_exec hfind
  exact hload.bind fun _ => trivial

omit [PyText] [IsTrans World R] in
lemma getCustomer_guarantees (customerId : Id) : (getCustomer customerId).Guarantees R :=
  (Objects.guarantees_get _).handling _ (Tx.guarantees_raise _)

/-- `disable_customer` moves the world as its three writes do. -/
lemma disableCustomer_guarantees {actor : StaffInstance} {customerId : Id} {reason : String}
    {request : Option RequestContext} (hsave : ∀ id, (saveInactive id).Guarantees R)
    (hrevoke : ∀ id, (revokeUnrevoked id).Guarantees R)
    (haudit : ∀ w (t : Table AuditLogEntry), R w (Stored.put t w)) :
    (disableCustomer actor customerId reason request).Guarantees R := by
  refine (Program.guarantees_require _ _).bind fun _ => ?_
  refine (hasConfirmedMfa_guarantees actor).bind fun ⟨confirmed, actor⟩ => ?_
  refine (Program.guarantees_require _ _).bind fun _ => ?_
  refine (Program.guarantees_require _ _).bind fun _ => ?_
  refine (Program.guarantees_exec (getCustomer_guarantees customerId)).bind fun customer => ?_
  refine (Program.guarantees_exec (hsave _)).bind fun _ => ?_
  refine (revokeAllSessions_guarantees (hrevoke _)).bind fun _ => ?_
  exact (Program.guarantees_exec (writeAuditLog_guarantees haudit)).bind fun _ => trivial

/-- `reset_staff_mfa` moves the world as its two writes do. -/
lemma resetStaffMfa_guarantees {actor targetStaff : StaffInstance}
    {request : Option RequestContext} (hdelete : ∀ id, (deleteTotpDevices id).Guarantees R)
    (haudit : ∀ w (t : Table AuditLogEntry), R w (Stored.put t w)) :
    (resetStaffMfa actor targetStaff request).Guarantees R := by
  have hguard : (requireConfirmedMfa actor).Guarantees R :=
    (hasConfirmedMfa_guarantees actor).bind fun _ =>
      (Program.guarantees_require _ _).bind fun _ => trivial
  refine (Program.guarantees_require _ _).bind fun _ => ?_
  refine hguard.bind fun actor => ?_
  refine (hasConfirmedMfa_guarantees targetStaff).bind fun ⟨confirmed, target⟩ => ?_
  refine (Program.guarantees_exec (hdelete _)).bind fun _ => ?_
  exact (Program.guarantees_exec (writeAuditLog_guarantees haudit)).bind fun _ => trivial

end Guarantees

/-! ## A world to act in -/

/-- An administrator with a confirmed device. -/
def enrollAdministrator : Service StaffInstance := do
  let staff ← (Objects.create fun id => {
    id := id
    email := "admin@example.com"
    passwordHash := makePassword "teapot-on-fire"
    role := .masterAdmin } : Statement Staff)
  let _ ← (Objects.create fun id => {
    id := id
    staffId := staff.id
    key := 0
    confirmedAt := some 0 } : Statement StaffTOTPDevice)
  return { staff := staff }

def administeredWorld : World := (enrollAdministrator.run {}).2

/-- The instance of the administrator, before anything is looked up through it. -/
def administrator : StaffInstance where
  staff := {
    id := 0
    email := "admin@example.com"
    passwordHash := makePassword "teapot-on-fire"
    role := .masterAdmin }

end BePyEco
