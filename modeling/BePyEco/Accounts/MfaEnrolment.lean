import BePyEco.Accounts.Staff
import BePyEco.Library.Trace

/-!
# MFA enrolment

`start_mfa_setup` and `confirm_mfa_setup` with their views, and when a run of them and of
`reset_staff_mfa` discloses the secret of a device that is confirmed.

`start_mfa_setup` is a `get_or_create`: it hands out the key of the device that the staff member
has, confirmed or not.  A run keeps every confirmed secret exactly when no setup is started for a
staff member with a confirmed device (`neverDisclosed_iff`).
-/

namespace BePyEco

open Library Library.Program

/-! ## The services -/

/-- `int(token)`, and the codes of the TOTP library: `totp(key, drift=drift)` at a time. -/
class Totp where
  int : String → Option ℤ
  totp : TotpKey → Time → ℤ → ℤ

/-- What the provisioning URI is made of; `secret` is the key in base 32. -/
structure ProvisioningUri where
  issuer : String
  email : String
  secret : TotpKey
  deriving DecidableEq, Repr

/-- `_provisioning_uri(device)`; `owner` is `device.staff`. -/
def provisioningUri (device : StaffTOTPDevice) (owner : Staff) : ProvisioningUri where
  issuer := "be-py-eco"
  email := owner.email
  secret := device.key

/-- `StaffTOTPDevice.objects.get(staff=staff)`. -/
def getTotpDevice (staffId : Id) : Statement StaffTOTPDevice :=
  Objects.get fun d : StaffTOTPDevice => decide (d.staffId = staffId)

/-- The create of `get_or_create`, and what a conflict makes of it.  A device that was created has
the instance in `device.staff`. -/
def createTotpDevice (staff : Staff) : Statement (StaffTOTPDevice × Option Staff) :=
  (do let key ← drawRandom
      let device ← Objects.create fun id => ({
        id := id
        staffId := staff.id
        key := key } : StaffTOTPDevice)
      return (device, some staff) : Statement (StaffTOTPDevice × Option Staff)).handling
    .integrityError
    (do let device ← (getTotpDevice staff.id).handling .doesNotExist
          (Tx.raise (.db .integrityError))
        return (device, none))

/-- `StaffTOTPDevice.objects.get_or_create(staff=staff)`. -/
def getOrCreateTotpDevice (staff : Staff) : Service (StaffTOTPDevice × Option Staff) := do
  match ← findTotpDevice staff.id with
  | some device => return (device, none)
  | none => createTotpDevice staff

/-- `device.staff`, looked up unless the instance has it. -/
def deviceStaff (device : StaffTOTPDevice) (cached : Option Staff) : Service Staff :=
  match cached with
  | some staff => pure staff
  | none => (Objects.get fun s : Staff => decide (s.id = device.staffId) : Statement Staff)

def startMfaSetup (staff : StaffInstance) : Service (StaffTOTPDevice × ProvisioningUri) := do
  let (device, cached) ← getOrCreateTotpDevice staff.staff
  let owner ← deviceStaff device cached
  return (device, provisioningUri device owner)

/-- `device.verify_token(token)`: the code of now, or the one before it. -/
def verifyToken [Totp] (device : StaffTOTPDevice) (token : String) : Statement Bool := do
  let now ← timezoneNow
  match Totp.int token with
  | none => return false
  | some tokenInt =>
    return [0, -1].any fun drift => decide (Totp.totp device.key now drift = tokenInt)

/-- `device.confirmed_at = timezone.now()` and its save. -/
def saveConfirmedAt (device : StaffTOTPDevice) : Statement StaffTOTPDevice := do
  let now ← timezoneNow
  Objects.save device.id (StaffTOTPDevice.setConfirmedAt now)
  return { device with confirmedAt := some now }

def confirmMfaSetup [Totp] (staff : StaffInstance) (token : String) :
    Service StaffTOTPDevice := do
  match ← loadTotpDevice staff with
  | none => Program.raise .invalidMfaToken
  | some device =>
    let verified ← verifyToken device token
    Program.require verified .invalidMfaToken
    saveConfirmedAt device

/-! ## The views -/

/-- `IsStaff`, and the staff member behind the request. -/
def staffUser (user : Actor) : Service Staff :=
  match user with
  | .staff staff => pure staff
  | .customer _ => Program.raise .permissionDenied

/-- `MfaSetupView.post`; the URI is the data of the response. -/
def mfaSetupView (user : Actor) : Service ProvisioningUri := do
  let staff ← staffUser user
  let (_, uri) ← startMfaSetup { staff := staff }
  return uri

/-- `MfaConfirmView.post` with a validated token. -/
def mfaConfirmView [Totp] (user : Actor) (token : String) : Service Unit := do
  let staff ← staffUser user
  let _ ← confirmMfaSetup { staff := staff } token
  return ()

/-! ## Runs -/

/-- A call of the enrolment.  A staff instance may be any copy of the row, with any device in its
cache. -/
inductive MfaCall
  | startMfaSetup (staff : StaffInstance)
  | confirmMfaSetup (staff : StaffInstance) (token : String)
  | resetStaffMfa (actor targetStaff : StaffInstance) (request : Option RequestContext)
  | mfaSetupView (user : Actor)
  | mfaConfirmView (user : Actor) (token : String)

/-- The service a call runs; its result is the provisioning URI that the call returns, if any. -/
def MfaCall.service [PyText] [Totp] : MfaCall → Service (Option ProvisioningUri)
  | startMfaSetup staff => do
    let (_, uri) ← BePyEco.startMfaSetup staff
    return some uri
  | confirmMfaSetup staff token => do
    let _ ← BePyEco.confirmMfaSetup staff token
    return none
  | resetStaffMfa actor targetStaff request => do
    BePyEco.resetStaffMfa actor targetStaff request
    return none
  | mfaSetupView user => do
    let uri ← BePyEco.mfaSetupView user
    return some uri
  | mfaConfirmView user token => do
    BePyEco.mfaConfirmView user token
    return none

/-- The staff member whose setup a call starts. -/
def MfaCall.setsUp : MfaCall → Option Staff
  | startMfaSetup staff => some staff.staff
  | mfaSetupView (.staff staff) => some staff
  | _ => none

abbrev MfaEvent := Event MfaCall World ApiError (Option ProvisioningUri)

/-- The staff member is stored. -/
def IsStored (w : World) (staffId : Id) : Prop := ∃ s ∈ w.db.staff.rows, s.id = staffId

/-- The staff member of a setup is stored. -/
def OfStoredStaff (_ : List MfaEvent) (w : World) (call : MfaCall) : Prop :=
  ∀ staff, call.setsUp = some staff → IsStored w staff.id

/-- Random values may be drawn, staff added, and devices confirmed or deleted; a device that is
there was there before, with the key and for the staff member it has. -/
structure KeepsKeys (w w' : World) : Prop where
  entropy : w.entropy ≤ w'.entropy
  staff : ∀ staffId, IsStored w staffId → IsStored w' staffId
  devices : ∀ d' ∈ w'.db.staffTotpDevices.rows, ∃ d ∈ w.db.staffTotpDevices.rows,
    d.id = d'.id ∧ d.staffId = d'.staffId ∧ d.key = d'.key

/-- Traces of enrolment calls, with any other change in between that adds no device. -/
abbrev MfaTrace [PyText] [Totp] (w₀ : World) : List MfaEvent → World → Prop :=
  Trace MfaCall.service OfStoredStaff KeepsKeys w₀

/-- The staff member has a confirmed device. -/
def HasConfirmedDevice (w : World) (staffId : Id) : Prop :=
  ∃ d ∈ w.db.staffTotpDevices.rows, d.staffId = staffId ∧ d.isConfirmed = true

/-- No call returned a URI with the key of a device that was confirmed when the call began. -/
def NeverDisclosed (log : List MfaEvent) : Prop :=
  ∀ e ∈ log, ∀ uri, e.result = .ok (some uri) →
    ∀ d ∈ e.before.db.staffTotpDevices.rows, d.isConfirmed = true → uri.secret ≠ d.key

/-- No setup was started for a staff member with a confirmed device. -/
def NoConfirmedSetup (log : List MfaEvent) : Prop :=
  ∀ e ∈ log, ∀ staff, e.call.setsUp = some staff → ¬ HasConfirmedDevice e.before staff.id

/-! ## The devices -/

/-- The devices of a world: no two have one key, every key was drawn, and every staff member with
a device is stored. -/
structure DevicesSound (w : World) : Prop where
  drawn : ∀ d ∈ w.db.staffTotpDevices.rows, d.key < w.entropy
  distinct : ∀ a ∈ w.db.staffTotpDevices.rows, ∀ b ∈ w.db.staffTotpDevices.rows,
    a.key = b.key → a = b
  stored : ∀ d ∈ w.db.staffTotpDevices.rows, IsStored w d.staffId

instance : Std.Refl KeepsKeys where
  refl _ := ⟨le_refl _, fun _ h => h, fun d hd => ⟨d, hd, rfl, rfl, rfl⟩⟩

instance : IsTrans World KeepsKeys where
  trans a b c hab hbc := by
    refine ⟨hab.entropy.trans hbc.entropy, fun id h => hbc.staff id (hab.staff id h), ?_⟩
    intro d'' hd''
    obtain ⟨d', hd', hid', hstaff', hkey'⟩ := hbc.devices d'' hd''
    obtain ⟨d, hd, hid, hstaff, hkey⟩ := hab.devices d' hd'
    exact ⟨d, hd, hid.trans hid', hstaff.trans hstaff', hkey.trans hkey'⟩

lemma KeepsKeys.of_eq {w w' : World} (hentropy : w'.entropy = w.entropy)
    (hstaff : w'.db.staff = w.db.staff)
    (hdevices : w'.db.staffTotpDevices = w.db.staffTotpDevices) : KeepsKeys w w' := by
  refine ⟨hentropy.ge, fun id h => ?_, fun d hd => ?_⟩
  · unfold IsStored
    rw [hstaff]
    exact h
  · rw [hdevices] at hd
    exact ⟨d, hd, rfl, rfl, rfl⟩

lemma KeepsKeys.devicesSound {w w' : World} (h : KeepsKeys w w') (hw : DevicesSound w) :
    DevicesSound w' := by
  refine ⟨fun d' hd' => ?_, fun a' ha' b' hb' hkeys => ?_, fun d' hd' => ?_⟩
  · obtain ⟨d, hd, -, -, hkey⟩ := h.devices d' hd'
    rw [← hkey]
    exact lt_of_lt_of_le (hw.drawn d hd) h.entropy
  · obtain ⟨a, ha, haid, -, hakey⟩ := h.devices a' ha'
    obtain ⟨b, hb, hbid, -, hbkey⟩ := h.devices b' hb'
    have hab : a = b := hw.distinct a ha b hb ((hakey.trans hkeys).trans hbkey.symm)
    refine w'.db.staffTotpDevices.eq_of_pk ha' hb' (haid.symm.trans ?_)
    rw [hab]
    exact hbid
  · obtain ⟨d, hd, -, hstaff, -⟩ := h.devices d' hd'
    rw [← hstaff]
    exact h.staff _ (hw.stored d hd)

/-- A device with a new key for a stored staff member may be added. -/
lemma DevicesSound.add {w w' : World} (hw : DevicesSound w) {d : StaffTOTPDevice}
    (hrows : w'.db.staffTotpDevices.rows = w.db.staffTotpDevices.rows ++ [d])
    (hstaff : w'.db.staff = w.db.staff) (hkey : d.key = w.entropy)
    (hentropy : w'.entropy = w.entropy + 1) (hstored : IsStored w d.staffId) :
    DevicesSound w' := by
  have hmem : ∀ d' ∈ w'.db.staffTotpDevices.rows, d' ∈ w.db.staffTotpDevices.rows ∨ d' = d := by
    intro d' hd'
    rw [hrows, List.mem_append, List.mem_singleton] at hd'
    exact hd'
  have hnew : ∀ d' ∈ w.db.staffTotpDevices.rows, d'.key ≠ d.key := by
    intro d' hd'
    rw [hkey]
    exact Nat.ne_of_lt (hw.drawn d' hd')
  refine ⟨fun d' hd' => ?_, fun a ha b hb hkeys => ?_, fun d' hd' => ?_⟩
  · rw [hentropy]
    obtain hd' | rfl := hmem d' hd'
    · exact Nat.lt_succ_of_lt (hw.drawn d' hd')
    · rw [hkey]
      exact Nat.lt_succ_self _
  · obtain ha | rfl := hmem a ha
    · obtain hb | rfl := hmem b hb
      · exact hw.distinct a ha b hb hkeys
      · exact absurd hkeys (hnew a ha)
    · obtain hb | rfl := hmem b hb
      · exact absurd hkeys.symm (hnew b hb)
      · rfl
  · have hstored' : IsStored w d'.staffId := by
      obtain hd' | rfl := hmem d' hd'
      · exact hw.stored d' hd'
      · exact hstored
    unfold IsStored
    rw [hstaff]
    exact hstored'

/-! ## What a setup does -/

lemma deviceStaff_run {w : World} {d : StaffTOTPDevice} (h : IsStored w d.staffId) :
    ∃ owner, (deviceStaff d none).run w = (.ok owner, w) := by
  obtain ⟨s, hs, hid⟩ := h
  have hget : w.db.staff.get (fun s : Staff => decide (s.id = d.staffId)) = .ok s := by
    refine Table.get_of_unique hs (decide_eq_true hid) fun s' hs' hid' => ?_
    exact w.db.staff.eq_of_pk hs' hs ((of_decide_eq_true hid').trans hid.symm)
  refine ⟨s, ?_⟩
  rw [deviceStaff, Program.liftM_eq, Program.run_exec, Tx.exec_ok (Objects.run_get_of_ok hget)]

/-- A device is created under a key that was not drawn before. -/
lemma createTotpDevice_run {w : World} (hw : DevicesSound w) {staff : Staff}
    (hstored : IsStored w staff.id)
    (hfree : ∀ d ∈ w.db.staffTotpDevices.rows, decide (d.staffId = staff.id) = false) :
    ∃ d w', (createTotpDevice staff).run w = .ok ((d, some staff), w') ∧ d.key = w.entropy ∧
      DevicesSound w' := by
  let drawnWorld : World := { w with entropy := w.entropy + 1 }
  let mk : ℕ → StaffTOTPDevice := fun id => { id := id, staffId := staff.id, key := w.entropy }
  have hpk : ∀ i, Model.pk (mk i) = i := fun _ => rfl
  have hconflict : ∀ r ∈ w.db.staffTotpDevices.rows,
      Model.conflicts r (mk w.db.staffTotpDevices.next) = false := hfree
  obtain ⟨t, hcreate, hrows⟩ := @Objects.run_create_of_free World ApiError _ _ _ mk hpk
    drawnWorld rfl hconflict
  have hcreate' : (Objects.create mk hpk : Statement StaffTOTPDevice).run drawnWorld =
    .ok (mk w.db.staffTotpDevices.next, Stored.put t drawnWorld) := hcreate
  refine ⟨mk w.db.staffTotpDevices.next, Stored.put t drawnWorld, ?_, rfl,
    hw.add (d := mk w.db.staffTotpDevices.next) hrows rfl rfl rfl hstored⟩
  refine Tx.run_handling_ok ?_
  rw [Tx.run_bind, run_drawRandom]
  dsimp only
  rw [Tx.run_bind, hcreate']
  rfl

/-- A setup hands out the key of the device that the staff member has, or creates one. -/
lemma startMfaSetup_run {w : World} (hw : DevicesSound w) {staff : StaffInstance}
    (hstored : IsStored w staff.staff.id) :
    (∃ d ∈ w.db.staffTotpDevices.rows, d.staffId = staff.staff.id ∧
        ∃ uri, uri.secret = d.key ∧ (startMfaSetup staff).run w = (.ok (d, uri), w)) ∨
      (∃ d uri w', (startMfaSetup staff).run w = (.ok (d, uri), w') ∧ uri.secret = w.entropy ∧
        (∀ d' ∈ w.db.staffTotpDevices.rows, d'.staffId ≠ staff.staff.id) ∧
          DevicesSound w') := by
  have huniq : ∀ a ∈ w.db.staffTotpDevices.rows, ∀ b ∈ w.db.staffTotpDevices.rows,
      decide (a.staffId = staff.staff.id) = true → decide (b.staffId = staff.staff.id) = true →
        a = b := by
    intro a ha b hb hpa hpb
    refine w.db.staffTotpDevices.eq_of_conflicts ha hb (decide_eq_true ?_)
    rw [of_decide_eq_true hpa, of_decide_eq_true hpb]
  obtain ⟨d, hd, hp, hget⟩ | hnone := Table.get_cases huniq
  · have hfind : (findTotpDevice staff.staff.id).run w = .ok (some d, w) := by
      refine Tx.run_handling_ok ?_
      rw [Tx.run_bind, Objects.run_get_of_ok hget]
      rfl
    obtain ⟨owner, howner⟩ := deviceStaff_run (hw.stored d hd)
    refine Or.inl ⟨d, hd, of_decide_eq_true hp, provisioningUri d owner, rfl, ?_⟩
    rw [startMfaSetup, getOrCreateTotpDevice, Program.bind_assoc, Program.run_bind,
      Program.liftM_eq, Program.run_exec, Tx.exec_ok hfind]
    change (deviceStaff d none >>= fun owner =>
      Program.done (.ok (d, provisioningUri d owner))).run w = _
    rw [Program.run_bind, howner]
    rfl
  · have hfree := Table.get_eq_doesNotExist_iff.1 hnone
    have hfind : (findTotpDevice staff.staff.id).run w = .ok (none, w) := by
      refine (Tx.run_handling_error ?_).trans rfl
      rw [Tx.run_bind, Objects.run_get_of_error hnone]
    obtain ⟨d, w', hrun, hkey, hsound⟩ := createTotpDevice_run hw hstored hfree
    refine Or.inr ⟨d, provisioningUri d staff.staff, w', ?_, hkey,
      fun d' hd' => of_decide_eq_false (hfree d' hd'), hsound⟩
    rw [startMfaSetup, getOrCreateTotpDevice, Program.bind_assoc, Program.run_bind,
      Program.liftM_eq, Program.run_exec, Tx.exec_ok hfind]
    dsimp only
    rw [Program.run_bind, Program.liftM_eq, Program.run_exec, Tx.exec_ok hrun]
    rfl

/-! ## What the other calls do -/

section Guarantees

lemma saveConfirmedAt_keepsKeys (device : StaffTOTPDevice) :
    (saveConfirmedAt device).Guarantees KeepsKeys := by
  refine Tx.Guarantees.bind (Tx.guarantees_read _) fun _ => ?_
  refine Tx.Guarantees.bind ?_ fun _ => Tx.guarantees_pure _
  refine Objects.guarantees_save fun _ => ⟨le_refl _, fun _ h => h, fun d' hd' => ?_⟩
  obtain ⟨d, hd, rfl⟩ := (Table.mem_update _).1 hd'
  refine ⟨d, hd, ?_⟩
  unfold Assignment.on
  split
  · exact ⟨rfl, rfl, rfl⟩
  · exact ⟨rfl, rfl, rfl⟩

lemma deleteTotpDevices_keepsKeys (staffId : Id) :
    (deleteTotpDevices staffId).Guarantees KeepsKeys :=
  Objects.guarantees_delete fun _ =>
    ⟨le_refl _, fun _ h => h, fun d hd => ⟨d, ((Table.mem_delete _).1 hd).1, rfl, rfl, rfl⟩⟩

lemma verifyToken_keepsKeys [Totp] (device : StaffTOTPDevice) (token : String) :
    (verifyToken device token).Guarantees KeepsKeys := by
  refine Tx.Guarantees.bind (Tx.guarantees_read _) fun now => ?_
  split
  · exact Tx.guarantees_pure _
  · exact Tx.guarantees_pure _

lemma confirmMfaSetup_keepsKeys [Totp] (staff : StaffInstance) (token : String) :
    (confirmMfaSetup staff token).Guarantees KeepsKeys := by
  have hload : (loadTotpDevice staff).Guarantees KeepsKeys := by
    unfold loadTotpDevice
    split
    · trivial
    · refine Program.guarantees_exec (Tx.Guarantees.handling ?_ _ (Tx.guarantees_pure _))
      exact Tx.Guarantees.bind (Objects.guarantees_get _) fun _ => Tx.guarantees_pure _
  refine hload.bind fun device => ?_
  cases device with
  | none => trivial
  | some device =>
      refine (Program.guarantees_exec (verifyToken_keepsKeys device token)).bind fun _ => ?_
      refine (Program.guarantees_require _ _).bind fun _ => ?_
      exact Program.guarantees_exec (saveConfirmedAt_keepsKeys device)

lemma mfaConfirmView_keepsKeys [Totp] (user : Actor) (token : String) :
    (mfaConfirmView user token).Guarantees KeepsKeys := by
  cases user with
  | customer c => trivial
  | staff s => exact (confirmMfaSetup_keepsKeys { staff := s } token).bind fun _ => trivial

lemma resetStaffMfa_keepsKeys [PyText] (actor targetStaff : StaffInstance)
    (request : Option RequestContext) :
    (resetStaffMfa actor targetStaff request).Guarantees KeepsKeys :=
  resetStaffMfa_guarantees deleteTotpDevices_keepsKeys fun _ _ => .of_eq rfl rfl rfl

end Guarantees

/-! ## Along every run -/

section Runs

variable [PyText] [Totp] {w w₀ : World} {log : List MfaEvent}

/-- A call that starts no setup discloses nothing and adds no device. -/
lemma MfaCall.run_of_setsUp_none {call : MfaCall} (h : call.setsUp = none) (w : World) :
    KeepsKeys w (call.service.run w).2 ∧ ∀ uri, (call.service.run w).1 ≠ .ok (some uri) := by
  have hnone : ∀ {α : Type} (p : Service α), p.Guarantees KeepsKeys →
      KeepsKeys w ((p >>= fun _ => return none : Service (Option ProvisioningUri)).run w).2 ∧
        ∀ uri, ((p >>= fun _ => return none : Service (Option ProvisioningUri)).run w).1 ≠
          .ok (some uri) := by
    intro α p hp
    refine ⟨?_, fun uri hresult => ?_⟩
    · rw [Program.run_bind_return]
      exact hp.run w
    · obtain ⟨_, w₁, -, hreturn⟩ := Program.run_bind_ok (Prod.ext hresult rfl)
      cases hreturn
  cases call with
  | startMfaSetup staff => cases h
  | confirmMfaSetup staff token => exact hnone _ (confirmMfaSetup_keepsKeys staff token)
  | resetStaffMfa actor target request =>
      exact hnone _ (resetStaffMfa_keepsKeys actor target request)
  | mfaSetupView user =>
      cases user with
      | customer c =>
          refine ⟨refl_of KeepsKeys w, fun uri hresult => ?_⟩
          cases hresult
      | staff s => cases h
  | mfaConfirmView user token => exact hnone _ (mfaConfirmView_keepsKeys user token)

/-- A call that starts a setup hands out the key of the device that the staff member has, or
creates one. -/
lemma MfaCall.run_of_setsUp {call : MfaCall} {staff : Staff} (h : call.setsUp = some staff)
    (hw : DevicesSound w) (hstored : IsStored w staff.id) :
    (∃ d ∈ w.db.staffTotpDevices.rows, d.staffId = staff.id ∧
        ∃ uri : ProvisioningUri, uri.secret = d.key ∧ call.service.run w = (.ok (some uri), w)) ∨
      (∃ (uri : ProvisioningUri) (w' : World), call.service.run w = (.ok (some uri), w') ∧
        uri.secret = w.entropy ∧ (∀ d ∈ w.db.staffTotpDevices.rows, d.staffId ≠ staff.id) ∧
          DevicesSound w') := by
  have hsetup : ∃ instance' : StaffInstance, instance'.staff = staff ∧
      ∀ d uri w', (BePyEco.startMfaSetup instance').run w = (.ok (d, uri), w') →
        call.service.run w = (.ok (some uri), w') := by
    cases call with
    | startMfaSetup instance' =>
        refine ⟨instance', Option.some.inj h, fun d uri w' hrun => ?_⟩
        rw [MfaCall.service, Program.run_bind, hrun]
        rfl
    | mfaSetupView user =>
        cases user with
        | customer c => cases h
        | staff s =>
            refine ⟨{ staff := s }, Option.some.inj h, fun d uri w' hrun => ?_⟩
            have hview : (BePyEco.mfaSetupView (.staff s)).run w = (.ok uri, w') := by
              change (BePyEco.startMfaSetup { staff := s } >>= fun r =>
                Program.done (.ok r.2)).run w = _
              rw [Program.run_bind, hrun]
              rfl
            rw [MfaCall.service, Program.run_bind, hview]
            rfl
    | _ => cases h
  obtain ⟨instance', rfl, hcall⟩ := hsetup
  obtain ⟨d, hd, hstaff, uri, huri, hrun⟩ | ⟨d, uri, w', hrun, huri, hnone, hsound⟩ :=
    startMfaSetup_run hw hstored
  · exact Or.inl ⟨d, hd, hstaff, uri, huri, hcall d uri w hrun⟩
  · exact Or.inr ⟨uri, w', hcall d uri w' hrun, huri, hnone, hsound⟩

lemma devicesSound_of_trace (hstart : DevicesSound w₀) (h : MfaTrace w₀ log w) :
    DevicesSound w := by
  refine Trace.invariant (I := fun _ => DevicesSound) hstart (fun log w call hw hok => ?_)
    (fun _ _ _ hw hmove => hmove.devicesSound hw) h
  change DevicesSound (call.service.run w).2
  cases hsets : call.setsUp with
  | none => exact (MfaCall.run_of_setsUp_none hsets w).1.devicesSound hw
  | some staff =>
      obtain ⟨_, -, -, uri, -, hrun⟩ | ⟨uri, w', hrun, -, -, hsound⟩ :=
        MfaCall.run_of_setsUp hsets hw (hok staff hsets)
      · rw [hrun]
        exact hw
      · rw [hrun]
        exact hsound

/-- A run discloses no confirmed secret exactly when no setup is started for a staff member with a
confirmed device. -/
theorem neverDisclosed_iff (hstart : DevicesSound w₀) (h : MfaTrace w₀ log w) :
    NeverDisclosed log ↔ NoConfirmedSetup log := by
  constructor
  · rintro hnever e he staff hsets ⟨d, hd, hstaff, hconfirmed⟩
    obtain ⟨log₀, hearlier, hok, hevent⟩ := h.of_mem he
    have hsound : DevicesSound e.before := devicesSound_of_trace hstart hearlier
    obtain ⟨d', hd', hstaff', uri, huri, hrun⟩ | ⟨uri, w', hrun, -, hnone, -⟩ :=
      MfaCall.run_of_setsUp hsets hsound (hok staff hsets)
    · have hsame : d' = d := e.before.db.staffTotpDevices.eq_of_conflicts hd' hd
        (decide_eq_true (hstaff'.trans hstaff.symm))
      have hresult : e.result = .ok (some uri) := by
        rw [hevent]
        exact congrArg Prod.fst hrun
      rw [hsame] at huri
      exact hnever e he uri hresult d hd hconfirmed huri
    · exact hnone d hd hstaff
  · intro hsetups e he uri hresult d hd hconfirmed huri
    obtain ⟨log₀, hearlier, hok, hevent⟩ := h.of_mem he
    have hsound : DevicesSound e.before := devicesSound_of_trace hstart hearlier
    have hservice : (e.call.service.run e.before).1 = .ok (some uri) := by
      rw [hevent] at hresult
      exact hresult
    cases hsets : e.call.setsUp with
    | none => exact (MfaCall.run_of_setsUp_none hsets e.before).2 uri hservice
    | some staff =>
        obtain ⟨d', hd', hstaff', uri', huri', hrun⟩ | ⟨uri', w', hrun, hfresh, -, -⟩ :=
          MfaCall.run_of_setsUp hsets hsound (hok staff hsets)
        · rw [hrun] at hservice
          cases hservice
          have hsame : d' = d := hsound.distinct d' hd' d hd (huri'.symm.trans huri)
          rw [hsame] at hstaff'
          exact hsetups e he staff hsets ⟨d, hd, hstaff', hconfirmed⟩
        · rw [hrun] at hservice
          cases hservice
          have hlt := hsound.drawn d hd
          rw [← huri, hfresh] at hlt
          exact absurd hlt (lt_irrefl _)

end Runs

/-! ### A secret that is handed out twice -/

section Example

attribute [local instance] plainText

/-- The library on the tokens of the examples: at time 0 the code of key 0 is 755224. -/
@[reducible] def firstCodes : Totp where
  int token := if token = "755224" then some 755224 else none
  totp key _ _ := if key = 0 then 755224 else 0

attribute [local instance] firstCodes

/-- A staff member who has not enrolled. -/
def newStaffWorld : World :=
  ((Program.exec (insertStaff "staff@example.com" "teapot-on-fire" .orderStaff)).run {}).2

def newStaff : Staff where
  id := 0
  email := "staff@example.com"
  passwordHash := makePassword "teapot-on-fire"
  role := .orderStaff

/-- Set up, confirm, and set up again. -/
def setupTwice : List MfaEvent × World :=
  Trace.execute MfaCall.service [.mfaSetupView (.staff newStaff),
    .mfaConfirmView (.staff newStaff) "755224", .mfaSetupView (.staff newStaff)]
    ([], newStaffWorld)

/-- Set up twice before the confirmation. -/
def setupBefore : List MfaEvent × World :=
  Trace.execute MfaCall.service [.mfaSetupView (.staff newStaff),
    .mfaSetupView (.staff newStaff), .mfaConfirmView (.staff newStaff) "755224"]
    ([], newStaffWorld)

lemma devicesSound_newStaffWorld : DevicesSound newStaffWorld := by
  refine ⟨?_, ?_, ?_⟩
  · intro d hd
    cases hd
  · intro a ha
    cases ha
  · intro d hd
    cases hd

lemma isStored_newStaff {w : World} (h : newStaff ∈ w.db.staff.rows) {call : MfaCall}
    (hsets : ∀ staff, call.setsUp = some staff → staff = newStaff) (log : List MfaEvent) :
    OfStoredStaff log w call := by
  intro staff hstaff
  rw [hsets staff hstaff]
  exact ⟨newStaff, h, rfl⟩

lemma setup_of_newStaff (staff : Staff)
    (h : (MfaCall.mfaSetupView (.staff newStaff)).setsUp = some staff) : staff = newStaff :=
  (Option.some.inj h).symm

lemma confirm_of_newStaff (staff : Staff)
    (h : (MfaCall.mfaConfirmView (.staff newStaff) "755224").setsUp = some staff) :
    staff = newStaff := by
  cases h

/-- A setup that is repeated before the confirmation is no disclosure. -/
theorem neverDisclosed_before_confirmation :
    NeverDisclosed setupBefore.1 ↔ NoConfirmedSetup setupBefore.1 := by
  have htrace : MfaTrace newStaffWorld setupBefore.1 setupBefore.2 :=
    Trace.execute_of_allowed .refl
      ⟨isStored_newStaff (by decide) setup_of_newStaff _,
        isStored_newStaff (by decide) setup_of_newStaff _,
        isStored_newStaff (by decide) confirm_of_newStaff _, trivial⟩
  exact neverDisclosed_iff devicesSound_newStaffWorld htrace

/-- A setup after the confirmation hands the confirmed secret out again. -/
theorem not_neverDisclosed :
    MfaTrace newStaffWorld setupTwice.1 setupTwice.2 ∧ ¬ NeverDisclosed setupTwice.1 := by
  refine ⟨Trace.execute_of_allowed .refl
    ⟨isStored_newStaff (by decide) setup_of_newStaff _,
      isStored_newStaff (by decide) confirm_of_newStaff _,
      isStored_newStaff (by decide) setup_of_newStaff _, trivial⟩, fun hnever => ?_⟩
  let confirmed : StaffTOTPDevice := { id := 0, staffId := 0, key := 0, confirmedAt := some 0 }
  let uri : ProvisioningUri :=
    { issuer := "be-py-eco", email := "staff@example.com", secret := 0 }
  exact hnever _ List.mem_cons_self uri rfl confirmed (by decide) rfl rfl

end Example

end BePyEco
