import BePyEco.Accounts.MfaEnrolment
import BePyEco.Library.Recording

/-!
# Proven devices

`confirm_mfa_setup` checks a token against the key of the instance that it has loaded, and saves the
row of that instance.  The log records the devices that were created, the tokens that were accepted
and the resets; every entry is justified by those before it (`EnrolmentEntry.Because`).

In every interleaving a confirmed device has accepted a token for its own key since it was created,
and after a reset the device of the staff member is a new one with a new key.
-/

namespace BePyEco

open Library Library.Program

/-! ## The log -/

/-- A device was created, an instance of a device has accepted a token, or the devices of a staff
member were deleted. -/
inductive EnrolmentEntry
  | created (id staffId : Id) (key : TotpKey)
  | verified (id : Id) (key : TotpKey) (token : String) (now : Time)
  | reset (staffId : Id)
  deriving DecidableEq, Repr

abbrev EnrolmentStore := Recorded World EnrolmentEntry

abbrev RecordingEnrolment := Program EnrolmentStore ApiError

section Totp

variable [Totp]

/-- The token is the code of the key now, or the one before it. -/
def AcceptsToken (key : TotpKey) (now : Time) (token : String) : Prop :=
  ∃ tokenInt, Totp.int token = some tokenInt ∧
    (Totp.totp key now 0 = tokenInt ∨ Totp.totp key now (-1) = tokenInt)

/-- Why an entry may follow the older ones: a device is new and has a new key; a token is accepted
for the key of a device that was created. -/
def EnrolmentEntry.Because : EnrolmentEntry → List EnrolmentEntry → Prop
  | created id _ key, older =>
    ∀ id' staffId' key', .created id' staffId' key' ∈ older → id' ≠ id ∧ key' ≠ key
  | verified id key token now, older =>
    AcceptsToken key now token ∧ ∃ staffId, .created id staffId key ∈ older
  | reset _, _ => True

/-- A device is created once. -/
lemma created_unique {log : List EnrolmentEntry} (h : Justified EnrolmentEntry.Because log)
    {id staffId staffId' : Id} {key key' : TotpKey} (hmem : .created id staffId key ∈ log)
    (hmem' : .created id staffId' key' ∈ log) : staffId' = staffId ∧ key' = key := by
  induction log with
  | nil => cases hmem
  | cons entry older ih =>
      obtain ⟨hentry, holder⟩ := h
      obtain rfl | hold := List.mem_cons.1 hmem
      · obtain heq | hold' := List.mem_cons.1 hmem'
        · cases heq
          exact ⟨rfl, rfl⟩
        · exact absurd rfl (hentry _ _ _ hold').1
      · obtain rfl | hold' := List.mem_cons.1 hmem'
        · exact absurd rfl (hentry _ _ _ hold).1
        · exact ih holder hold hold'

/-! ## Recording the services -/

def recordGetOrCreate (staff : Staff) : RecordingEnrolment (StaffTOTPDevice × Option Staff) := do
  match ← (exec (findTotpDevice staff.id)).silently with
  | some device => return (device, none)
  | none => recording (createTotpDevice staff) fun r _ =>
    match r.2 with
    | some _ => [.created r.1.id r.1.staffId r.1.key]
    | none => []

def recordStart (staff : StaffInstance) :
    RecordingEnrolment (StaffTOTPDevice × ProvisioningUri) := do
  let (device, cached) ← recordGetOrCreate staff.staff
  let owner ← (deviceStaff device cached).silently
  return (device, provisioningUri device owner)

def recordConfirm (staff : StaffInstance) (token : String) :
    RecordingEnrolment StaffTOTPDevice := do
  match ← (loadTotpDevice staff).silently with
  | none => raise .invalidMfaToken
  | some device =>
    let verified ← recording (verifyToken device token) fun ok w =>
      if ok then [.verified device.id device.key token w.now] else []
    require verified .invalidMfaToken
    (exec (saveConfirmedAt device)).silently

/-- A call, with its arguments.  `confirmLoaded` confirms on an instance that has had its device in
the cache for any time: it looks it up, and whatever the other calls do comes before the
confirmation.  The device that a setup leaves in the cache is the one found right after it. -/
inductive EnrolmentCall
  | startMfaSetup (staff : StaffInstance)
  | confirmMfaSetup (staff : StaffInstance) (token : String)
  | confirmLoaded (staff : StaffInstance) (token : String)
  | resetStaffMfa (actor targetStaff : StaffInstance) (request : Option RequestContext)

namespace EnrolmentCall

variable [PyText]

/-- The service a call runs. -/
def service : EnrolmentCall → Service Unit
  | startMfaSetup staff => do
    let _ ← BePyEco.startMfaSetup staff
  | confirmMfaSetup staff token => do
    let _ ← BePyEco.confirmMfaSetup staff token
  | confirmLoaded staff token => do
    let (_, staff) ← hasConfirmedMfa staff
    let _ ← BePyEco.confirmMfaSetup staff token
  | resetStaffMfa actor targetStaff request => BePyEco.resetStaffMfa actor targetStaff request

/-- The instance on which a call confirms. -/
def confirms : EnrolmentCall → Option StaffInstance
  | confirmMfaSetup staff _ => some staff
  | confirmLoaded staff _ => some staff
  | _ => none

/-- The service, recorded. -/
def recorded : EnrolmentCall → RecordingEnrolment Unit
  | startMfaSetup staff => do
    let _ ← recordStart staff
  | confirmMfaSetup staff token => do
    let _ ← recordConfirm staff token
  | confirmLoaded staff token => do
    let (_, staff) ← (hasConfirmedMfa staff).silently
    let _ ← recordConfirm staff token
  | resetStaffMfa actor targetStaff request => do
    require (checkPolicy actor.staff.role "accounts.reset_staff_mfa") .insufficientPermission
    let actor ← (requireConfirmedMfa actor).silently
    let (hadConfirmedMfa, targetStaff) ← (hasConfirmedMfa targetStaff).silently
    recording (deleteTotpDevices targetStaff.staff.id) fun _ _ => [.reset targetStaff.staff.id]
    let _ ← (exec (writeAuditLog .staff actor.staff.id "accounts.reset_staff_mfa" "staff"
      targetStaff.staff.id [("mfa_confirmed", .bool hadConfirmedMfa)]
      [("mfa_confirmed", .bool false)] "" (clientIp request) (requestId request))).silently
    return ()

end EnrolmentCall

section Records

omit [Totp] in
lemma records_start (staff : StaffInstance) :
    (recordStart staff).Records (startMfaSetup staff) := by
  refine Records.bind ?_ fun r => (records_silently _).bind fun owner => records_done _
  refine (records_silently _).bind fun found => ?_
  cases found with
  | some device => exact records_done _
  | none => exact records_recording _ _

lemma records_confirm (staff : StaffInstance) (token : String) :
    (recordConfirm staff token).Records (confirmMfaSetup staff token) := by
  refine (records_silently _).bind fun found => ?_
  cases found with
  | none => exact records_done _
  | some device =>
      refine (records_recording _ _).bind fun verified => ?_
      exact (records_require _ _).bind fun _ => records_silently _

/-- The recording of a call is the call. -/
lemma EnrolmentCall.records [PyText] (call : EnrolmentCall) :
    call.recorded.Records call.service := by
  cases call with
  | startMfaSetup staff => exact (records_start staff).bind fun _ => records_done _
  | confirmMfaSetup staff token => exact (records_confirm staff token).bind fun _ => records_done _
  | confirmLoaded staff token =>
      refine (records_silently _).bind fun r => ?_
      exact (records_confirm _ token).bind fun _ => records_done _
  | resetStaffMfa actor targetStaff request =>
      refine (records_require _ _).bind fun _ => ?_
      refine (records_silently _).bind fun actor => ?_
      refine (records_silently _).bind fun r => ?_
      refine (records_recording _ _).bind fun _ => ?_
      exact (records_silently _).bind fun _ => records_done _

end Records

/-! ## Moves -/

/-- The devices are as before, and no random value is drawn twice. -/
structure LeavesDevices (w w' : World) : Prop where
  devices : w'.db.staffTotpDevices = w.db.staffTotpDevices
  entropy : w.entropy ≤ w'.entropy

instance : Std.Refl LeavesDevices := ⟨fun _ => ⟨rfl, le_refl _⟩⟩

instance : IsTrans World LeavesDevices where
  trans _ _ _ h h' := ⟨h'.devices.trans h.devices, h.entropy.trans h'.entropy⟩

/-- What one statement of a call does. -/
inductive EnrolmentMove (s s' : EnrolmentStore) : Prop
  | quiet (hstore : LeavesDevices s.store s'.store) (hlog : s'.log = s.log)
  | created {d : StaffTOTPDevice} (hnot : d.isConfirmed = false)
      (hid : d.id = s.store.db.staffTotpDevices.next) (hkey : d.key = s.store.entropy)
      (hentropy : s'.store.entropy = s.store.entropy + 1)
      (hrows : s'.store.db.staffTotpDevices.rows = s.store.db.staffTotpDevices.rows ++ [d])
      (hnext : s'.store.db.staffTotpDevices.next = s.store.db.staffTotpDevices.next + 1)
      (hlog : s'.log = .created d.id d.staffId d.key :: s.log)
  | verified {d : StaffTOTPDevice} {token : String} {now : Time}
      (hcreated : .created d.id d.staffId d.key ∈ s.log) (haccepts : AcceptsToken d.key now token)
      (hstore : s'.store = s.store) (hlog : s'.log = .verified d.id d.key token now :: s.log)
  | saved {d : StaffTOTPDevice} {token : String} {now later : Time}
      (hcreated : .created d.id d.staffId d.key ∈ s.log)
      (hverified : .verified d.id d.key token now ∈ s.log)
      (hdevices : s'.store.db.staffTotpDevices = s.store.db.staffTotpDevices.update
        (fun r => Model.pk r == d.id) (StaffTOTPDevice.setConfirmedAt later))
      (hentropy : s'.store.entropy = s.store.entropy) (hlog : s'.log = s.log)
  | reset {staffId : Id}
      (hdevices : s'.store.db.staffTotpDevices = s.store.db.staffTotpDevices.delete
        fun d => decide (d.staffId = staffId))
      (hentropy : s'.store.entropy = s.store.entropy) (hlog : s'.log = .reset staffId :: s.log)

instance : Std.Refl EnrolmentMove := ⟨fun s => .quiet (refl_of _ s.store) rfl⟩

/-- The log accounts for the devices. -/
structure EnrolmentSound (s : EnrolmentStore) : Prop where
  justified : Justified EnrolmentEntry.Because s.log
  drawn : ∀ id staffId key, .created id staffId key ∈ s.log →
    id < s.store.db.staffTotpDevices.next ∧ key < s.store.entropy
  created : ∀ d ∈ s.store.db.staffTotpDevices.rows, .created d.id d.staffId d.key ∈ s.log
  confirmed : ∀ d ∈ s.store.db.staffTotpDevices.rows, d.isConfirmed = true →
    ∃ token now, .verified d.id d.key token now ∈ s.log
  resets : ∀ newer staffId older, s.log = newer ++ .reset staffId :: older →
    ∀ d ∈ s.store.db.staffTotpDevices.rows, d.staffId = staffId →
      .created d.id d.staffId d.key ∈ newer

section Sound

variable {s s' : EnrolmentStore}

omit [Totp] in
/-- One more entry that is no reset: what was newer than a reset still is. -/
lemma resets_of_cons {entry : EnrolmentEntry} {log : List EnrolmentEntry}
    (hentry : ∀ staffId, entry ≠ .reset staffId) {newer older : List EnrolmentEntry} {staffId : Id}
    (h : entry :: log = newer ++ .reset staffId :: older) :
    ∃ newer', newer = entry :: newer' ∧ log = newer' ++ .reset staffId :: older := by
  cases newer with
  | nil =>
      cases h
      exact absurd rfl (hentry staffId)
  | cons first newer' =>
      cases h
      exact ⟨newer', rfl, rfl⟩

/-- No device is new: every row was there before, for the same staff member and with the same key,
and the log says of no other one that it was created. -/
structure NoNewDevice (s s' : EnrolmentStore) : Prop where
  rows : ∀ r ∈ s'.store.db.staffTotpDevices.rows, ∃ r₀ ∈ s.store.db.staffTotpDevices.rows,
    r.id = r₀.id ∧ r.staffId = r₀.staffId ∧ r.key = r₀.key
  next : s'.store.db.staffTotpDevices.next = s.store.db.staffTotpDevices.next
  entropy : s.store.entropy ≤ s'.store.entropy
  log : ∀ entry ∈ s.log, entry ∈ s'.log
  created : ∀ id staffId key, .created id staffId key ∈ s'.log → .created id staffId key ∈ s.log

lemma NoNewDevice.keeps_drawn (h : NoNewDevice s s') (hs : EnrolmentSound s) {id staffId : Id}
    {key : TotpKey} (hentry : .created id staffId key ∈ s'.log) :
    id < s'.store.db.staffTotpDevices.next ∧ key < s'.store.entropy := by
  obtain ⟨hid, hkey⟩ := hs.drawn id staffId key (h.created id staffId key hentry)
  rw [h.next]
  exact ⟨hid, lt_of_lt_of_le hkey h.entropy⟩

lemma NoNewDevice.keeps_created (h : NoNewDevice s s') (hs : EnrolmentSound s)
    {d : StaffTOTPDevice} (hd : d ∈ s'.store.db.staffTotpDevices.rows) :
    .created d.id d.staffId d.key ∈ s'.log := by
  obtain ⟨d₀, hd₀, hid, hstaff, hkey⟩ := h.rows d hd
  rw [hid, hstaff, hkey]
  exact h.log _ (hs.created d₀ hd₀)

/-- The moves that add no row. -/
lemma EnrolmentMove.noNewDevice (h : EnrolmentMove s s')
    (hnext : s'.store.db.staffTotpDevices.next = s.store.db.staffTotpDevices.next) :
    NoNewDevice s s' := by
  cases h with
  | quiet hstore hlog =>
      refine ⟨fun r hr => ?_, hnext, hstore.entropy, ?_, ?_⟩
      · rw [hstore.devices] at hr
        exact ⟨r, hr, rfl, rfl, rfl⟩
      · rw [hlog]
        exact fun _ hentry => hentry
      · rw [hlog]
        exact fun _ _ _ hentry => hentry
  | created hnot hid hkey hentropy hrows hnext' hlog =>
      rw [hnext'] at hnext
      exact absurd hnext (Nat.succ_ne_self _)
  | verified hcreated haccepts hstore hlog =>
      refine ⟨fun r hr => ?_, hnext, ?_, (Recorded.mem_of_cons hlog).2, fun id staffId key => ?_⟩
      · rw [hstore] at hr
        exact ⟨r, hr, rfl, rfl, rfl⟩
      · rw [hstore]
      · simp [hlog]
  | saved hcreated hverified hdevices hentropy hlog =>
      refine ⟨fun r hr => ?_, hnext, hentropy.ge, ?_, ?_⟩
      · rw [hdevices] at hr
        obtain ⟨r₀, hr₀, -, rfl⟩ | ⟨hold, -⟩ := Table.mem_update_pk _ hr
        · exact ⟨r₀, hr₀, rfl, rfl, rfl⟩
        · exact ⟨r, hold, rfl, rfl, rfl⟩
      · rw [hlog]
        exact fun _ hentry => hentry
      · rw [hlog]
        exact fun _ _ _ hentry => hentry
  | reset hdevices hentropy hlog =>
      refine ⟨fun r hr => ?_, hnext, hentropy.ge, (Recorded.mem_of_cons hlog).2,
        fun id staffId key => ?_⟩
      · rw [hdevices, Table.mem_delete] at hr
        exact ⟨r, hr.1, rfl, rfl, rfl⟩
      · simp [hlog]

/-- A device with a new id and a new key may be added. -/
lemma EnrolmentSound.add (hs : EnrolmentSound s) {d : StaffTOTPDevice}
    (hnot : d.isConfirmed = false) (hid : d.id = s.store.db.staffTotpDevices.next)
    (hkey : d.key = s.store.entropy) (hentropy : s'.store.entropy = s.store.entropy + 1)
    (hrows : s'.store.db.staffTotpDevices.rows = s.store.db.staffTotpDevices.rows ++ [d])
    (hnext : s'.store.db.staffTotpDevices.next = s.store.db.staffTotpDevices.next + 1)
    (hlog : s'.log = .created d.id d.staffId d.key :: s.log) : EnrolmentSound s' := by
  have hmem : ∀ r ∈ s'.store.db.staffTotpDevices.rows,
      r ∈ s.store.db.staffTotpDevices.rows ∨ r = d := by
    intro r hr
    rw [hrows, List.mem_append, List.mem_singleton] at hr
    exact hr
  refine ⟨?_, fun id staffId key hentry => ?_, fun r hr => ?_, fun r hr hconfirmed => ?_,
    fun newer staffId older heq r hr hstaff => ?_⟩
  · rw [hlog]
    refine ⟨fun id staffId key hentry => ?_, hs.justified⟩
    obtain ⟨hid', hkey'⟩ := hs.drawn id staffId key hentry
    rw [hid, hkey]
    exact ⟨Nat.ne_of_lt hid', Nat.ne_of_lt hkey'⟩
  · rw [hnext, hentropy]
    rw [hlog] at hentry
    obtain heq | hentry := List.mem_cons.1 hentry
    · cases heq
      rw [hid, hkey]
      exact ⟨Nat.lt_succ_self _, Nat.lt_succ_self _⟩
    · obtain ⟨hid', hkey'⟩ := hs.drawn id staffId key hentry
      exact ⟨Nat.lt_succ_of_lt hid', Nat.lt_succ_of_lt hkey'⟩
  · rw [hlog]
    obtain hbefore | rfl := hmem r hr
    · exact List.mem_cons_of_mem _ (hs.created r hbefore)
    · exact List.mem_cons_self
  · rw [hlog]
    obtain hbefore | rfl := hmem r hr
    · obtain ⟨token, now, hverified⟩ := hs.confirmed r hbefore hconfirmed
      exact ⟨token, now, List.mem_cons_of_mem _ hverified⟩
    · rw [hnot] at hconfirmed
      cases hconfirmed
  · rw [hlog] at heq
    obtain ⟨newer', rfl, heq'⟩ := resets_of_cons (fun _ h => by cases h) heq
    obtain hbefore | rfl := hmem r hr
    · exact List.mem_cons_of_mem _ (hs.resets newer' staffId older heq' r hbefore hstaff)
    · exact List.mem_cons_self

/-- A device for which a token was accepted may be saved. -/
lemma EnrolmentSound.save (hs : EnrolmentSound s) (hold : NoNewDevice s s') {d : StaffTOTPDevice}
    {token : String} {now later : Time} (hcreated : .created d.id d.staffId d.key ∈ s.log)
    (hverified : .verified d.id d.key token now ∈ s.log)
    (hdevices : s'.store.db.staffTotpDevices = s.store.db.staffTotpDevices.update
      (fun r => Model.pk r == d.id) (StaffTOTPDevice.setConfirmedAt later))
    (hlog : s'.log = s.log) : EnrolmentSound s' := by
  refine ⟨?_, fun _ _ _ => hold.keeps_drawn hs, fun _ => hold.keeps_created hs,
    fun r hr hconfirmed => ?_, fun newer staffId older heq r hr hstaff => ?_⟩
  · rw [hlog]
    exact hs.justified
  · have hcreated' := hold.created _ _ _ (hold.keeps_created hs hr)
    rw [hdevices] at hr
    obtain ⟨r₀, -, hsaved, rfl⟩ | ⟨hbefore, -⟩ := Table.mem_update_pk _ hr
    · -- the row is that of the device for which a token was accepted
      have hid : ((StaffTOTPDevice.setConfirmedAt later).apply r₀).id = d.id := hsaved
      rw [hid] at hcreated' ⊢
      rw [(created_unique hs.justified hcreated hcreated').2]
      exact ⟨token, now, hold.log _ hverified⟩
    · rw [hlog]
      exact hs.confirmed r hbefore hconfirmed
  · obtain ⟨r₀, hr₀, hid, hstaff₀, hkey⟩ := hold.rows r hr
    rw [hlog] at heq
    rw [hid, hstaff₀, hkey]
    exact hs.resets newer staffId older heq r₀ hr₀ (hstaff₀ ▸ hstaff)

/-- Every move keeps the account. -/
lemma EnrolmentMove.sound (h : EnrolmentMove s s') (hs : EnrolmentSound s) : EnrolmentSound s' := by
  have hold := h.noNewDevice
  cases h with
  | quiet hstore hlog =>
      have hold := hold (congrArg Table.next hstore.devices)
      refine ⟨?_, fun _ _ _ => hold.keeps_drawn hs, fun _ => hold.keeps_created hs, ?_, ?_⟩
      · rw [hlog]
        exact hs.justified
      · rw [hstore.devices, hlog]
        exact hs.confirmed
      · rw [hstore.devices, hlog]
        exact hs.resets
  | created hnot hid hkey hentropy hrows hnext hlog =>
      exact hs.add hnot hid hkey hentropy hrows hnext hlog
  | @verified d token now hcreated haccepts hstore hlog =>
      have hold := hold (by rw [hstore])
      refine ⟨?_, fun _ _ _ => hold.keeps_drawn hs, fun _ => hold.keeps_created hs,
        fun r hr hconfirmed => ?_, fun newer staffId older heq r hr hstaff => ?_⟩
      · rw [hlog]
        exact ⟨⟨haccepts, d.staffId, hcreated⟩, hs.justified⟩
      · rw [hstore] at hr
        obtain ⟨token', now', hverified⟩ := hs.confirmed r hr hconfirmed
        exact ⟨token', now', hold.log _ hverified⟩
      · rw [hstore] at hr
        rw [hlog] at heq
        obtain ⟨newer', rfl, heq'⟩ := resets_of_cons (fun _ h => by cases h) heq
        exact List.mem_cons_of_mem _ (hs.resets newer' staffId older heq' r hr hstaff)
  | saved hcreated hverified hdevices hentropy hlog =>
      exact hs.save (hold (by rw [hdevices, Table.next_update])) hcreated hverified hdevices hlog
  | @reset staffId hdevices hentropy hlog =>
      have hold := hold (by rw [hdevices]; rfl)
      have hmem : ∀ r ∈ s'.store.db.staffTotpDevices.rows,
          r ∈ s.store.db.staffTotpDevices.rows ∧ r.staffId ≠ staffId := by
        intro r hr
        rw [hdevices, Table.mem_delete] at hr
        exact ⟨hr.1, of_decide_eq_false hr.2⟩
      refine ⟨?_, fun _ _ _ => hold.keeps_drawn hs, fun _ => hold.keeps_created hs,
        fun r hr hconfirmed => ?_, fun newer staffId' older heq r hr hstaff => ?_⟩
      · rw [hlog]
        exact ⟨trivial, hs.justified⟩
      · obtain ⟨token, now, hverified⟩ := hs.confirmed r (hmem r hr).1 hconfirmed
        exact ⟨token, now, hold.log _ hverified⟩
      · rw [hlog] at heq
        cases newer with
        | nil =>
            cases heq
            exact absurd hstaff (hmem r hr).2
        | cons first newer' =>
            obtain ⟨-, hlog'⟩ := List.cons.inj heq
            exact List.mem_cons_of_mem _
              (hs.resets newer' staffId' older hlog' r (hmem r hr).1 hstaff)

end Sound

/-! ## What the calls rely on -/

/-- The log grows, and keeps accounting for the devices. -/
structure LaterEnrolment (s s' : EnrolmentStore) : Prop where
  log : ∀ entry ∈ s.log, entry ∈ s'.log
  sound : EnrolmentSound s → EnrolmentSound s'

instance : Std.Refl LaterEnrolment := ⟨fun _ => ⟨fun _ h => h, fun h => h⟩⟩

instance : IsTrans EnrolmentStore LaterEnrolment where
  trans _ _ _ h h' := ⟨fun entry hentry => h'.log entry (h.log entry hentry),
    fun hs => h'.sound (h.sound hs)⟩

lemma EnrolmentMove.later {s s' : EnrolmentStore} (h : EnrolmentMove s s') :
    LaterEnrolment s s' := by
  refine ⟨?_, h.sound⟩
  cases h with
  | quiet hstore hlog =>
      rw [hlog]
      exact fun _ hentry => hentry
  | created hnot hid hkey hentropy hrows hnext hlog => exact (Recorded.mem_of_cons hlog).2
  | verified hcreated haccepts hstore hlog => exact (Recorded.mem_of_cons hlog).2
  | saved hcreated hverified hdevices hentropy hlog =>
      rw [hlog]
      exact fun _ hentry => hentry
  | reset hdevices hentropy hlog => exact (Recorded.mem_of_cons hlog).2

/-- The device, if there is one, was created. -/
def WasCreated (s : EnrolmentStore) (device : Option StaffTOTPDevice) : Prop :=
  ∀ d, device = some d → .created d.id d.staffId d.key ∈ s.log

/-- A device in the cache of the instance was created. -/
def CacheCreated (s : EnrolmentStore) (staff : StaffInstance) : Prop :=
  ∀ device, staff.totpDevice = some device → WasCreated s device

section Relying

variable {s s' : EnrolmentStore} {w w' : World}

omit [Totp] in
lemma findTotpDevice_ok {staffId : Id} {found : Option StaffTOTPDevice}
    (h : (findTotpDevice staffId).run w = .ok (found, w')) :
    w' = w ∧ ∀ d, found = some d → d ∈ w.db.staffTotpDevices.rows := by
  obtain hget | ⟨-, hnone⟩ := Tx.handling_ok h
  · obtain ⟨d, w₁, hrow, hpure⟩ := Tx.bind_ok hget
    cases hpure
    obtain ⟨rfl, hget⟩ := Objects.get_ok hrow
    refine ⟨rfl, fun d' hd' => ?_⟩
    cases hd'
    exact Table.mem_of_get hget
  · cases hnone
    exact ⟨rfl, fun d hd => by cases hd⟩

/-- A device that is found was created. -/
lemma findTotpDevice_relies (hs : EnrolmentSound s) (staffId : Id) :
    (exec (findTotpDevice staffId)).silently.Relies LaterEnrolment EnrolmentMove
      (fun found s => WasCreated s found) s := by
  refine relies_silently_exec fun s₁ found w hlater hrun => ?_
  obtain ⟨rfl, hfound⟩ := findTotpDevice_ok hrun
  exact ⟨refl_of _ s₁, fun d hd => (hlater.sound hs).created d (hfound d hd)⟩

lemma loadTotpDevice_relies (hs : EnrolmentSound s) {staff : StaffInstance}
    (hcache : CacheCreated s staff) :
    (loadTotpDevice staff).silently.Relies LaterEnrolment EnrolmentMove
      (fun device s => WasCreated s device) s := by
  unfold loadTotpDevice
  cases hdevice : staff.totpDevice with
  | some device => exact hcache device hdevice
  | none => exact findTotpDevice_relies hs staff.staff.id

omit [Totp] in
lemma createTotpDevice_ok {staff : Staff} {r : StaffTOTPDevice × Option Staff}
    (h : (createTotpDevice staff).run w = .ok (r, w')) :
    (r.2 = some staff ∧ r.1.isConfirmed = false ∧ r.1.id = w.db.staffTotpDevices.next ∧
      r.1.key = w.entropy ∧ w'.entropy = w.entropy + 1 ∧
      w'.db.staffTotpDevices.rows = w.db.staffTotpDevices.rows ++ [r.1] ∧
      w'.db.staffTotpDevices.next = w.db.staffTotpDevices.next + 1) ∨
    (r.2 = none ∧ w' = w) := by
  obtain hcreate | ⟨-, hget⟩ := Tx.handling_ok h
  · obtain ⟨key, w₁, hdraw, hcreate⟩ := Tx.bind_ok hcreate
    cases hdraw
    obtain ⟨d, w₂, hcreate, hpure⟩ := Tx.bind_ok hcreate
    cases hpure
    obtain ⟨t, hinsert, rfl⟩ := Objects.create_ok hcreate
    obtain ⟨rfl, hrows, hnext, -, -⟩ := Table.insert_spec hinsert
    exact Or.inl ⟨rfl, rfl, rfl, rfl, rfl, hrows, hnext⟩
  · obtain ⟨d, w₁, hget, hpure⟩ := Tx.bind_ok hget
    cases hpure
    obtain hget | ⟨-, hraise⟩ := Tx.handling_ok hget
    · exact Or.inr ⟨rfl, (Objects.get_ok hget).1⟩
    · cases hraise

lemma recordGetOrCreate_relies (hs : EnrolmentSound s) (staff : Staff) :
    (recordGetOrCreate staff).Relies LaterEnrolment EnrolmentMove (fun _ _ => True) s := by
  refine (findTotpDevice_relies hs staff.id).bind fun found s₁ _ => ?_
  cases found with
  | some device => trivial
  | none =>
      refine relies_recording fun s₂ r w _ hrun => ⟨?_, trivial⟩
      obtain ⟨hsome, hnot, hid, hkey, hentropy, hrows, hnext⟩ | ⟨hnone, rfl⟩ :=
        createTotpDevice_ok hrun
      · refine .created hnot hid hkey hentropy hrows hnext ?_
        rw [hsome]
        rfl
      · refine .quiet (refl_of _ _) ?_
        rw [hnone]
        rfl

omit [Totp] in
lemma deviceStaff_leavesDevices (device : StaffTOTPDevice) (cached : Option Staff) :
    (deviceStaff device cached).Guarantees LeavesDevices := by
  cases cached with
  | some staff => trivial
  | none => exact guarantees_exec (Objects.guarantees_get _)

lemma quiet_of_leavesDevices {w : World} (h : LeavesDevices s.store w) :
    EnrolmentMove s { s with store := w } := .quiet h rfl

lemma verifyToken_ok {device : StaffTOTPDevice} {token : String} {ok : Bool}
    (h : (verifyToken device token).run w = .ok (ok, w')) :
    w' = w ∧ (ok = true → AcceptsToken device.key w.now token) := by
  obtain ⟨now, w₁, hnow, hcheck⟩ := Tx.bind_ok h
  cases hnow
  cases hint : Totp.int token with
  | none =>
      rw [hint] at hcheck
      cases hcheck
      refine ⟨rfl, fun hok => by cases hok⟩
  | some tokenInt =>
      rw [hint] at hcheck
      cases hcheck
      refine ⟨rfl, fun hok => ⟨tokenInt, hint, ?_⟩⟩
      simpa using hok

omit [Totp] in
lemma saveConfirmedAt_ok {device device' : StaffTOTPDevice}
    (h : (saveConfirmedAt device).run w = .ok (device', w')) :
    w'.db.staffTotpDevices = w.db.staffTotpDevices.update (fun r => Model.pk r == device.id)
        (StaffTOTPDevice.setConfirmedAt w.now) ∧ w'.entropy = w.entropy := by
  obtain ⟨now, w₁, hnow, hsave⟩ := Tx.bind_ok h
  cases hnow
  obtain ⟨u, w₂, hsave, hpure⟩ := Tx.bind_ok hsave
  cases hpure
  obtain ⟨-, rfl⟩ := Objects.save_ok hsave
  exact ⟨rfl, rfl⟩

lemma recordConfirm_relies (hs : EnrolmentSound s) {staff : StaffInstance}
    (hcache : CacheCreated s staff) (token : String) :
    (recordConfirm staff token).Relies LaterEnrolment EnrolmentMove (fun _ _ => True) s := by
  refine (loadTotpDevice_relies hs hcache).bind fun found s₁ hfound => ?_
  cases found with
  | none => trivial
  | some device =>
      have hcreated := hfound device rfl
      have hverify : (recording (verifyToken device token) fun ok w =>
          if ok then [.verified device.id device.key token w.now] else []).Relies LaterEnrolment
          EnrolmentMove (fun ok s => ok = true →
            .created device.id device.staffId device.key ∈ s.log ∧
              ∃ now, .verified device.id device.key token now ∈ s.log) s₁ := by
        refine relies_recording fun s₂ ok w hlater hrun => ?_
        obtain ⟨rfl, haccepts⟩ := verifyToken_ok hrun
        have hmem := hlater.log _ hcreated
        cases ok with
        | false => exact ⟨.quiet (refl_of _ _) rfl, fun h => by cases h⟩
        | true =>
            refine ⟨.verified hmem (haccepts rfl) rfl rfl, fun _ => ⟨?_, _, List.mem_cons_self⟩⟩
            exact List.mem_cons_of_mem _ hmem
      refine hverify.bind fun ok s₂ hok => ?_
      have hrequire : (require ok .invalidMfaToken : RecordingEnrolment Unit).Relies LaterEnrolment
          EnrolmentMove (fun _ s => .created device.id device.staffId device.key ∈ s.log ∧
            ∃ now, .verified device.id device.key token now ∈ s.log) s₂ := relies_require hok
      refine hrequire.bind fun _ s₃ hmem => ?_
      obtain ⟨hcreated, now, hverified⟩ := hmem
      refine relies_silently_exec fun s₄ device' w hlater hrun => ⟨?_, trivial⟩
      obtain ⟨hdevices, hentropy⟩ := saveConfirmedAt_ok hrun
      exact .saved (hlater.log _ hcreated) (hlater.log _ hverified) hdevices hentropy rfl

lemma hasConfirmedMfa_relies (hs : EnrolmentSound s) {staff : StaffInstance}
    (hcache : CacheCreated s staff) :
    (hasConfirmedMfa staff).silently.Relies LaterEnrolment EnrolmentMove
      (fun r s => CacheCreated s r.2) s := by
  rw [hasConfirmedMfa, silently_bind]
  refine (loadTotpDevice_relies hs hcache).bind fun device s₁ hdevice => ?_
  intro device' heq
  cases heq
  exact hdevice

omit [Totp] in
lemma requireConfirmedMfa_leavesDevices (actor : StaffInstance) :
    (requireConfirmedMfa actor).Guarantees LeavesDevices :=
  (hasConfirmedMfa_guarantees actor).bind fun _ => (guarantees_require _ _).bind fun _ => trivial

lemma recordReset_relies [PyText] (actor targetStaff : StaffInstance)
    (request : Option RequestContext) :
    (EnrolmentCall.resetStaffMfa actor targetStaff request).recorded.Relies LaterEnrolment
      EnrolmentMove (fun _ _ => True) s := by
  have hquiet : ∀ (s : EnrolmentStore) (w : World), LeavesDevices s.store w →
      EnrolmentMove s { s with store := w } := fun _ _ => quiet_of_leavesDevices
  have hpolicy : (require (checkPolicy actor.staff.role "accounts.reset_staff_mfa")
      .insufficientPermission : RecordingEnrolment Unit).Relies LaterEnrolment EnrolmentMove
      (fun _ _ => True) s := relies_require fun _ => trivial
  refine hpolicy.bind fun _ s₁ _ => ?_
  refine (relies_silently (requireConfirmedMfa_leavesDevices actor) hquiet s₁).bind
    fun actor s₂ _ => ?_
  refine (relies_silently (hasConfirmedMfa_guarantees targetStaff) hquiet s₂).bind
    fun r s₃ _ => ?_
  have hdelete : (recording (deleteTotpDevices r.2.staff.id) fun _ _ =>
      [.reset r.2.staff.id]).Relies LaterEnrolment EnrolmentMove (fun _ _ => True) s₃ := by
    refine relies_recording fun s₄ u w _ hrun => ⟨?_, trivial⟩
    cases hrun
    exact .reset rfl rfl rfl
  refine hdelete.bind fun _ s₄ _ => ?_
  have haudit : (exec (writeAuditLog .staff actor.staff.id "accounts.reset_staff_mfa" "staff"
      r.2.staff.id [("mfa_confirmed", .bool r.1)] [("mfa_confirmed", .bool false)] ""
      (clientIp request) (requestId request))).Guarantees LeavesDevices :=
    guarantees_exec (writeAuditLog_guarantees fun _ _ => ⟨rfl, le_refl _⟩)
  exact (relies_silently haudit hquiet s₄).bind fun _ _ _ => trivial

/-- Every statement of a call is a move, whatever the other calls do in between. -/
theorem EnrolmentCall.relies [PyText] (call : EnrolmentCall) (hs : EnrolmentSound s)
    (hcache : ∀ staff, call.confirms = some staff → CacheCreated s staff) :
    call.recorded.Relies LaterEnrolment EnrolmentMove (fun _ _ => True) s := by
  cases call with
  | startMfaSetup staff =>
      have hstart : (recordStart staff).Relies LaterEnrolment EnrolmentMove
          (fun _ _ => True) s := by
        refine (recordGetOrCreate_relies hs staff.staff).bind fun r s₁ _ => ?_
        refine (relies_silently (deviceStaff_leavesDevices r.1 r.2)
          (fun _ _ => quiet_of_leavesDevices) s₁).bind fun owner s₂ _ => trivial
      exact hstart.bind fun _ _ _ => trivial
  | confirmMfaSetup staff token =>
      exact (recordConfirm_relies hs (hcache staff rfl) token).bind fun _ _ _ => trivial
  | confirmLoaded staff token =>
      have hload := (hasConfirmedMfa_relies hs (hcache staff rfl)).keeping hs
        (fun _ _ hsound hlater => hlater.sound hsound) fun _ _ hsound hmove => hmove.sound hsound
      refine hload.bind fun r s₁ hr => ?_
      exact (recordConfirm_relies hr.2 hr.1 token).bind fun _ _ _ => trivial
  | resetStaffMfa actor targetStaff request => exact recordReset_relies actor targetStaff request

end Relying

/-! ## What the log proves -/

/-- After the device was created, a token was accepted for its key. -/
def ProvenIn (log : List EnrolmentEntry) (d : StaffTOTPDevice) : Prop :=
  ∃ token now newer older, log = newer ++ .verified d.id d.key token now :: older ∧
    AcceptsToken d.key now token ∧ .created d.id d.staffId d.key ∈ older

section Proving

variable {newer older : List EnrolmentEntry} {d : StaffTOTPDevice}

/-- A device that was created among the newer entries has a key that no older one has. -/
lemma created_newer (h : Justified EnrolmentEntry.Because (newer ++ older))
    (hcreated : .created d.id d.staffId d.key ∈ newer) {id staffId : Id} {key : TotpKey}
    (hold : .created id staffId key ∈ older) : id ≠ d.id ∧ key ≠ d.key := by
  obtain ⟨after, before, rfl⟩ := List.append_of_mem hcreated
  rw [List.append_assoc] at h
  exact h.because_of_append _ _ _ (List.mem_append_right before hold)

/-- Whatever was accepted for it, was accepted among the newer entries too. -/
lemma provenIn_newer (h : Justified EnrolmentEntry.Because (newer ++ older))
    (hcreated : .created d.id d.staffId d.key ∈ newer) {token : String} {now : Time}
    (hverified : .verified d.id d.key token now ∈ newer ++ older) : ProvenIn newer d := by
  obtain hnew | hold := List.mem_append.1 hverified
  · obtain ⟨after, before, rfl⟩ := List.append_of_mem hnew
    have hjustified := h
    rw [List.append_assoc] at h
    obtain ⟨haccepts, staffId, hbefore⟩ := h.because_of_append
    have hbefore' : .created d.id staffId d.key ∈ before := by
      obtain hbefore | hold := List.mem_append.1 hbefore
      · exact hbefore
      · exact absurd rfl (created_newer hjustified hcreated hold).1
    obtain ⟨hstaff, -⟩ := created_unique hjustified (List.mem_append_left older hcreated)
      (List.mem_append_left older (List.mem_append_right after (List.mem_cons_of_mem _ hbefore')))
    rw [hstaff] at hbefore'
    exact ⟨token, now, after, before, rfl, haccepts, hbefore'⟩
  · obtain ⟨after, before, rfl⟩ := List.append_of_mem hold
    have hearlier := h.of_append.because_of_append
    obtain ⟨-, staffId, hbefore⟩ := hearlier
    have hold' : .created d.id staffId d.key ∈
        after ++ .verified d.id d.key token now :: before :=
      List.mem_append_right after (List.mem_cons_of_mem _ hbefore)
    exact absurd rfl (created_newer h hcreated hold').1

end Proving

/-! ## Runs -/

variable [PyText] {ι : Type} [DecidableEq ι]

/-- Enrolment calls, one statement at a time, with anything else in between that leaves the devices
alone. -/
def enrolmentSystem : System (Service Unit) World := programSystem LeavesDevices

/-- The same calls, recorded. -/
def recordingSystem : System (RecordingEnrolment Unit) EnrolmentStore :=
  programSystem (recordedEnv LeavesDevices)

/-- No call has executed a statement yet. -/
def enrolmentPool (w : World) (calls : ι → EnrolmentCall) : Pool ι (Service Unit) World where
  store := w
  pc i := (calls i).service

def recordingPool (s : EnrolmentStore) (calls : ι → EnrolmentCall) :
    Pool ι (RecordingEnrolment Unit) EnrolmentStore where
  store := s
  pc i := (calls i).recorded

lemma enrolmentSound_of_run {s : EnrolmentStore} {calls : ι → EnrolmentCall}
    {Q : Pool ι (RecordingEnrolment Unit) EnrolmentStore} (hstart : EnrolmentSound s)
    (hcache : ∀ i staff, (calls i).confirms = some staff → CacheCreated s staff)
    (hrun : recordingSystem.Run (fun _ _ => True) (recordingPool s calls) Q) :
    EnrolmentSound Q.store := by
  have henv : ∀ s s' : EnrolmentStore, recordedEnv LeavesDevices s s' → EnrolmentMove s s' :=
    fun s s' h => .quiet h.1 h.2
  exact hrun.holds_of_relies (fun _ _ h => h.later) (fun s s' h => (henv s s' h).later)
    (fun i => (calls i).relies hstart (hcache i)) hstart (fun _ _ hs h => h.sound hs)
    fun s s' hs h => (henv s s' h).sound hs

/-- In every interleaving a staff member has at most one device.  A confirmed device has accepted a
token for its own key since it was created; and if the devices of its staff member were reset, all
of that was after the reset, and the key is none that existed before. -/
theorem confirmedDevices_proven {s : EnrolmentStore} {calls : ι → EnrolmentCall}
    {P : Pool ι (Service Unit) World} (hstart : EnrolmentSound s)
    (hcache : ∀ i staff, (calls i).confirms = some staff → CacheCreated s staff)
    (hrun : enrolmentSystem.Run (fun _ _ => True) (enrolmentPool s.store calls) P) :
    (∀ d ∈ P.store.db.staffTotpDevices.rows, ∀ d' ∈ P.store.db.staffTotpDevices.rows,
      d.staffId = d'.staffId → d = d') ∧
    ∃ Q, recordingSystem.Run (fun _ _ => True) (recordingPool s calls) Q ∧
      Q.store.store = P.store ∧ (∀ i, (Q.pc i).Records (P.pc i)) ∧
      ∀ d ∈ P.store.db.staffTotpDevices.rows, d.isConfirmed = true →
        ProvenIn Q.store.log d ∧
        ∀ newer older, Q.store.log = newer ++ .reset d.staffId :: older →
          ProvenIn newer d ∧
          ∀ id staffId key, .created id staffId key ∈ older → key ≠ d.key := by
  refine ⟨fun d hd d' hd' hstaff => ?_, ?_⟩
  · exact P.store.db.staffTotpDevices.eq_of_conflicts hd hd' (decide_eq_true hstaff)
  have hrecords : ∀ i,
      ((recordingPool s calls).pc i).Records ((enrolmentPool s.store calls).pc i) :=
    fun i => (calls i).records
  obtain ⟨Q, hrecorded, hstore, hpc⟩ := exists_recorded_run rfl hrecords hrun
  have hsound := enrolmentSound_of_run hstart hcache hrecorded
  refine ⟨Q, hrecorded, hstore, hpc, fun d hd hconfirmed => ?_⟩
  rw [← hstore] at hd
  obtain ⟨token, now, hverified⟩ := hsound.confirmed d hd hconfirmed
  refine ⟨?_, fun newer older hlog => ?_⟩
  · have hjustified := hsound.justified
    rw [← List.append_nil Q.store.log] at hjustified hverified
    exact provenIn_newer hjustified (hsound.created d hd) hverified
  · have hcreated := hsound.resets newer d.staffId older hlog d hd rfl
    have hjustified := hsound.justified
    rw [hlog] at hjustified hverified
    refine ⟨provenIn_newer hjustified hcreated hverified, fun id staffId key hold => ?_⟩
    exact (created_newer hjustified hcreated (List.mem_cons_of_mem _ hold)).2

end Totp

/-! ### A confirmation in flight -/

section Example

attribute [local instance] plainText

/-- The code of a key is the key. -/
@[reducible] def keyCodes : Totp where
  int token := if token = "0" then some 0 else if token = "1" then some 1 else none
  totp key _ _ := key

attribute [local instance] keyCodes

def masterAdmin : StaffInstance :=
  { staff := {
      id := 0
      email := "admin@example.com"
      passwordHash := makePassword "teapot-on-fire"
      role := .masterAdmin } }

def masterAdminWorld : World :=
  ((Program.exec (insertStaff "admin@example.com" "teapot-on-fire" .masterAdmin)).run {}).2

/-- The staff member enrols, resets the device and enrols again, with a confirmation of the first
device in flight. -/
def enrolTwice : Fin 6 → EnrolmentCall
  | 0 => .startMfaSetup masterAdmin
  | 1 => .confirmMfaSetup masterAdmin "0"
  | 2 => .resetStaffMfa masterAdmin masterAdmin none
  | 3 => .confirmLoaded masterAdmin "0"
  | 4 => .startMfaSetup masterAdmin
  | 5 => .confirmMfaSetup masterAdmin "1"

lemma confirms_enrolTwice : ∀ i staff, (enrolTwice i).confirms = some staff → staff = masterAdmin
  | 1, _, h => (Option.some.inj h).symm
  | 3, _, h => (Option.some.inj h).symm
  | 5, _, h => (Option.some.inj h).symm

def secondDevice : StaffTOTPDevice where
  id := 1
  staffId := 0
  key := 1
  confirmedAt := some 0

/-- The first device is checked again before the reset, and saved after the second one was
created. -/
theorem confirmedDevices_proven_enrolTwice :
    ∃ P, enrolmentSystem.Run (fun _ _ => True) (enrolmentPool masterAdminWorld enrolTwice) P ∧
      P.store.db.staffTotpDevices.rows = [secondDevice] ∧
      ∃ Q, recordingSystem.Run (fun _ _ => True)
          (recordingPool { store := masterAdminWorld } enrolTwice) Q ∧
        Q.store.store = P.store ∧
        ∀ newer older, Q.store.log = newer ++ .reset 0 :: older → ProvenIn newer secondDevice := by
  have h : (enrolmentSystem.execute (fun _ _ => true) (enrolmentPool masterAdminWorld enrolTwice)
      [0, 0, 1, 1, 1, 3, 3, 2, 2, 2, 2, 4, 4, 3, 5, 5, 5]).map (fun P =>
        decide (P.store.db.staffTotpDevices.rows = [secondDevice])) = some true := by decide
  obtain ⟨P, hrun, hp⟩ := System.exists_run_of_execute (fun _ _ _ => trivial) h
  have hrows := of_decide_eq_true hp
  have hstart : EnrolmentSound { store := masterAdminWorld } := by
    refine ⟨trivial, fun id staffId key hentry => ?_, fun d hd => ?_, fun d hd => ?_,
      fun newer staffId older hlog d hd => ?_⟩
    · cases hentry
    · cases hd
    · cases hd
    · cases hd
  have hcache : ∀ i staff, (enrolTwice i).confirms = some staff →
      CacheCreated { store := masterAdminWorld } staff := by
    intro i staff hstaff device hdevice
    have hnone : staff = masterAdmin := confirms_enrolTwice i staff hstaff
    rw [hnone] at hdevice
    cases hdevice
  obtain ⟨-, Q, hrecorded, hstore, -, hproven⟩ := confirmedDevices_proven hstart hcache hrun
  refine ⟨P, hrun, hrows, Q, hrecorded, hstore, fun newer older hlog => ?_⟩
  have hmem : secondDevice ∈ P.store.db.staffTotpDevices.rows := by
    rw [hrows]
    exact List.mem_singleton_self _
  exact ((hproven secondDevice hmem rfl).2 newer older hlog).1

end Example

end BePyEco
