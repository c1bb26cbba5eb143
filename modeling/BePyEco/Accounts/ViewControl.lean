import BePyEco.Accounts.AdminViews

/-!
# Control points of the idempotent endpoints

A request to `CreateStaffView`, `DisableCustomerView` or `ResetStaffMfaView`, one statement at a
time: the guard, the lookup of the record, the clock that its expiry is compared with, the
statements of the effect, and the insert of the new record.

`ViewStep` says what each statement reads and changes.  Of an effect it is enough to know that it
ends with its audit entry and writes none before (`IdempotentEndpoint.effect_endsWith`).
-/

namespace BePyEco

open Library

/-! ## Endpoints -/

/-- An idempotent admin endpoint, with the resource in its URL. -/
inductive IdempotentEndpoint
  | createStaff
  | disableCustomer (customerId : Id)
  | resetStaffMfa (staffId : Id)
  deriving DecidableEq, Repr

namespace IdempotentEndpoint

def action : IdempotentEndpoint → String
  | createStaff => "accounts.create_staff"
  | disableCustomer _ => "accounts.disable_customer"
  | resetStaffMfa _ => "accounts.reset_staff_mfa"

/-- The codenames fit the column of the records. -/
lemma action_length (e : IdempotentEndpoint) : e.action.length ≤ 100 := by
  cases e with
  | createStaff => exact show "accounts.create_staff".length ≤ 100 by decide
  | disableCustomer customerId => exact show "accounts.disable_customer".length ≤ 100 by decide
  | resetStaffMfa staffId => exact show "accounts.reset_staff_mfa".length ≤ 100 by decide

variable [SerializerFields] [PyText]

def effect : IdempotentEndpoint → StaffInstance → Request → Service Response
  | createStaff => createStaffEffect
  | disableCustomer customerId => disableCustomerEffect customerId
  | resetStaffMfa staffId => resetStaffMfaEffect staffId

/-- The view. -/
def post : IdempotentEndpoint → Request → Service Response
  | createStaff, request => CreateStaffView.post request
  | disableCustomer customerId, request => DisableCustomerView.post request customerId
  | resetStaffMfa staffId, request => ResetStaffMfaView.post request staffId

lemma post_eq (e : IdempotentEndpoint) (request : Request) :
    e.post request = sensitiveView e.action e.effect request := by
  cases e <;> rfl

end IdempotentEndpoint

/-! ## Control points -/

/-- Where a request stands.  `effect` keeps the rest of the effect by its first statement, and how
many of its statements were executed. -/
inductive ViewPc
  | start (request : Request)
  | lookup (request : Request) (actor : StaffInstance) (key : String)
  | clock (request : Request) (actor : StaffInstance) (key : String) (record : IdempotencyRecord)
  | discard (request : Request) (actor : StaffInstance) (key : String)
      (record : IdempotencyRecord)
  | effect (request : Request) (key : String) (stage : ℕ) (exec : World → World)
      (next : World → Service Response)
  | remember (request : Request) (key : String) (response : Response)
  | executed (response : Response)
  | replayed (response : Response)
  | unremembered (response : Response) (e : Raised ApiError)
  | failed (e : Raised ApiError)

/-- Run what is left of an effect and remember its response. -/
def runAndRemember (request : Request) (action key : String) (rest : Service Response) :
    Service Response := do
  let response ← rest
  let _ ← rememberResponse request action key response
  return response

/-- The answer to a request, from what the lookup returned. -/
def answerRequest (request : Request) (action key : String) (effect : Service Response) :
    Option (ℕ × Option Json) → Service Response
  | some (status, body) => return { status := status, data := body }
  | none => runAndRemember request action key effect

namespace ViewPc

/-- The effect has not begun. -/
def beforeEffect : ViewPc → Bool
  | start _ => true
  | lookup _ _ _ => true
  | clock _ _ _ _ => true
  | discard _ _ _ _ => true
  | _ => false

/-- The control point at which the rest of an effect begins. -/
def enter (request : Request) (key : String) (stage : ℕ) : Service Response → ViewPc
  | .done (.ok response) => remember request key response
  | .done (.error e) => failed e
  | .stmt exec next => effect request key stage exec next

/-- The control point behind the guard, from the device that it found. -/
def guarded (request : Request) (device : Option StaffTOTPDevice) : ViewPc :=
  if device.any StaffTOTPDevice.isConfirmed then
    match requireIdempotencyKey request with
    | .ok key => lookup request { staff := request.user, totpDevice := some device } key
    | .error e => failed (.app e)
  else failed (.app .mfaNotConfigured)

/-- The control point behind the comparison with the clock. -/
def compared (request : Request) (actor : StaffInstance) (key : String)
    (record : IdempotencyRecord) (now : Time) : ViewPc :=
  if record.expiresAt < now then discard request actor key record
  else if record.requestHash = hashRequest request.data then
    replayed { status := record.responseStatus, data := record.responseBody }
  else failed (.app .idempotencyKeyConflict)

variable [SerializerFields] [PyText] (e : IdempotentEndpoint)

/-- The control point behind the lookup. -/
def lookedUp (request : Request) (actor : StaffInstance) (key : String) :
    Option IdempotencyRecord → ViewPc
  | none => enter request key 0 (e.effect actor request)
  | some record => clock request actor key record

/-- What is left of a request. -/
def program : ViewPc → Service Response
  | start request => e.post request
  | lookup request actor key => replayOrRun request e.action key (e.effect actor request)
  | clock request actor key record =>
    useRecord request.data record >>= answerRequest request e.action key (e.effect actor request)
  | discard request actor key record => do
    deleteRecord record
    runAndRemember request e.action key (e.effect actor request)
  | effect request key _ exec next => runAndRemember request e.action key (.stmt exec next)
  | remember request key response => do
    let _ ← rememberResponse request e.action key response
    return response
  | executed response => return response
  | replayed response => return response
  | unremembered _ e => .done (.error e)
  | failed e => .done (.error e)

/-- Execute the next statement of a request. -/
def next : ViewPc → World → Option (ViewPc × World)
  | start request, w =>
    if checkPolicy request.user.role e.action then
      Control.advance (findTotpDevice request.user.id) (guarded request) failed w
    else none
  | lookup request actor key, w =>
    Control.advance (findRecord (request.scope e.action key)) (lookedUp e request actor key)
      failed w
  | clock request actor key record, w =>
    Control.advance timezoneNow (compared request actor key record) failed w
  | discard request actor key record, w =>
    Control.advance (deleteRecord record) (fun _ => enter request key 0 (e.effect actor request))
      failed w
  | effect request key stage exec next, w =>
    some (enter request key (stage + 1) (next w), exec w)
  | remember request key response, w =>
    Control.advance (rememberResponse request e.action key response) (fun _ => executed response)
      (unremembered response) w
  | executed _, _ => none
  | replayed _, _ => none
  | unremembered _ _, _ => none
  | failed _, _ => none

lemma program_enter (request : Request) (key : String) (stage : ℕ) (rest : Service Response) :
    (enter request key stage rest).program e = runAndRemember request e.action key rest := by
  cases rest with
  | done r =>
      cases r with
      | ok response => rfl
      | error e => rfl
  | stmt exec next => rfl

end ViewPc

lemma ViewPc.enter_ne_unremembered {request : Request} {key : String} {stage : ℕ}
    {rest : Service Response} {response : Response} {raised : Raised ApiError} :
    (Sum.inl (ViewPc.enter request key stage rest) : ViewPc ⊕ Service Unit) ≠
      .inl (.unremembered response raised) := by
  cases rest with
  | done r => cases r <;> exact nofun
  | stmt exec next => exact nofun

section Soundness

variable [SerializerFields] [PyText]

/-- The guard is one lookup. -/
lemma program_start {e : IdempotentEndpoint} {request : Request}
    (h : checkPolicy request.user.role e.action = true) :
    (ViewPc.start request).program e = Program.exec (findTotpDevice request.user.id) >>=
      fun device => (ViewPc.guarded request device).program e := by
  rw [ViewPc.program, e.post_eq, sensitiveView, h, Program.require_true, Program.done_ok_bind]
  unfold requireConfirmedMfa hasConfirmedMfa loadTotpDevice
  simp only [Program.bind_assoc, Program.liftM_eq]
  congr 1
  funext device
  unfold ViewPc.guarded
  simp only [Program.pure_eq, Program.done_ok_bind]
  by_cases hconfirmed : device.any StaffTOTPDevice.isConfirmed = true
  · rw [hconfirmed, Program.require_true, Program.done_ok_bind, if_pos rfl]
    cases hkey : requireIdempotencyKey request with
    | ok key => rfl
    | error e => rfl
  · rw [Bool.not_eq_true] at hconfirmed
    rw [hconfirmed, Program.require_false, Program.done_error_bind, if_neg Bool.false_ne_true]
    rfl

/-- What follows the lookup. -/
lemma program_lookup (e : IdempotentEndpoint) (request : Request) (actor : StaffInstance)
    (key : String) :
    (ViewPc.lookup request actor key).program e =
      Program.exec (findRecord (request.scope e.action key)) >>= fun found =>
        (ViewPc.lookedUp e request actor key found).program e := by
  rw [ViewPc.program, replayOrRun, replayIfCached, getCachedResponse]
  simp only [Program.bind_assoc, Program.liftM_eq]
  congr 1
  funext found
  cases found with
  | none =>
      rw [ViewPc.lookedUp]
      exact (ViewPc.program_enter e request key 0 _).symm
  | some record =>
      dsimp only
      rw [ViewPc.lookedUp, ViewPc.program]
      congr 1
      funext cached
      cases cached <;> rfl

/-- The comparison with the clock reads it first. -/
lemma program_clock (e : IdempotentEndpoint) (request : Request) (actor : StaffInstance)
    (key : String) (record : IdempotencyRecord) :
    (ViewPc.clock request actor key record).program e = Program.exec timezoneNow >>= fun now =>
      (ViewPc.compared request actor key record now).program e := by
  unfold ViewPc.program useRecord
  simp only [Program.bind_assoc, Program.liftM_eq]
  congr 1
  funext now
  unfold ViewPc.compared
  by_cases hexpired : record.expiresAt < now
  · rw [if_pos hexpired, if_pos hexpired]
    rfl
  · rw [if_neg hexpired, if_neg hexpired]
    unfold replayRecord
    by_cases hhash : record.requestHash = hashRequest request.data
    · rw [if_pos hhash, decide_eq_true hhash]
      rfl
    · rw [if_neg hhash, decide_eq_false hhash]
      rfl

/-- The control points follow the view. -/
def viewControl (e : IdempotentEndpoint) : Control World ApiError Response ViewPc where
  program := ViewPc.program e
  next := ViewPc.next e
  sound c w := by
    cases c with
    | start request =>
        rw [ViewPc.next]
        by_cases hpolicy : checkPolicy request.user.role e.action = true
        · rw [if_pos hpolicy]
          exact Control.step_eq_advance (ViewPc.program e) _ (program_start hpolicy)
            (fun _ => rfl) (fun _ => rfl) w
        · rw [if_neg hpolicy]
          rw [Bool.not_eq_true] at hpolicy
          rw [ViewPc.program, e.post_eq, sensitiveView, hpolicy]
          rfl
    | lookup request actor key =>
        rw [ViewPc.next]
        exact Control.step_eq_advance (ViewPc.program e) _ (program_lookup e request actor key)
          (fun _ => rfl) (fun _ => rfl) w
    | clock request actor key record =>
        rw [ViewPc.next]
        exact Control.step_eq_advance (ViewPc.program e) _
          (program_clock e request actor key record) (fun _ => rfl) (fun _ => rfl) w
    | discard request actor key record =>
        rw [ViewPc.next]
        exact Control.step_eq_advance (ViewPc.program e) _ rfl
          (fun _ => ViewPc.program_enter e request key 0 _) (fun _ => rfl) w
    | effect request key stage exec next =>
        rw [ViewPc.next, Option.map_some, ViewPc.program_enter]
        rfl
    | remember request key response =>
        rw [ViewPc.next]
        exact Control.step_eq_advance (ViewPc.program e) _ rfl (fun _ => rfl) (fun _ => rfl) w
    | executed response => rfl
    | replayed response => rfl
    | unremembered response e => rfl
    | failed e => rfl

end Soundness

/-! ## What the effects do -/

/-- No address of a staff member is lost. -/
def KeepsStaffEmails (w w' : World) : Prop :=
  ∀ s ∈ w.db.staff.rows, ∃ s' ∈ w'.db.staff.rows, s'.email = s.email

/-- No audit entry is written, the records are left alone, and no staff address is lost. -/
structure Silent (w w' : World) : Prop where
  auditLog : w'.db.auditLog = w.db.auditLog
  records : w'.db.idempotencyRecords = w.db.idempotencyRecords
  emails : KeepsStaffEmails w w'

instance : Std.Refl Silent := ⟨fun _ => ⟨rfl, rfl, fun s hs => ⟨s, hs, rfl⟩⟩⟩

lemma KeepsStaffEmails.trans {a b c : World} (hab : KeepsStaffEmails a b)
    (hbc : KeepsStaffEmails b c) : KeepsStaffEmails a c := by
  intro s hs
  obtain ⟨s', hs', hemail⟩ := hab s hs
  obtain ⟨s'', hs'', hemail'⟩ := hbc s' hs'
  exact ⟨s'', hs'', hemail'.trans hemail⟩

instance : IsTrans World Silent where
  trans _ _ _ hab hbc := ⟨hbc.auditLog.trans hab.auditLog, hbc.records.trans hab.records,
    hab.emails.trans hbc.emails⟩

/-- One audit entry for the action is written, and a response is due that a record can hold. -/
structure Audits (action : String) (response : Response) (w w' : World) : Prop where
  entry : ∃ entry : AuditLogEntry, entry.action = action ∧
    w'.db.auditLog.rows = w.db.auditLog.rows ++ [entry]
  records : w'.db.idempotencyRecords = w.db.idempotencyRecords
  emails : KeepsStaffEmails w w'
  status : response.status ≤ maxPositiveSmallInteger

lemma Silent.of_eq {w w' : World} (hlog : w'.db.auditLog = w.db.auditLog)
    (hrecords : w'.db.idempotencyRecords = w.db.idempotencyRecords)
    (hstaff : w'.db.staff = w.db.staff) : Silent w w' := by
  refine ⟨hlog, hrecords, fun s hs => ⟨s, ?_, rfl⟩⟩
  rw [hstaff]
  exact hs

lemma insertStaff_silent [PyText] (email password : String) (role : Role) :
    (insertStaff email password role).Guarantees Silent := by
  intro w staff w' h
  obtain ⟨t, hinsert, rfl⟩ := Objects.create_ok h
  exact ⟨rfl, rfl, fun s hs => ⟨s, (Table.mem_insert hinsert).2 (Or.inl hs), rfl⟩⟩

lemma requireConfirmedMfa_silent (staff : StaffInstance) :
    (requireConfirmedMfa staff).Guarantees Silent :=
  Program.Guarantees.bind (hasConfirmedMfa_guarantees staff) fun _ =>
    Program.Guarantees.bind (Program.guarantees_require _ _) fun _ => trivial

section Effects

variable [PyText]

/-- An audit entry, as the last statement. -/
lemma writeAuditLog_audits {α : Type} {actorType : ActorType} {actorId : Id}
    {action resourceType : String} {resourceId : Id} {before after : List (String × Json)}
    {reason : String} {ipAddress : Option String} {requestId : Option Id} {a : α} :
    (Program.exec (writeAuditLog actorType actorId action resourceType resourceId before after
      reason ipAddress requestId) >>= fun _ => .done (.ok a) : Service α).EndsWith Silent
        fun _ => Audits action { status := 204 } := by
  refine Program.endsWith_exec_return fun w entry w' h => ?_
  obtain ⟨-, haction, -, -, hrows⟩ := writeAuditLog_ok h
  obtain ⟨t, -, rfl⟩ := Objects.create_ok h
  exact ⟨⟨entry, haction, hrows⟩, rfl, fun s hs => ⟨s, hs, rfl⟩, by decide⟩

lemma createStaff_endsWith (actor : StaffInstance) (email password : String) (role : Role)
    (request : Option RequestContext) :
    (createStaff actor email password role request).EndsWith Silent
      fun _ => Audits "accounts.create_staff" { status := 204 } := by
  refine Program.Guarantees.bind_endsWith (Program.guarantees_require _ _) fun _ => ?_
  refine Program.Guarantees.bind_endsWith (requireConfirmedMfa_silent actor) fun _ => ?_
  refine Program.Guarantees.bind_endsWith
    (Program.guarantees_exec (insertStaff_silent email password role)) fun staff => ?_
  exact writeAuditLog_audits

lemma disableCustomer_endsWith (actor : StaffInstance) (customerId : Id) (reason : String)
    (request : Option RequestContext) :
    (disableCustomer actor customerId reason request).EndsWith Silent
      fun _ => Audits "accounts.disable_customer" { status := 204 } := by
  have hsave : ∀ id, (saveInactive id).Guarantees Silent := fun _ =>
    Objects.guarantees_save fun _ => .of_eq rfl rfl rfl
  have hrevoke : ∀ id, (revokeUnrevoked id).Guarantees Silent := fun _ =>
    Tx.Guarantees.bind (Tx.guarantees_read _) fun _ =>
      Objects.guarantees_update fun _ => .of_eq rfl rfl rfl
  refine Program.Guarantees.bind_endsWith (Program.guarantees_require _ _) fun _ => ?_
  refine Program.Guarantees.bind_endsWith (hasConfirmedMfa_guarantees actor) fun _ => ?_
  refine Program.Guarantees.bind_endsWith (Program.guarantees_require _ _) fun _ => ?_
  refine Program.Guarantees.bind_endsWith (Program.guarantees_require _ _) fun _ => ?_
  refine Program.Guarantees.bind_endsWith
    (Program.guarantees_exec (getCustomer_guarantees customerId)) fun _ => ?_
  refine Program.Guarantees.bind_endsWith (Program.guarantees_exec (hsave _)) fun _ => ?_
  refine Program.Guarantees.bind_endsWith (revokeAllSessions_guarantees (hrevoke _)) fun _ => ?_
  exact writeAuditLog_audits

lemma resetStaffMfa_endsWith (actor targetStaff : StaffInstance)
    (request : Option RequestContext) :
    (resetStaffMfa actor targetStaff request).EndsWith Silent
      fun _ => Audits "accounts.reset_staff_mfa" { status := 204 } := by
  have hdelete : ∀ id, (deleteTotpDevices id).Guarantees Silent := fun _ =>
    Objects.guarantees_delete fun _ => .of_eq rfl rfl rfl
  refine Program.Guarantees.bind_endsWith (Program.guarantees_require _ _) fun _ => ?_
  refine Program.Guarantees.bind_endsWith (requireConfirmedMfa_silent actor) fun _ => ?_
  refine Program.Guarantees.bind_endsWith (hasConfirmedMfa_guarantees targetStaff) fun _ => ?_
  refine Program.Guarantees.bind_endsWith (Program.guarantees_exec (hdelete _)) fun _ => ?_
  exact writeAuditLog_audits

variable [SerializerFields]

/-- An effect that returns ends with its audit entry, and writes none before. -/
lemma IdempotentEndpoint.effect_endsWith (e : IdempotentEndpoint) (actor : StaffInstance)
    (request : Request) : (e.effect actor request).EndsWith Silent (Audits e.action) := by
  cases e with
  | createStaff =>
      refine Program.Guarantees.bind_endsWith (Program.guarantees_ofExcept _)
        fun ⟨email, password, role⟩ => ?_
      refine (createStaff_endsWith actor email password role _).bind_return fun _ _ _ h => ?_
      exact ⟨h.entry, h.records, h.emails, show 201 ≤ maxPositiveSmallInteger by decide⟩
  | disableCustomer customerId =>
      refine Program.Guarantees.bind_endsWith (Program.guarantees_ofExcept _) fun reason => ?_
      exact (disableCustomer_endsWith actor customerId reason _).bind_return fun _ _ _ h => h
  | resetStaffMfa staffId =>
      refine Program.Guarantees.bind_endsWith
        (Program.guarantees_exec (Objects.guarantees_get _)) fun target => ?_
      exact (resetStaffMfa_endsWith actor { staff := target } _).bind_return fun _ _ _ h => h

end Effects

/-! ## What one step does -/

/-- The actor that the guard hands on: the device is in the cache, and confirmed. -/
def GuardedActor (request : Request) (actor : StaffInstance) : Prop :=
  ∃ device : Option StaffTOTPDevice, device.any StaffTOTPDevice.isConfirmed = true ∧
    actor = { staff := request.user, totpDevice := some device }

section Steps

variable [SerializerFields] [PyText] (e : IdempotentEndpoint)

/-- The steps of a request, with what each reads and changes. -/
inductive ViewStep : ViewPc → World → ViewPc → World → Prop
  | fail {c : ViewPc} (raised : Raised ApiError) (w : World) (h : c.beforeEffect = true) :
      ViewStep c w (.failed raised) w
  | guard {request : Request} {actor : StaffInstance} {key : String} (w : World)
      (hactor : GuardedActor request actor) (hkey : requireIdempotencyKey request = .ok key) :
      ViewStep (.start request) w (.lookup request actor key) w
  | unused {request : Request} {actor : StaffInstance} {key : String} {w : World}
      (h : ∀ r ∈ w.db.idempotencyRecords.rows, r.scope ≠ request.scope e.action key) :
      ViewStep (.lookup request actor key) w (.enter request key 0 (e.effect actor request)) w
  | found {request : Request} {actor : StaffInstance} {key : String} {w : World}
      {record : IdempotencyRecord} (hmem : record ∈ w.db.idempotencyRecords.rows)
      (hscope : record.scope = request.scope e.action key) :
      ViewStep (.lookup request actor key) w (.clock request actor key record) w
  | expired {request : Request} {actor : StaffInstance} {key : String}
      {record : IdempotencyRecord} {w : World} (h : record.expiresAt < w.now) :
      ViewStep (.clock request actor key record) w (.discard request actor key record) w
  | replay {request : Request} {actor : StaffInstance} {key : String}
      {record : IdempotencyRecord} (w : World) :
      ViewStep (.clock request actor key record) w
        (.replayed { status := record.responseStatus, data := record.responseBody }) w
  | discard (request : Request) (actor : StaffInstance) (key : String)
      (record : IdempotencyRecord) (w : World) :
      ViewStep (.discard request actor key record) w
        (.enter request key 0 (e.effect actor request))
        (Stored.put (w.db.idempotencyRecords.delete fun r => decide (r.id = record.id)) w)
  | effect (request : Request) (key : String) (stage : ℕ) (exec : World → World)
      (next : World → Service Response) (w : World) :
      ViewStep (.effect request key stage exec next) w (.enter request key (stage + 1) (next w))
        (exec w)
  | remember {request : Request} {key : String} {response : Response}
      {record : IdempotencyRecord} {w w' : World}
      (h : Remembered (request.scope e.action key) request.data response.status response.data record
        w w') :
      ViewStep (.remember request key response) w (.executed response) w'
  | forget {request : Request} {key : String} {response : Response} {raised : Raised ApiError}
      {w : World} (h : (rememberResponse request e.action key response).run w = .error raised) :
      ViewStep (.remember request key response) w (.unremembered response raised) w

lemma viewStep_of_next {c c' : ViewPc} {w w' : World} (h : c.next e w = some (c', w')) :
    ViewStep e c w c' w' := by
  cases c with
  | start request =>
      rw [ViewPc.next] at h
      split at h
      · obtain ⟨device, hrun, rfl⟩ | ⟨raised, -, rfl, rfl⟩ := Control.advance_cases h
        · obtain ⟨found, hfind, -⟩ := findTotpDevice_run request.user.id w
          rw [hfind] at hrun
          cases hrun
          unfold ViewPc.guarded
          split
          · rename_i hconfirmed
            split
            · rename_i key hkey
              exact .guard w ⟨device, hconfirmed, rfl⟩ hkey
            · exact .fail _ w rfl
          · exact .fail _ w rfl
        · exact .fail raised w' rfl
      · cases h
  | lookup request actor key =>
      rw [ViewPc.next] at h
      obtain ⟨found, hrun, rfl⟩ | ⟨raised, -, rfl, rfl⟩ := Control.advance_cases h
      · obtain ⟨rfl, ⟨rfl, hnone⟩ | ⟨record, hmem, rfl, hscope⟩⟩ := findRecord_ok hrun
        · exact .unused hnone
        · exact .found hmem hscope
      · exact .fail raised w' rfl
  | clock request actor key record =>
      rw [ViewPc.next] at h
      obtain ⟨now, hrun, rfl⟩ | ⟨raised, -, rfl, rfl⟩ := Control.advance_cases h
      · cases hrun
        unfold ViewPc.compared
        split
        · rename_i hexpired
          exact .expired hexpired
        · split
          · exact .replay w
          · exact .fail _ w rfl
      · exact .fail raised w' rfl
  | discard request actor key record =>
      rw [ViewPc.next] at h
      obtain ⟨u, hrun, rfl⟩ | ⟨raised, -, rfl, rfl⟩ := Control.advance_cases h
      · cases hrun
        exact .discard request actor key record w
      · exact .fail raised w' rfl
  | effect request key stage exec next =>
      cases h
      exact .effect request key stage exec next w
  | remember request key response =>
      rw [ViewPc.next] at h
      obtain ⟨record, hrun, rfl⟩ | ⟨raised, hrun, rfl, rfl⟩ := Control.advance_cases h
      · exact .remember (storeResponse_ok hrun)
      · exact .forget hrun
  | executed response => cases h
  | replayed response => cases h
  | unremembered response raised => cases h
  | failed raised => cases h

end Steps

end BePyEco
