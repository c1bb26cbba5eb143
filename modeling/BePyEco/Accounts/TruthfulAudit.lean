import BePyEco.Accounts.Customers
import BePyEco.Accounts.MfaEnrolment
import BePyEco.Accounts.ReplayedResources
import BePyEco.Accounts.ViewControl
import BePyEco.Common.Redaction

/-!
# Truthful audit entries

`disable_customer` writes `{"is_active": True}` as the value before, whatever it was, and
`reset_staff_mfa` writes what the cache of the instance says.  A call writes a truthful entry
exactly when the customer is active and the cache is not stale (`truthful_iff`), and then the
entries about one target follow on from one another.
-/

namespace BePyEco

open Library Library.Program

/-! ## Calls and targets -/

/-- A call of one of the services that touch `is_active` or the TOTP devices. -/
inductive TrailCall
  | registerCustomer (email password : String)
  | disableCustomer (actor : StaffInstance) (customerId : Id) (reason : String)
      (request : Option RequestContext)
  | startMfaSetup (staff : StaffInstance)
  | confirmMfaSetup (staff : StaffInstance) (token : String)
  | resetStaffMfa (actor targetStaff : StaffInstance) (request : Option RequestContext)

def TrailCall.service [PyText] [Totp] : TrailCall → Service Unit
  | registerCustomer email password => do
    let _ ← BePyEco.registerCustomer email password
    return ()
  | disableCustomer actor customerId reason request => do
    let _ ← BePyEco.disableCustomer actor customerId reason request
    return ()
  | startMfaSetup staff => do
    let _ ← BePyEco.startMfaSetup staff
    return ()
  | confirmMfaSetup staff token => do
    let _ ← BePyEco.confirmMfaSetup staff token
    return ()
  | resetStaffMfa actor targetStaff request => BePyEco.resetStaffMfa actor targetStaff request

/-- Whom an entry is about. -/
inductive AuditTarget
  | customer (id : Id)
  | staff (id : Id)
  deriving DecidableEq, Repr

/-- The field of a target that its entries record. -/
def AuditTarget.value (w : World) : AuditTarget → Option Json
  | customer id => (w.db.customers.rows.find? fun c => decide (c.id = id)).map fun c =>
      .obj [("is_active", .bool c.isActive)]
  | staff id => some (.obj [("mfa_confirmed", .bool (w.db.staffTotpDevices.rows.any fun d =>
      decide (d.staffId = id) && d.isConfirmed))])

/-- The target of a call that writes an entry. -/
def TrailCall.target : TrailCall → Option AuditTarget
  | disableCustomer _ customerId _ _ => some (.customer customerId)
  | resetStaffMfa _ targetStaff _ => some (.staff targetStaff.staff.id)
  | _ => none

abbrev TrailEvent := Event TrailCall World ApiError Unit

/-- Traces of these calls, with changes in between that leave the two fields and the log alone. -/
abbrev TrailTrace [PyText] [Totp] (ok : World → TrailCall → Prop) (w₀ : World) :
    List TrailEvent → World → Prop :=
  Trace TrailCall.service (fun _ => ok)
    (Same fun w => (w.db.customers, w.db.staffTotpDevices, w.db.auditLog)) w₀

/-- The event writes the entry. -/
def Writes (e : TrailEvent) (entry : AuditLogEntry) : Prop :=
  entry ∈ e.after.db.auditLog.rows ∧ entry ∉ e.before.db.auditLog.rows

/-- An entry of an event has the value of the target right before the call and right after it. -/
def Truthful (e : TrailEvent) : Prop :=
  ∀ target, e.call.target = some target → ∀ entry, Writes e entry →
    target.value e.before = some entry.before ∧ target.value e.after = some entry.after

/-- Two entries about one target, between which no call changes its field: the second begins where
the first ends. -/
def Chained (log : List TrailEvent) : Prop :=
  ∀ later e' between e earlier, log = later ++ e' :: between ++ e :: earlier →
    ∀ target, e.call.target = some target → e'.call.target = some target →
      (∀ m ∈ between, target.value m.after = target.value m.before) →
        ∀ entry entry', Writes e entry → Writes e' entry' → entry'.before = entry.after

/-- The customer is active, and the cache of the instance is not stale, unless the call is
refused. -/
def TrailCall.Sincere [PyText] (w : World) : TrailCall → Prop
  | disableCustomer actor customerId reason _ =>
      checkPolicy actor.staff.role "accounts.disable_customer" = true → ConfirmedMfa w actor →
        PyText.strip reason ≠ "" → (PyText.strip reason).length ≤ 255 →
          ∀ c ∈ w.db.customers.rows, c.id = customerId → c.isActive = true
  | resetStaffMfa actor targetStaff _ =>
      checkPolicy actor.staff.role "accounts.reset_staff_mfa" = true → ConfirmedMfa w actor →
        (ConfirmedMfa w targetStaff ↔ HasConfirmedDevice w targetStaff.staff.id)
  | _ => True

/-! ## Entries -/

section Entries

variable {w : World}

/-- An event that appends one entry writes this one. -/
lemma writes_iff {e : TrailEvent} {entry : AuditLogEntry}
    (h : e.after.db.auditLog.rows = e.before.db.auditLog.rows ++ [entry]) (entry' : AuditLogEntry) :
    Writes e entry' ↔ entry' = entry := by
  have hnew := e.after.db.auditLog.not_mem_of_append h
  unfold Writes
  rw [h, List.mem_append, List.mem_singleton]
  constructor
  · rintro ⟨hold | hentry, hnot⟩
    · exact absurd hold hnot
    · exact hentry
  · rintro rfl
    exact ⟨Or.inr rfl, hnew⟩

/-- An event that leaves the log alone writes nothing. -/
lemma truthful_of_silent {e : TrailEvent} (h : e.after.db.auditLog = e.before.db.auditLog) :
    Truthful e := by
  rintro target - entry ⟨hafter, hbefore⟩
  rw [h] at hafter
  exact absurd hafter hbefore

/-- The value of a stored customer. -/
lemma value_customer {c : Customer} (hc : c ∈ w.db.customers.rows) :
    (AuditTarget.customer c.id).value w = some (.obj [("is_active", .bool c.isActive)]) := by
  rw [AuditTarget.value]
  cases hfind : w.db.customers.rows.find? fun c' => decide (c'.id = c.id) with
  | none => exact absurd (decide_eq_true rfl) (List.find?_eq_none.1 hfind c hc)
  | some c' =>
      have hid : c'.id = c.id := by simpa using List.find?_some hfind
      have heq : c' = c := w.db.customers.eq_of_pk (List.mem_of_find?_eq_some hfind) hc hid
      rw [Option.map_some, heq]

/-- The value of a staff member tells whether there is a confirmed device. -/
lemma value_staff {staffId : Id} {confirmed : Bool}
    (h : confirmed = true ↔ HasConfirmedDevice w staffId) :
    (AuditTarget.staff staffId).value w = some (.obj [("mfa_confirmed", .bool confirmed)]) := by
  have hany : (w.db.staffTotpDevices.rows.any fun d =>
      decide (d.staffId = staffId) && d.isConfirmed) = confirmed := by
    rw [Bool.eq_iff_iff, h]
    simp [HasConfirmedDevice]
  rw [AuditTarget.value, hany]

lemma value_of_same {w' : World} (h : Same (fun w : World =>
    (w.db.customers, w.db.staffTotpDevices, w.db.auditLog)) w w') (target : AuditTarget) :
    target.value w' = target.value w := by
  obtain ⟨hcustomers, hrest⟩ := Prod.mk.inj h
  obtain ⟨hdevices, -⟩ := Prod.mk.inj hrest
  cases target with
  | customer id => rw [AuditTarget.value, AuditTarget.value, hcustomers]
  | staff id => rw [AuditTarget.value, AuditTarget.value, hdevices]

end Entries

/-! ## One call -/

section Calls

variable [PyText] [Totp] {w : World}

/-- `str.lower` keeps the two keys that the entries use. -/
def KeepsTrailKeys : Prop :=
  PyText.lower "is_active" = "is_active" ∧ PyText.lower "mfa_confirmed" = "mfa_confirmed"

omit [Totp] in
/-- A key that is not redacted keeps its value. -/
lemma redact_plain {key : String} (hlower : PyText.lower key = key)
    (hplain : redactedKeys.contains key = false) (value : Json) :
    redact [(key, value)] = [(key, value)] := by
  have hkey : secretKey key = false := by
    unfold secretKey
    rw [hlower, hplain]
  rw [redact_cons, hkey]
  rfl

lemma truthful_disableCustomer_iff (hkeys : KeepsTrailKeys) (actor : StaffInstance)
    (customerId : Id) (reason : String) (request : Option RequestContext) :
    Truthful (event TrailCall.service (.disableCustomer actor customerId reason request) w) ↔
      (TrailCall.disableCustomer actor customerId reason request).Sincere w := by
  have hafter : (event TrailCall.service (.disableCustomer actor customerId reason request)
      w).after = ((disableCustomer actor customerId reason request).run w).2 :=
    run_bind_return _ _ _
  rcases hrun : (disableCustomer actor customerId reason request).run w with ⟨result, w'⟩
  rw [hrun] at hafter
  cases result with
  | error e =>
      have hsilent := (disableCustomer_endsWith actor customerId reason request).run_error hrun
      refine iff_of_true (truthful_of_silent ?_) ?_
      · rw [hafter]
        exact hsilent.auditLog
      · intro hpolicy hmfa hreason hlength c hc hid
        obtain ⟨c', w'', hok⟩ :=
          @disableCustomer_run _ _ _ _ request _ hpolicy hmfa hreason hlength hc
        rw [hid, hrun] at hok
        cases hok
  | ok c' =>
      obtain ⟨hpolicy, hmfa, hreason, hlength, ⟨c, hc, rfl⟩, hcustomers, entry, -, -, -, hbefore,
        hentryAfter, hrows⟩ := disableCustomer_ok hrun
      rw [redact_plain hkeys.1 (by decide)] at hbefore hentryAfter
      have hwrites := @writes_iff
        (event TrailCall.service (.disableCustomer actor c.id reason request) w) entry
        (by rw [hafter]; exact hrows)
      have hstored : { c with isActive := false } ∈ w'.db.customers.rows := by
        rw [hcustomers]
        exact w.db.customers.mem_update.2 ⟨c, hc, Assignment.on_pos _ (beq_iff_eq.2 rfl)⟩
      constructor
      · intro htruth _ _ _ _ c'' hc'' hid
        have hvalue := (htruth _ rfl entry ((hwrites entry).2 rfl)).1
        rw [w.db.customers.eq_of_pk hc'' hc hid]
        have heq := (value_customer hc).symm.trans hvalue
        rw [hbefore] at heq
        simpa using heq
      · rintro hsincere target htarget entry' hentry'
        obtain rfl := Option.some.inj htarget
        rw [(hwrites entry').1 hentry', hbefore, hentryAfter]
        constructor
        · change (AuditTarget.customer c.id).value w = _
          rw [value_customer hc, hsincere hpolicy hmfa hreason hlength c hc rfl]
        · rw [hafter]
          exact value_customer hstored

lemma truthful_resetStaffMfa_iff (hkeys : KeepsTrailKeys) (actor targetStaff : StaffInstance)
    (request : Option RequestContext) :
    Truthful (event TrailCall.service (.resetStaffMfa actor targetStaff request) w) ↔
      (TrailCall.resetStaffMfa actor targetStaff request).Sincere w := by
  rcases hrun : (resetStaffMfa actor targetStaff request).run w with ⟨result, w'⟩
  have hafter : (event TrailCall.service (.resetStaffMfa actor targetStaff request) w).after =
      w' := congrArg Prod.snd hrun
  cases result with
  | error e =>
      have hsilent := (resetStaffMfa_endsWith actor targetStaff request).run_error hrun
      refine iff_of_true (truthful_of_silent ?_) ?_
      · rw [hafter]
        exact hsilent.auditLog
      · intro hpolicy hmfa
        obtain ⟨w'', hok⟩ := @resetStaffMfa_run _ _ targetStaff request _ hpolicy hmfa
        rw [hrun] at hok
        cases hok
  | ok u =>
      obtain ⟨hpolicy, hmfa, hdevices, entry, had, hhad, -, -, -, hbefore, hentryAfter, hrows⟩ :=
        resetStaffMfa_ok hrun
      rw [redact_plain hkeys.2 (by decide)] at hbefore hentryAfter
      have hwrites := @writes_iff
        (event TrailCall.service (.resetStaffMfa actor targetStaff request) w) entry
        (by rw [hafter]; exact hrows)
      have hnone : false = true ↔ HasConfirmedDevice w' targetStaff.staff.id := by
        refine iff_of_false Bool.false_ne_true ?_
        rintro ⟨d, hd, hstaff, -⟩
        rw [hdevices] at hd
        exact of_decide_eq_false (w.db.staffTotpDevices.mem_delete.1 hd).2 hstaff
      constructor
      · intro htruth _ _
        have hvalue := (htruth _ rfl entry ((hwrites entry).2 rfl)).1
        change (AuditTarget.staff targetStaff.staff.id).value w = _ at hvalue
        by_cases hstored : HasConfirmedDevice w targetStaff.staff.id
        · rw [value_staff (iff_of_true rfl hstored), hbefore] at hvalue
          have htrue : had = true := by simpa using hvalue.symm
          exact iff_of_true (hhad.1 htrue) hstored
        · rw [value_staff (iff_of_false Bool.false_ne_true hstored), hbefore] at hvalue
          have hfalse : had = false := by simpa using hvalue.symm
          exact iff_of_false (fun h => Bool.false_ne_true (hfalse.symm.trans (hhad.2 h))) hstored
      · rintro hsincere target htarget entry' hentry'
        obtain rfl := Option.some.inj htarget
        rw [(hwrites entry').1 hentry', hbefore, hentryAfter]
        constructor
        · exact value_staff (hhad.trans (hsincere hpolicy hmfa))
        · rw [hafter]
          exact value_staff hnone

/-- A call writes a truthful entry, or none, exactly when it is sincere. -/
lemma truthful_event_iff (hkeys : KeepsTrailKeys) (call : TrailCall) :
    Truthful (event TrailCall.service call w) ↔ call.Sincere w := by
  cases call with
  | disableCustomer actor customerId reason request =>
      exact truthful_disableCustomer_iff hkeys actor customerId reason request
  | resetStaffMfa actor targetStaff request =>
      exact truthful_resetStaffMfa_iff hkeys actor targetStaff request
  | registerCustomer email password => exact iff_of_true (fun _ h => nomatch h) trivial
  | startMfaSetup staff => exact iff_of_true (fun _ h => nomatch h) trivial
  | confirmMfaSetup staff token => exact iff_of_true (fun _ h => nomatch h) trivial

end Calls

/-! ## Runs -/

section Runs

variable [PyText] [Totp]

/-- Truthful entries about one target follow on from one another. -/
lemma chained_of_truthful {ok : World → TrailCall → Prop} {w₀ w : World} {log : List TrailEvent}
    (h : TrailTrace ok w₀ log w) (htruth : ∀ e ∈ log, Truthful e) : Chained log := by
  rintro later e' between e earlier hlog target htarget htarget' hkeep entry entry' hentry hentry'
  have hsplit : log = later ++ e' :: (between ++ e :: earlier) := by
    rw [hlog, List.append_assoc, List.cons_append]
  have he' : e' ∈ log := by
    rw [hsplit]
    exact List.mem_append_right _ List.mem_cons_self
  have he : e ∈ log := by
    rw [hlog]
    exact List.mem_append_right _ List.mem_cons_self
  obtain ⟨htrace, -, -⟩ := h.earlier hsplit
  have hsame : target.value e'.before = target.value e.after :=
    htrace.same_since (f := fun w => target.value w) (fun _ _ henv => value_of_same henv target)
      rfl hkeep
  have hfirst := (htruth e he target htarget entry hentry).2
  have hsecond := (htruth e' he' target htarget' entry' hentry').1
  rw [hsame, hfirst] at hsecond
  exact (Option.some.inj hsecond).symm

/-- In every run of sincere calls, every entry has the values right before and right after its
call, and the entries about one target follow on from one another.  After any run, a call that is
not sincere writes an entry that has not. -/
theorem truthful_iff (hkeys : KeepsTrailKeys) (w₀ : World) :
    (∀ log w, TrailTrace (fun w call => call.Sincere w) w₀ log w →
      (∀ e ∈ log, Truthful e) ∧ Chained log) ∧
    (∀ log w, TrailTrace (fun _ _ => True) w₀ log w → ∀ call : TrailCall,
      Truthful (event TrailCall.service call w) ↔ call.Sincere w) := by
  constructor
  · intro log w h
    have htruth : ∀ e ∈ log, Truthful e := by
      intro e he
      obtain ⟨earlier, -, hsincere, hevent⟩ := h.of_mem he
      rw [hevent]
      exact (truthful_event_iff hkeys e.call).2 hsincere
    exact ⟨htruth, chained_of_truthful h htruth⟩
  · intro log w _ call
    exact truthful_event_iff hkeys call

end Runs

/-! ### A customer who is disabled twice -/

section Example

attribute [local instance] plainText firstCodes

/-- A customer registers. -/
def trailRegistration : TrailCall := .registerCustomer "a@example.com" "teapot-on-fire"

/-- The administrator disables the customer. -/
def trailDisabling : TrailCall := .disableCustomer administrator 0 "fraud" none

/-- The world after these calls. -/
def trailWorld (calls : List TrailCall) : World :=
  (Trace.execute TrailCall.service calls ([], administeredWorld)).2

lemma keepsTrailKeys_plainText : KeepsTrailKeys := ⟨rfl, rfl⟩

/-- The first time, the entry is truthful. -/
theorem truthful_disabling_once :
    Truthful (event TrailCall.service trailDisabling (trailWorld [trailRegistration])) := by
  refine ((truthful_iff keepsTrailKeys_plainText _).2 [] _ .refl trailDisabling).2 ?_
  intro _ _ _ _
  decide

/-- The second entry says that the customer was active before. -/
theorem not_truthful_disabling_twice :
    ¬ ∀ log w, TrailTrace (fun _ _ => True) administeredWorld log w →
      (∀ e ∈ log, Truthful e) ∧ Chained log := by
  intro hclaim
  have htrace := (((Trace.refl : TrailTrace (fun _ _ => True) administeredWorld _ _).call
    trailRegistration trivial).call trailDisabling trivial).call trailDisabling trivial
  have htruth := (hclaim _ _ htrace).1 _ List.mem_cons_self
  have hsincere := (truthful_event_iff keepsTrailKeys_plainText trailDisabling).1 htruth
  have hactive := hsincere (by decide) ⟨⟨0, 0, 0, some 0⟩, by decide, rfl, rfl⟩ (by decide)
    (by decide)
  exact absurd hactive (by decide)

end Example

end BePyEco
