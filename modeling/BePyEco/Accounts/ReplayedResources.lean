import BePyEco.Accounts.AdminViews

/-!
# Replays and resources

`DisableCustomerView` and `ResetStaffMfaView` name their resource in the URL, while an idempotency
record is found by actor, action and key and compared by the body.  A second request with the same
key and body is therefore answered from the record of the first one, whatever resource it names.

`replay_crosses_resources_iff` says when that happens to two requests in sequence: the first one is
admissible, the second authorized, and they name different resources.
-/

namespace BePyEco

open Library

/-! ## The two endpoints -/

/-- A sensitive endpoint whose URL names a resource. -/
inductive ResourceEndpoint
  | disableCustomer
  | resetStaffMfa
  deriving DecidableEq, Repr

namespace ResourceEndpoint

/-- The codename, which is also the action of the idempotency records and of the audit entry. -/
def action : ResourceEndpoint → String
  | disableCustomer => "accounts.disable_customer"
  | resetStaffMfa => "accounts.reset_staff_mfa"

variable [SerializerFields] [PyText]

/-- The view, with the resource of the URL. -/
def post : ResourceEndpoint → Request → Id → Service Response
  | disableCustomer, request, customerId => DisableCustomerView.post request customerId
  | resetStaffMfa, request, staffId => ResetStaffMfaView.post request staffId

def effect : ResourceEndpoint → Id → StaffInstance → Request → Service Response
  | disableCustomer => disableCustomerEffect
  | resetStaffMfa => resetStaffMfaEffect

lemma post_eq (e : ResourceEndpoint) (request : Request) (resource : Id) :
    e.post request resource = sensitiveView e.action (e.effect resource) request := by
  cases e <;> rfl

/-- The effect works for the resource: it exists, and what the body says is accepted by the
service and fits the audit log. -/
def Feasible (w : World) (data : Json) (resource : Id) : ResourceEndpoint → Prop
  | disableCustomer =>
    (∃ reason, disableCustomerSerializer data = .ok reason ∧ PyText.strip reason ≠ "" ∧
      (PyText.strip reason).length ≤ 255) ∧ ∃ c ∈ w.db.customers.rows, c.id = resource
  | resetStaffMfa => ∃ s ∈ w.db.staff.rows, s.id = resource

end ResourceEndpoint

/-- The world from `w` to `w'` saw the action executed for the resource by the staff member. -/
def Executed (action : String) (actorId resource : Id) (w w' : World) : Prop :=
  ∃ entry : AuditLogEntry, entry.action = action ∧ entry.actorId = actorId ∧
    entry.resourceId = resource ∧ w'.db.auditLog.rows = w.db.auditLog.rows ++ [entry]

lemma Executed.resource_eq {action action' : String} {actorId actorId' r r' : Id} {w w' : World}
    (h : Executed action actorId r w w') (h' : Executed action' actorId' r' w w') : r = r' := by
  obtain ⟨entry, -, -, rfl, hrows⟩ := h
  obtain ⟨entry', -, -, rfl, hrows'⟩ := h'
  have heq : [entry] = [entry'] := List.append_cancel_left (hrows.symm.trans hrows')
  rw [List.singleton_inj.1 heq]

lemma not_executed_self {action : String} {actorId resource : Id} {w : World} :
    ¬ Executed action actorId resource w w := by
  rintro ⟨entry, -, -, -, hrows⟩
  have hlength := congrArg List.length hrows
  rw [List.length_append, List.length_singleton] at hlength
  omega

/-! ## Effects -/

section Effects

variable [PyText]

/-- `disable_customer` returns when it has something to do and may do it. -/
lemma disableCustomer_run {actor : StaffInstance} {c : Customer} {reason : String}
    {request : Option RequestContext} {w : World}
    (hpolicy : checkPolicy actor.staff.role "accounts.disable_customer" = true)
    (hmfa : ConfirmedMfa w actor) (hreason : PyText.strip reason ≠ "")
    (hlength : (PyText.strip reason).length ≤ 255) (hc : c ∈ w.db.customers.rows) :
    ∃ c' w', (disableCustomer actor c.id reason request).run w = (.ok c', w') := by
  obtain ⟨device, hrun, hconfirmed⟩ := hasConfirmedMfa_run actor w
  rw [hconfirmed.2 hmfa] at hrun
  obtain ⟨w₁, k, w₂, hsave, -, hrevoke, -, -⟩ := disableWrites_run hc
  unfold disableCustomer
  simp only [hpolicy, Program.require_true, Program.done_ok_bind, Program.run_bind, hrun,
    decide_eq_true hreason, Program.liftM_eq, Program.run_exec, Tx.exec_ok (getCustomer_run hc),
    Tx.exec_ok hsave, revokeAllSessions, Tx.exec_ok hrevoke, Program.pure_eq, Program.run_done]
  obtain ⟨entry, w₃, haudit, -⟩ := @writeAuditLog_run _ w₂ .staff actor.staff.id
    "accounts.disable_customer" "customer" c.id [("is_active", .bool true)]
    [("is_active", .bool false)] (PyText.strip reason) (clientIp request) (requestId request)
    (by decide) (by decide) hlength
  rw [Tx.exec_ok haudit]
  exact ⟨_, _, rfl⟩

lemma resetStaffMfa_run {actor targetStaff : StaffInstance} {request : Option RequestContext}
    {w : World} (hpolicy : checkPolicy actor.staff.role "accounts.reset_staff_mfa" = true)
    (hmfa : ConfirmedMfa w actor) :
    ∃ w', (resetStaffMfa actor targetStaff request).run w = (.ok (), w') := by
  obtain ⟨device, -, hguard⟩ := requireConfirmedMfa_run hmfa
  obtain ⟨device', hlookup, -⟩ := hasConfirmedMfa_run targetStaff w
  obtain ⟨w₁, hdelete, -, -⟩ := deleteTotpDevices_run targetStaff.staff.id w
  unfold resetStaffMfa
  simp only [hpolicy, Program.require_true, Program.done_ok_bind, Program.run_bind, hguard, hlookup,
    Program.liftM_eq, Program.run_exec, Tx.exec_ok hdelete, Program.pure_eq, Program.run_done]
  obtain ⟨entry, w₂, haudit, -⟩ := @writeAuditLog_run _ w₁ .staff actor.staff.id
    "accounts.reset_staff_mfa" "staff" targetStaff.staff.id
    [("mfa_confirmed", .bool (device'.any StaffTOTPDevice.isConfirmed))]
    [("mfa_confirmed", .bool false)] "" (clientIp request) (requestId request)
    (by decide) (by decide) (by decide)
  rw [Tx.exec_ok haudit]
  exact ⟨_, rfl⟩

omit [PyText] in
lemma getStaff_run {w : World} {s : Staff} (hs : s ∈ w.db.staff.rows) :
    (getStaff s.id).run w = .ok (s, w) := by
  refine Objects.run_get_of_ok (Table.get_of_unique hs (decide_eq_true rfl) fun s' hs' hid => ?_)
  exact w.db.staff.eq_of_pk hs' hs (of_decide_eq_true hid)

variable [SerializerFields]

/-- An effect that returned was feasible, and was executed for the resource. -/
lemma ResourceEndpoint.effect_ok {e : ResourceEndpoint} {resource : Id} {actor : StaffInstance}
    {request : Request} {w w' : World} {response : Response}
    (h : (e.effect resource actor request).run w = (.ok response, w')) :
    response = { status := 204 } ∧ e.Feasible w request.data resource ∧
      Executed e.action actor.staff.id resource w w' := by
  cases e with
  | disableCustomer =>
      obtain ⟨reason, w₁, hreason, h₁⟩ := Program.run_bind_ok h
      obtain ⟨c, w₂, hdisable, h₂⟩ := Program.run_bind_ok h₁
      cases h₂
      have hdata : w₁ = w ∧ disableCustomerSerializer request.data = .ok reason := by
        cases hserializer : disableCustomerSerializer request.data with
        | ok reason' =>
            rw [hserializer] at hreason
            cases hreason
            exact ⟨rfl, rfl⟩
        | error e =>
            rw [hserializer] at hreason
            cases hreason
      rw [hdata.1] at hdisable
      obtain ⟨-, -, hblank, hlength, hcustomer, -, entry, haction, hactor, hresource, -, -,
        hrows⟩ := disableCustomer_ok hdisable
      have hexecuted : Executed "accounts.disable_customer" actor.staff.id resource w w' :=
        ⟨entry, haction, hactor, hresource, hrows⟩
      exact ⟨rfl, ⟨⟨reason, hdata.2, hblank, hlength⟩, hcustomer⟩, hexecuted⟩
  | resetStaffMfa =>
      obtain ⟨target, w₁, htarget, h₁⟩ := Program.run_bind_ok h
      obtain ⟨u, w₂, hreset, h₂⟩ := Program.run_bind_ok h₁
      cases h₂
      obtain ⟨rfl, hrow⟩ := Objects.get_ok (Program.run_exec_ok htarget)
      have hid : target.id = resource := by simpa using Table.holds_of_get hrow
      obtain ⟨-, -, -, entry, -, -, haction, hactor, hresource, -, -, hrows⟩ :=
        resetStaffMfa_ok hreset
      have hexecuted : Executed "accounts.reset_staff_mfa" actor.staff.id target.id w₁ w' :=
        ⟨entry, haction, hactor, hresource, hrows⟩
      rw [← hid]
      exact ⟨rfl, ⟨target, Table.mem_of_get hrow, rfl⟩, hexecuted⟩

/-- A feasible effect returns. -/
lemma ResourceEndpoint.effect_run {e : ResourceEndpoint} {resource : Id} {actor : StaffInstance}
    {request : Request} {w : World} (hpolicy : checkPolicy actor.staff.role e.action = true)
    (hmfa : ConfirmedMfa w actor) (hfeasible : e.Feasible w request.data resource) :
    ∃ w', (e.effect resource actor request).run w = (.ok { status := 204 }, w') := by
  cases e with
  | disableCustomer =>
      obtain ⟨⟨reason, hserializer, hblank, hlength⟩, c, hc, rfl⟩ := hfeasible
      obtain ⟨c', w', hrun⟩ := @disableCustomer_run _ actor c reason request.context w hpolicy hmfa
        hblank hlength hc
      refine ⟨w', ?_⟩
      unfold effect disableCustomerEffect
      simp only [hserializer, Program.ofExcept_ok, Program.done_ok_bind, Program.run_bind, hrun,
        Program.pure_eq, Program.run_done]
  | resetStaffMfa =>
      obtain ⟨s, hs, rfl⟩ := hfeasible
      obtain ⟨w', hrun⟩ := @resetStaffMfa_run _ actor { staff := s } request.context w hpolicy hmfa
      refine ⟨w', ?_⟩
      unfold effect resetStaffMfaEffect
      simp only [Program.run_bind, Program.liftM_eq, Program.run_exec, Tx.exec_ok (getStaff_run hs),
        hrun, Program.pure_eq, Program.run_done]

/-- The idempotency records are not touched by an effect. -/
lemma ResourceEndpoint.effect_records (e : ResourceEndpoint) (resource : Id)
    (actor : StaffInstance) (request : Request) (w : World) :
    ((e.effect resource actor request).run w).2.db.idempotencyRecords =
      w.db.idempotencyRecords := by
  have hframe : (e.effect resource actor request).Guarantees
      (Same fun w => w.db.idempotencyRecords) := by
    cases e with
    | disableCustomer =>
        refine Program.Guarantees.bind (Program.guarantees_ofExcept _) fun _ => ?_
        refine Program.Guarantees.bind (disableCustomer_guarantees ?_ ?_ fun _ _ => rfl)
          fun _ => trivial
        · exact fun _ => Objects.guarantees_save fun _ => rfl
        · exact fun _ => Tx.Guarantees.bind (Tx.guarantees_read _) fun _ =>
            Objects.guarantees_update fun _ => rfl
    | resetStaffMfa =>
        refine Program.Guarantees.bind (Program.guarantees_exec (Objects.guarantees_get _))
          fun _ => ?_
        refine Program.Guarantees.bind (resetStaffMfa_guarantees ?_ fun _ _ => rfl) fun _ => trivial
        exact fun _ => Objects.guarantees_delete fun _ => rfl
  exact hframe.run w

end Effects

/-! ## One request -/

/-- The guards of the view let a request with this key pass. -/
structure Authorized (action : String) (w : World) (request : Request) (key : String) : Prop where
  policy : checkPolicy request.user.role action = true
  mfa : ConfirmedMfa w { staff := request.user }
  key : key ≠ ""

/-- A first request with this key is executed and remembered. -/
structure Admissible [SerializerFields] [PyText] (e : ResourceEndpoint) (w : World)
    (request : Request) (key : String) (resource : Id) : Prop where
  authorized : Authorized e.action w request key
  feasible : e.Feasible w request.data resource
  key_fits : key.length ≤ 255

/-- No response is stored under the scope. -/
def Unused (scope : IdempotencyScope) (w : World) : Prop :=
  ∀ r ∈ w.db.idempotencyRecords.rows, r.scope ≠ scope

/-- The record of a request that was answered 204. -/
structure IsRecordOf (scope : IdempotencyScope) (data : Json) (record : IdempotencyRecord) :
    Prop where
  scope_eq : record.scope = scope
  hash : record.requestHash = hashRequest data
  status : record.responseStatus = 204
  body : record.responseBody = none

section Request

variable {action key : String} {request : Request} {w w' : World}
  {effect : StaffInstance → Request → Service Response}

lemma requireIdempotencyKey_eq (hkey : request.idempotencyKey = some key) (h : key ≠ "") :
    requireIdempotencyKey request = .ok key := by
  unfold requireIdempotencyKey
  rw [hkey]
  exact if_neg h

/-- A request that the guards stop changes nothing. -/
lemma sensitiveView_run_of_not_authorized (hkey : request.idempotencyKey = some key)
    (h : ¬ Authorized action w request key) :
    ∃ e, (sensitiveView action effect request).run w = (.error (.app e), w) := by
  unfold sensitiveView
  by_cases hpolicy : checkPolicy request.user.role action = true
  · by_cases hmfa : ConfirmedMfa w { staff := request.user }
    · have hblank : key = "" := by
        by_contra hne
        exact h ⟨hpolicy, hmfa, hne⟩
      obtain ⟨device, -, hguard⟩ := requireConfirmedMfa_run hmfa
      have hrequired : requireIdempotencyKey request = .error .idempotencyKeyRequired := by
        unfold requireIdempotencyKey
        rw [hkey]
        exact if_pos hblank
      simp only [hpolicy, Program.require_true, Program.done_ok_bind, Program.run_bind, hguard,
        hrequired, Program.ofExcept_error, Program.run_done]
      exact ⟨_, rfl⟩
    · simp only [hpolicy, Program.require_true, Program.done_ok_bind, Program.run_bind,
        requireConfirmedMfa_run_of_not hmfa]
      exact ⟨_, rfl⟩
  · rw [Bool.not_eq_true] at hpolicy
    rw [hpolicy, Program.require_false, Program.done_error_bind]
    exact ⟨_, rfl⟩

/-- Behind the guards the actor has a confirmed device in the cache. -/
lemma sensitiveView_run_of_authorized (hkey : request.idempotencyKey = some key)
    (h : Authorized action w request key) :
    ∃ actor, actor.staff = request.user ∧ ConfirmedMfa w actor ∧
      (sensitiveView action effect request).run w =
        (replayOrRun request action key (effect actor request)).run w := by
  obtain ⟨device, hdevice, hguard⟩ := requireConfirmedMfa_run h.mfa
  refine ⟨{ staff := request.user, totpDevice := some device }, rfl, hdevice, ?_⟩
  unfold sensitiveView
  rw [h.policy, Program.require_true, Program.done_ok_bind, Program.run_bind, hguard]
  dsimp only
  rw [requireIdempotencyKey_eq hkey h.key, Program.ofExcept_ok, Program.done_ok_bind]

/-- A request with a live record is answered from it. -/
lemma replayOrRun_run_of_record {effect : Service Response} {record : IdempotencyRecord}
    (hmem : record ∈ w.db.idempotencyRecords.rows)
    (hrecord : IsRecordOf (request.scope action key) request.data record)
    (halive : w.now ≤ record.expiresAt) :
    (replayOrRun request action key effect).run w = (.ok { status := 204 }, w) := by
  have hcached := getCachedResponse_run_of_mem hmem hrecord.hash halive
  rw [hrecord.scope_eq, hrecord.status, hrecord.body] at hcached
  unfold replayOrRun replayIfCached
  simp only [Program.run_bind, hcached, Program.pure_eq, Program.run_done, Option.map_some]

/-- A request without a record runs its effect and then stores the response. -/
lemma replayOrRun_run_of_unused {effect : Service Response}
    (h : Unused (request.scope action key) w) :
    (replayOrRun request action key effect).run w =
      (do let response ← effect
          let _ ← rememberResponse request action key response
          return response : Service Response).run w := by
  unfold replayOrRun replayIfCached
  rw [Program.run_bind, Program.run_bind, getCachedResponse_run_of_none h]
  rfl

end Request

section FirstRequest

variable [SerializerFields] [PyText] {e : ResourceEndpoint} {key : String} {request : Request}
  {resource : Id} {w w' : World}

/-- A first request that returned was admissible, and left its execution and its record behind. -/
lemma post_ok_of_unused (hkey : request.idempotencyKey = some key)
    (hunused : Unused (request.scope e.action key) w) {response : Response}
    (h : (e.post request resource).run w = (.ok response, w')) :
    response = { status := 204 } ∧ Admissible e w request key resource ∧
      Executed e.action request.user.id resource w w' ∧
      ∃ record ∈ w'.db.idempotencyRecords.rows,
        IsRecordOf (request.scope e.action key) request.data record := by
  rw [e.post_eq] at h
  have hauthorized : Authorized e.action w request key := by
    by_contra hnot
    obtain ⟨raised, hrun⟩ := sensitiveView_run_of_not_authorized hkey hnot
    rw [hrun] at h
    cases h
  obtain ⟨actor, hactor, -, hrun⟩ := sensitiveView_run_of_authorized hkey hauthorized
  rw [hrun, replayOrRun_run_of_unused hunused, Program.run_bind] at h
  rcases heffect : (e.effect resource actor request).run w with ⟨r, w₁⟩
  rw [heffect] at h
  cases r with
  | error raised => cases h
  | ok response₁ =>
      dsimp only at h
      obtain ⟨rfl, hfeasible, hexecuted⟩ := ResourceEndpoint.effect_ok heffect
      have hrecords : w₁.db.idempotencyRecords = w.db.idempotencyRecords := by
        have hframe := e.effect_records resource actor request w
        rw [heffect] at hframe
        exact hframe
      have hunused₁ : Unused (request.scope e.action key) w₁ := by
        unfold Unused
        rw [hrecords]
        exact hunused
      have haction : e.action.length ≤ 100 := by cases e <;> decide
      by_cases hlength : key.length ≤ 255
      · obtain ⟨record, w₂, hstore⟩ := @storeResponse_run (request.scope e.action key) request.data
          w₁ 204 none haction hlength (by decide) hunused₁
        obtain ⟨⟨id, hid⟩, hrows, -, hlog⟩ := storeResponse_ok hstore
        rw [Program.run_bind, Program.liftM_eq, Program.run_exec, rememberResponse,
          Tx.exec_ok hstore] at h
        cases h
        refine ⟨rfl, ⟨hauthorized, hfeasible, hlength⟩, ?_, record, ?_, ?_⟩
        · obtain ⟨entry, haction, hactorId, hresource, hentry⟩ := hexecuted
          exact ⟨entry, haction, by rw [hactorId, hactor], hresource, by rw [hlog, hentry]⟩
        · rw [hrows]
          exact List.mem_append_right _ (List.mem_singleton_self record)
        · rw [hid]
          exact ⟨rfl, rfl, rfl, rfl⟩
      · rw [Program.run_bind, Program.liftM_eq, Program.run_exec, rememberResponse,
          Tx.exec_error (storeResponse_run_of_long (Nat.lt_of_not_le hlength))] at h
        cases h

/-- An admissible first request is answered 204. -/
lemma post_run_of_admissible (hkey : request.idempotencyKey = some key)
    (hunused : Unused (request.scope e.action key) w)
    (h : Admissible e w request key resource) :
    ∃ w', (e.post request resource).run w = (.ok { status := 204 }, w') := by
  obtain ⟨actor, hactor, hmfa, hrun⟩ :=
    @sensitiveView_run_of_authorized e.action key request w (e.effect resource) hkey h.authorized
  have hpolicy : checkPolicy actor.staff.role e.action = true := by
    rw [hactor]
    exact h.authorized.policy
  obtain ⟨w₁, heffect⟩ := @ResourceEndpoint.effect_run _ _ e resource actor request w hpolicy hmfa
    h.feasible
  have hunused₁ : Unused (request.scope e.action key) w₁ := by
    have hframe := e.effect_records resource actor request w
    rw [heffect] at hframe
    unfold Unused
    rw [hframe]
    exact hunused
  have haction : e.action.length ≤ 100 := by cases e <;> decide
  obtain ⟨record, w₂, hstore⟩ := @storeResponse_run (request.scope e.action key) request.data w₁
    204 none haction h.key_fits (by decide) hunused₁
  refine ⟨w₂, ?_⟩
  rw [e.post_eq, hrun, replayOrRun_run_of_unused hunused, Program.run_bind, heffect]
  dsimp only
  rw [Program.run_bind, Program.liftM_eq, Program.run_exec, rememberResponse, Tx.exec_ok hstore]
  rfl

/-- A first request that raised left no record behind. -/
lemma unused_of_post_error (hkey : request.idempotencyKey = some key)
    (hunused : Unused (request.scope e.action key) w) {raised : Raised ApiError}
    (h : (e.post request resource).run w = (.error raised, w')) :
    Unused (request.scope e.action key) w' := by
  rw [e.post_eq] at h
  by_cases hauthorized : Authorized e.action w request key
  · obtain ⟨actor, hactor, -, hrun⟩ := @sensitiveView_run_of_authorized e.action key request w
      (e.effect resource) hkey hauthorized
    rw [hrun, replayOrRun_run_of_unused hunused, Program.run_bind] at h
    have hframe := e.effect_records resource actor request w
    rcases heffect : (e.effect resource actor request).run w with ⟨r, w₁⟩
    rw [heffect] at h hframe
    have hunused₁ : Unused (request.scope e.action key) w₁ := by
      unfold Unused
      rw [hframe]
      exact hunused
    cases r with
    | error raised₁ =>
        cases h
        exact hunused₁
    | ok response =>
        dsimp only at h
        rw [Program.run_bind, Program.liftM_eq, Program.run_exec] at h
        cases hstore : (rememberResponse request e.action key response).run w₁ with
        | ok r =>
            rw [Tx.exec_ok hstore] at h
            cases h
        | error raised₁ =>
            rw [Tx.exec_error hstore] at h
            cases h
            exact hunused₁
  · obtain ⟨raised₁, hrun⟩ := @sensitiveView_run_of_not_authorized e.action key request w
      (e.effect resource) hkey hauthorized
    rw [hrun] at h
    cases h
    exact hunused

end FirstRequest

/-! ## Two requests -/

/-- The status a request is answered with. -/
def answerStatus : Except (Raised ApiError) Response → ℕ
  | .ok response => response.status
  | .error (.app e) => e.statusCode
  | .error (.db _) => 500

lemma not_isSuccess_of_error (raised : Raised ApiError) :
    isSuccess (answerStatus (.error raised)) = false := by
  cases raised with
  | app e => exact e.not_isSuccess_statusCode
  | db e => rfl

/-- Two requests to an endpoint by one actor with one key and one body, in the worlds `w₁` and
`w₂`.  The first is the first one that uses the key, and the second is sent when the record of the
first, if there is one, is there and has not expired. -/
structure SentInSequence [SerializerFields] [PyText] (e : ResourceEndpoint) (key : String)
    (q₁ q₂ : Request) (r₁ : Id) (w₁ w₂ : World) : Prop where
  actor : q₁.user.id = q₂.user.id
  key₁ : q₁.idempotencyKey = some key
  key₂ : q₂.idempotencyKey = some key
  data : q₁.data = q₂.data
  unused : Unused (q₁.scope e.action key) w₁
  records : ∀ r : IdempotencyRecord, r.scope = q₁.scope e.action key →
    (r ∈ w₂.db.idempotencyRecords.rows ↔
      r ∈ ((e.post q₁ r₁).run w₁).2.db.idempotencyRecords.rows)
  alive : ∀ r ∈ w₂.db.idempotencyRecords.rows, r.scope = q₁.scope e.action key →
    w₂.now ≤ r.expiresAt

/-- A request that is answered 2xx had its action executed for the resource that it names, by
itself or by an earlier one of the two. -/
def NeverCrosses [SerializerFields] [PyText] (e : ResourceEndpoint) (q₁ q₂ : Request)
    (r₁ r₂ : Id) (w₁ w₂ : World) : Prop :=
  let first := (e.post q₁ r₁).run w₁
  let second := (e.post q₂ r₂).run w₂
  (isSuccess (answerStatus first.1) = true → Executed e.action q₁.user.id r₁ w₁ first.2) ∧
    (isSuccess (answerStatus second.1) = true →
      Executed e.action q₁.user.id r₂ w₁ first.2 ∨ Executed e.action q₂.user.id r₂ w₂ second.2)

section TwoRequests

variable [SerializerFields] [PyText]

lemma SentInSequence.scope_eq {e : ResourceEndpoint} {key : String} {q₁ q₂ : Request} {r₁ : Id}
    {w₁ w₂ : World} (h : SentInSequence e key q₁ q₂ r₁ w₁ w₂) :
    q₂.scope e.action key = q₁.scope e.action key := by
  unfold Request.scope
  rw [h.actor]

/-- After an admissible first request the second one is answered from its record. -/
lemma SentInSequence.replayed {e : ResourceEndpoint} {key : String} {q₁ q₂ : Request} {r₁ : Id}
    {w₁ w₂ : World} (h : SentInSequence e key q₁ q₂ r₁ w₁ w₂)
    (hadmissible : Admissible e w₁ q₁ key r₁) (hauthorized : Authorized e.action w₂ q₂ key)
    (r₂ : Id) :
    Executed e.action q₁.user.id r₁ w₁ ((e.post q₁ r₁).run w₁).2 ∧
      (e.post q₂ r₂).run w₂ = (.ok { status := 204 }, w₂) := by
  obtain ⟨w', hfirst⟩ := post_run_of_admissible h.key₁ h.unused hadmissible
  obtain ⟨-, -, hexecuted, record, hmem, hrecord⟩ := post_ok_of_unused h.key₁ h.unused hfirst
  have hrecords := h.records record hrecord.scope_eq
  rw [hfirst] at hrecords
  have hmem₂ := hrecords.2 hmem
  have hrecord₂ : IsRecordOf (q₂.scope e.action key) q₂.data record := by
    rw [h.scope_eq, ← h.data]
    exact hrecord
  obtain ⟨actor, -, -, hrun⟩ := @sensitiveView_run_of_authorized e.action key q₂ w₂
    (e.effect r₂) h.key₂ hauthorized
  refine ⟨by rw [hfirst]; exact hexecuted, ?_⟩
  rw [e.post_eq, hrun]
  exact replayOrRun_run_of_record hmem₂ hrecord₂ (h.alive record hmem₂ hrecord.scope_eq)

/-- Then the answer is right for the resource of the first request only. -/
lemma SentInSequence.resource_eq {e : ResourceEndpoint} {key : String} {q₁ q₂ : Request}
    {r₁ r₂ : Id} {w₁ w₂ : World} (h : SentInSequence e key q₁ q₂ r₁ w₁ w₂)
    (hadmissible : Admissible e w₁ q₁ key r₁) (hauthorized : Authorized e.action w₂ q₂ key)
    (hsound : NeverCrosses e q₁ q₂ r₁ r₂ w₁ w₂) : r₁ = r₂ := by
  obtain ⟨hexecuted, hsecond⟩ := h.replayed hadmissible hauthorized r₂
  rw [NeverCrosses, hsecond] at hsound
  obtain hother | hself := hsound.2 rfl
  · exact hexecuted.resource_eq hother
  · exact absurd hself not_executed_self

/-- Two requests keep their resources apart exactly when they name the same one, or the first is
not admissible, or the second does not pass the guards. -/
theorem neverCrosses_iff {e : ResourceEndpoint} {key : String} {q₁ q₂ : Request} {r₁ r₂ : Id}
    {w₁ w₂ : World} (h : SentInSequence e key q₁ q₂ r₁ w₁ w₂) :
    NeverCrosses e q₁ q₂ r₁ r₂ w₁ w₂ ↔
      r₁ = r₂ ∨ ¬ Admissible e w₁ q₁ key r₁ ∨ ¬ Authorized e.action w₂ q₂ key := by
  constructor
  · intro hsound
    by_cases hadmissible : Admissible e w₁ q₁ key r₁
    · by_cases hauthorized : Authorized e.action w₂ q₂ key
      · exact Or.inl (h.resource_eq hadmissible hauthorized hsound)
      · exact Or.inr (Or.inr hauthorized)
    · exact Or.inr (Or.inl hadmissible)
  · intro hcase
    have hfirst : ∀ answer w', (e.post q₁ r₁).run w₁ = (answer, w') →
        isSuccess (answerStatus answer) = true → Executed e.action q₁.user.id r₁ w₁ w' := by
      intro answer w' hrun hanswer
      cases answer with
      | ok response => exact (post_ok_of_unused h.key₁ h.unused hrun).2.2.1
      | error raised =>
          rw [not_isSuccess_of_error] at hanswer
          cases hanswer
    refine ⟨hfirst _ _ rfl, fun hanswer => ?_⟩
    rcases hsecond : (e.post q₂ r₂).run w₂ with ⟨answer₂, w₂'⟩
    rw [hsecond] at hanswer
    cases answer₂ with
    | error raised =>
        rw [not_isSuccess_of_error] at hanswer
        cases hanswer
    | ok response =>
        by_cases hadmissible : Admissible e w₁ q₁ key r₁
        · -- the second request passed the guards, so the resources are the same
          have hauthorized : Authorized e.action w₂ q₂ key := by
            by_contra hnot
            obtain ⟨raised, hrun⟩ := @sensitiveView_run_of_not_authorized e.action key q₂ w₂
              (e.effect r₂) h.key₂ hnot
            rw [e.post_eq, hrun] at hsecond
            cases hsecond
          obtain rfl | hnot | hnot := hcase
          · exact Or.inl (h.replayed hadmissible hauthorized r₁).1
          · exact absurd hadmissible hnot
          · exact absurd hauthorized hnot
        · -- nothing was remembered, so the second request is executed itself
          have hunused₂ : Unused (q₂.scope e.action key) w₂ := by
            rcases hrun : (e.post q₁ r₁).run w₁ with ⟨answer₁, w₁'⟩
            have hrecords := h.records
            rw [hrun] at hrecords
            cases answer₁ with
            | ok response₁ =>
                exact absurd (post_ok_of_unused h.key₁ h.unused hrun).2.1 hadmissible
            | error raised =>
                intro r hr hr_scope
                rw [h.scope_eq] at hr_scope
                exact unused_of_post_error h.key₁ h.unused hrun r ((hrecords r hr_scope).1 hr)
                  hr_scope
          exact Or.inr (post_ok_of_unused h.key₂ hunused₂ hsecond).2.2.1

end TwoRequests

/-! ### One key for two customers -/

section Example

attribute [local instance] plainText plainFields

/-- Two customers in an administered world. -/
def twoCustomers : World :=
  ((do let _ ← insertCustomer "a@example.com"
       insertCustomer "b@example.com" : Statement Customer).exec administeredWorld).2

/-- The administrator wants a customer disabled. -/
def disableRequest : Request where
  user := administrator.staff
  idempotencyKey := some "key"
  data := .obj [("reason", .str "fraud")]
  context := { remoteAddr := none, id := 0 }

/-- The world after the first customer was disabled. -/
def oneDisabled : World := ((ResourceEndpoint.disableCustomer.post disableRequest 0).run
  twoCustomers).2

lemma sentInSequence_disableRequest :
    SentInSequence .disableCustomer "key" disableRequest disableRequest 0 twoCustomers
      oneDisabled where
  actor := rfl
  key₁ := rfl
  key₂ := rfl
  data := rfl
  unused := by
    have hnone : twoCustomers.db.idempotencyRecords.rows = [] := by decide
    intro r hr
    rw [hnone] at hr
    cases hr
  records _ _ := Iff.rfl
  alive r _ _ := by
    have hnow : oneDisabled.now = 0 := by decide
    rw [hnow]
    exact Nat.zero_le _

lemma authorized_disableRequest {w : World}
    (h : ⟨0, 0, 0, some 0⟩ ∈ w.db.staffTotpDevices.rows) :
    Authorized "accounts.disable_customer" w disableRequest "key" where
  policy := by decide
  mfa := ⟨⟨0, 0, 0, some 0⟩, h, rfl, rfl⟩
  key := by decide

lemma admissible_disableRequest :
    Admissible .disableCustomer twoCustomers disableRequest "key" 0 where
  authorized := authorized_disableRequest (by decide)
  feasible := ⟨⟨"fraud", rfl, by decide, by decide⟩,
    ⟨0, "a@example.com", none, true, "", ""⟩, by decide, rfl⟩
  key_fits := by decide

/-- The same request again names the same customer. -/
theorem neverCrosses_same_customer :
    NeverCrosses .disableCustomer disableRequest disableRequest 0 0 twoCustomers oneDisabled :=
  (neverCrosses_iff sentInSequence_disableRequest).2 (Or.inl rfl)

/-- The request with the same key for the other customer is answered 204, and nothing is done for
that customer. -/
theorem not_neverCrosses :
    ¬ ∀ (e : ResourceEndpoint) (key : String) (q₁ q₂ : Request) (r₁ r₂ : Id) (w₁ w₂ : World),
      SentInSequence e key q₁ q₂ r₁ w₁ w₂ → NeverCrosses e q₁ q₂ r₁ r₂ w₁ w₂ := by
  intro hclaim
  have hsound := hclaim _ _ _ _ 0 1 _ _ sentInSequence_disableRequest
  have heq : (0 : Id) = 1 := sentInSequence_disableRequest.resource_eq admissible_disableRequest
    (authorized_disableRequest (by decide)) hsound
  exact absurd heq (by decide)

end Example

end BePyEco
