import BePyEco.Accounts.CommittedTogether
import BePyEco.Accounts.RegisterView
import BePyEco.Library.Interleaving

/-!
# Errors of the database that escape from the account endpoints

Requests to `RegisterView`, `CreateStaffView`, `DisableCustomerView` and `ResetStaffMfaView` on one
database, statement by statement and in any interleaving, with anything else happening to the
database in between.

A serializer does not rule out all that a constraint or a lookup refuses.  `EndpointPc.Breaks` says
of a request, in the words of its own values and of the store, when its next statement is refused,
and `nothingEscapes_iff` that these statements, and no others, raise what the handler does not
render.
-/

namespace BePyEco

open Library

/-! ## What the statements raise -/

section Statements

lemma findTotpDevice_escapesWhen (staffId : Id) :
    (findTotpDevice staffId).EscapesWhen IsRendered fun _ => False := by
  refine Tx.escapesWhen_of_ok fun w => ?_
  obtain ⟨device, hrun, -⟩ := findTotpDevice_run staffId w
  exact ⟨_, hrun⟩

lemma findRecord_escapesWhen (scope : IdempotencyScope) :
    (findRecord scope).EscapesWhen IsRendered fun _ => False := by
  refine Tx.escapesWhen_of_ok fun w => ?_
  by_cases h : ∃ r ∈ w.db.idempotencyRecords.rows, r.scope = scope
  · obtain ⟨r, hr, rfl⟩ := h
    exact ⟨_, findRecord_run_of_mem hr⟩
  · push Not at h
    exact ⟨_, findRecord_run_of_none h⟩

lemma insertStaff_escapesWhen [PyText] (email password : String) (role : Role) :
    (insertStaff email password role).EscapesWhen IsRendered
      fun w => ¬ StaffInsertable w email :=
  Objects.raisesDb_create.escapesWhen not_isRendered_db fun _ => insertStaff_isOk_iff

lemma getCustomer_escapesWhen (customerId : Id) :
    (getCustomer customerId).EscapesWhen IsRendered fun _ => False := by
  refine Tx.escapesWhen_of_handled fun w e herror => ?_
  by_cases h : ∃ c ∈ w.db.customers.rows, c.id = customerId
  · obtain ⟨c, hc, rfl⟩ := h
    rw [getCustomer_run hc] at herror
    cases herror
  · push Not at h
    rw [getCustomer_run_of_not_mem h] at herror
    cases herror
    exact isRendered_app rfl

lemma saveInactive_escapesWhen (customerId : Id) :
    (saveInactive customerId).EscapesWhen IsRendered
      fun w => ¬ ∃ c ∈ w.db.customers.rows, c.id = customerId := by
  refine Objects.raisesDb_save.escapesWhen not_isRendered_db fun w => ?_
  constructor
  · rintro ⟨⟨u, w'⟩, hrun⟩
    exact Objects.exists_of_save_ok hrun
  · rintro ⟨c, hc, hid⟩
    exact ⟨_, Objects.run_save_of_mem hc hid⟩

lemma getStaff_escapesWhen (staffId : Id) :
    (getStaff staffId).EscapesWhen IsRendered
      fun w => ¬ ∃ s ∈ w.db.staff.rows, s.id = staffId := by
  refine Objects.raisesDb_get.escapesWhen not_isRendered_db fun w => ?_
  constructor
  · rintro ⟨⟨s, w'⟩, hrun⟩
    obtain ⟨-, hget⟩ := Objects.get_ok hrun
    exact ⟨s, Table.mem_of_get hget, by simpa using Table.holds_of_get hget⟩
  · rintro ⟨s, hs, rfl⟩
    exact ⟨_, getStaff_run hs⟩

lemma revokeUnrevoked_escapesWhen (customerId : Id) :
    (revokeUnrevoked customerId).EscapesWhen IsRendered fun _ => False :=
  Tx.escapesWhen_of_ok fun _ => ⟨_, rfl⟩

lemma deleteTotpDevices_escapesWhen (staffId : Id) :
    (deleteTotpDevices staffId).EscapesWhen IsRendered fun _ => False :=
  Tx.escapesWhen_of_ok fun _ => ⟨_, rfl⟩

end Statements

/-! ## What the effects raise -/

section Effects

lemma bodyFields_error {data : Json} {e : ApiError} (h : bodyFields data = .error e) :
    e.isHandled = true := by
  cases data with
  | obj fields => cases h
  | _ =>
      cases h
      rfl

variable [SerializerFields]

lemma createStaffSerializer_error {data : Json} {e : ApiError}
    (h : createStaffSerializer data = .error e) : e.isHandled = true := by
  unfold createStaffSerializer at h
  cases hbody : bodyFields data with
  | error e' =>
      rw [hbody] at h
      cases h
      exact bodyFields_error hbody
  | ok fields =>
      rw [hbody] at h
      dsimp only [bind, Except.bind] at h
      split at h
      · cases h
      · cases h
        rfl

lemma disableCustomerSerializer_error {data : Json} {e : ApiError}
    (h : disableCustomerSerializer data = .error e) : e.isHandled = true := by
  unfold disableCustomerSerializer at h
  cases hbody : bodyFields data with
  | error e' =>
      rw [hbody] at h
      cases h
      exact bodyFields_error hbody
  | ok fields =>
      rw [hbody] at h
      dsimp only [bind, Except.bind] at h
      split at h
      · cases h
      · cases h
        rfl

variable [PyText]

/-- The statement of an effect, by its number, that the database refuses.  The conditions are in the
order of the statements. -/
def IdempotentEndpoint.Breaks (request : Request) : IdempotentEndpoint → ℕ → World → Prop
  -- the insert
  | createStaff, 0, w => ∃ fields ∈ (createStaffSerializer request.data).toOption,
      ¬ StaffInsertable w fields.1
  -- the save of the customer that was found
  | disableCustomer customerId, 1, w => ¬ ∃ c ∈ w.db.customers.rows, c.id = customerId
  -- the audit entry
  | disableCustomer _, 3, _ => ∃ reason ∈ (disableCustomerSerializer request.data).toOption,
      ¬ (PyText.strip reason).length ≤ 255
  -- the lookup of the target
  | resetStaffMfa staffId, 0, w => ¬ ∃ s ∈ w.db.staff.rows, s.id = staffId
  | _, _, _ => False

instance (e : IdempotentEndpoint) (request : Request) (stage : ℕ) (w : World) :
    Decidable (e.Breaks request stage w) :=
  match e, stage with
  | .createStaff, 0 =>
    inferInstanceAs (Decidable (∃ fields ∈ (createStaffSerializer request.data).toOption,
      ¬ StaffInsertable w fields.1))
  | .createStaff, _ + 1 => inferInstanceAs (Decidable False)
  | .disableCustomer _, 0 => inferInstanceAs (Decidable False)
  | .disableCustomer customerId, 1 =>
    inferInstanceAs (Decidable (¬ ∃ c ∈ w.db.customers.rows, c.id = customerId))
  | .disableCustomer _, 2 => inferInstanceAs (Decidable False)
  | .disableCustomer _, 3 =>
    inferInstanceAs (Decidable (∃ reason ∈ (disableCustomerSerializer request.data).toOption,
      ¬ (PyText.strip reason).length ≤ 255))
  | .disableCustomer _, _ + 4 => inferInstanceAs (Decidable False)
  | .resetStaffMfa staffId, 0 =>
    inferInstanceAs (Decidable (¬ ∃ s ∈ w.db.staff.rows, s.id = staffId))
  | .resetStaffMfa _, _ + 1 => inferInstanceAs (Decidable False)

/-- The status fits the column of the records. -/
def FitsRecord (response : Response) : Prop := response.status ≤ maxPositiveSmallInteger

variable {request : Request} {actor : StaffInstance}

lemma createStaffEffect_escapesWhen (hactor : GuardedActor request actor) :
    (createStaffEffect actor request).EscapesWhen IsRendered FitsRecord
      (IdempotentEndpoint.createStaff.Breaks request) 0 := by
  obtain ⟨device, hdevice, rfl⟩ := hactor
  refine Program.escapesWhen_ofExcept_bind
    (fun e he => isRendered_app (createStaffSerializer_error he)) fun fields hfields => ?_
  obtain ⟨email, password, role⟩ := fields
  have hcreate : (createStaff (.withDevice request.user device) email password role
      request.context).EscapesWhen IsRendered (fun _ => True)
        (IdempotentEndpoint.createStaff.Breaks request) 0 := by
    refine Program.escapesWhen_require_bind (isRendered_app rfl) fun _ => ?_
    rw [requireConfirmedMfa_cached hdevice, Program.done_ok_bind]
    refine Program.escapesWhen_exec_bind ((insertStaff_escapesWhen email password role).congr
      fun w => ?_) fun _ staff _ _ => ?_
    · simp [IdempotentEndpoint.Breaks, hfields, Except.toOption]
    · refine Program.escapesWhen_exec_bind ((writeAuditLog_escapesWhen (by decide)
        (by decide)).congr fun w => ?_) fun _ _ _ _ => Program.escapesWhen_ok trivial
      simp [IdempotentEndpoint.Breaks]
  exact hcreate.bind_return fun _ _ => show 201 ≤ maxPositiveSmallInteger by decide

lemma disableCustomerEffect_escapesWhen (customerId : Id) (hactor : GuardedActor request actor) :
    (disableCustomerEffect customerId actor request).EscapesWhen IsRendered FitsRecord
      ((IdempotentEndpoint.disableCustomer customerId).Breaks request) 0 := by
  obtain ⟨device, hdevice, rfl⟩ := hactor
  refine Program.escapesWhen_ofExcept_bind
    (fun e he => isRendered_app (disableCustomerSerializer_error he)) fun reason hreason => ?_
  have hdisable : (disableCustomer (.withDevice request.user device) customerId reason
      request.context).EscapesWhen IsRendered (fun _ => True)
        ((IdempotentEndpoint.disableCustomer customerId).Breaks request) 0 := by
    refine Program.escapesWhen_require_bind (isRendered_app rfl) fun _ => ?_
    rw [hasConfirmedMfa_cached hdevice, Program.done_ok_bind]
    refine Program.escapesWhen_require_bind (isRendered_app rfl) fun _ => ?_
    refine Program.escapesWhen_require_bind (isRendered_app rfl) fun _ => ?_
    refine Program.escapesWhen_exec_bind (getCustomer_escapesWhen customerId)
      fun w customer w' hget => ?_
    obtain ⟨-, -, rfl⟩ := getCustomer_ok hget
    refine Program.escapesWhen_exec_bind (saveInactive_escapesWhen customer.id) fun _ _ _ _ => ?_
    rw [revokeAllSessions]
    simp only [Program.bind_assoc]
    refine Program.escapesWhen_exec_bind (revokeUnrevoked_escapesWhen customer.id)
      fun _ _ _ _ => ?_
    refine Program.escapesWhen_exec_bind ((writeAuditLog_escapesWhen (by decide)
      (by decide)).congr fun w => ?_) fun _ _ _ _ => Program.escapesWhen_ok trivial
    simp [IdempotentEndpoint.Breaks, hreason, Except.toOption]
  exact hdisable.bind_return fun _ _ => show 204 ≤ maxPositiveSmallInteger by decide

lemma resetStaffMfaEffect_escapesWhen (staffId : Id) (hactor : GuardedActor request actor) :
    (resetStaffMfaEffect staffId actor request).EscapesWhen IsRendered FitsRecord
      ((IdempotentEndpoint.resetStaffMfa staffId).Breaks request) 0 := by
  obtain ⟨device, hdevice, rfl⟩ := hactor
  refine Program.escapesWhen_exec_bind (getStaff_escapesWhen staffId) fun _ target _ _ => ?_
  have hreset : (resetStaffMfa (.withDevice request.user device) { staff := target }
      request.context).EscapesWhen IsRendered (fun _ => True)
        ((IdempotentEndpoint.resetStaffMfa staffId).Breaks request) 1 := by
    refine Program.escapesWhen_require_bind (isRendered_app rfl) fun _ => ?_
    rw [requireConfirmedMfa_cached hdevice, Program.done_ok_bind]
    unfold hasConfirmedMfa loadTotpDevice
    simp only [Program.bind_assoc]
    refine Program.escapesWhen_exec_bind (findTotpDevice_escapesWhen target.id) fun _ _ _ _ => ?_
    refine Program.escapesWhen_exec_bind (deleteTotpDevices_escapesWhen target.id)
      fun _ _ _ _ => ?_
    refine Program.escapesWhen_exec_bind ((writeAuditLog_escapesWhen (by decide)
      (by decide)).congr fun w => ?_) fun _ _ _ _ => Program.escapesWhen_ok trivial
    simp [IdempotentEndpoint.Breaks]
  exact hreset.bind_return fun _ _ => show 204 ≤ maxPositiveSmallInteger by decide

/-- Every effect, behind its guards. -/
lemma IdempotentEndpoint.effect_escapesWhen (e : IdempotentEndpoint)
    (hactor : GuardedActor request actor) :
    (e.effect actor request).EscapesWhen IsRendered FitsRecord (e.Breaks request) 0 := by
  cases e with
  | createStaff => exact createStaffEffect_escapesWhen hactor
  | disableCustomer customerId => exact disableCustomerEffect_escapesWhen customerId hactor
  | resetStaffMfa staffId => exact resetStaffMfaEffect_escapesWhen staffId hactor

end Effects

/-! ## What the control points raise -/

/-- The database refuses the next statement: the insert, with a constraint that the serializer did
not look at or did not see broken. -/
def RegisterPc.Breaks [PyText] : RegisterPc → World → Prop
  | insert email _ _, w => ¬ Registrable w email
  | _, _ => False

/-- The database refuses the next statement: one of the effect, or the insert of the record. -/
def ViewPc.Breaks [SerializerFields] [PyText] (e : IdempotentEndpoint) : ViewPc → World → Prop
  | effect request _ stage _ _, w => e.Breaks request stage w
  | remember request key _, w => ¬ Rememberable w (request.scope e.action key)
  | _, _ => False

instance [PyText] (c : RegisterPc) (w : World) : Decidable (c.Breaks w) :=
  match c with
  | .start _ _ => inferInstanceAs (Decidable False)
  | .insert email _ _ => inferInstanceAs (Decidable (¬ Registrable w email))
  | .mail _ _ _ => inferInstanceAs (Decidable False)
  | .created _ => inferInstanceAs (Decidable False)
  | .failed _ => inferInstanceAs (Decidable False)

instance [SerializerFields] [PyText] (e : IdempotentEndpoint) (c : ViewPc) (w : World) :
    Decidable (c.Breaks e w) :=
  match c with
  | .start _ => inferInstanceAs (Decidable False)
  | .lookup _ _ _ => inferInstanceAs (Decidable False)
  | .clock _ _ _ _ => inferInstanceAs (Decidable False)
  | .discard _ _ _ _ => inferInstanceAs (Decidable False)
  | .effect request _ stage _ _ => inferInstanceAs (Decidable (e.Breaks request stage w))
  | .remember request key _ =>
    inferInstanceAs (Decidable (¬ Rememberable w (request.scope e.action key)))
  | .executed _ => inferInstanceAs (Decidable False)
  | .replayed _ => inferInstanceAs (Decidable False)
  | .unremembered _ _ => inferInstanceAs (Decidable False)
  | .failed _ => inferInstanceAs (Decidable False)

section ControlPoints

lemma registerFields_error {email password : Option String} {e : ApiError}
    (h : registerFields email password = .error e) : e.isHandled = true := by
  unfold registerFields at h
  split at h
  · cases h
  · cases h
    rfl

lemma sendMail_escapesWhen (recipient : String) (token : RawToken) :
    (sendMail recipient token).EscapesWhen IsRendered fun _ => False :=
  Tx.escapesWhen_of_ok fun _ => ⟨_, rfl⟩

variable [PyText]

lemma validateEmail_escapesWhen (value : String) :
    (validateEmail value).EscapesWhen IsRendered fun _ => False :=
  Tx.escapesWhen_of_ok fun _ => ⟨_, rfl⟩

variable [SerializerFields]

/-- The serializer raises nothing else before it has asked for the address. -/
lemma RegisterPc.not_escapes_start (data : Json) (context : RequestContext) :
    ¬ (start data context).program.Escapes IsRendered := by
  by_cases h : ∃ fields value, bodyFields data = .ok fields ∧
      SerializerFields.emailField (data.field "email") = some value
  · obtain ⟨fields, value, hbody, hvalue⟩ := h
    rw [program_start hbody hvalue]
    exact Program.not_escapes_exec_bind _ _
  · obtain ⟨fields, hprogram⟩ : ∃ fields, (start data context).program =
        .done (.error (.app (.validationError fields))) :=
      program_start_eq_error fun fields value hbody hvalue => h ⟨fields, value, hbody, hvalue⟩
    rw [hprogram]
    exact not_not.2 (isRendered_app rfl)

/-- A statement of a registration raises what is not rendered exactly when it is refused. -/
lemma RegisterPc.escapes_of_next {c c' : RegisterPc} {w w' : World}
    (h : c.next w = some (c', w')) : c'.program.Escapes IsRendered ↔ c.Breaks w := by
  cases c with
  | start data context =>
      rw [next] at h
      split at h
      · rename_i fields value hbody hvalue
        refine Control.escapes_of_advance program (validateEmail_escapesWhen value)
          (fun email => ?_) (fun _ => rfl) h
        rw [program_checked]
        cases hfields : registerFields email (registerPassword data) with
        | ok values => exact id
        | error e => exact not_not.2 (isRendered_app (registerFields_error hfields))
      · cases h
  | insert email password context =>
      rw [next] at h
      exact Control.escapes_of_advance program (registerBlock_escapesWhen email password)
        (fun _ => id) (fun _ => rfl) h
  | mail customer rawToken context =>
      rw [next] at h
      exact Control.escapes_of_advance program (sendMail_escapesWhen customer.email rawToken)
        (fun _ => id) (fun _ => rfl) h
  | created response => cases h
  | failed e => cases h

variable (e : IdempotentEndpoint)

/-- What a request keeps on its way: behind the guard the device is in the cache, and what is left
of an effect is refused where `IdempotentEndpoint.Breaks` says. -/
def ViewPc.Foreseen : ViewPc → Prop
  | lookup request actor _ => GuardedActor request actor
  | clock request actor _ _ => GuardedActor request actor
  | discard request actor _ _ => GuardedActor request actor
  | effect request _ stage exec next =>
    (Program.stmt exec next).EscapesWhen IsRendered FitsRecord (e.Breaks request) stage
  | remember _ _ response => FitsRecord response
  | _ => True

lemma ViewPc.foreseen_enter {request : Request} {key : String} {stage : ℕ}
    {rest : Service Response}
    (h : rest.EscapesWhen IsRendered FitsRecord (e.Breaks request) stage) :
    (ViewPc.enter request key stage rest).Foreseen e := by
  cases rest with
  | done r =>
      cases r with
      | ok response => exact h
      | error raised => exact trivial
  | stmt exec next => exact h

lemma ViewPc.foreseen_guarded (request : Request) (device : Option StaffTOTPDevice) :
    (ViewPc.guarded request device).Foreseen e := by
  unfold guarded
  split
  · rename_i hdevice
    split
    · exact ⟨device, hdevice, rfl⟩
    · trivial
  · trivial

lemma ViewPc.foreseen_compared {request : Request} {actor : StaffInstance}
    (hactor : GuardedActor request actor) (key : String) (record : IdempotencyRecord)
    (now : Time) : (ViewPc.compared request actor key record now).Foreseen e := by
  unfold compared
  split
  · exact hactor
  · split <;> trivial

/-- The statements of a request keep it. -/
lemma ViewPc.foreseen_of_next {c c' : ViewPc} {w w' : World} (hc : c.Foreseen e)
    (h : c.next e w = some (c', w')) : c'.Foreseen e := by
  cases c with
  | start request =>
      rw [next] at h
      split at h
      · obtain ⟨device, -, rfl⟩ | ⟨raised, -, rfl, -⟩ := Control.advance_cases h
        · exact foreseen_guarded e request device
        · trivial
      · cases h
  | lookup request actor key =>
      rw [next] at h
      obtain ⟨found, -, rfl⟩ | ⟨raised, -, rfl, -⟩ := Control.advance_cases h
      · cases found with
        | none => exact foreseen_enter e (e.effect_escapesWhen hc)
        | some record => exact hc
      · trivial
  | clock request actor key record =>
      rw [next] at h
      obtain ⟨now, -, rfl⟩ | ⟨raised, -, rfl, -⟩ := Control.advance_cases h
      · exact foreseen_compared e hc key record now
      · trivial
  | discard request actor key record =>
      rw [next] at h
      obtain ⟨u, -, rfl⟩ | ⟨raised, -, rfl, -⟩ := Control.advance_cases h
      · exact foreseen_enter e (e.effect_escapesWhen hc)
      · trivial
  | effect request key stage exec next =>
      cases h
      obtain ⟨-, raised, hnext, -⟩ | ⟨-, hrest⟩ := hc w
      · rw [hnext]
        trivial
      · exact foreseen_enter e hrest
  | remember request key response =>
      rw [next] at h
      obtain ⟨record, -, rfl⟩ | ⟨raised, -, rfl, -⟩ := Control.advance_cases h
      · trivial
      · trivial
  | executed response => cases h
  | replayed response => cases h
  | unremembered response raised => cases h
  | failed raised => cases h

omit [SerializerFields] [PyText] in
lemma requireIdempotencyKey_error {request : Request} {raised : ApiError}
    (h : requireIdempotencyKey request = .error raised) : raised.isHandled = true := by
  unfold requireIdempotencyKey at h
  split at h
  · split at h
    · cases h
      rfl
    · cases h
  · cases h
    rfl

lemma ViewPc.not_escapes_guarded (request : Request) (device : Option StaffTOTPDevice) :
    ¬ ((ViewPc.guarded request device).program e).Escapes IsRendered := by
  unfold guarded
  split
  · split
    · rw [program_lookup]
      exact Program.not_escapes_exec_bind _ _
    · rename_i raised hkey
      exact not_not.2 (isRendered_app (requireIdempotencyKey_error hkey))
  · exact not_not.2 (isRendered_app rfl)

/-- What begins with the rest of an effect raises what that rest raises. -/
lemma ViewPc.escapes_enter_iff (request : Request) (key : String) (stage : ℕ)
    (rest : Service Response) :
    ((ViewPc.enter request key stage rest).program e).Escapes IsRendered ↔
      rest.Escapes IsRendered := by
  rw [program_enter]
  cases rest with
  | done r => cases r <;> rfl
  | stmt exec next => rfl

lemma ViewPc.not_escapes_compared (request : Request) (actor : StaffInstance) (key : String)
    (record : IdempotencyRecord) (now : Time) :
    ¬ ((ViewPc.compared request actor key record now).program e).Escapes IsRendered := by
  unfold compared
  split
  · exact Program.not_escapes_exec_bind _ _
  · split
    · exact id
    · exact not_not.2 (isRendered_app rfl)

lemma ViewPc.not_escapes_start (request : Request) :
    ¬ ((start request).program e).Escapes IsRendered := by
  cases hpolicy : checkPolicy request.user.role e.action with
  | true =>
      rw [BePyEco.program_start hpolicy]
      exact Program.not_escapes_exec_bind _ _
  | false =>
      rw [program, e.post_eq, sensitiveView, hpolicy]
      exact not_not.2 (isRendered_app rfl)

/-- A statement of a sensitive endpoint raises what is not rendered exactly when it is refused. -/
lemma ViewPc.escapes_of_next {c c' : ViewPc} {w w' : World} (hc : c.Foreseen e)
    (h : c.next e w = some (c', w')) :
    (c'.program e).Escapes IsRendered ↔ c.Breaks e w := by
  cases c with
  | start request =>
      rw [next] at h
      split at h
      · exact Control.escapes_of_advance (program e) (findTotpDevice_escapesWhen request.user.id)
          (not_escapes_guarded e request) (fun _ => rfl) h
      · cases h
  | lookup request actor key =>
      rw [next] at h
      refine Control.escapes_of_advance (program e) (findRecord_escapesWhen _) (fun found => ?_)
        (fun _ => rfl) h
      cases found with
      | none =>
          rw [lookedUp, escapes_enter_iff]
          exact (e.effect_escapesWhen hc).not_escapes
      | some record =>
          rw [lookedUp, program_clock]
          exact Program.not_escapes_exec_bind _ _
  | clock request actor key record =>
      rw [next] at h
      have hnow : timezoneNow.EscapesWhen IsRendered fun _ => False :=
        Tx.escapesWhen_of_ok fun w => ⟨_, run_timezoneNow w⟩
      exact Control.escapes_of_advance (program e) hnow
        (not_escapes_compared e request actor key record) (fun _ => rfl) h
  | discard request actor key record =>
      rw [next] at h
      have hdelete : (deleteRecord record).EscapesWhen IsRendered fun _ => False :=
        Tx.escapesWhen_of_ok fun _ => ⟨_, rfl⟩
      refine Control.escapes_of_advance (program e) hdelete (fun _ => ?_) (fun _ => rfl) h
      rw [escapes_enter_iff]
      exact (e.effect_escapesWhen hc).not_escapes
  | effect request key stage exec next =>
      cases h
      rw [escapes_enter_iff]
      obtain ⟨hbreaks, raised, hnext, hraised⟩ | ⟨hworks, hrest⟩ := hc w
      · rw [hnext]
        exact iff_of_true hraised hbreaks
      · exact iff_of_false hrest.not_escapes hworks
  | remember request key response =>
      rw [next] at h
      exact Control.escapes_of_advance (program e)
        (storeResponse_escapesWhen e.action_length hc) (fun _ => id) (fun _ => rfl) h
  | executed response => cases h
  | replayed response => cases h
  | unremembered response raised => cases h
  | failed raised => cases h

end ControlPoints

/-! ## Any number of requests -/

/-- A request to one of the four endpoints. -/
inductive EndpointRequest
  | register (data : Json) (context : RequestContext)
  | admin (e : IdempotentEndpoint) (request : Request)

/-- Where a request stands. -/
inductive EndpointPc
  | register (c : RegisterPc)
  | admin (e : IdempotentEndpoint) (c : ViewPc)

/-- A request whose view has not executed a statement. -/
def EndpointRequest.start : EndpointRequest → EndpointPc
  | register data context => .register (.start data context)
  | admin e request => .admin e (.start request)

section Requests

variable [SerializerFields] [PyText]

/-- The view. -/
def EndpointRequest.post : EndpointRequest → Service Response
  | register data context => RegisterView.post data context
  | admin e request => e.post request

namespace EndpointPc

/-- What is left of a request. -/
def program : EndpointPc → Service Response
  | register c => c.program
  | admin e c => c.program e

/-- Execute the next statement of a request. -/
def next : EndpointPc → World → Option (EndpointPc × World)
  | register c, w => (c.next w).map fun x => (register x.1, x.2)
  | admin e c, w => (c.next e w).map fun x => (admin e x.1, x.2)

/-- The database refuses the next statement. -/
def Breaks : EndpointPc → World → Prop
  | register c, w => c.Breaks w
  | admin e c, w => c.Breaks e w

/-- What a request keeps on its way. -/
def Foreseen : EndpointPc → Prop
  | register _ => True
  | admin e c => c.Foreseen e

lemma program_start (request : EndpointRequest) : request.start.program = request.post := by
  cases request <;> rfl

lemma not_escapes_start (request : EndpointRequest) :
    ¬ request.start.program.Escapes IsRendered := by
  cases request with
  | register data context => exact RegisterPc.not_escapes_start data context
  | admin e request => exact ViewPc.not_escapes_start e request

lemma foreseen_start (request : EndpointRequest) : request.start.Foreseen := by
  cases request <;> trivial

lemma foreseen_of_next {c c' : EndpointPc} {w w' : World} (hc : c.Foreseen)
    (h : c.next w = some (c', w')) : c'.Foreseen := by
  cases c with
  | register c =>
      obtain ⟨x, -, heq⟩ := Option.map_eq_some_iff.1 h
      cases heq
      trivial
  | admin e c =>
      obtain ⟨x, hnext, heq⟩ := Option.map_eq_some_iff.1 h
      cases heq
      exact ViewPc.foreseen_of_next e hc hnext

lemma escapes_of_next {c c' : EndpointPc} {w w' : World} (hc : c.Foreseen)
    (h : c.next w = some (c', w')) : c'.program.Escapes IsRendered ↔ c.Breaks w := by
  cases c with
  | register c =>
      obtain ⟨x, hnext, heq⟩ := Option.map_eq_some_iff.1 h
      cases heq
      exact RegisterPc.escapes_of_next hnext
  | admin e c =>
      obtain ⟨x, hnext, heq⟩ := Option.map_eq_some_iff.1 h
      cases heq
      exact ViewPc.escapes_of_next e hc hnext

end EndpointPc

/-- The control points follow the views. -/
def endpointControl : Control World ApiError Response EndpointPc where
  program := EndpointPc.program
  next := EndpointPc.next
  sound c w := by
    cases c with
    | register c =>
        refine (registerControl.sound c w).trans ?_
        simp [registerControl, EndpointPc.next, EndpointPc.program, Function.comp_def]
    | admin e c =>
        refine ((viewControl e).sound c w).trans ?_
        simp [viewControl, EndpointPc.next, EndpointPc.program, Function.comp_def]

/-- Requests on one database.  Anything may happen to it between two of their statements. -/
def endpointSystem : System EndpointPc World where
  next := endpointControl.next
  env _ _ := True

abbrev EndpointPool (ι : Type) := Pool ι EndpointPc World

/-- Requests that come in on a database. -/
def endpointPool {ι : Type} (w₀ : World) (requests : ι → EndpointRequest) : EndpointPool ι where
  store := w₀
  pc i := (requests i).start

instance (c : EndpointPc) (w : World) : Decidable (c.Breaks w) :=
  match c with
  | .register c => inferInstanceAs (Decidable (c.Breaks w))
  | .admin e c => inferInstanceAs (Decidable (c.Breaks e w))

/-- Every request is on its way, or has been answered, or has raised an exception that the handler
renders. -/
def NothingEscapes {ι : Type} (P : EndpointPool ι) : Prop :=
  ∀ i, (∃ c w, endpointSystem.next (P.pc i) P.store = some (c, w)) ∨
    (∃ response, (P.pc i).program = .done (.ok response)) ∨
      ∃ raised, (P.pc i).program = .done (.error raised) ∧ IsRendered raised

/-- The database accepts the next statement of the request. -/
def Works {ι : Type} (P : EndpointPool ι) (i : ι) : Prop := ¬ (P.pc i).Breaks P.store

instance {ι : Type} (P : EndpointPool ι) (i : ι) : Decidable (Works P i) :=
  inferInstanceAs (Decidable (¬ (P.pc i).Breaks P.store))

lemma nothingEscapes_iff_not {ι : Type} {P : EndpointPool ι} :
    NothingEscapes P ↔ ∀ i, ¬ (P.pc i).program.Escapes IsRendered := by
  refine forall_congr' fun i => ?_
  have hsound := endpointControl.sound (P.pc i) P.store
  change (P.pc i).program.step P.store =
    (endpointSystem.next (P.pc i) P.store).map fun x => (x.1.program, x.2) at hsound
  cases hprogram : (P.pc i).program with
  | done r =>
      rw [hprogram, Program.step_done] at hsound
      have hnext := Option.map_eq_none_iff.1 hsound.symm
      cases r with
      | ok response => simp
      | error raised => simp [hnext]
  | stmt exec next =>
      rw [hprogram] at hsound
      obtain ⟨x, hnext, -⟩ := Option.map_eq_some_iff.1 hsound.symm
      exact iff_of_true (Or.inl ⟨x.1, x.2, hnext⟩) id

variable {ι : Type} [DecidableEq ι] {w₀ : World} {requests : ι → EndpointRequest}
  {P : EndpointPool ι}

lemma endpointSystem_deadEnds :
    endpointSystem.DeadEnds (fun P : EndpointPool ι => ∀ i, (P.pc i).Foreseen) Works
      fun c => c.program.Escapes IsRendered where
  call {P i c w} hforeseen hnext j := by
    obtain ⟨-, hpc⟩ | ⟨-, hpc⟩ := P.pc_advance_cases i j c w
    · rw [hpc]
      exact EndpointPc.foreseen_of_next (hforeseen i) hnext
    · rw [hpc]
      exact hforeseen j
  env hforeseen _ := hforeseen
  stuck hdead := endpointControl.next_of_escapes hdead _
  leads {P i c w} hforeseen hnext := by
    rw [Works, not_not]
    exact EndpointPc.escapes_of_next (hforeseen i) hnext

/-- Requests to the four endpoints, from any database and in any interleaving: what they raise is
rendered, if and only if the database refuses none of their statements on the way. -/
theorem nothingEscapes_iff
    (h : endpointSystem.Run (fun _ _ => True) (endpointPool w₀ requests) P) :
    NothingEscapes P ↔ endpointSystem.Run Works (endpointPool w₀ requests) P := by
  have hforeseen : ∀ i, ((endpointPool w₀ requests).pc i).Foreseen :=
    fun i => EndpointPc.foreseen_start (requests i)
  rw [nothingEscapes_iff_not, endpointSystem_deadEnds.forall_not_dead_iff hforeseen h]
  exact and_iff_right fun i => EndpointPc.not_escapes_start (requests i)

end Requests

/-! ### Requests that pass the serializers -/

section Example

attribute [local instance] plainText plainFields

/-- The registration of an address. -/
def registration (email : String) : EndpointRequest :=
  .register (.obj [("email", .str email), ("password", .str "teapot-on-fire")])
    { remoteAddr := none, id := 0 }

/-- A request of the administrator to create a staff member. -/
def staffCreation (email : String) : EndpointRequest :=
  .admin .createStaff {
    user := administrator.staff
    idempotencyKey := some "key"
    data := .obj [("email", .str email), ("password", .str "teapot-on-fire"),
      ("role", .str "store_manager")]
    context := { remoteAddr := none, id := 0 } }

/-- A request of the administrator to reset the device of a staff member. -/
def mfaReset (staffId : Id) : EndpointRequest :=
  .admin (.resetStaffMfa staffId) {
    user := administrator.staff
    idempotencyKey := some "key"
    data := .obj []
    context := { remoteAddr := none, id := 0 } }

/-- A registration and the creation of a staff member. -/
def registrationAndCreation : EndpointPool Bool :=
  endpointPool administeredWorld fun i =>
    if i then staffCreation "b@example.com" else registration "a@example.com"

/-- The status that a request was answered with. -/
def EndpointPc.status : EndpointPc → Option ℕ
  | register (.created response) => some response.status
  | admin _ (.executed response) => some response.status
  | _ => none

/-- The exception that a request has ended with. -/
def EndpointPc.error? : EndpointPc → Option (Raised ApiError)
  | register (.failed e) => some e
  | admin _ (.failed e) => some e
  | _ => none

/-- Two requests that do not meet are both answered. -/
theorem nothingEscapes_registrationAndCreation :
    ∃ P, endpointSystem.Run Works registrationAndCreation P ∧
      (∀ i, (P.pc i).status = some 201) ∧ NothingEscapes P := by
  have h : ((endpointSystem.execute (fun P i => decide (Works P i)) registrationAndCreation
      [false, true, true, false, true, true, true, false]).map
        fun P => decide (∀ i, (P.pc i).status = some 201)) = some true := by decide
  have hcheck : ∀ (P : EndpointPool Bool) (i : Bool), decide (Works P i) = true → Works P i :=
    fun _ _ => of_decide_eq_true
  obtain ⟨P, hrun, hP⟩ := System.exists_run_of_execute hcheck h
  have hany : endpointSystem.Run (fun _ _ => True) registrationAndCreation P :=
    hrun.mono fun _ _ _ => trivial
  exact ⟨P, hrun, of_decide_eq_true hP, (nothingEscapes_iff hany).2 hrun⟩

lemma EndpointPc.program_of_error? {c : EndpointPc} {e : Raised ApiError}
    (h : c.error? = some e) : c.program = .done (.error e) := by
  unfold error? at h
  split at h
  · cases h
    rfl
  · cases h
    rfl
  · cases h

/-- A schedule after which a request has ended with an error of the database. -/
lemma not_nothingEscapes_of_execute {ι : Type} [DecidableEq ι] {w₀ : World}
    {requests : ι → EndpointRequest} {i : ι} {e : DbError} (is : List ι)
    (h : ((endpointSystem.execute (fun _ _ => true) (endpointPool w₀ requests) is).map
      fun P => decide ((P.pc i).error? = some (.db e))) = some true) :
    ¬ ∀ P, endpointSystem.Run (fun _ _ => True) (endpointPool w₀ requests) P →
      NothingEscapes P := by
  intro hclaim
  obtain ⟨P, hrun, hP⟩ := System.exists_run_of_execute (fun _ _ _ => trivial) h
  have hprogram := EndpointPc.program_of_error? (of_decide_eq_true hP)
  have hnot := nothingEscapes_iff_not.1 (hclaim P hrun) i
  rw [hprogram] at hnot
  exact hnot (not_isRendered_db e)

/-- Two registrations of one address at once, on an empty database; the creation of a staff member
who is there; the reset of a device of nobody. -/
theorem not_nothingEscapes :
    (¬ ∀ P, endpointSystem.Run (fun _ _ => True)
      (endpointPool {} fun _ : Bool => registration "a@example.com") P → NothingEscapes P) ∧
    (¬ ∀ P, endpointSystem.Run (fun _ _ => True)
      (endpointPool administeredWorld fun _ : Unit => staffCreation "admin@example.com") P →
        NothingEscapes P) ∧
    ¬ ∀ P, endpointSystem.Run (fun _ _ => True)
      (endpointPool administeredWorld fun _ : Unit => mfaReset 1) P → NothingEscapes P := by
  refine ⟨?_, ?_, ?_⟩
  · exact not_nothingEscapes_of_execute (i := true) (e := .integrityError)
      [false, true, false, true] (by decide)
  · exact not_nothingEscapes_of_execute (i := ()) (e := .integrityError) [(), (), ()] (by decide)
  · exact not_nothingEscapes_of_execute (i := ()) (e := .doesNotExist) [(), (), ()] (by decide)

end Example

end BePyEco
