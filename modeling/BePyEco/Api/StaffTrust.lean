import BePyEco.Api.Ownership

/-!
# Where staff come from

The devices of a staff member are left as they are unless the member enrols or proves one, or
somebody is authorized to reset them (`devices_untouched`).

`Entitled` is the chain of trust behind a staff row: it was there at first, it was made by the
bootstrap command, or it was asked for by somebody with the permission and a confirmed device who is
entitled in turn.  `staff_entitled` says that every row of a run has such a chain, whatever requests
are made.
-/

namespace BePyEco

open Library

/-! ## Devices -/

/-- A piece of work acts on the devices of a staff member, with these databases for evidence: the
staff member enrols or proves a device, or somebody is authorized to reset it. -/
inductive ActsOnDevices [Libraries] (visited : Set World) (staffId : Id) : Work → Prop
  | setup {request : HttpRequest} {staff : Staff}
      (h : SignedIn request visited (.staff staff)) (hid : staff.id = staffId) :
      ActsOnDevices visited staffId (.http .mfaSetup request)
  | confirm {request : HttpRequest} {staff : Staff} {device : StaffTOTPDevice}
      (h : SignedIn request visited (.staff staff)) (hid : staff.id = staffId)
      (hproves : ProvesDevice request visited staff device) :
      ActsOnDevices visited staffId (.http .mfaConfirm request)
  | reset {request : HttpRequest} {staff : Staff}
      (h : AuthorizedTo request visited "accounts.reset_staff_mfa" staff) :
      ActsOnDevices visited staffId (.http (.resetStaffMfa staffId) request)

/-- The devices of a staff member. -/
def devicesOf (staffId : Id) (db : Database) : List StaffTOTPDevice :=
  db.staffTotpDevices.rows.filter fun d => decide (d.staffId = staffId)

section Acts

variable [Libraries] {found visited : Set World} {staffId : Id} {work : Work}

lemma ActsOnDevices.mono (h : ActsOnDevices found staffId work) (hsub : found ⊆ visited) :
    ActsOnDevices visited staffId work := by
  cases h with
  | setup h hid => exact .setup (h.mono hsub) hid
  | confirm h hid hproves => exact .confirm (h.mono hsub) hid (hproves.mono hsub)
  | reset h => exact .reset (h.mono hsub)

lemma actsOnDevices_of_add {d : StaffTOTPDevice}
    (h : (work.policy found .staffTotpDevices).add d) : ActsOnDevices found d.staffId work := by
  cases work with
  | http endpoint request =>
      cases endpoint
      case mfaSetup =>
        obtain ⟨⟨staff, hsigned⟩, hid, -⟩ := h
        exact .setup hsigned hid.symm
      all_goals first | exact h.elim | exact h.elim fun _ h => h.elim
  | internal call => cases call <;> exact h.elim
  | _ => exact h.elim

lemma actsOnDevices_of_remove {d : StaffTOTPDevice}
    (h : (work.policy found .staffTotpDevices).remove d) :
    ActsOnDevices found d.staffId work := by
  cases work with
  | http endpoint request =>
      cases endpoint
      case resetStaffMfa staffId =>
        obtain ⟨⟨staff, hauthorized⟩, hid⟩ := h
        obtain rfl : d.staffId = staffId := hid
        exact .reset hauthorized
      all_goals first | exact h.elim | exact h.elim fun _ h => h.elim
  | internal call => cases call <;> exact h.elim
  | _ => exact h.elim

/-- Whoever changes a device has proven the one with its id. -/
lemma actsOnDevices_of_change {d d' : StaffTOTPDevice}
    (h : (work.policy found .staffTotpDevices).change d d') :
    d.Confirms d' ∧ ∃ device, (∃ w ∈ found, device ∈ w.db.staffTotpDevices.rows) ∧
      d.id = device.id ∧ ActsOnDevices found device.staffId work := by
  cases work with
  | http endpoint request =>
      cases endpoint
      case mfaConfirm =>
        obtain ⟨⟨staff, hsigned⟩, ⟨device, hproves, hid⟩, hconfirms⟩ := h
        obtain ⟨w, hw, hstored, howner⟩ := hproves.stored
        exact ⟨hconfirms, device, ⟨w, hw, hstored⟩, hid, .confirm hsigned howner.symm hproves⟩
      all_goals first | exact h.elim | exact h.elim fun _ h => h.elim
  | internal call => cases call <;> exact h.elim
  | _ => exact h.elim

end Acts

section Runs

variable [Libraries] {ι : Type} [DecidableEq ι] {w : World} {work : ι → Work}
  {P P' : Pool ι (Service (Option Answer)) World}

/-- A device with the id of one that was there before belongs to the same staff member. -/
lemma staffId_eq_of_device {t t' : Table StaffTOTPDevice}
    (h : (appPolicy .staffTotpDevices).Allows t t') {device d : StaffTOTPDevice}
    (hdevice : device ∈ t.rows) (hd : d ∈ t'.rows) (hid : d.id = device.id) :
    d.staffId = device.staffId := by
  have hchange : ∀ r r', (appPolicy .staffTotpDevices).change r r' →
      TablePolicy.Settles StaffTOTPDevice.staffId [] r r' := by
    rintro r r' ⟨source, hchange⟩
    cases source with
    | none => exact hchange.elim
    | some s =>
        obtain ⟨⟨time, rfl⟩, -⟩ := actsOnDevices_of_change hchange
        exact ⟨rfl, by simp⟩
  obtain ⟨r, hr, hpk, hkept⟩ | ⟨r, -, hnext, -⟩ := TablePolicy.origin_of_allows hchange h hd
  · rw [t.eq_of_pk hr hdevice (hpk.trans hid)] at hkept
    exact hkept.1
  · have hlt : device.id < t.next := t.pk_lt device hdevice
    exact absurd hid (Nat.ne_of_gt (Nat.lt_of_lt_of_le hlt hnext))

/-- In any interleaving of any work, the devices of a staff member on which nobody acts are left
exactly as they are. -/
theorem devices_untouched {staffId : Id} {visited : Set World}
    (h : ApiVisits (apiPool w work) visited P)
    (hnobody : ∀ i, ¬ ActsOnDevices visited staffId (work i)) :
    devicesOf staffId P.store.db = devicesOf staffId w.db := by
  revert hnobody
  refine h.earned_invariant
    (motive := fun visited P => (∀ i, ¬ ActsOnDevices visited staffId (work i)) →
      devicesOf staffId P.store.db = devicesOf staffId w.db)
    (fun i => (work i).program_keeps) (fun _ => rfl) ?_ ?_
  · intro visited P P' i evidence hvisits ih hsub hmove hnobody
    have hearlier : visited ⊆ insert P'.store visited := Set.subset_insert _ _
    have hne : ∀ {staffId'}, ActsOnDevices evidence staffId' (work i) → staffId' ≠ staffId := by
      rintro staffId' hacts rfl
      exact hnobody i (hacts.mono (hsub.trans hearlier))
    refine Eq.trans ?_ (ih fun j hacts => hnobody j (hacts.mono hearlier))
    refine TablePolicy.filter_eq_of_allows ?_ ?_ ?_ (hmove.tables .staffTotpDevices)
    · intro t d _ hadd _ _
      exact decide_eq_false (hne (actsOnDevices_of_add hadd))
    · intro t d d' hfirst _ hd _ hchange
      obtain ⟨⟨time, rfl⟩, device, ⟨w', hw', hstored⟩, hid, hacts⟩ :=
        actsOnDevices_of_change hchange
      obtain ⟨P'', hrun', hrest, rfl⟩ := hvisits.exists_run (hsub hw')
      have hpolicy : ∀ name, ((work i).policy evidence name).Le (appPolicy name) := fun name =>
        TablePolicy.le_union (fun source => sourcePolicy source name) (some (work i, evidence))
      have hown := staffId_eq_of_device (((app_policy hrun' hrest).tables .staffTotpDevices).trans
        (hfirst.mono (hpolicy _))) hstored hd hid
      have hother : d.staffId ≠ staffId := by
        rw [hown]
        exact hne hacts
      exact ⟨decide_eq_false hother, decide_eq_false hother⟩
    · exact fun d hremove => decide_eq_false (hne (actsOnDevices_of_remove hremove))
  · intro visited P P' hvisits ih henv hnobody
    refine Eq.trans ?_ (ih fun j hacts => hnobody j (hacts.mono (Set.subset_insert _ _)))
    have hsame : P'.store.db.staffTotpDevices = P.store.db.staffTotpDevices :=
      TablePolicy.eq_of_allows ⟨fun _ _ h => h, fun _ h => h⟩ (fun _ h => h)
        (henv.allows.tables .staffTotpDevices)
    rw [devicesOf, hsame]
    rfl

end Runs

section Example

attribute [local instance] plainLibraries

/-- None of the errands acts on the device of the first administrator. -/
lemma not_actsOnDevices_errands (visited : Set World) (errand : Errand) :
    ¬ ActsOnDevices visited 0 (errands errand) := by
  intro h
  cases errand <;> cases h
  case device.setup staff hid h =>
    exact absurd ((eq_of_signedIn_byRoot h).1.symm.trans hid) (by decide)
  case proof.confirm staff device hid h hproves =>
    exact absurd ((eq_of_signedIn_byRoot h).1.symm.trans hid) (by decide)

lemma devices_untouched_administrator :
    devicesOf 0 errandsDone.store.db = devicesOf 0 openingWorld.db := by
  obtain ⟨visited, h⟩ := (rootEnrolled_run.trans errandsDone_run).visits
  exact devices_untouched h (not_actsOnDevices_errands visited)

end Example

/-! ## The chain of trust -/

/-- The chain of trust behind a staff row, with these databases for evidence. -/
inductive Entitled [Libraries] {ι : Type} (w : World) (work : ι → Work) (visited : Set World) :
    Staff → Prop
  | initial {staff : Staff} (h : staff ∈ w.db.staff.rows) : Entitled w work visited staff
  | bootstrap {staff : Staff} {i : ι} {email password : String}
      (h : work i = .createMasterAdmin email password)
      (hrow : staff =
        ⟨staff.id, normalizeEmail email, makePassword password, .masterAdmin, true⟩) :
      Entitled w work visited staff
  | created {staff actor : Staff} {i : ι} {request : HttpRequest} {email password : String}
      {role : Role} (h : work i = .http .createStaff request)
      (hfields : createStaffSerializer request.data = .ok (email, password, role))
      (hrow : staff = ⟨staff.id, normalizeEmail email, makePassword password, role, true⟩)
      (hauthorized : AuthorizedTo request visited "accounts.create_staff" actor)
      (hactor : Entitled w work visited actor) : Entitled w work visited staff

section Trust

variable [Libraries] {ι : Type} {w : World} {work : ι → Work} {found visited : Set World}
  {staff : Staff}

lemma Entitled.mono (h : Entitled w work found staff) (hsub : found ⊆ visited) :
    Entitled w work visited staff := by
  induction h with
  | initial h => exact .initial h
  | bootstrap h hrow => exact .bootstrap h hrow
  | created h hfields hrow hauthorized _ ih =>
      exact .created h hfields hrow (hauthorized.mono hsub) ih

/-- Who adds a staff row: the bootstrap command, or a request of somebody authorized. -/
lemma entitled_of_add {i : ι} (h : ((work i).policy found .staff).add staff)
    (hsub : found ⊆ visited) (hactor : ∀ actor request, SignedIn request found (.staff actor) →
      Entitled w work visited actor) : Entitled w work visited staff := by
  cases hwork : work i with
  | http endpoint request =>
      rw [hwork] at h
      cases endpoint
      case createStaff =>
        obtain ⟨⟨actor, hauthorized⟩, email, password, role, hfields, hrow⟩ := h
        exact .created hwork hfields hrow (hauthorized.mono hsub)
          (hactor actor request hauthorized.signedIn)
      all_goals first | exact h.elim | exact h.elim fun _ h => h.elim
  | internal call =>
      rw [hwork] at h
      cases call <;> exact h.elim
  | createMasterAdmin email password =>
      rw [hwork] at h
      exact .bootstrap hwork h
  | seedSupportedCountries uuid =>
      rw [hwork] at h
      exact h.elim

variable [DecidableEq ι] {P : Pool ι (Service (Option Answer)) World}

/-- In any interleaving of any work, there is a chain of trust behind every staff row. -/
theorem staff_entitled (h : ApiVisits (apiPool w work) visited P) :
    ∀ staff ∈ P.store.db.staff.rows, Entitled w work visited staff := by
  refine h.earned_invariant
    (motive := fun visited P => ∀ staff ∈ P.store.db.staff.rows, Entitled w work visited staff)
    (fun i => (work i).program_keeps) (fun staff hstaff => .initial hstaff) ?_ ?_
  · intro visited P P' i evidence hvisits ih hsub hmove staff hstaff
    have hearlier : visited ⊆ insert P'.store visited := Set.subset_insert _ _
    have hconstant : ∀ r r', ((work i).policy evidence .staff).change r r' → r = r' := by
      intro r r' hchange
      have hsource : (sourcePolicy (some (work i, evidence)) .staff).change r r' := hchange
      exact absurd hsource (not_changed rfl)
    obtain ⟨r, hr, -, rfl⟩ | ⟨r, hadd, -, rfl⟩ :=
      TablePolicy.origin_of_allows hconstant (hmove.tables .staff) hstaff
    · exact (ih r hr).mono hearlier
    · refine Entitled.mono (entitled_of_add hadd hsub fun actor request hsigned => ?_) hearlier
      -- the actor was stored when the request was authenticated, and still is
      obtain ⟨w', hw', hcaller⟩ := hsigned.caller
      exact ih actor ((permanent_of_visited .refl hvisits (hsub hw')).staff.subset
        hcaller.active.1)
  · intro visited P P' hvisits ih henv staff hstaff
    have hsame : P'.store.db.staff = P.store.db.staff :=
      TablePolicy.eq_of_allows ⟨fun _ _ h => h, fun _ h => h⟩ (fun _ h => h)
        (henv.allows.tables .staff)
    rw [hsame] at hstaff
    exact (ih staff hstaff).mono (Set.subset_insert _ _)

end Trust

section Example

attribute [local instance] plainLibraries

/-- There is a chain of trust behind the store manager. -/
lemma staff_entitled_storeManager : ∃ visited,
    ApiVisits (apiPool openingWorld errands) visited errandsDone ∧
      ∃ staff ∈ errandsDone.store.db.staff.rows, staff.role = .storeManager ∧
        Entitled openingWorld errands visited staff := by
  have hstaff : ∃ staff ∈ errandsDone.store.db.staff.rows, staff.role = .storeManager := by decide
  obtain ⟨staff, hstored, hrole⟩ := hstaff
  obtain ⟨visited, h⟩ := (rootEnrolled_run.trans errandsDone_run).visits
  exact ⟨visited, h, staff, hstored, hrole, staff_entitled h staff hstored⟩

end Example

end BePyEco
