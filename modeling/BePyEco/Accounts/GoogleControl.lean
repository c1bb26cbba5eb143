import BePyEco.Accounts.ActorKinds
import BePyEco.Accounts.GoogleLogin
import BePyEco.Accounts.GoogleStatements

/-!
# Interleaved Google logins

The control points of `login_with_google`, and the system in which any number of such calls run on
one database.  A control point keeps the profile that the call has been told, the customer that it
has found or created, and the token that it has minted.

`Linkable` is what the constraints of `LoginMethod` ask of a link at the moment it is committed,
and `googleStep_of_next` says what each statement of a call reads and changes.
-/

namespace BePyEco

open Library

/-! ## Control points -/

/-- Where a call stands. -/
inductive GooglePc
  | readSubject (profile : GoogleProfile)
  | readEmail (profile : GoogleProfile)
  | linkFound (profile : GoogleProfile) (customer : Customer)
  | insert (profile : GoogleProfile)
  | readAgain (profile : GoogleProfile)
  | mint (profile : GoogleProfile) (customer : Customer)
  | create (profile : GoogleProfile) (customer : Customer) (refresh : RefreshToken)
  | returned (profile : GoogleProfile) (customer : Customer) (refresh : RefreshToken)
  | failed (e : Raised ApiError)

namespace GooglePc

/-- `issue_session(customer)` and the `return`. -/
def finish (customer : Customer) : Service (Customer × AccessToken × RefreshToken) := do
  let tokens ← issueSession customer.id
  return (customer, tokens)

/-- Read again, and link. -/
def retry (profile : GoogleProfile) : Service Customer := do
  let customer ← getCustomerAgain profile.email
  linkExisting profile customer

/-- The customer of the insert, or of the second read. -/
def created (profile : GoogleProfile) : Option Customer → Service Customer
  | some customer => return customer
  | none => retry profile

/-- What is left of a call. -/
def program : GooglePc → Service (Customer × AccessToken × RefreshToken)
  | readSubject profile => googleBlockByStatement profile >>= finish
  | readEmail profile => linkGoogleByStatement profile >>= finish
  | linkFound profile customer => do
    let customer ← linkExisting profile customer
    finish customer
  | insert profile => do
    let customer ← linkInserted profile
    created profile customer >>= finish
  | readAgain profile => retry profile >>= finish
  | mint _ customer => finish customer
  | create _ customer refresh => do
    let _ ← createSession customer.id refresh
    return (customer, refresh.accessToken, refresh)
  | returned _ customer refresh => return (customer, refresh.accessToken, refresh)
  | failed e => .done (.error e)

/-- After the read by subject. -/
def afterSubject (profile : GoogleProfile) : Option Customer → GooglePc
  | some customer => mint profile customer
  | none => readEmail profile

/-- After the read by email. -/
def afterEmail (profile : GoogleProfile) : Option Customer → GooglePc
  | some customer => linkFound profile customer
  | none => insert profile

/-- After the insert. -/
def afterInsert (profile : GoogleProfile) : Option Customer → GooglePc
  | some customer => mint profile customer
  | none => readAgain profile

/-- Execute the next statement of a call. -/
def next : GooglePc → World → Option (GooglePc × World)
  | readSubject profile, w =>
    Control.advance (findGoogleCustomer profile.subjectId) (afterSubject profile) failed w
  | readEmail profile, w =>
    Control.advance (findCustomer profile.email) (afterEmail profile) failed w
  | linkFound profile customer, w =>
    Control.advance (linkExisting profile customer) (mint profile) failed w
  | insert profile, w => Control.advance (linkInserted profile) (afterInsert profile) failed w
  | readAgain profile, w =>
    Control.advance (getCustomerAgain profile.email) (linkFound profile) failed w
  | mint profile customer, w =>
    Control.advance (mintCustomerToken customer.id) (create profile customer) failed w
  | create profile customer refresh, w =>
    Control.advance (createSession customer.id refresh)
      (fun _ => returned profile customer refresh) failed w
  | returned _ _ _, _ => none
  | failed _, _ => none

/-- A call that has been told the reply of Google. -/
def start [PyText] (clientId : String) (reply : TokeninfoReply) : GooglePc :=
  match verifyIdToken clientId reply with
  | .ok profile => readSubject profile
  | .error e => failed (.app e)

/-- The transaction of the call has committed. -/
def hasCommitted : GooglePc → Bool
  | mint _ _ => true
  | create _ _ _ => true
  | returned _ _ _ => true
  | _ => false

/-- A bound on the statements that are left. -/
def remaining : GooglePc → ℕ
  | readSubject _ => 7
  | readEmail _ => 6
  | insert _ => 5
  | readAgain _ => 4
  | linkFound _ _ => 3
  | mint _ _ => 2
  | create _ _ _ => 1
  | returned _ _ _ => 0
  | failed _ => 0

end GooglePc

/-- The control points follow the service. -/
def googleControl : Control World ApiError (Customer × AccessToken × RefreshToken) GooglePc where
  program := GooglePc.program
  next := GooglePc.next
  sound c w := by
    have hstep {β : Type} {c : GooglePc} {x : Statement β} {onOk : β → GooglePc}
        (hnext : c.next w = Control.advance x onOk .failed w)
        (hc : c.program = Program.exec x >>= fun b => (onOk b).program) :
        c.program.step w = (c.next w).map fun y => (y.1.program, y.2) := by
      rw [hnext]
      exact Control.step_eq_advance GooglePc.program _ hc (fun _ => rfl) (fun _ => rfl) w
    cases c with
    | readSubject profile =>
        refine @hstep _ _ _ (GooglePc.afterSubject profile) rfl ?_
        rw [GooglePc.program, googleBlockByStatement, Program.bind_assoc]
        congr 1
        funext found
        cases found with
        | none => rfl
        | some customer => rfl
    | readEmail profile =>
        refine @hstep _ _ _ (GooglePc.afterEmail profile) rfl ?_
        rw [GooglePc.program, linkGoogleByStatement, Program.bind_assoc]
        congr 1
        funext found
        cases found with
        | none =>
            rw [GooglePc.afterEmail, GooglePc.program, Program.bind_assoc]
            rfl
        | some customer => rfl
    | linkFound profile customer => exact hstep rfl rfl
    | insert profile =>
        refine @hstep _ _ _ (GooglePc.afterInsert profile) rfl ?_
        rw [GooglePc.program]
        congr 1
        funext created
        cases created with
        | none => rfl
        | some customer => rfl
    | readAgain profile =>
        refine @hstep _ _ _ (GooglePc.linkFound profile) rfl ?_
        rw [GooglePc.program, GooglePc.retry, Program.bind_assoc]
        rfl
    | mint profile customer =>
        refine @hstep _ _ (mintCustomerToken customer.id) (GooglePc.create profile customer) rfl ?_
        rw [GooglePc.program, GooglePc.finish, issueSession, Program.bind_assoc]
        congr 1
        funext refresh
        rw [Program.bind_assoc]
        rfl
    | create profile customer refresh => exact hstep rfl rfl
    | returned profile customer refresh => rfl
    | failed e => rfl

/-- A call starts as the service does. -/
lemma program_googleStart [PyText] (clientId : String) (reply : TokeninfoReply) :
    (GooglePc.start clientId reply).program = loginWithGoogleByStatement clientId reply := by
  unfold GooglePc.start loginWithGoogleByStatement
  cases verifyIdToken clientId reply with
  | error e => rfl
  | ok profile => rfl

/-! ## Reads -/

/-- A link of the customer to the Google identity meets no other link of either. -/
structure Linkable (w : World) (profile : GoogleProfile) (customerId : Id) : Prop where
  fits : profile.subjectId.length ≤ 255
  free : ∀ m ∈ w.db.loginMethods.rows,
    googleMethod profile.subjectId m = false ∧ loginMethodOf customerId .google m = false

instance (w : World) (profile : GoogleProfile) (customerId : Id) :
    Decidable (Linkable w profile customerId) :=
  decidable_of_iff (profile.subjectId.length ≤ 255 ∧ ∀ m ∈ w.db.loginMethods.rows,
      googleMethod profile.subjectId m = false ∧ loginMethodOf customerId .google m = false)
    ⟨fun h => ⟨h.1, h.2⟩, fun h => ⟨h.fits, h.free⟩⟩

/-- The address belongs to a customer. -/
def EmailStored (w : World) (email : String) : Prop :=
  ∃ c ∈ w.db.customers.rows, c.email = email

instance (w : World) (email : String) : Decidable (EmailStored w email) :=
  inferInstanceAs (Decidable (∃ c ∈ w.db.customers.rows, c.email = email))

/-- The customer is stored. -/
def IdStored (w : World) (customerId : Id) : Prop :=
  ∃ c ∈ w.db.customers.rows, c.id = customerId

section Statements

variable {profile : GoogleProfile} {w : World} {c : Customer}

/-- A subject belongs to one login method. -/
lemma googleMethod_unique (subjectId : String) {a b : LoginMethod}
    (ha : a ∈ w.db.loginMethods.rows) (hb : b ∈ w.db.loginMethods.rows)
    (hpa : googleMethod subjectId a = true) (hpb : googleMethod subjectId b = true) : a = b := by
  refine w.db.loginMethods.eq_of_conflicts ha hb ?_
  simp only [googleMethod, Bool.and_eq_true, decide_eq_true_eq] at hpa hpb
  simp [Model.conflicts, hpa.1, hpa.2, hpb.1, hpb.2]

/-- The read by subject finds the customer of the identity, or nobody. -/
lemma findGoogleCustomer_run (subjectId : String) (w : World) :
    (∃ c ∈ w.db.customers.rows, IsLinkedTo w subjectId c.id ∧
      (findGoogleCustomer subjectId).run w = .ok (some c, w)) ∨
    (findGoogleCustomer subjectId).run w = .ok (none, w) := by
  have hread : ∀ {e : DbError}, (getGoogleCustomer subjectId).run w = .error (.db e) →
      e = .doesNotExist → (findGoogleCustomer subjectId).run w = .ok (none, w) := by
    rintro e hget rfl
    refine (Tx.run_handling_error ?_).trans rfl
    rw [Tx.run_bind, hget]
  obtain ⟨m, hm, hp, hmethod⟩ | hnone := Table.get_cases (t := w.db.loginMethods)
    fun a ha b hb => googleMethod_unique subjectId ha hb
  · have huniq : ∀ a ∈ w.db.customers.rows, ∀ b ∈ w.db.customers.rows,
        customerOf m.customerId a = true → customerOf m.customerId b = true → a = b := by
      intro a ha b hb hpa hpb
      exact w.db.customers.eq_of_pk ha hb
        ((of_decide_eq_true hpa).trans (of_decide_eq_true hpb).symm)
    have hfirst : (Objects.get (googleMethod subjectId) : Statement LoginMethod).run w =
        .ok (m, w) := Objects.run_get_of_ok hmethod
    obtain ⟨c, hc, hid, hcustomer⟩ | hmissing := Table.get_cases huniq
    · refine Or.inl ⟨c, hc, ⟨m, hm, hp, (of_decide_eq_true hid).symm⟩, Tx.run_handling_ok ?_⟩
      rw [Tx.run_bind, getGoogleCustomer, Tx.run_bind, hfirst]
      dsimp only
      rw [Objects.run_get_of_ok hcustomer]
      rfl
    · refine Or.inr (hread ?_ rfl)
      rw [getGoogleCustomer, Tx.run_bind, hfirst]
      exact Objects.run_get_of_error hmissing
  · refine Or.inr (hread ?_ rfl)
    rw [getGoogleCustomer, Tx.run_bind, Objects.run_get_of_error hnone]

/-- The read by email finds the customer with the address, or nobody. -/
lemma findCustomer_cases (email : String) (w : World) :
    (∃ c ∈ w.db.customers.rows, c.email = email ∧
      (findCustomer email).run w = .ok (some c, w)) ∨
    (¬ EmailStored w email ∧ (findCustomer email).run w = .ok (none, w)) := by
  obtain ⟨c, hget, hfind⟩ | ⟨hnone, hfind⟩ := findCustomer_run email w
  · obtain ⟨-, hrow⟩ := Objects.get_ok hget
    have hemail : byEmail email c = true := Table.holds_of_get hrow
    exact Or.inl ⟨c, Table.mem_of_get hrow, of_decide_eq_true hemail, hfind⟩
  · refine Or.inr ⟨?_, hfind⟩
    rintro ⟨c, hc, hemail⟩
    exact of_decide_eq_false (hnone c hc) hemail

/-- The second read finds the customer whose address met the insert. -/
lemma getCustomerAgain_run {email : String} (h : EmailStored w email) :
    ∃ c ∈ w.db.customers.rows, c.email = email ∧
      (getCustomerAgain email).run w = .ok (c, w) := by
  obtain ⟨c, hc, hemail⟩ := h
  have hget : w.db.customers.get (byEmail email) = .ok c := by
    refine Table.get_of_unique hc (decide_eq_true hemail) fun c' hc' hemail' => ?_
    refine w.db.customers.eq_of_conflicts hc' hc (decide_eq_true ?_)
    exact (of_decide_eq_true hemail').trans hemail.symm
  exact ⟨c, hc, hemail, Tx.run_handling_ok (Objects.run_get_of_ok hget)⟩

/-! ## Links -/

/-- The world after the commit of a link. -/
structure LinkMade (profile : GoogleProfile) (customerId : Id) (w w' : World) : Prop where
  linkable : Linkable w profile customerId
  customers : ∀ c ∈ w.db.customers.rows,
    ∃ c' ∈ w'.db.customers.rows, c'.id = c.id ∧ c'.email = c.email
  stored : IdStored w' customerId
  methods : w'.db.loginMethods.rows = w.db.loginMethods.rows ++ [{
    id := w.db.loginMethods.next
    customerId := customerId
    provider := .google
    providerSubjectId := profile.subjectId }]
  frame : w' = { w with db := { w.db with
    customers := w'.db.customers
    loginMethods := w'.db.loginMethods } }

/-- A login method is created exactly when the link meets no other. -/
lemma createGoogleMethod_cases (profile : GoogleProfile) (customerId : Id) (w : World) :
    (∃ m w', (createGoogleMethod customerId profile.subjectId).run w = .ok (m, w')) ∧
        Linkable w profile customerId ∨
      (∃ e, (createGoogleMethod customerId profile.subjectId).run w = .error (.db e)) ∧
        ¬ Linkable w profile customerId := by
  cases hrun : (createGoogleMethod customerId profile.subjectId).run w with
  | ok r =>
      obtain ⟨hfits, hfree, -, -⟩ := createGoogleMethod_ok hrun
      exact Or.inl ⟨⟨r.1, r.2, rfl⟩, hfits, hfree⟩
  | error e =>
      have hdb : ∃ e', e = .db e' := Objects.raisesDb_create _ _ hrun
      obtain ⟨e', rfl⟩ := hdb
      refine Or.inr ⟨⟨e', rfl⟩, fun hlinkable => ?_⟩
      let mk : ℕ → LoginMethod := fun id => {
        id := id
        customerId := customerId
        provider := .google
        providerSubjectId := profile.subjectId }
      have hpk : ∀ i, Model.pk (mk i) = i := fun _ => rfl
      have hfits : Model.fits (mk w.db.loginMethods.next) = true := decide_eq_true hlinkable.fits
      have hfree : ∀ m ∈ w.db.loginMethods.rows,
          Model.conflicts m (mk w.db.loginMethods.next) = false := by
        intro m hm
        obtain ⟨hsubject, hcustomer⟩ := hlinkable.free m hm
        simp only [googleMethod, loginMethodOf] at hsubject hcustomer
        simp [Model.conflicts, mk, hsubject, hcustomer]
      obtain ⟨t, hcreate, -⟩ :=
        @Objects.run_create_of_free World ApiError _ _ _ mk hpk w hfits hfree
      cases hcreate.symm.trans hrun

/-- The flag of an existing customer is set, if it is not, and nothing else is touched. -/
lemma verifyLinkedEmail_run (created emailVerified : Bool) (hstored : IdStored w c.id) :
    ∃ c' w₁, (verifyLinkedEmail c created emailVerified).run w = .ok (c', w₁) ∧ c'.id = c.id ∧
      (∀ b ∈ w.db.customers.rows, ∃ b' ∈ w₁.db.customers.rows, b'.id = b.id ∧ b'.email = b.email) ∧
      w₁ = { w with db := { w.db with customers := w₁.db.customers } } := by
  unfold verifyLinkedEmail
  split
  · obtain ⟨c₀, hc₀, hid⟩ := hstored
    let saved : World := Stored.put (w.db.customers.update (fun c' => Model.pk c' == c.id)
      (Customer.setEmailVerifiedAt w.now)) w
    have hsave : (Objects.save c.id (Customer.setEmailVerifiedAt w.now) : Statement Unit).run w =
        .ok ((), saved) := Objects.run_save_of_mem hc₀ hid
    refine ⟨{ c with emailVerifiedAt := some w.now }, saved, ?_, rfl, fun b hb => ?_, rfl⟩
    · unfold verifyEmailNow
      rw [Tx.run_bind, run_timezoneNow]
      dsimp only
      rw [Tx.run_bind, hsave]
      rfl
    · refine ⟨_, (Table.mem_update _).2 ⟨b, hb, rfl⟩, Assignment.pk_on _ _ b, ?_⟩
      unfold Assignment.on
      split <;> rfl
  · exact ⟨c, w, rfl, rfl, fun b hb => ⟨b, hb, rfl, rfl⟩, rfl⟩

/-- The link of a customer who was there is refused, committed, or meets another link. -/
lemma linkExisting_cases (profile : GoogleProfile) (hstored : IdStored w c.id) :
    (profile.emailVerified = false ∧
        (linkExisting profile c).run w = .error (.app .googleEmailNotVerified)) ∨
      (profile.emailVerified = true ∧ ∃ c' w', (linkExisting profile c).run w = .ok (c', w') ∧
        c'.id = c.id ∧ LinkMade profile c.id w w') ∨
      (profile.emailVerified = true ∧ ¬ Linkable w profile c.id ∧
        ∃ e, (linkExisting profile c).run w = .error (.db e)) := by
  cases hverified : profile.emailVerified with
  | false =>
      refine Or.inl ⟨rfl, ?_⟩
      rw [linkExisting, hverified, Tx.run_bind, Tx.run_require_false]
  | true =>
      obtain ⟨c', w₁, hverify, hid, hkept, hframe⟩ :=
        verifyLinkedEmail_run false profile.emailVerified hstored
      have hmethods : w₁.db.loginMethods = w.db.loginMethods := by rw [hframe]
      have hlinkable : Linkable w₁ profile c.id ↔ Linkable w profile c.id := by
        constructor
        · rintro ⟨hfits, hfree⟩
          exact ⟨hfits, by rwa [hmethods] at hfree⟩
        · rintro ⟨hfits, hfree⟩
          exact ⟨hfits, by rwa [hmethods]⟩
      have hrun : (linkExisting profile c).run w =
          (createGoogleMethod c.id profile.subjectId >>= fun _ => pure c' :
            Statement Customer).run w₁ := by
        rw [linkExisting, hverified, Tx.run_bind, Tx.run_require_true]
        dsimp only
        rw [← hverified, Tx.run_bind, hverify]
        dsimp only
        rw [hid]
      obtain ⟨⟨m, w', hcreate⟩, hfree⟩ | ⟨⟨e, hcreate⟩, hnot⟩ :=
        createGoogleMethod_cases profile c.id w₁
      · refine Or.inr (Or.inl ⟨rfl, c', w', ?_, hid, ?_⟩)
        · rw [hrun, Tx.run_bind, hcreate]
          rfl
        · obtain ⟨-, -, hrows, hframe'⟩ := createGoogleMethod_ok hcreate
          have hcustomers : w'.db.customers = w₁.db.customers := by rw [hframe']
          rw [hmethods] at hrows
          refine ⟨hlinkable.1 hfree, ?_, ?_, hrows, ?_⟩
          · rw [hcustomers]
            exact hkept
          · obtain ⟨c₀, hc₀, hid₀⟩ := hstored
            obtain ⟨c₁, hc₁, hid₁, -⟩ := hkept c₀ hc₀
            rw [IdStored, hcustomers]
            exact ⟨c₁, hc₁, hid₁.trans hid₀⟩
          · rw [hcustomers, hframe', hframe]
      · refine Or.inr (Or.inr ⟨rfl, fun h => hnot (hlinkable.2 h), e, ?_⟩)
        rw [hrun, Tx.run_bind, hcreate]

/-- The insert of `get_or_create` meets the address, or succeeds, or does not fit. -/
lemma insertGoogleCustomer_cases (profile : GoogleProfile) (w : World) :
    (EmailStored w profile.email ∧ (insertGoogleCustomer profile).run w = .ok (none, w)) ∨
      (¬ EmailStored w profile.email ∧ profile.email.length ≤ 254 ∧ ∃ t : Table Customer,
        (insertGoogleCustomer profile).run w =
          .ok (some (newGoogleCustomer w profile.email profile.emailVerified), Stored.put t w) ∧
        t.rows = w.db.customers.rows ++
          [newGoogleCustomer w profile.email profile.emailVerified]) ∨
      (¬ EmailStored w profile.email ∧ ¬ profile.email.length ≤ 254 ∧
        (insertGoogleCustomer profile).run w = .error (.db .dataError)) := by
  let mk : ℕ → Customer := fun id => {
    id := id
    email := profile.email
    emailVerifiedAt := if profile.emailVerified then some w.now else none }
  have hpk : ∀ i, Model.pk (mk i) = i := fun _ => rfl
  have hfits : Model.fits (mk w.db.customers.next) = decide (profile.email.length ≤ 254) :=
    (Bool.and_true _).trans (Bool.and_true _)
  have hbody : (do let now ← timezoneNow
                   let customer ← Objects.create fun id => ({
                     id := id
                     email := profile.email
                     emailVerifiedAt := if profile.emailVerified then some now else none } :
                       Customer)
                   return some customer : Statement (Option Customer)).run w =
      (some <$> (Objects.create mk hpk : Statement Customer)).run w := by
    rw [Tx.run_bind, run_timezoneNow]
    rfl
  rw [Tx.run_map] at hbody
  by_cases hstored : EmailStored w profile.email
  · -- a stored address fits, so the insert is refused for the conflict
    obtain ⟨c, hc, hemail⟩ := hstored
    have hwidth : c.email.length ≤ 254 := by
      have hfit : Model.fits c = true := w.db.customers.all_fit c hc
      simp only [Model.fits, Bool.and_eq_true, decide_eq_true_eq] at hfit
      exact hfit.1.1
    rw [hemail] at hwidth
    have hconflict : (Objects.create mk hpk : Statement Customer).run w =
        .error (.db .integrityError) :=
      Objects.run_create_of_conflict (hfits.trans (decide_eq_true hwidth)) hc
        (decide_eq_true hemail)
    rw [hconflict] at hbody
    exact Or.inl ⟨⟨c, hc, hemail⟩, (Tx.run_handling_error hbody).trans rfl⟩
  · refine Or.inr ?_
    have hfree : ∀ c ∈ w.db.customers.rows, Model.conflicts c (mk w.db.customers.next) = false :=
      fun c hc => decide_eq_false fun hemail => hstored ⟨c, hc, hemail⟩
    by_cases hwidth : profile.email.length ≤ 254
    · obtain ⟨t, hcreate, hrows⟩ := @Objects.run_create_of_free World ApiError _ _ _ mk hpk w
        (hfits.trans (decide_eq_true hwidth)) hfree
      rw [hcreate] at hbody
      exact Or.inl ⟨hstored, hwidth, t, Tx.run_handling_ok hbody, hrows⟩
    · have hwide : (Objects.create mk hpk : Statement Customer).run w = .error (.db .dataError) :=
        Objects.run_create_of_too_wide (hfits.trans (decide_eq_false hwidth))
      rw [hwide] at hbody
      exact Or.inr ⟨hstored, hwidth, Tx.run_handling_of_ne hbody nofun⟩

/-- The insert meets the address, or is committed with its link, or meets another link or does not
fit. -/
lemma linkInserted_cases (profile : GoogleProfile) (w : World) :
    (EmailStored w profile.email ∧ (linkInserted profile).run w = .ok (none, w)) ∨
      (¬ EmailStored w profile.email ∧ profile.email.length ≤ 254 ∧
        ∃ c w', (linkInserted profile).run w = .ok (some c, w') ∧
          c.id = w.db.customers.next ∧ LinkMade profile c.id w w') ∨
      (¬ EmailStored w profile.email ∧
        ¬ (profile.email.length ≤ 254 ∧ Linkable w profile w.db.customers.next) ∧
        ∃ e, (linkInserted profile).run w = .error (.db e)) := by
  obtain ⟨hstored, hinsert⟩ | ⟨hstored, hwidth, t, hinsert, hrows⟩ | ⟨hstored, hwidth, hinsert⟩ :=
    insertGoogleCustomer_cases profile w
  · refine Or.inl ⟨hstored, ?_⟩
    rw [linkInserted, Tx.run_bind, hinsert]
    rfl
  · let c : Customer := newGoogleCustomer w profile.email profile.emailVerified
    let w₁ : World := Stored.put t w
    have hrun : (linkInserted profile).run w = (createGoogleMethod c.id profile.subjectId >>=
        fun _ => pure (some c) : Statement (Option Customer)).run w₁ := by
      rw [linkInserted, Tx.run_bind, hinsert]
    obtain ⟨⟨m, w', hlink⟩, hlinkable⟩ | ⟨⟨e, hlink⟩, hnot⟩ :=
      createGoogleMethod_cases profile c.id w₁
    · refine Or.inr (Or.inl ⟨hstored, hwidth, c, w', ?_, rfl, ?_⟩)
      · rw [hrun, Tx.run_bind, hlink]
        rfl
      · obtain ⟨-, -, hmethods, hframe⟩ := createGoogleMethod_ok hlink
        have hcustomers : w'.db.customers = t := by rw [hframe]; rfl
        have hold : ∀ b ∈ w.db.customers.rows, b ∈ t.rows := fun b hb => by
          rw [hrows]
          exact List.mem_append_left _ hb
        have hnew : c ∈ t.rows := by
          rw [hrows]
          exact List.mem_append_right _ (List.mem_singleton_self _)
        refine ⟨⟨hlinkable.fits, hlinkable.free⟩, fun b hb => ⟨b, ?_, rfl, rfl⟩, ⟨c, ?_, rfl⟩,
          hmethods, ?_⟩
        · rw [hcustomers]
          exact hold b hb
        · rw [hcustomers]
          exact hnew
        · rw [hcustomers, hframe]
          rfl
    · refine Or.inr (Or.inr ⟨hstored, fun h => hnot ⟨h.2.fits, h.2.free⟩, e, ?_⟩)
      rw [hrun, Tx.run_bind, hlink]
  · refine Or.inr (Or.inr ⟨hstored, fun h => hwidth h.1, .dataError, ?_⟩)
    rw [linkInserted, Tx.run_bind, hinsert]

/-- A session for a random value that no session has is created. -/
lemma createSession_run {customerId : Id} {refresh : RefreshToken}
    (h : ∀ s ∈ w.db.sessions.rows, s.refreshTokenHash ≠ hashJti refresh.jti) :
    ∃ (s : Session) (t : Table Session),
      (createSession customerId refresh).run w = .ok (s, Stored.put t w) ∧
        SessionCreated w customerId refresh s (Stored.put t w) := by
  let mk : ℕ → Session := fun id => {
    id := id
    customerId := customerId
    refreshTokenHash := hashJti refresh.jti
    expiresAt := w.now + refreshTokenLifetime }
  have hpk : ∀ i, Model.pk (mk i) = i := fun _ => rfl
  obtain ⟨t, hcreate, hrows⟩ := @Objects.run_create_of_free World ApiError _ _ _ mk hpk w rfl
    fun s hs => decide_eq_false (h s hs)
  exact ⟨_, t, hcreate, rfl, hrows, rfl⟩

end Statements

/-! ## What one step does -/

/-- The identity is linked to the customer, who is stored. -/
structure Identified (w : World) (profile : GoogleProfile) (customerId : Id) : Prop where
  linked : IsLinkedTo w profile.subjectId customerId
  stored : IdStored w customerId

/-- The token has the claims of the customer. -/
structure IssuedTo (customerId : Id) (refresh : RefreshToken) : Prop where
  user : refresh.userId = customerId
  kind : refresh.actorType = some .customer

/-- The random value was drawn, and no session has it. -/
structure JtiUnused (w : World) (jti : Jti) : Prop where
  drawn : jti < w.entropy
  unused : ∀ s ∈ w.db.sessions.rows, s.refreshTokenHash ≠ hashJti jti

namespace GooglePc

/-- What a call knows about the database. -/
def Knows (w : World) : GooglePc → Prop
  | linkFound _ customer => IdStored w customer.id
  | readAgain profile => EmailStored w profile.email
  | mint profile customer => Identified w profile customer.id
  | create profile customer refresh =>
    Identified w profile customer.id ∧ IssuedTo customer.id refresh ∧ JtiUnused w refresh.jti
  | returned profile customer refresh =>
    Identified w profile customer.id ∧ IssuedTo customer.id refresh ∧
      ∃ s ∈ w.db.sessions.rows, s.customerId = customer.id ∧
        s.refreshTokenHash = hashJti refresh.jti
  | _ => True

/-- The database refuses the statement of the call: the link meets another one, or a value is too
long for its column. -/
def Breaks (w : World) : GooglePc → Prop
  | linkFound profile customer =>
    profile.emailVerified = true ∧ ¬ Linkable w profile customer.id
  | insert profile =>
    ¬ EmailStored w profile.email ∧
      ¬ (profile.email.length ≤ 254 ∧ Linkable w profile w.db.customers.next)
  | _ => False

instance (w : World) (c : GooglePc) : Decidable (c.Breaks w) :=
  match c with
  | linkFound profile customer =>
    inferInstanceAs (Decidable (profile.emailVerified = true ∧ ¬ Linkable w profile customer.id))
  | insert profile =>
    inferInstanceAs (Decidable (¬ EmailStored w profile.email ∧
      ¬ (profile.email.length ≤ 254 ∧ Linkable w profile w.db.customers.next)))
  | readSubject _ => inferInstanceAs (Decidable False)
  | readEmail _ => inferInstanceAs (Decidable False)
  | readAgain _ => inferInstanceAs (Decidable False)
  | mint _ _ => inferInstanceAs (Decidable False)
  | create _ _ _ => inferInstanceAs (Decidable False)
  | returned _ _ _ => inferInstanceAs (Decidable False)
  | failed _ => inferInstanceAs (Decidable False)

/-- The random value of a token that has no session yet. -/
def pendingJti : GooglePc → Option Jti
  | create _ _ refresh => some refresh.jti
  | _ => none

end GooglePc

/-- The steps of a call, with what each reads and changes. -/
inductive GoogleStep : GooglePc → World → GooglePc → World → Prop
  | known {profile : GoogleProfile} {c : Customer} {w : World}
      (h : Identified w profile c.id) :
      GoogleStep (.readSubject profile) w (.mint profile c) w
  | unknown (profile : GoogleProfile) (w : World) :
      GoogleStep (.readSubject profile) w (.readEmail profile) w
  | found (profile : GoogleProfile) {c : Customer} {w : World} (h : IdStored w c.id) :
      GoogleStep (.readEmail profile) w (.linkFound profile c) w
  | absent (profile : GoogleProfile) (w : World) :
      GoogleStep (.readEmail profile) w (.insert profile) w
  | refused {profile : GoogleProfile} (c : Customer) (w : World)
      (h : profile.emailVerified = false) :
      GoogleStep (.linkFound profile c) w (.failed (.app .googleEmailNotVerified)) w
  | linked {profile : GoogleProfile} (c : Customer) {c' : Customer} {w w' : World}
      (h : LinkMade profile c'.id w w') :
      GoogleStep (.linkFound profile c) w (.mint profile c') w'
  | inserted {profile : GoogleProfile} {c : Customer} {w w' : World}
      (h : LinkMade profile c.id w w') : GoogleStep (.insert profile) w (.mint profile c) w'
  | taken {profile : GoogleProfile} {w : World} (h : EmailStored w profile.email) :
      GoogleStep (.insert profile) w (.readAgain profile) w
  | again (profile : GoogleProfile) {c : Customer} {w : World} (h : IdStored w c.id) :
      GoogleStep (.readAgain profile) w (.linkFound profile c) w
  | mint (profile : GoogleProfile) {c : Customer} {refresh : RefreshToken} {w : World}
      (h : IssuedTo c.id refresh) (hjti : refresh.jti = w.entropy) :
      GoogleStep (.mint profile c) w (.create profile c refresh)
        { w with entropy := w.entropy + 1 }
  | create (profile : GoogleProfile) {c : Customer} {refresh : RefreshToken} {s : Session}
      {t : Table Session} {w : World} (h : SessionCreated w c.id refresh s (Stored.put t w)) :
      GoogleStep (.create profile c refresh) w (.returned profile c refresh) (Stored.put t w)
  | broken {c : GooglePc} (e : DbError) {w : World} (h : c.Breaks w) :
      GoogleStep c w (.failed (.db e)) w

section Steps

variable {c c' : GooglePc} {w w' : World}

lemma idStored_of_mem {customer : Customer} (h : customer ∈ w.db.customers.rows) :
    IdStored w customer.id := ⟨customer, h, rfl⟩

/-- Every step of a call is one of `GoogleStep`. -/
lemma googleStep_of_next (hknows : c.Knows w) (h : c.next w = some (c', w')) :
    GoogleStep c w c' w' := by
  have hok : ∀ {β : Type} {x : Statement β} {onOk : β → GooglePc} {b : β} {w₁ : World},
      x.run w = .ok (b, w₁) → c.next w = Control.advance x onOk .failed w →
        c' = onOk b ∧ w' = w₁ := by
    intro β x onOk b w₁ hrun hnext
    rw [hnext, Control.advance, Tx.exec_ok hrun] at h
    cases h
    exact ⟨rfl, rfl⟩
  have herror : ∀ {β : Type} {x : Statement β} {onOk : β → GooglePc} {e : Raised ApiError},
      x.run w = .error e → c.next w = Control.advance x onOk .failed w →
        c' = .failed e ∧ w' = w := by
    intro β x onOk e hrun hnext
    rw [hnext, Control.advance, Tx.exec_error hrun] at h
    cases h
    exact ⟨rfl, rfl⟩
  cases c with
  | readSubject profile =>
      obtain ⟨customer, hmem, hlinked, hrun⟩ | hrun := findGoogleCustomer_run profile.subjectId w
      · obtain ⟨rfl, rfl⟩ := hok hrun rfl
        exact .known ⟨hlinked, idStored_of_mem hmem⟩
      · obtain ⟨rfl, rfl⟩ := hok hrun rfl
        exact .unknown profile _
  | readEmail profile =>
      obtain ⟨customer, hmem, -, hrun⟩ | ⟨-, hrun⟩ := findCustomer_cases profile.email w
      · obtain ⟨rfl, rfl⟩ := hok hrun rfl
        exact .found profile (idStored_of_mem hmem)
      · obtain ⟨rfl, rfl⟩ := hok hrun rfl
        exact .absent profile _
  | linkFound profile customer =>
      obtain ⟨hverified, hrun⟩ | ⟨-, customer', w₁, hrun, hid, hlink⟩ |
        ⟨hverified, hnot, e, hrun⟩ := linkExisting_cases profile hknows
      · obtain ⟨rfl, rfl⟩ := herror hrun rfl
        exact .refused customer _ hverified
      · obtain ⟨rfl, rfl⟩ := hok hrun rfl
        rw [← hid] at hlink
        exact .linked customer hlink
      · obtain ⟨rfl, rfl⟩ := herror hrun rfl
        exact .broken e ⟨hverified, hnot⟩
  | insert profile =>
      obtain ⟨hstored, hrun⟩ | ⟨-, -, customer, w₁, hrun, -, hlink⟩ | ⟨hstored, hnot, e, hrun⟩ :=
        linkInserted_cases profile w
      · obtain ⟨rfl, rfl⟩ := hok hrun rfl
        exact .taken hstored
      · obtain ⟨rfl, rfl⟩ := hok hrun rfl
        exact .inserted hlink
      · obtain ⟨rfl, rfl⟩ := herror hrun rfl
        exact .broken e ⟨hstored, hnot⟩
  | readAgain profile =>
      obtain ⟨customer, hmem, -, hrun⟩ := getCustomerAgain_run hknows
      obtain ⟨rfl, rfl⟩ := hok hrun rfl
      exact .again profile (idStored_of_mem hmem)
  | mint profile customer =>
      obtain ⟨refresh, hrun, huser, hkind, hjti⟩ := mintCustomerToken_run customer.id w
      obtain ⟨rfl, rfl⟩ := hok hrun rfl
      exact .mint profile ⟨huser, hkind⟩ hjti
  | create profile customer refresh =>
      obtain ⟨s, t, hrun, hcreated⟩ := @createSession_run w customer.id refresh
        hknows.2.2.unused
      obtain ⟨rfl, rfl⟩ := hok hrun rfl
      exact .create profile hcreated
  | returned profile customer refresh => cases h
  | failed e => cases h

/-- A statement that the database refuses ends the call with the error. -/
lemma next_of_breaks (hknows : c.Knows w) (h : c.Breaks w) :
    ∃ e, c.next w = some (.failed (.db e), w) := by
  have herror : ∀ {β : Type} {x : Statement β} {onOk : β → GooglePc} {e : DbError},
      x.run w = .error (.db e) → c.next w = Control.advance x onOk .failed w →
        c.next w = some (.failed (.db e), w) := by
    intro β x onOk e hrun hnext
    rw [hnext, Control.advance, Tx.exec_error hrun]
  cases c with
  | linkFound profile customer =>
      obtain ⟨hverified, hnot⟩ := h
      obtain ⟨hunverified, -⟩ | ⟨-, _, _, -, hid, hlink⟩ | ⟨-, -, e, hrun⟩ :=
        linkExisting_cases profile hknows
      · rw [hunverified] at hverified
        cases hverified
      · exact absurd hlink.linkable hnot
      · exact ⟨e, herror hrun rfl⟩
  | insert profile =>
      obtain ⟨hstored, hnot⟩ := h
      obtain ⟨hstored', -⟩ | ⟨-, hwidth, _, _, -, hid, hlink⟩ | ⟨-, -, e, hrun⟩ :=
        linkInserted_cases profile w
      · exact absurd hstored' hstored
      · rw [hid] at hlink
        exact absurd ⟨hwidth, hlink.linkable⟩ hnot
      · exact ⟨e, herror hrun rfl⟩
  | readSubject profile => cases h
  | readEmail profile => cases h
  | readAgain profile => cases h
  | mint profile customer => cases h
  | create profile customer refresh => cases h
  | returned profile customer refresh => cases h
  | failed e => cases h

end Steps

end BePyEco
