import BePyEco.Accounts.AdminViews
import BePyEco.Accounts.Customers
import BePyEco.Common.RenderedErrors

/-!
# The registration endpoint

`RegisterView`: a serializer that asks the database whether the address is taken, and the service,
which inserts the customer without asking again.

`RegisterPc` names what is left of a request before each of its three statements, and `Registrable`
is what the constraints of the three tables ask of the insert.
-/

namespace BePyEco

open Library

/-! ## The view -/

section View

variable [SerializerFields] [PyText]

/-- `RegisterSerializer.validate_email`; `none` is the error of a taken address. -/
def validateEmail (value : String) : Statement (Option String) := do
  let taken ← Objects.exists? (byEmail (normalizeEmail value))
  return if taken then none else some (normalizeEmail value)

/-- The field `email` of `RegisterSerializer`. -/
def registerEmail (data : Json) : Service (Option String) :=
  match SerializerFields.emailField (data.field "email") with
  | some value => validateEmail value
  | none => return none

/-- The field `password` of `RegisterSerializer`. -/
def registerPassword (data : Json) : Option String :=
  (SerializerFields.charField false (data.field "password")).filter
    SerializerFields.validatePassword

/-- `validated_data`, when no field was refused. -/
def registerFields (email password : Option String) : Except ApiError (String × String) :=
  match email, password with
  | some email, some password => .ok (email, password)
  | _, _ => .error (.validationError (refused
      [("email", email.isSome), ("password", password.isSome)]))

/-- `RegisterSerializer`. -/
def registerSerializer (data : Json) : Service (String × String) := do
  let _ ← Program.ofExcept (bodyFields data)
  let email ← registerEmail data
  Program.ofExcept (registerFields email (registerPassword data))

/-- `_customer_representation(customer)`. -/
def customerRepresentation (customer : Customer) : Json :=
  .obj [("id", .str (toString customer.id)), ("email", .str customer.email),
    ("email_verified", .bool customer.isEmailVerified),
    ("preferred_locale", .str customer.preferredLocale),
    ("preferred_currency", .str customer.preferredCurrency)]

/-- The response of `RegisterView.post`. -/
def createdResponse (customer : Customer) (context : RequestContext) : Response where
  status := 201
  data := some (successEnvelope (customerRepresentation customer) context)

/-- `RegisterView.post`. -/
def RegisterView.post (data : Json) (context : RequestContext) : Service Response := do
  let (email, password) ← registerSerializer data
  let (customer, _) ← registerCustomer email password
  return createdResponse customer context

end View

/-! ## What the statements raise -/

section Statements

variable [PyText]

/-- The rows of a registration meet no constraint.  The customer and the random value are the next
ones, so it is the address that decides. -/
def Registrable (w : World) (email : String) : Prop :=
  (normalizeEmail email).length ≤ 254 ∧
    (∀ c ∈ w.db.customers.rows, c.email ≠ normalizeEmail email) ∧
    (∀ m ∈ w.db.loginMethods.rows, loginMethodOf w.db.customers.next .password m = false) ∧
    ∀ v ∈ w.db.verificationTokens.rows, v.tokenHash ≠ sha256 w.entropy

instance (w : World) (email : String) : Decidable (Registrable w email) :=
  inferInstanceAs (Decidable (_ ∧ (∀ c ∈ w.db.customers.rows, c.email ≠ normalizeEmail email) ∧
    (∀ m ∈ w.db.loginMethods.rows, loginMethodOf w.db.customers.next .password m = false) ∧
    ∀ v ∈ w.db.verificationTokens.rows, v.tokenHash ≠ sha256 w.entropy))

omit [PyText] in
/-- A password method meets the other methods of its customer only. -/
lemma conflicts_passwordMethod (m : LoginMethod) (id customerId : Id) (hash : PasswordHash) :
    Model.conflicts m ({
      id := id
      customerId := customerId
      provider := .password
      passwordHash := some hash } : LoginMethod) = loginMethodOf customerId .password m := by
  simp [Model.conflicts, loginMethodOf]

lemma registerBlock_isOk_iff {email password : String} {w : World} :
    (∃ r, (registerBlock email password).run w = .ok r) ↔ Registrable w email := by
  constructor
  · rintro ⟨r, h⟩
    obtain ⟨c, w₁, hcustomer, h₁⟩ := Tx.bind_ok h
    obtain ⟨m, w₂, hmethod, h₂⟩ := Tx.bind_ok h₁
    obtain ⟨token, w₃, hgenerate, h₃⟩ := Tx.bind_ok h₂
    obtain ⟨v, w₄, htoken, -⟩ := Tx.bind_ok h₃
    obtain ⟨now, w₅, hnow, hcreate⟩ := Tx.bind_ok htoken
    obtain ⟨customers, hinsert, rfl⟩ := Objects.create_ok hcustomer
    obtain ⟨methods, hinsert', rfl⟩ := Objects.create_ok hmethod
    cases hgenerate
    cases hnow
    obtain ⟨tokens, hinsert'', -⟩ := Objects.create_ok hcreate
    obtain ⟨rfl, -, -, hfits, hfree⟩ := Table.insert_spec hinsert
    obtain ⟨rfl, -, -, -, hfree'⟩ := Table.insert_spec hinsert'
    obtain ⟨rfl, -, -, -, hfree''⟩ := Table.insert_spec hinsert''
    refine ⟨by simpa [Model.fits] using hfits, fun c hc => of_decide_eq_false (hfree c hc),
      fun m hm => ?_, fun v hv => of_decide_eq_false (hfree'' v hv)⟩
    rw [← conflicts_passwordMethod m w.db.loginMethods.next _ (makePassword password)]
    exact hfree' m hm
  · rintro ⟨hfits, hfree, hfree', hfree''⟩
    let customer : ℕ → Customer := fun id => { id := id, email := normalizeEmail email }
    let method : ℕ → LoginMethod := fun id => {
      id := id
      customerId := w.db.customers.next
      provider := .password
      passwordHash := some (makePassword password) }
    let token : ℕ → VerificationToken := fun id => {
      id := id
      customerId := w.db.customers.next
      purpose := .emailVerification
      tokenHash := sha256 w.entropy
      newEmail := ""
      expiresAt := w.now + emailVerificationTokenTtl }
    obtain ⟨t, ht⟩ := @Table.insert_isOk _ _ w.db.customers customer (fun _ => rfl)
      (by simp [customer, Model.fits, hfits]) fun c hc => decide_eq_false (hfree c hc)
    obtain ⟨t', ht'⟩ := @Table.insert_isOk _ _ w.db.loginMethods method (fun _ => rfl) rfl
      fun m hm => (conflicts_passwordMethod m _ _ _).trans (hfree' m hm)
    obtain ⟨t'', ht''⟩ := @Table.insert_isOk _ _ w.db.verificationTokens token (fun _ => rfl) rfl
      fun v hv => decide_eq_false (hfree'' v hv)
    refine Tx.isOk_bind (Objects.run_create_of_ok ht) ?_
    refine Tx.isOk_bind (Objects.run_create_of_ok ht') ?_
    refine Tx.isOk_bind (a := (w.entropy, sha256 w.entropy)) rfl ?_
    refine Tx.isOk_bind (Objects.run_create_of_ok ht'') ?_
    exact ⟨_, rfl⟩

lemma registerBlock_escapesWhen (email password : String) :
    (registerBlock email password).EscapesWhen IsRendered fun w => ¬ Registrable w email := by
  have hgenerate : generateToken.RaisesDb := fun _ _ h => by cases h
  have hnow : timezoneNow.RaisesDb := fun _ _ h => by cases h
  refine Tx.RaisesDb.escapesWhen ?_ not_isRendered_db fun _ => registerBlock_isOk_iff
  refine Objects.raisesDb_create.bind fun customer => ?_
  refine Objects.raisesDb_create.bind fun _ => ?_
  refine hgenerate.bind fun _ => ?_
  exact (hnow.bind fun _ => Objects.raisesDb_create).bind fun _ => Tx.raisesDb_pure _

end Statements

/-! ## Control points -/

/-- Where a request stands. -/
inductive RegisterPc
  | start (data : Json) (context : RequestContext)
  | insert (email password : String) (context : RequestContext)
  | mail (customer : Customer) (rawToken : RawToken) (context : RequestContext)
  | created (response : Response)
  | failed (e : Raised ApiError)

namespace RegisterPc

/-- Behind the look at the address. -/
def checked [SerializerFields] (data : Json) (context : RequestContext) (email : Option String) :
    RegisterPc :=
  match registerFields email (registerPassword data) with
  | .ok (email, password) => insert email password context
  | .error e => failed (.app e)

/-- Behind the transaction block. -/
def registered (context : RequestContext) : Customer × RawToken → RegisterPc
  | (customer, rawToken) => mail customer rawToken context

variable [SerializerFields] [PyText]

/-- What is left of a request. -/
def program : RegisterPc → Service Response
  | start data context => RegisterView.post data context
  | insert email password context => do
    let (customer, _) ← registerCustomer email password
    return createdResponse customer context
  | mail customer rawToken context => do
    sendMail customer.email rawToken
    return createdResponse customer context
  | created response => return response
  | failed e => .done (.error e)

/-- Execute the next statement of a request. -/
def next : RegisterPc → World → Option (RegisterPc × World)
  | start data context, w =>
    match bodyFields data, SerializerFields.emailField (data.field "email") with
    | .ok _, some value => Control.advance (validateEmail value) (checked data context) failed w
    | _, _ => none
  | insert email password context, w =>
    Control.advance (registerBlock email password) (registered context) failed w
  | mail customer rawToken context, w =>
    Control.advance (sendMail customer.email rawToken)
      (fun _ => created (createdResponse customer context)) failed w
  | created _, _ => none
  | failed _, _ => none

lemma program_checked (data : Json) (context : RequestContext) (email : Option String) :
    (checked data context email).program =
      (do let (email, password) ← Program.ofExcept (registerFields email (registerPassword data))
          let (customer, _) ← registerCustomer email password
          return createdResponse customer context : Service Response) := by
  unfold checked
  cases registerFields email (registerPassword data) with
  | ok fields => rfl
  | error e => rfl

/-- The serializer is one look at the address, unless the body has none. -/
lemma program_start {data : Json} {context : RequestContext} {fields : List (String × Json)}
    {value : String} (hbody : bodyFields data = .ok fields)
    (hvalue : SerializerFields.emailField (data.field "email") = some value) :
    (start data context).program = Program.exec (validateEmail value) >>= fun email =>
      (checked data context email).program := by
  rw [program, RegisterView.post, registerSerializer, registerEmail, hbody, hvalue,
    Program.ofExcept_ok, Program.done_ok_bind]
  simp only [Program.bind_assoc, Program.liftM_eq]
  congr 1
  funext email
  exact (program_checked data context email).symm

/-- A request without an address asks the database nothing. -/
lemma program_start_eq_error {data : Json} {context : RequestContext}
    (h : ∀ fields value, bodyFields data = .ok fields →
      SerializerFields.emailField (data.field "email") ≠ some value) :
    ∃ fields, (start data context).program = .done (.error (.app (.validationError fields))) := by
  rw [program, RegisterView.post, registerSerializer, registerEmail]
  cases data with
  | obj items =>
      cases hvalue : SerializerFields.emailField ((Json.obj items).field "email") with
      | none => exact ⟨_, rfl⟩
      | some value => exact absurd hvalue (h items value rfl)
  | _ => exact ⟨_, rfl⟩

end RegisterPc

/-- The control points follow the view. -/
def registerControl [SerializerFields] [PyText] : Control World ApiError Response RegisterPc where
  program := RegisterPc.program
  next := RegisterPc.next
  sound c w := by
    cases c with
    | start data context =>
        rw [RegisterPc.next]
        split
        · rename_i fields value hbody hvalue
          exact Control.step_eq_advance RegisterPc.program _
            (RegisterPc.program_start hbody hvalue) (fun _ => rfl) (fun _ => rfl) w
        · rename_i hnone
          obtain ⟨fields, hprogram⟩ := RegisterPc.program_start_eq_error hnone
          rw [hprogram]
          rfl
    | insert email password context =>
        rw [RegisterPc.next]
        refine Control.step_eq_advance RegisterPc.program _ ?_ (fun _ => rfl) (fun _ => rfl) w
        simp only [RegisterPc.program, registerCustomer, Program.bind_assoc, Program.liftM_eq]
        rfl
    | mail customer rawToken context =>
        rw [RegisterPc.next]
        exact Control.step_eq_advance RegisterPc.program _ rfl (fun _ => rfl) (fun _ => rfl) w
    | created response => rfl
    | failed e => rfl

end BePyEco
