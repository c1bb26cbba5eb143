import BePyEco.Accounts.GoogleLogin
import BePyEco.Accounts.TokenFlows
import BePyEco.Library.Trace

/-!
# Traces of customer calls

The services that register a customer, log one in, or issue and consume verification tokens, as
one type of calls.  `CustomerStep` says once what a call that runs alone can do, and
`customerStep` that it does nothing else; invariants of traces are case analyses over it.
-/

namespace BePyEco

open Library Library.Program

/-! ## Calls -/

/-- A call of a service, with its arguments.  The customer instance of an email change may be any
earlier copy of the row. -/
inductive CustomerCall
  | registerCustomer (email password : String)
  | loginCustomer (email password : String)
  | loginWithGoogle (clientId : String) (reply : TokeninfoReply)
  | verifyEmail (rawToken : RawToken)
  | requestPasswordReset (email : String)
  | confirmPasswordReset (rawToken : RawToken) (newPassword : String)
  | requestEmailChange (customer : Customer) (newEmail : String)
  | confirmEmailChange (rawToken : RawToken)

namespace CustomerCall

/-- The service a call runs; its result is the customer that it returns, if any. -/
def service [PyText] : CustomerCall → Service (Option Customer)
  | registerCustomer email password => do
    let (customer, _) ← BePyEco.registerCustomer email password
    return some customer
  | loginCustomer email password => do
    let (customer, _) ← BePyEco.loginCustomer email password
    return some customer
  | loginWithGoogle clientId reply => do
    let (customer, _) ← BePyEco.loginWithGoogle clientId reply
    return some customer
  | verifyEmail rawToken => do
    let customer ← BePyEco.verifyEmail rawToken
    return some customer
  | requestPasswordReset email => do
    BePyEco.requestPasswordReset email
    return none
  | confirmPasswordReset rawToken newPassword => do
    let customer ← BePyEco.confirmPasswordReset rawToken newPassword
    return some customer
  | requestEmailChange customer newEmail => do
    BePyEco.requestEmailChange customer newEmail
    return none
  | confirmEmailChange rawToken => do
    let customer ← BePyEco.confirmEmailChange rawToken
    return some customer

/-- The consumer that a call runs, and the raw token presented to it. -/
def presents : CustomerCall → Option (Consumer × RawToken)
  | verifyEmail rawToken => some (.verifyEmail, rawToken)
  | confirmPasswordReset rawToken newPassword => some (.confirmPasswordReset newPassword, rawToken)
  | confirmEmailChange rawToken => some (.confirmEmailChange, rawToken)
  | _ => none

/-- The purpose that a call issues a token for. -/
def requests : CustomerCall → Option Purpose
  | registerCustomer _ _ => some .emailVerification
  | requestPasswordReset _ => some .passwordReset
  | requestEmailChange _ _ => some .emailChange
  | _ => none

/-- The call may return without having moved a table that this module is about. -/
def mayReturnIdle : CustomerCall → Bool
  | loginCustomer _ _ => true
  | loginWithGoogle _ _ => true
  | requestPasswordReset _ => true
  | _ => false

lemma mayReturnIdle_eq_false {call : CustomerCall} (h : call.presents ≠ none) :
    call.mayReturnIdle = false := by
  cases call <;> first | rfl | exact absurd rfl h

/-- The customer instance of a call is a copy of a stored row: customers are not deleted. -/
def OfStored (w : World) : CustomerCall → Prop
  | requestEmailChange customer _ => ∃ c ∈ w.db.customers.rows, c.id = customer.id
  | _ => True

/-- The call of a consumer. -/
def ofConsumer (rawToken : RawToken) : Consumer → CustomerCall
  | .verifyEmail => verifyEmail rawToken
  | .confirmPasswordReset newPassword => confirmPasswordReset rawToken newPassword
  | .confirmEmailChange => confirmEmailChange rawToken

lemma eq_ofConsumer {call : CustomerCall} {k : Consumer} {rawToken : RawToken}
    (h : call.presents = some (k, rawToken)) : call = ofConsumer rawToken k := by
  cases call <;> cases h <;> rfl

@[simp] lemma presents_ofConsumer (k : Consumer) (rawToken : RawToken) :
    (ofConsumer rawToken k).presents = some (k, rawToken) := by
  cases k <;> rfl

@[simp] lemma requests_ofConsumer (k : Consumer) (rawToken : RawToken) :
    (ofConsumer rawToken k).requests = none := by
  cases k <;> rfl

lemma service_ofConsumer [PyText] (k : Consumer) (rawToken : RawToken) :
    (ofConsumer rawToken k).service =
      (k.service rawToken >>= fun customer => return some customer) := by
  cases k <;> rfl

end CustomerCall

/-- A complete call, as the log of a trace keeps it. -/
abbrev CustomerEvent := Event CustomerCall World ApiError (Option Customer)

/-- The traces of customer calls that each satisfy `ok`, with time passing in between. -/
abbrev CustomerTrace [PyText] (ok : List CustomerEvent → World → CustomerCall → Prop)
    (w₀ : World) : List CustomerEvent → World → Prop :=
  Trace CustomerCall.service ok TimePasses w₀

/-! ## What a call does -/

/-- Customers, login methods, tokens, mail and clock are as before. -/
structure Unmoved (w w' : World) : Prop where
  customers : w'.db.customers = w.db.customers
  methods : w'.db.loginMethods = w.db.loginMethods
  tokens : w'.db.verificationTokens = w.db.verificationTokens
  mail : w'.mailbox = w.mailbox
  clock : w'.now = w.now
  entropy : w.entropy ≤ w'.entropy

instance : Std.Refl Unmoved := ⟨fun _ => ⟨rfl, rfl, rfl, rfl, rfl, Nat.le_refl _⟩⟩

instance : IsTrans World Unmoved where
  trans _ _ _ h h' := ⟨h'.customers.trans h.customers, h'.methods.trans h.methods,
    h'.tokens.trans h.tokens, h'.mail.trans h.mail, h'.clock.trans h.clock,
    h.entropy.trans h'.entropy⟩

lemma Drew.unmoved {w w' : World} (h : Drew w w') : Unmoved w w' := by
  obtain ⟨n, rfl⟩ := h
  exact ⟨rfl, rfl, rfl, rfl, rfl, Nat.le_add_right _ _⟩

section Unmoved

variable [PyText]

omit [PyText] in
lemma issueSession_unmoved (customerId : Id) : (issueSession customerId).Guarantees Unmoved := by
  refine Program.Guarantees.bind (Program.guarantees_exec ?_) fun refresh => ?_
  · intro w token w' h
    cases h
    exact ⟨rfl, rfl, rfl, rfl, rfl, Nat.le_succ _⟩
  · refine Program.Guarantees.bind (Program.guarantees_exec ?_) fun _ => trivial
    intro w s w' h
    obtain ⟨t, -, rfl⟩ := Objects.create_ok h
    exact ⟨rfl, rfl, rfl, rfl, rfl, Nat.le_refl _⟩

lemma loginCustomer_unmoved (email password : String) :
    (loginCustomer email password).Guarantees Unmoved := by
  refine Program.Guarantees.bind (Program.guarantees_exec ?_) fun c => ?_
  · exact Tx.Guarantees.handling (Objects.guarantees_get _) _ (Tx.guarantees_raise _)
  · refine Program.Guarantees.bind (Program.guarantees_exec ?_) fun m => ?_
    · exact Tx.Guarantees.handling (Objects.guarantees_get _) _ (Tx.guarantees_raise _)
    · refine Program.Guarantees.bind (Program.guarantees_require _ _) fun _ => ?_
      exact Program.Guarantees.bind (issueSession_unmoved c.id) fun _ => trivial

/-- The block of a Google login, and then nothing of interest. -/
lemma loginWithGoogle_run (clientId : String) (reply : TokeninfoReply) (w : World) :
    Unmoved w ((loginWithGoogle clientId reply).run w).2 ∨
      ∃ profile customerId w₁, verifyIdToken clientId reply = .ok profile ∧
        Linked profile customerId w w₁ ∧
        Unmoved w₁ ((loginWithGoogle clientId reply).run w).2 := by
  unfold loginWithGoogle
  cases hverify : verifyIdToken clientId reply with
  | error e => exact Or.inl (refl_of Unmoved w)
  | ok profile =>
      rw [Program.ofExcept_ok, Program.done_ok_bind, Program.run_bind, Program.liftM_eq,
        Program.run_exec]
      cases hblock : (googleBlock profile).run w with
      | error e =>
          rw [Tx.exec_error hblock]
          exact Or.inl (refl_of Unmoved w)
      | ok r =>
          rw [Tx.exec_ok hblock]
          dsimp only
          have hguarantee : (issueSession r.1.id >>= fun tokens => return (r.1, tokens) :
              Service (Customer × AccessToken × RefreshToken)).Guarantees Unmoved :=
            Program.Guarantees.bind (issueSession_unmoved r.1.id) fun _ => trivial
          have hissue := hguarantee.run r.2
          obtain ⟨hsame, -, -⟩ | hlinked := googleBlock_ok hblock
          · rw [hsame] at hissue ⊢
            exact Or.inl hissue
          · exact Or.inr ⟨profile, r.1.id, r.2, rfl, hlinked, hissue⟩

end Unmoved

/-- What a call can do: one case for each way in which it can move the tables. -/
inductive CustomerStep [PyText] (w : World) :
    CustomerCall → Except (Raised ApiError) (Option Customer) → World → Prop
  /-- Nothing of interest; a call that cannot return so has raised. -/
  | unmoved {call : CustomerCall} {r : Except (Raised ApiError) (Option Customer)} {w' : World}
      (h : Unmoved w w') (hraised : call.mayReturnIdle = false → ∃ e, r = .error e) :
      CustomerStep w call r w'
  | registered {email password : String} {c : Customer} {w' : World}
      (h : Registered email password c w w') :
      CustomerStep w (.registerCustomer email password) (.ok (some c)) w'
  | resetRequested {email : String} {c : Customer} {w' : World} (hc : c ∈ w.db.customers.rows)
      (h : Issued c.email (nextToken w c.id .passwordReset "" passwordResetTokenTtl) w w') :
      CustomerStep w (.requestPasswordReset email) (.ok none) w'
  | changeRequested {customer : Customer} {newEmail : String} {w' : World}
      (h : Issued (normalizeEmail newEmail) (nextToken w customer.id .emailChange
        (normalizeEmail newEmail) emailChangeTokenTtl) w w') :
      CustomerStep w (.requestEmailChange customer newEmail) (.ok none) w'
  | consumed {k : Consumer} {rawToken : RawToken} {t : VerificationToken} {c : Customer}
      {w' : World} (haccepts : k.Accepts rawToken w t) (hid : c.id = t.customerId)
      (h : k.Completes t w w') :
      CustomerStep w (.ofConsumer rawToken k) (.ok (some c)) w'
  | linked {clientId : String} {reply : TokeninfoReply} {profile : GoogleProfile}
      {customerId : Id} {w₁ w' : World} {r : Except (Raised ApiError) (Option Customer)}
      (hprofile : verifyIdToken clientId reply = .ok profile)
      (h : Linked profile customerId w w₁) (hrest : Unmoved w₁ w') :
      CustomerStep w (.loginWithGoogle clientId reply) r w'

section Steps

variable [PyText] {w : World}

/-- A call, alone, from a world in which every token has its customer. -/
lemma customerStep (howned : TokenCustomersStored w) (call : CustomerCall) :
    CustomerStep w call (call.service.run w).1 (call.service.run w).2 := by
  have hconsumer : ∀ (k : Consumer) (rawToken : RawToken), CustomerStep w
      (.ofConsumer rawToken k) ((CustomerCall.ofConsumer rawToken k).service.run w).1
      ((CustomerCall.ofConsumer rawToken k).service.run w).2 := by
    intro k rawToken
    rw [CustomerCall.service_ofConsumer, Program.run_bind]
    obtain ⟨t, c, w', haccepts, hrun, hid, hcompletes⟩ | ⟨-, e, hrun⟩ := k.run_cases rawToken howned
    · rw [hrun]
      exact .consumed haccepts hid hcompletes
    · rw [hrun]
      exact .unmoved (refl_of Unmoved w) fun _ => ⟨e, rfl⟩
  cases call with
  | registerCustomer email password =>
      rw [CustomerCall.service, Program.run_bind]
      obtain ⟨c, w', hrun, hregistered⟩ | ⟨e, hrun⟩ := registerCustomer_run email password w
      · rw [hrun]
        exact .registered hregistered
      · rw [hrun]
        exact .unmoved (refl_of Unmoved w) fun _ => ⟨e, rfl⟩
  | loginCustomer email password =>
      refine .unmoved ?_ nofun
      rw [CustomerCall.service, Program.run_bind_return]
      exact (loginCustomer_unmoved email password).run w
  | loginWithGoogle clientId reply =>
      rw [CustomerCall.service, Program.run_bind_return]
      obtain hunmoved | ⟨profile, customerId, w₁, hprofile, hlinked, hrest⟩ :=
        loginWithGoogle_run clientId reply w
      · exact .unmoved hunmoved nofun
      · exact .linked hprofile hlinked hrest
  | verifyEmail rawToken => exact hconsumer .verifyEmail rawToken
  | requestPasswordReset email =>
      rw [CustomerCall.service, Program.run_bind]
      obtain ⟨c, hc, -, -, w', hrun, hissued⟩ | ⟨r, w', hrun, hdrew⟩ :=
        requestPasswordReset_run email w
      · rw [hrun]
        exact .resetRequested hc hissued
      · rw [hrun]
        cases r with
        | ok u => exact .unmoved hdrew.unmoved nofun
        | error e => exact .unmoved hdrew.unmoved nofun
  | confirmPasswordReset rawToken newPassword =>
      exact hconsumer (.confirmPasswordReset newPassword) rawToken
  | requestEmailChange customer newEmail =>
      rw [CustomerCall.service, Program.run_bind]
      obtain ⟨w', hrun, hissued⟩ | ⟨e, w', hrun, hdrew⟩ :=
        requestEmailChange_run customer newEmail w
      · rw [hrun]
        exact .changeRequested hissued
      · rw [hrun]
        exact .unmoved hdrew.unmoved fun _ => ⟨e, rfl⟩
  | confirmEmailChange rawToken => exact hconsumer .confirmEmailChange rawToken

end Steps

end BePyEco
