import BePyEco.Accounts.DisabledLogins
import BePyEco.Accounts.ResetAddresses

/-!
# Whose password an account has after a Google link

A registration sets a password for an address that nobody has proven; a later Google login may
prove the address for somebody else and links its identity to the same customer.

As long as no login verifies a customer whose password no reset has set, the password that opens
the account after the link was set by a reset that was mailed to its address
(`linkedPasswordsProven_of_trace`).
-/

namespace BePyEco

open Library Library.Program

/-! ## Where a password comes from -/

/-- The event has set the password of the customer. -/
def SetsPassword (e : CustomerEvent) (customerId : Id) (password : String) : Prop :=
  ((∃ email, e.call = .registerCustomer email password) ∨
    ∃ rawToken, e.call = .confirmPasswordReset rawToken password) ∧
  ∃ c, e.result = .ok (some c) ∧ c.id = customerId

/-- No event has set the password of the customer. -/
def KeepsPassword (log : List CustomerEvent) (customerId : Id) : Prop :=
  ∀ e ∈ log, ∀ password, ¬ SetsPassword e customerId password

/-- The password of the customer was last set by a reset, whose token had been mailed to the email
of the customer. -/
def SetByReset (log : List CustomerEvent) (c : Customer) (password : String) : Prop :=
  ∃ log₁ e log₀ rawToken, log = log₁ ++ e :: log₀ ∧ SetsPassword e c.id password ∧
    KeepsPassword log₁ c.id ∧ e.call = .confirmPasswordReset rawToken password ∧
    MailedTo log₀ c.email rawToken

/-- The password of the customer was last set by a registration, whose own token has been presented
to `verify_email`. -/
def SetByProvenRegistration (log : List CustomerEvent) (c : Customer) (password : String) : Prop :=
  ∃ log₁ e log₀ email rawToken, log = log₁ ++ e :: log₀ ∧ SetsPassword e c.id password ∧
    KeepsPassword log₁ c.id ∧ e.call = .registerCustomer email password ∧
    e.after.mailbox = ⟨c.email, rawToken⟩ :: e.before.mailbox ∧
    ∃ e' ∈ log₁, e'.call = .verifyEmail rawToken ∧ ∃ r, e'.result = .ok r

/-- The email of the customer was not verified before the event, a Google login that has verified
it. -/
structure VerifiesByLink (e : CustomerEvent) (customerId : Id) : Prop where
  call : ∃ clientId reply, e.call = .loginWithGoogle clientId reply
  unverified : ∃ c ∈ e.before.db.customers.rows, c.id = customerId ∧ c.isEmailVerified = false
  verified : ∃ c ∈ e.after.db.customers.rows, c.id = customerId ∧ c.isEmailVerified = true

/-- Every password login of a customer whose email a Google login has verified accepts a password
that somebody has set who controlled the address. -/
def LinkedPasswordsProven (log : List CustomerEvent) : Prop :=
  ∀ log₁ e log₀ email password c, log = log₁ ++ e :: log₀ →
    e.call = .loginCustomer email password → e.result = .ok (some c) →
    (∃ g ∈ log₀, VerifiesByLink g c.id) →
      SetByReset log₀ c password ∨ SetByProvenRegistration log₀ c password

/-! ## The condition -/

/-- A Google login with the profile verifies the email of the customer. -/
structure WillVerify (w : World) (profile : GoogleProfile) (c : Customer) : Prop where
  stored : c ∈ w.db.customers.rows
  email : c.email = profile.email
  unverified : c.isEmailVerified = false
  verified : profile.emailVerified = true
  fits : profile.subjectId.length ≤ 255
  unlinked : ∀ m ∈ w.db.loginMethods.rows,
    googleMethod profile.subjectId m = false ∧ loginMethodOf c.id .google m = false

/-- The customer has a password. -/
def HasPassword (w : World) (customerId : Id) : Prop :=
  ∃ m ∈ w.db.loginMethods.rows, loginMethodOf customerId .password m = true

/-- A reset of the customer's password was confirmed. -/
def HasConfirmedReset (w : World) (customerId : Id) : Prop :=
  ∃ t ∈ w.db.verificationTokens.rows, t.customerId = customerId ∧ t.purpose = .passwordReset ∧
    t.consumedAt ≠ none

/-- The call changes no email, and verifies no customer whose password no reset has set. -/
def LinksProven [PyText] (w : World) : CustomerCall → Prop
  | .loginWithGoogle clientId reply => ∀ profile c, verifyIdToken clientId reply = .ok profile →
    WillVerify w profile c → HasPassword w c.id → HasConfirmedReset w c.id
  | .confirmEmailChange _ => False
  | _ => True

/-! ## The invariant -/

/-- No reset of the customer was confirmed, and no Google login has verified its email. -/
def Unproven (log : List CustomerEvent) (w : World) (customerId : Id) : Prop :=
  ¬ HasConfirmedReset w customerId ∧ ∀ e ∈ log, ¬ VerifiesByLink e customerId

/-- The password of the method was set by a reset, or its customer is unproven. -/
def Sourced (log : List CustomerEvent) (w : World) (m : LoginMethod) (c : Customer) : Prop :=
  (∃ password, m.passwordHash = some (makePassword password) ∧ SetByReset log c password) ∨
    Unproven log w c.id

/-- The password methods against the calls so far. -/
structure PasswordsTraced (log : List CustomerEvent) (w : World) : Prop where
  owned : ∀ m ∈ w.db.loginMethods.rows, ∃ c ∈ w.db.customers.rows, c.id = m.customerId
  known : ∀ e ∈ log, ∀ customerId, VerifiesByLink e customerId →
    ∃ c ∈ w.db.customers.rows, c.id = customerId
  sourced : ∀ c ∈ w.db.customers.rows, ∀ m ∈ w.db.loginMethods.rows,
    loginMethodOf c.id .password m = true → Sourced log w m c

section Invariant

variable {log : List CustomerEvent} {e : CustomerEvent} {c c₀ : Customer} {m : LoginMethod}

lemma loginMethodOf_iff {customerId : Id} {provider : Provider} :
    loginMethodOf customerId provider m = true ↔
      m.customerId = customerId ∧ m.provider = provider := by
  simp [loginMethodOf]

lemma SetByReset.older {password : String} (h : SetByReset log c₀ password) (hid : c.id = c₀.id)
    (hemail : c.email = c₀.email) (hkeeps : ∀ password, ¬ SetsPassword e c.id password) :
    SetByReset (e :: log) c password := by
  obtain ⟨log₁, s, log₀, rawToken, rfl, hsets, hlast, hcall, hmailed⟩ := h
  rw [← hid] at hsets hlast
  rw [← hemail] at hmailed
  refine ⟨e :: log₁, s, log₀, rawToken, rfl, hsets, fun e' he' => ?_, hcall, hmailed⟩
  obtain rfl | he' := List.mem_cons.1 he'
  · exact hkeeps
  · exact hlast e' he'

/-- An event that does not set the password, and verifies the customer only after a reset. -/
lemma Sourced.older (h : Sourced log e.before m c₀) (hid : c.id = c₀.id)
    (hemail : c.email = c₀.email) (hkeeps : ∀ password, ¬ SetsPassword e c.id password)
    (hreset : HasConfirmedReset e.after c.id → HasConfirmedReset e.before c.id)
    (hlink : VerifiesByLink e c.id → HasConfirmedReset e.before c.id) :
    Sourced (e :: log) e.after m c := by
  obtain ⟨password, hhash, hset⟩ | ⟨hnone, hunlinked⟩ := h
  · exact Or.inl ⟨password, hhash, hset.older hid hemail hkeeps⟩
  · rw [← hid] at hnone hunlinked
    refine Or.inr ⟨fun h => hnone (hreset h), fun e' he' => ?_⟩
    obtain rfl | he' := List.mem_cons.1 he'
    · exact fun h => hnone (hlink h)
    · exact hunlinked e' he'

/-- Emails do not change, and the tokens that were consumed before are those that are now. -/
lemma PasswordsTraced.keep (h : PasswordsTraced log e.before)
    (hmethods : e.after.db.loginMethods = e.before.db.loginMethods)
    (hcustomers : ∀ c ∈ e.after.db.customers.rows, ∃ c₀ ∈ e.before.db.customers.rows,
      c.id = c₀.id ∧ c.email = c₀.email)
    (hkept : KeepsCustomers e.before e.after)
    (hkeeps : ∀ customerId password, ¬ SetsPassword e customerId password)
    (hreset : ∀ customerId, HasConfirmedReset e.after customerId →
      HasConfirmedReset e.before customerId)
    (hlink : ∀ customerId, ¬ VerifiesByLink e customerId) :
    PasswordsTraced (e :: log) e.after := by
  refine ⟨fun m hm => ?_, fun e' he' customerId hverifies => ?_, fun c hc m hm hp => ?_⟩
  · rw [hmethods] at hm
    obtain ⟨c, hc, hid⟩ := h.owned m hm
    obtain ⟨c', hc', hid'⟩ := hkept c hc
    exact ⟨c', hc', hid'.trans hid⟩
  · obtain rfl | he' := List.mem_cons.1 he'
    · exact absurd hverifies (hlink customerId)
    · obtain ⟨c, hc, hid⟩ := h.known e' he' customerId hverifies
      obtain ⟨c', hc', hid'⟩ := hkept c hc
      exact ⟨c', hc', hid'.trans hid⟩
  · rw [hmethods] at hm
    obtain ⟨c₀, hc₀, hid, hemail⟩ := hcustomers c hc
    rw [hid] at hp
    exact (h.sourced c₀ hc₀ m hm hp).older hid hemail (hkeeps c.id) (hreset c.id)
      fun hverifies => absurd hverifies (hlink c.id)

lemma not_verifiesByLink (hcall : ∀ clientId reply, e.call ≠ .loginWithGoogle clientId reply)
    (customerId : Id) : ¬ VerifiesByLink e customerId := by
  rintro ⟨⟨clientId, reply, h⟩, -, -⟩
  exact hcall clientId reply h

/-- An event that leaves the customers alone verifies nobody. -/
lemma not_verifiesByLink_of_eq (h : e.after.db.customers = e.before.db.customers)
    (customerId : Id) : ¬ VerifiesByLink e customerId := by
  rintro ⟨-, ⟨c, hc, hid, hnot⟩, c', hc', hid', hverified⟩
  rw [h] at hc'
  have heq : c' = c := e.before.db.customers.eq_of_pk hc' hc (hid'.trans hid.symm)
  rw [heq, hnot] at hverified
  cases hverified

/-- The tokens that are consumed after the event and were not before belong to no reset. -/
lemma hasConfirmedReset_before {customerId : Id}
    (h : ∀ t ∈ e.after.db.verificationTokens.rows, t.purpose = .passwordReset →
      t.consumedAt ≠ none → t ∈ e.before.db.verificationTokens.rows)
    (hreset : HasConfirmedReset e.after customerId) : HasConfirmedReset e.before customerId := by
  obtain ⟨t, ht, hid, hpurpose, hconsumed⟩ := hreset
  exact ⟨t, h t ht hpurpose hconsumed, hid, hpurpose, hconsumed⟩

/-- A request of a token, which returns no customer. -/
lemma PasswordsTraced.issue {recipient : String} {t : VerificationToken}
    (h : PasswordsTraced log e.before) (hissued : Issued recipient t e.before e.after)
    (hnone : t.consumedAt = none) (hresult : e.result = .ok none) :
    PasswordsTraced (e :: log) e.after := by
  have hmethods : e.after.db.loginMethods = e.before.db.loginMethods := by rw [hissued.frame]
  have hcustomers : e.after.db.customers = e.before.db.customers := by rw [hissued.frame]
  refine h.keep hmethods (fun c hc => ?_) (keepsCustomers_of_eq hcustomers) ?_
    (fun customerId => hasConfirmedReset_before fun t' ht' _ hconsumed => ?_)
    (not_verifiesByLink_of_eq hcustomers)
  · rw [hcustomers] at hc
    exact ⟨c, hc, rfl, rfl⟩
  · rintro customerId password ⟨-, c, hresult', -⟩
    rw [hresult] at hresult'
    cases hresult'
  · rw [hissued.rows, List.mem_append, List.mem_singleton] at ht'
    obtain ht' | rfl := ht'
    · exact ht'
    · exact absurd hnone hconsumed

/-- A verified email. -/
lemma PasswordsTraced.verify {rawToken : RawToken} {t : VerificationToken}
    (h : PasswordsTraced log e.before) (hcall : e.call = .verifyEmail rawToken)
    (haccepts : Consumer.verifyEmail.Accepts rawToken e.before t)
    (hcompletes : Consumer.verifyEmail.Completes t e.before e.after) :
    PasswordsTraced (e :: log) e.after := by
  refine h.keep hcompletes.changes.2 (fun c hc => ?_) hcompletes.keepsCustomers ?_
    (fun customerId => hasConfirmedReset_before fun t' ht' hpurpose _ => ?_)
    (not_verifiesByLink (by rw [hcall]; nofun))
  · rw [hcompletes.changes.1] at hc
    obtain ⟨c₀, hc₀, rfl⟩ := (Table.mem_rewritten _).1 hc
    refine ⟨c₀, hc₀, ?_⟩
    split
    · exact ⟨rfl, rfl⟩
    · exact ⟨rfl, rfl⟩
  · rintro customerId password ⟨⟨email, h⟩ | ⟨rawToken', h⟩, -⟩
    · rw [hcall] at h
      cases h
    · rw [hcall] at h
      cases h
  · rw [hcompletes.tokens] at ht'
    obtain rfl | ⟨ht', -⟩ := mem_marked ht' haccepts.stored
    · -- the token that was consumed is no reset
      have hverification := (consumable_iff.1 haccepts.consumable).2.1
      rw [hpurpose] at hverification
      cases hverification
    · exact ht'

/-- A registration: the new customer is unproven. -/
lemma PasswordsTraced.register [PyText] {email password : String} (h : PasswordsTraced log e.before)
    (howned : TokenCustomersStored e.before)
    (hcall : e.call = .registerCustomer email password) (hresult : e.result = .ok (some c))
    (hregistered : Registered email password c e.before e.after) :
    PasswordsTraced (e :: log) e.after := by
  have hcustomers := hregistered.customers
  have hlink := not_verifiesByLink (e := e) (by rw [hcall]; nofun)
  have hnew : c.id = e.before.db.customers.next := by rw [hregistered.customer]
  have hne : ∀ c' ∈ e.before.db.customers.rows, c'.id ≠ c.id := by
    intro c' hc' hid
    exact e.before.db.customers.pk_ne_next hc' (hid.trans hnew)
  have hstored : ∀ c' ∈ e.before.db.customers.rows, c' ∈ e.after.db.customers.rows := by
    intro c' hc'
    rw [hcustomers]
    exact List.mem_append_left _ hc'
  have hreset : ∀ customerId, HasConfirmedReset e.after customerId →
      HasConfirmedReset e.before customerId := by
    refine fun customerId => hasConfirmedReset_before fun t ht hpurpose _ => ?_
    rw [hregistered.tokens, List.mem_append, List.mem_singleton] at ht
    obtain ht | rfl := ht
    · exact ht
    · cases hpurpose
  refine ⟨fun m hm => ?_, fun e' he' customerId hverifies => ?_, fun c' hc' m hm hp => ?_⟩
  · rw [hregistered.methods, List.mem_append, List.mem_singleton] at hm
    obtain hm | rfl := hm
    · obtain ⟨c', hc', hid⟩ := h.owned m hm
      exact ⟨c', hstored c' hc', hid⟩
    · refine ⟨c, ?_, rfl⟩
      rw [hcustomers]
      exact List.mem_append_right _ List.mem_cons_self
  · obtain rfl | he' := List.mem_cons.1 he'
    · exact absurd hverifies (hlink customerId)
    · obtain ⟨c', hc', hid⟩ := h.known e' he' customerId hverifies
      exact ⟨c', hstored c' hc', hid⟩
  · rw [hregistered.methods, List.mem_append, List.mem_singleton] at hm
    rw [hcustomers, List.mem_append, List.mem_singleton] at hc'
    obtain hc' | rfl := hc'
    · have hother : ∀ password', ¬ SetsPassword e c'.id password' := by
        rintro password' ⟨-, c₁, hresult', hid⟩
        rw [hresult] at hresult'
        cases hresult'
        exact hne c' hc' hid.symm
      obtain hm | rfl := hm
      · exact (h.sourced c' hc' m hm hp).older rfl rfl hother (hreset c'.id)
          fun hverifies => absurd hverifies (hlink c'.id)
      · exact absurd (loginMethodOf_iff.1 hp).1.symm (hne c' hc')
    · refine Or.inr ⟨fun hconfirmed => ?_, fun e' he' hverifies => ?_⟩
      · obtain ⟨t, ht, hid, -, -⟩ := hreset c'.id hconfirmed
        obtain ⟨c₁, hc₁, hid₁⟩ := howned t ht
        exact hne c₁ hc₁ (hid₁.trans hid)
      · obtain rfl | he' := List.mem_cons.1 he'
        · exact hlink c'.id hverifies
        · obtain ⟨c₁, hc₁, hid₁⟩ := h.known e' he' c'.id hverifies
          exact hne c₁ hc₁ hid₁

/-- What a confirmed reset makes of the methods: a password method is the one it has set, or an
older one of another customer. -/
lemma PasswordSet.method_cases {customerId : Id} {password : String} {w w' : World}
    (h : PasswordSet customerId password w w') (hm : m ∈ w'.db.loginMethods.rows) :
    (m.customerId = customerId ∧ m.provider = .password ∧
      m.passwordHash = some (makePassword password)) ∨
    (m ∈ w.db.loginMethods.rows ∧ loginMethodOf customerId .password m = false) := by
  obtain ⟨m₀, hm₀, hp₀, hrows⟩ | ⟨hnone, hrows⟩ := h
  · rw [hrows] at hm
    obtain ⟨m', hm', rfl⟩ := (Table.mem_rewritten _).1 hm
    by_cases hid : m'.id = m₀.id
    · have heq : m' = m₀ := w.db.loginMethods.eq_of_pk hm' hm₀ hid
      rw [heq, if_pos (beq_self_eq_true m₀.id)]
      obtain ⟨howner, hprovider⟩ := loginMethodOf_iff.1 hp₀
      exact Or.inl ⟨howner, hprovider, rfl⟩
    · have hbeq : ¬ (m'.id == m₀.id) = true := fun h => hid (beq_iff_eq.1 h)
      rw [if_neg hbeq]
      refine Or.inr ⟨hm', ?_⟩
      rw [← Bool.not_eq_true]
      intro hp
      exact hid (congrArg LoginMethod.id (passwordMethod_unique customerId m' hm' m₀ hm₀ hp hp₀))
  · rw [hrows, List.mem_append, List.mem_singleton] at hm
    obtain hm | rfl := hm
    · exact Or.inr ⟨hm, hnone m hm⟩
    · exact Or.inl ⟨rfl, rfl, rfl⟩

/-- Every customer with a method before has one after. -/
lemma PasswordSet.owned {customerId : Id} {password : String} {w w' : World}
    (h : PasswordSet customerId password w w')
    (howned : ∀ m ∈ w.db.loginMethods.rows, ∃ c ∈ w.db.customers.rows, c.id = m.customerId)
    (hc : c ∈ w.db.customers.rows) (hid : c.id = customerId) :
    ∀ m ∈ w'.db.loginMethods.rows, ∃ c ∈ w.db.customers.rows, c.id = m.customerId := by
  intro m hm
  obtain ⟨howner, -, -⟩ | ⟨hold, -⟩ := h.method_cases hm
  · exact ⟨c, hc, hid.trans howner.symm⟩
  · exact howned m hold

/-- A confirmed reset, whose token had been mailed to the customer. -/
lemma PasswordsTraced.reset {rawToken : RawToken} {newPassword : String} {t : VerificationToken}
    (h : PasswordsTraced log e.before) (hmailed : ResetsMailed log e.before)
    (hcall : e.call = .confirmPasswordReset rawToken newPassword)
    (hresult : e.result = .ok (some c)) (hid : c.id = t.customerId)
    (haccepts : (Consumer.confirmPasswordReset newPassword).Accepts rawToken e.before t)
    (hcompletes : (Consumer.confirmPasswordReset newPassword).Completes t e.before e.after) :
    PasswordsTraced (e :: log) e.after := by
  obtain ⟨hcustomers, hset⟩ := hcompletes.changes
  have hlink := not_verifiesByLink (e := e) (by rw [hcall]; nofun)
  obtain ⟨hhash, hpurpose, hnone⟩ := consumable_iff.1 haccepts.consumable
  obtain ⟨c₁, hc₁, hid₁, hmail⟩ := hmailed t haccepts.stored hpurpose hnone haccepts.alive
  rw [hhash] at hmail
  have hsets : SetsPassword e t.customerId newPassword :=
    ⟨Or.inr ⟨rawToken, hcall⟩, c, hresult, hid⟩
  refine ⟨fun m hm => ?_, fun e' he' customerId hverifies => ?_, fun c' hc' m hm hp => ?_⟩
  · rw [hcustomers]
    exact hset.owned h.owned hc₁ hid₁ m hm
  · rw [hcustomers]
    obtain rfl | he' := List.mem_cons.1 he'
    · exact absurd hverifies (hlink customerId)
    · exact h.known e' he' customerId hverifies
  · rw [hcustomers] at hc'
    obtain ⟨howner, -, hhash'⟩ | ⟨hold, hnot⟩ := hset.method_cases hm
    · -- the method that the event has set
      have hid' : c'.id = t.customerId := (loginMethodOf_iff.1 hp).1.symm.trans howner
      have heq : c' = c₁ := e.before.db.customers.eq_of_pk hc' hc₁ (hid'.trans hid₁.symm)
      refine Or.inl ⟨newPassword, hhash', [], e, log, rawToken, rfl, ?_, ?_, hcall, ?_⟩
      · rw [hid']
        exact hsets
      · simp [KeepsPassword]
      · rw [heq]
        exact hmail
    · -- a method of another customer
      have hother : c'.id ≠ t.customerId := by
        intro hid'
        rw [hid', hnot] at hp
        cases hp
      refine (h.sourced c' hc' m hold hp).older rfl rfl ?_ (fun hconfirmed => ?_)
        fun hverifies => absurd hverifies (hlink c'.id)
      · rintro password ⟨-, c₂, hresult', hid₂⟩
        rw [hresult] at hresult'
        cases hresult'
        exact hother (hid₂.symm.trans hid)
      · obtain ⟨t', ht', hid₂, hpurpose', hconsumed⟩ := hconfirmed
        rw [hcompletes.tokens] at ht'
        obtain rfl | ⟨ht', -⟩ := mem_marked ht' haccepts.stored
        · exact absurd hid₂.symm hother
        · exact ⟨t', ht', hid₂, hpurpose', hconsumed⟩

/-- The login that verifies the email of a customer. -/
lemma Linked.willVerify {profile : GoogleProfile} {customerId : Id} {w w' : World} {c' : Customer}
    (h : Linked profile customerId w w') (hc : c ∈ w.db.customers.rows)
    (hnot : c.isEmailVerified = false) (hc' : c' ∈ w'.db.customers.rows) (hid : c'.id = c.id)
    (hverified : c'.isEmailVerified = true) : WillVerify w profile c := by
  have hunchanged : c' ∈ w.db.customers.rows → False := by
    intro hold
    have heq : c' = c := w.db.customers.eq_of_pk hold hc hid
    rw [heq, hnot] at hverified
    cases hverified
  obtain ⟨c₁, hid₁, hexisting⟩ | ⟨-, hnew⟩ := h.customer
  · obtain ⟨-, hsame⟩ | ⟨hnot₁, hrows⟩ := hexisting.customers
    · rw [hsame] at hc'
      exact (hunchanged hc').elim
    · rw [hrows] at hc'
      obtain ⟨c₂, hc₂, rfl⟩ := (Table.mem_rewritten _).1 hc'
      by_cases hid₂ : c₂.id = c₁.id
      · have heq : c = c₁ := by
          refine w.db.customers.eq_of_pk hc hexisting.stored ?_
          rw [if_pos (beq_iff_eq.2 hid₂)] at hid
          exact hid.symm.trans hid₂
        subst heq
        refine ⟨hc, hexisting.email, hnot, hexisting.verified, h.fits, ?_⟩
        rw [hid₁]
        exact h.unlinked
      · rw [if_neg fun hbeq => hid₂ (beq_iff_eq.1 hbeq)] at hunchanged
        exact (hunchanged hc₂).elim
  · rw [hnew.customers, List.mem_append, List.mem_singleton] at hc'
    obtain hold | rfl := hc'
    · exact (hunchanged hold).elim
    · exact absurd hid.symm (w.db.customers.pk_ne_next hc)

/-- Every customer after a link was there with the same email, or is new. -/
lemma Linked.customer_cases {profile : GoogleProfile} {customerId : Id} {w w' : World}
    {c' : Customer} (h : Linked profile customerId w w') (hc' : c' ∈ w'.db.customers.rows) :
    (∃ c ∈ w.db.customers.rows, c'.id = c.id ∧ c'.email = c.email) ∨
      c'.id = w.db.customers.next := by
  obtain ⟨c₁, -, hexisting⟩ | ⟨-, hnew⟩ := h.customer
  · obtain ⟨-, hsame⟩ | ⟨-, hrows⟩ := hexisting.customers
    · rw [hsame] at hc'
      exact Or.inl ⟨c', hc', rfl, rfl⟩
    · rw [hrows] at hc'
      obtain ⟨c₂, hc₂, rfl⟩ := (Table.mem_rewritten _).1 hc'
      refine Or.inl ⟨c₂, hc₂, ?_⟩
      split
      · exact ⟨rfl, rfl⟩
      · exact ⟨rfl, rfl⟩
  · rw [hnew.customers, List.mem_append, List.mem_singleton] at hc'
    obtain hold | rfl := hc'
    · exact Or.inl ⟨c', hold, rfl, rfl⟩
    · exact Or.inr rfl

/-- The customer whom a link is about is stored. -/
lemma Linked.customer_stored {profile : GoogleProfile} {customerId : Id} {w w' : World}
    (h : Linked profile customerId w w') : ∃ c ∈ w'.db.customers.rows, c.id = customerId := by
  obtain ⟨c, hid, hexisting⟩ | ⟨hid, hnew⟩ := h.customer
  · obtain ⟨c', hc', hid'⟩ := h.keepsCustomers c hexisting.stored
    exact ⟨c', hc', hid'.trans hid⟩
  · refine ⟨newGoogleCustomer w profile.email profile.emailVerified, ?_, hid.symm⟩
    rw [hnew.customers]
    exact List.mem_append_right _ List.mem_cons_self

/-- A link that verifies nobody whose password no reset has set. -/
lemma PasswordsTraced.link {clientId : String} {reply : TokeninfoReply} {profile : GoogleProfile}
    {customerId : Id} {w₁ : World} (h : PasswordsTraced log e.before)
    (hcall : e.call = .loginWithGoogle clientId reply)
    (hlinked : Linked profile customerId e.before w₁) (hrest : Unmoved w₁ e.after)
    (hproven : ∀ c, WillVerify e.before profile c → HasPassword e.before c.id →
      HasConfirmedReset e.before c.id) : PasswordsTraced (e :: log) e.after := by
  have htokens : e.after.db.verificationTokens = e.before.db.verificationTokens := by
    rw [hrest.tokens, hlinked.frame]
  have hkept : KeepsCustomers e.before e.after := by
    intro c hc
    rw [hrest.customers]
    exact hlinked.keepsCustomers c hc
  have hkeeps : ∀ customerId password, ¬ SetsPassword e customerId password := by
    rintro customerId password ⟨⟨email, h⟩ | ⟨rawToken, h⟩, -⟩
    · rw [hcall] at h
      cases h
    · rw [hcall] at h
      cases h
  refine ⟨fun m hm => ?_, fun e' he' customerId' hverifies => ?_, fun c' hc' m hm hp => ?_⟩
  · rw [hrest.methods, hlinked.methods, List.mem_append, List.mem_singleton] at hm
    rw [hrest.customers]
    obtain hm | rfl := hm
    · obtain ⟨c, hc, hid⟩ := h.owned m hm
      obtain ⟨c', hc', hid'⟩ := hlinked.keepsCustomers c hc
      exact ⟨c', hc', hid'.trans hid⟩
    · exact hlinked.customer_stored
  · obtain rfl | he' := List.mem_cons.1 he'
    · obtain ⟨c, hc, hid, -⟩ := hverifies.verified
      exact ⟨c, hc, hid⟩
    · obtain ⟨c, hc, hid⟩ := h.known e' he' customerId' hverifies
      obtain ⟨c', hc', hid'⟩ := hkept c hc
      exact ⟨c', hc', hid'.trans hid⟩
  · rw [hrest.methods, hlinked.methods, List.mem_append, List.mem_singleton] at hm
    obtain ⟨howner, hprovider⟩ := loginMethodOf_iff.1 hp
    obtain hm | rfl := hm
    · have hstored : c' ∈ w₁.db.customers.rows := by rwa [← hrest.customers]
      obtain ⟨c₀, hc₀, hid, hemail⟩ | hnew := hlinked.customer_cases hstored
      · have hp₀ : loginMethodOf c₀.id .password m = true := by rwa [← hid]
        refine (h.sourced c₀ hc₀ m hm hp₀).older hid hemail (hkeeps c'.id) ?_ ?_
        · refine hasConfirmedReset_before fun t ht _ _ => ?_
          rwa [htokens] at ht
        · rintro ⟨-, ⟨c₁, hc₁, hid₁, hnot⟩, c₂, hc₂, hid₂, hverified⟩
          rw [hrest.customers] at hc₂
          have hwill := hlinked.willVerify hc₁ hnot hc₂ (hid₂.trans hid₁.symm) hverified
          rw [← hid₁]
          refine hproven c₁ hwill ⟨m, hm, ?_⟩
          rw [hid₁]
          exact hp
      · -- the new customer has no method yet
        obtain ⟨c₁, hc₁, hid₁⟩ := h.owned m hm
        have hnext : c₁.id = e.before.db.customers.next := (hid₁.trans howner).trans hnew
        exact absurd hnext (e.before.db.customers.pk_ne_next hc₁)
    · cases hprovider

/-- One call that changes no email and satisfies the condition. -/
lemma PasswordsTraced.step [PyText] (h : PasswordsTraced log e.before)
    (howned : TokenCustomersStored e.before) (hmailed : ResetsMailed log e.before)
    (hstep : CustomerStep e.before e.call e.result e.after)
    (hproven : LinksProven e.before e.call) : PasswordsTraced (e :: log) e.after := by
  obtain ⟨call, w, r, w'⟩ := e
  dsimp only at hstep hproven
  cases hstep with
  | unmoved hunmoved hraised =>
      refine h.keep hunmoved.methods (fun c hc => ?_) (keepsCustomers_of_eq hunmoved.customers) ?_
        (fun customerId => hasConfirmedReset_before fun t ht _ _ => ?_)
        (not_verifiesByLink_of_eq hunmoved.customers)
      · exact ⟨c, by rwa [← hunmoved.customers], rfl, rfl⟩
      · rintro customerId password ⟨hcall, c, hresult, -⟩
        have hidle : call.mayReturnIdle = false := by
          obtain ⟨email, rfl⟩ | ⟨rawToken, rfl⟩ := hcall
          · rfl
          · rfl
        obtain ⟨raised, rfl⟩ := hraised hidle
        cases hresult
      · rwa [← hunmoved.tokens]
  | @registered email password c _ hregistered => exact h.register howned rfl rfl hregistered
  | @resetRequested email c _ hc hissued => exact h.issue hissued rfl rfl
  | @changeRequested customer newEmail _ hissued => exact h.issue hissued rfl rfl
  | @consumed k rawToken t c _ haccepts hid hcompletes =>
      cases k with
      | verifyEmail => exact h.verify rfl haccepts hcompletes
      | confirmPasswordReset newPassword => exact h.reset hmailed rfl rfl hid haccepts hcompletes
      | confirmEmailChange => exact absurd hproven id
  | @linked clientId reply profile customerId w₁ _ _ hprofile hlinked hrest =>
      exact h.link rfl hlinked hrest fun c => hproven profile c hprofile

end Invariant

/-! ## Traces -/

section Traces

variable [PyText] {w₀ w : World} {log : List CustomerEvent}

/-- A login that succeeds has found the active customer and its password. -/
lemma loginCustomer_ok {email password : String} {r : Customer × AccessToken × RefreshToken}
    {w' : World} (h : (loginCustomer email password).run w = (.ok r, w')) :
    r.1 ∈ w.db.customers.rows ∧ ∃ m ∈ w.db.loginMethods.rows,
      loginMethodOf r.1.id .password m = true ∧ checkPassword password m.passwordHash = true := by
  obtain ⟨c, w₁, hcustomer, h₁⟩ := Program.run_bind_ok h
  obtain ⟨m, w₂, hmethod, h₂⟩ := Program.run_bind_ok h₁
  obtain ⟨u, w₃, hrequire, h₃⟩ := Program.run_bind_ok h₂
  obtain ⟨tokens, w₄, -, hpure⟩ := Program.run_bind_ok h₃
  cases hpure
  obtain ⟨rfl, hc, -⟩ := getActiveCustomer_ok (Program.run_exec_ok hcustomer)
  obtain hget | ⟨-, hraise⟩ := Tx.handling_ok (Program.run_exec_ok hmethod)
  · obtain ⟨rfl, hrow⟩ := Objects.get_ok hget
    obtain ⟨-, hcheck⟩ := Program.run_require_ok hrequire
    exact ⟨hc, m, Table.mem_of_get hrow, Table.holds_of_get hrow, hcheck⟩
  · cases hraise

/-- The calls use instances of stored customers, change no email, and verify no customer whose
password no reset has set. -/
def LinksSettled (log : List CustomerEvent) (w : World) (call : CustomerCall) : Prop :=
  UseStored log w call ∧ LinksProven w call

lemma LinksProven.movesNoReset {call : CustomerCall} (h : LinksProven w call) :
    MovesNoReset w call := by
  cases call with
  | confirmEmailChange rawToken => exact absurd h id
  | _ => trivial

lemma passwordsTraced_of_trace (hcustomers : w₀.db.customers.rows = [])
    (hmethods : w₀.db.loginMethods.rows = []) (htokens : w₀.db.verificationTokens.rows = [])
    (h : CustomerTrace LinksSettled w₀ log w) : PasswordsTraced log w := by
  induction h with
  | refl => exact ⟨by simp [hmethods], by simp, by simp [hcustomers]⟩
  | call c hearlier hok ih =>
      have htraced := tokensTraced_of_trace htokens (hearlier.mono fun _ _ _ hok => hok.1)
      have hmailed := resetsMailed_of_trace htokens
        (hearlier.mono fun _ _ _ hok => ⟨hok.1, hok.2.movesNoReset⟩)
      exact ih.step htraced.owned hmailed (customerStep htraced.owned c) hok.2
  | env _ hmove ih =>
      obtain ⟨t, rfl⟩ := hmove
      exact ⟨ih.owned, ih.known, ih.sourced⟩

/-- In a run that changes no email, and links no verified identity to an unverified customer whose
password no reset has set, the password that opens a linked account is proven. -/
theorem linkedPasswordsProven_of_trace (hcustomers : w₀.db.customers.rows = [])
    (hmethods : w₀.db.loginMethods.rows = []) (htokens : w₀.db.verificationTokens.rows = [])
    (h : CustomerTrace LinksSettled w₀ log w) : LinkedPasswordsProven log := by
  intro log₁ e log₀ email password c hlog hcall hresult hlinked
  obtain ⟨hearlier, -, he⟩ := h.earlier hlog
  have htraced := passwordsTraced_of_trace hcustomers hmethods htokens hearlier
  have hrun : ((CustomerCall.loginCustomer email password).service).run e.before =
      (.ok (some c), e.after) := by
    rw [← hresult, ← hcall]
    exact (Prod.ext (congrArg Event.result he) (congrArg Event.after he)).symm
  obtain ⟨r, w₁, hlogin, hpure⟩ := Program.run_bind_ok hrun
  cases hpure
  obtain ⟨hc, m, hm, hp, hcheck⟩ := loginCustomer_ok hlogin
  obtain ⟨password', hhash, hset⟩ | ⟨-, hnone⟩ := htraced.sourced r.1 hc m hm hp
  · have heq : password' = password := by
      rw [hhash] at hcheck
      exact of_decide_eq_true hcheck
    rw [← heq]
    exact Or.inl hset
  · obtain ⟨g, hg, hverifies⟩ := hlinked
    exact absurd hverifies (hnone g hg)

end Traces

section Example

attribute [local instance] plainText

/-- What Google says of a token for a verified address. -/
def verifiedReply : TokeninfoReply :=
  .response 200 [("aud", "client"), ("sub", "subject"), ("email", "a@example.com"),
    ("email_verified", "true")]

/-- The owner of an address resets the password of a registration, and then links Google. -/
def claimedRun : List CustomerEvent × World :=
  Trace.execute CustomerCall.service [.registerCustomer "a@example.com" "old",
    .requestPasswordReset "a@example.com", .confirmPasswordReset 1 "new",
    .loginWithGoogle "client" verifiedReply, .loginCustomer "a@example.com" "new"] ([], {})

theorem linkedPasswordsProven_claimedRun : LinkedPasswordsProven claimedRun.1 := by
  have htrace : CustomerTrace LinksSettled {} claimedRun.1 claimedRun.2 := by
    refine Trace.execute_of_allowed .refl ⟨⟨trivial, trivial⟩, ⟨trivial, trivial⟩,
      ⟨trivial, trivial⟩, ⟨trivial, fun profile c _ hwill _ => ?_⟩, ⟨trivial, trivial⟩, trivial⟩
    have hreset : ∀ c ∈ resetRun.2.db.customers.rows,
        ∃ t ∈ resetRun.2.db.verificationTokens.rows, t.customerId = c.id ∧
          t.purpose = .passwordReset ∧ t.consumedAt ≠ none := by decide
    exact hreset c hwill.stored
  exact linkedPasswordsProven_of_trace rfl rfl rfl htrace

/-- The owner of an address that a stranger has registered links Google to it. -/
def strangerRun : List CustomerEvent × World :=
  Trace.execute CustomerCall.service [.registerCustomer "a@example.com" "stranger",
    .loginWithGoogle "client" verifiedReply, .loginCustomer "a@example.com" "stranger"] ([], {})

/-- The password of the stranger opens the account of the owner. -/
theorem not_linkedPasswordsProven :
    CustomerTrace UseStored {} strangerRun.1 strangerRun.2 ∧
      ¬ LinkedPasswordsProven strangerRun.1 := by
  refine ⟨Trace.execute_of_allowed .refl ⟨trivial, trivial, trivial, trivial⟩, fun hproven => ?_⟩
  have hnone : ∀ e ∈ strangerRun.1.tail, e.call.presents.isNone = true := by decide
  have hlinked : ∃ g ∈ strangerRun.1.tail, VerifiesByLink g registrant.id := by
    refine ⟨_, List.mem_cons_self, ⟨"client", verifiedReply, rfl⟩, ?_, ?_⟩
    · exact ⟨registrant, by decide, rfl, rfl⟩
    · exact ⟨{ registrant with emailVerifiedAt := some 0 }, by decide, rfl, rfl⟩
  obtain ⟨log₁, e, log₀, rawToken, hsplit, -, -, hcall, -⟩ |
    ⟨log₁, e, log₀, email, rawToken, hsplit, -, -, -, -, e', he', hcall, -⟩ :=
      hproven [] _ strangerRun.1.tail "a@example.com" "stranger" _ rfl rfl rfl hlinked
  · have hpresents := hnone e (by rw [hsplit]; exact List.mem_append_right _ List.mem_cons_self)
    rw [hcall] at hpresents
    cases hpresents
  · have hpresents := hnone e' (by rw [hsplit]; exact List.mem_append_left _ he')
    rw [hcall] at hpresents
    cases hpresents

end Example

end BePyEco
