import BePyEco.Accounts.Calls
import BePyEco.Accounts.DisabledCustomers
import BePyEco.Accounts.GoogleLogin
import BePyEco.Accounts.SessionControl
import BePyEco.Library.Triple

/-!
# Logins of disabled customers

That a disabled customer holds no session is a matter of every entry point that issues one.
Password login looks at `is_active`, and a rotation needs a session that is not revoked, but
`login_with_google` takes the customer of a linked identity, or of a verified address, as it is.

`AdmitsDisabled` says exactly when that customer is a disabled one.  In every history of complete
calls without such a login no disabled customer has an active session, and no call returns tokens
for one (`noDisabledSession_of_history`).
-/

namespace BePyEco

open Library

/-! ## Services that issue sessions -/

/-- What a call that returned the refresh token has to leave behind. -/
def Granted (refresh : RefreshToken) (w : World) : Prop :=
  SessionsRevoked w ∧ ¬ IsDisabled w refresh.userId

/-- A world in which a session for the customer may be issued. -/
def MayIssue (customerId : Id) (w : World) : Prop :=
  SessionsRevoked w ∧ ¬ IsDisabled w customerId

lemma Quiet.mayIssue {w w' : World} {customerId : Id} (h : Quiet w w')
    (hw : MayIssue customerId w) : MayIssue customerId w' :=
  ⟨h.sessionsRevoked hw.1, fun hdisabled => hw.2 (h.disabled _ hdisabled)⟩

/-- The customer of a stored active row is not disabled. -/
lemma not_isDisabled_of_active {w : World} {c : Customer} (hc : c ∈ w.db.customers.rows)
    (hactive : c.isActive = true) : ¬ IsDisabled w c.id := by
  rintro ⟨c', hc', hid, hinactive⟩
  have heq : c' = c := w.db.customers.eq_of_pk hc' hc hid
  rw [heq, hactive] at hinactive
  cases hinactive

lemma mintCustomerToken_quiet (customerId : Id) :
    (mintCustomerToken customerId).Guarantees Quiet := by
  intro w refresh w' h
  rw [mintCustomerToken_ok h]
  exact .of_eq rfl rfl

lemma mintCustomerToken_userId {customerId : Id} {w w' : World} {refresh : RefreshToken}
    (h : (mintCustomerToken customerId).run w = .ok (refresh, w')) :
    refresh.userId = customerId := by
  simp only [mintCustomerToken, RefreshToken.forUser, Tx.run_bind, run_drawRandom,
    run_timezoneNow, Tx.run_pure, Except.ok.injEq, Prod.mk.injEq] at h
  rw [← h.1]

/-- A session of a customer who is not disabled may be added. -/
lemma createSession_mayIssue {customerId : Id} {refresh : RefreshToken} {w w' : World}
    {s : Session} (h : (createSession customerId refresh).run w = .ok (s, w'))
    (hw : MayIssue customerId w) : MayIssue customerId w' := by
  obtain ⟨t, hinsert, rfl⟩ := Objects.create_ok h
  refine ⟨fun r hr hdisabled => ?_, hw.2⟩
  obtain hr | rfl := (Table.mem_insert hinsert).1 hr
  · exact hw.1 r hr hdisabled
  · rw [(Table.insert_spec hinsert).1] at hdisabled
    exact absurd hdisabled hw.2

lemma issueSession_triple (customerId : Id) :
    (issueSession customerId).Triple (MayIssue customerId) (fun r w => Granted r.2 w)
      SessionsRevoked := by
  have hmint : (Program.exec (mintCustomerToken customerId)).Triple (MayIssue customerId)
      (fun refresh w => MayIssue customerId w ∧ refresh.userId = customerId) SessionsRevoked :=
    .exec (fun w refresh w' hw hrun =>
      ⟨(mintCustomerToken_quiet customerId w refresh w' hrun).mayIssue hw,
        mintCustomerToken_userId hrun⟩) fun _ _ hw _ => hw.1
  have hcreate : ∀ refresh : RefreshToken, (Program.exec (createSession customerId refresh)).Triple
      (fun w => MayIssue customerId w ∧ refresh.userId = customerId)
      (fun _ w => Granted refresh w) SessionsRevoked := by
    intro refresh
    refine .exec (fun w s w' hw hrun => ?_) fun _ _ hw _ => hw.1.1
    rw [Granted, hw.2]
    exact createSession_mayIssue hrun hw.1
  refine hmint.bind fun refresh => ?_
  exact (hcreate refresh).bind fun _ => .done_ok fun _ h => h

/-! ### Password login -/

lemma getActiveCustomer_ok {email : String} {w w' : World} {c : Customer}
    (h : (getActiveCustomer email).run w = .ok (c, w')) :
    w' = w ∧ c ∈ w.db.customers.rows ∧ c.isActive = true := by
  obtain hget | ⟨-, hraise⟩ := Tx.handling_ok h
  · obtain ⟨rfl, hrow⟩ := Objects.get_ok hget
    have hactive := Table.holds_of_get hrow
    simp only [activeByEmail, Bool.and_eq_true] at hactive
    exact ⟨rfl, Table.mem_of_get hrow, hactive.2⟩
  · cases hraise

lemma getPasswordMethod_quiet (customerId : Id) :
    (getPasswordMethod customerId).Guarantees Quiet :=
  (Objects.guarantees_get _).handling _ (Tx.guarantees_raise _)

lemma loginCustomer_triple [PyText] (email password : String) :
    (loginCustomer email password).Triple SessionsRevoked (fun r w => Granted r.2.2 w)
      SessionsRevoked := by
  have hcustomer : (Program.exec (getActiveCustomer (normalizeEmail email))).Triple
      SessionsRevoked (fun c w => MayIssue c.id w) SessionsRevoked := by
    refine .exec (fun w c w' hw hrun => ?_) fun _ _ hw _ => hw
    obtain ⟨rfl, hmem, hactive⟩ := getActiveCustomer_ok hrun
    exact ⟨hw, not_isDisabled_of_active hmem hactive⟩
  refine hcustomer.bind fun c => ?_
  have hmethod : (Program.exec (getPasswordMethod c.id)).Triple (MayIssue c.id)
      (fun _ => MayIssue c.id) SessionsRevoked :=
    .exec (fun w m w' hw hrun => (getPasswordMethod_quiet c.id w m w' hrun).mayIssue hw)
      fun _ _ hw _ => hw.1
  refine hmethod.bind fun m => ?_
  refine (Program.Triple.require fun _ hw => hw.1).bind fun _ => ?_
  have hissue : (issueSession c.id).Triple
      (fun w => MayIssue c.id w ∧ checkPassword password m.passwordHash = true)
      (fun r w => Granted r.2 w) SessionsRevoked :=
    (issueSession_triple c.id).mono (fun _ h => h.1) (fun _ _ h => h) fun _ h => h
  exact hissue.bind fun _ => .done_ok fun _ h => h

/-! ### Rotation -/

lemma rotateRefreshToken_triple (raw : RawRefreshToken) :
    (rotateRefreshToken raw).Triple SessionsRevoked (fun r w => Granted r.2 w)
      SessionsRevoked := by
  have hdecode : (Program.exec (decodeCustomerToken raw)).Triple SessionsRevoked
      (fun _ => SessionsRevoked) SessionsRevoked := by
    refine .exec (fun w old w' hw hrun => ?_) fun _ _ hw _ => hw
    rw [(decodeCustomerToken_ok hrun).1]
    exact hw
  refine hdecode.bind fun old => ?_
  have hlookup : (Program.exec (lookupSession old)).Triple SessionsRevoked
      (fun s w => SessionsRevoked w ∧ s ∈ w.db.sessions.rows) SessionsRevoked := by
    refine .exec (fun w s w' hw hrun => ?_) fun _ _ hw _ => hw
    obtain ⟨rfl, hmem, -⟩ := lookupSession_ok hrun
    exact ⟨hw, hmem⟩
  refine hlookup.bind fun session => ?_
  -- an active session is not revoked, so its customer is not disabled
  have hcheck : (Program.exec (checkSession session)).Triple
      (fun w => SessionsRevoked w ∧ session ∈ w.db.sessions.rows)
      (fun _ => MayIssue session.customerId) SessionsRevoked := by
    refine .exec (fun w u w' hw hrun => ?_) fun _ _ hw _ => hw.1
    obtain ⟨rfl, hactive⟩ := checkSession_ok hrun
    refine ⟨hw.1, fun hdisabled => ?_⟩
    exact hw.1 session hw.2 hdisabled (Session.isActive_iff.1 hactive).1
  refine hcheck.bind fun _ => ?_
  have hsave : (Program.exec (saveRevokedAt session)).Triple (MayIssue session.customerId)
      (fun _ => MayIssue session.customerId) SessionsRevoked := by
    refine .exec (fun w u w' hw hrun => ?_) fun _ _ hw _ => hw.1
    rw [saveRevokedAt_ok hrun]
    exact (quiet_revoke w _ _).mayIssue hw
  exact hsave.bind fun _ => issueSession_triple session.customerId

/-! ### Google login -/

/-- The Google identity is new, and a login with it links it to the customer. -/
structure LinksTo (w : World) (profile : GoogleProfile) (c : Customer) : Prop where
  unlinked : ∀ m ∈ w.db.loginMethods.rows, googleMethod profile.subjectId m = false
  free : ∀ m ∈ w.db.loginMethods.rows, loginMethodOf c.id .google m = false
  email : c.email = profile.email
  verified : profile.emailVerified = true
  fits : profile.subjectId.length ≤ 255

/-- A login with the Google identity ends at a disabled customer: one it is linked to, or one it
gets linked to. -/
def AdmitsDisabled (w : World) (profile : GoogleProfile) : Prop :=
  ∃ c ∈ w.db.customers.rows, c.isActive = false ∧
    (IsLinkedTo w profile.subjectId c.id ∨ LinksTo w profile c)

lemma getOrCreateCustomer_quiet (email : String) (emailVerified : Bool) :
    (getOrCreateCustomer email emailVerified).Guarantees Quiet := by
  refine Tx.Guarantees.handling ?_ _ ?_
  · exact Tx.Guarantees.bind (Objects.guarantees_get _) fun _ => Tx.guarantees_pure _
  · refine Tx.Guarantees.bind (Tx.guarantees_read _) fun _ => ?_
    exact Tx.Guarantees.bind (createCustomer_quiet fun _ => rfl) fun _ => Tx.guarantees_pure _

lemma verifyLinkedEmail_quiet (c : Customer) (created emailVerified : Bool) :
    (verifyLinkedEmail c created emailVerified).Guarantees Quiet := by
  unfold verifyLinkedEmail
  split
  · exact verifyEmailNow_quiet c
  · exact Tx.guarantees_pure c

lemma googleBlock_quiet (profile : GoogleProfile) : (googleBlock profile).Guarantees Quiet := by
  refine Tx.Guarantees.handling ?_ _ ?_
  · exact Tx.Guarantees.bind (Objects.guarantees_get _) fun _ => Objects.guarantees_get _
  · refine Tx.Guarantees.bind (getOrCreateCustomer_quiet _ _) fun ⟨c, created⟩ => ?_
    refine Tx.Guarantees.bind (Tx.guarantees_require _ _) fun _ => ?_
    refine Tx.Guarantees.bind (verifyLinkedEmail_quiet _ _ _) fun c => ?_
    exact Tx.Guarantees.bind create_quiet fun _ => Tx.guarantees_pure _

/-- The transaction block ends at a disabled customer only when the identity admits one. -/
lemma admitsDisabled_of_googleBlock {profile : GoogleProfile} {w w' : World} {customer : Customer}
    (h : (googleBlock profile).run w = .ok (customer, w')) (hdisabled : IsDisabled w customer.id) :
    AdmitsDisabled w profile := by
  obtain ⟨c, hc, hid, hinactive⟩ := hdisabled
  refine ⟨c, hc, hinactive, ?_⟩
  obtain ⟨-, -, hlinked⟩ | hlinked := googleBlock_ok h
  · rw [hid]
    exact Or.inl hlinked
  · obtain ⟨c₀, hid₀, hexisting⟩ | ⟨hnew, -⟩ := hlinked.customer
    · have heq : c = c₀ := w.db.customers.eq_of_pk hc hexisting.stored (hid.trans hid₀.symm)
      refine Or.inr ⟨fun m hm => (hlinked.unlinked m hm).1, fun m hm => ?_, ?_, hexisting.verified,
        hlinked.fits⟩
      · rw [hid]
        exact (hlinked.unlinked m hm).2
      · rw [heq]
        exact hexisting.email
    · -- the key of a customer that was created was not in use
      exact absurd (hid.trans hnew) (w.db.customers.pk_ne_next hc)

lemma loginWithGoogle_triple [PyText] (clientId : String) (reply : TokeninfoReply) :
    (loginWithGoogle clientId reply).Triple
      (fun w => SessionsRevoked w ∧ ∀ profile, verifyIdToken clientId reply = .ok profile →
        ¬ AdmitsDisabled w profile)
      (fun r w => Granted r.2.2 w) SessionsRevoked := by
  unfold loginWithGoogle
  cases hverify : verifyIdToken clientId reply with
  | error e => exact .done_error fun _ h => h.1
  | ok profile =>
      have hblock : (Program.exec (googleBlock profile)).Triple
          (fun w => SessionsRevoked w ∧ ∀ profile',
            (.ok profile : Except ApiError GoogleProfile) = .ok profile' →
              ¬ AdmitsDisabled w profile')
          (fun c w => MayIssue c.id w) SessionsRevoked := by
        refine .exec (fun w c w' hw hrun => ?_) fun _ _ hw _ => hw.1
        refine (googleBlock_quiet profile w c w' hrun).mayIssue ⟨hw.1, fun hdisabled => ?_⟩
        exact hw.2 profile rfl (admitsDisabled_of_googleBlock hrun hdisabled)
      refine hblock.bind fun c => ?_
      exact (issueSession_triple c.id).bind fun _ => .done_ok fun _ h => h

/-! ## Disabling -/

/-- Every session of a disabled customer other than one is revoked. -/
def SessionsRevokedExcept (customerId : Id) (w : World) : Prop :=
  ∀ s ∈ w.db.sessions.rows, IsDisabled w s.customerId → s.customerId ≠ customerId →
    s.revokedAt ≠ none

lemma saveInactive_ok {customerId : Id} {w w' : World} {u : Unit} (hw : SessionsRevoked w)
    (h : (saveInactive customerId).run w = .ok (u, w')) : SessionsRevokedExcept customerId w' := by
  rw [Objects.save_ok h]
  rintro s hs ⟨c', hc', hid, hinactive'⟩ hne
  obtain ⟨c, hc, rfl⟩ := (Table.mem_update _).1 hc'
  have hcustomer : c.id = s.customerId := by
    rw [← hid]
    exact (Assignment.pk_on (Customer.setIsActive false) _ c).symm
  have hother : (Model.pk c == customerId) = false :=
    beq_false_of_ne fun heq => hne (hcustomer.symm.trans heq)
  have hsame :
      (Customer.setIsActive false).on (fun c : Customer => Model.pk c == customerId) c = c :=
    Assignment.on_neg _ hother
  rw [hsame] at hinactive'
  exact hw s hs ⟨c, hc, hcustomer, hinactive'⟩

lemma revokeUnrevoked_ok {customerId : Id} {w w' : World} {n : ℕ}
    (hw : SessionsRevokedExcept customerId w)
    (h : (revokeUnrevoked customerId).run w = .ok (n, w')) : SessionsRevoked w' := by
  cases h
  intro s' hs' hdisabled
  obtain ⟨s, hs, rfl⟩ := (Table.mem_update _).1 hs'
  by_cases hmatch : unrevokedOf customerId s = true
  · rw [Assignment.on_pos _ hmatch]
    simp [Session.setRevokedAt]
  · have hmatch : unrevokedOf customerId s = false := by simpa using hmatch
    rw [Assignment.on_neg _ hmatch] at hdisabled ⊢
    intro hnone
    have hne : s.customerId ≠ customerId := by simpa [unrevokedOf, hnone] using hmatch
    exact hw s hs hdisabled hne hnone

lemma revokeAllSessions_triple (customerId : Id) :
    (revokeAllSessions customerId).Triple (SessionsRevokedExcept customerId)
      (fun _ => SessionsRevoked) SessionsRevoked := by
  have hrevoke : (Program.exec (revokeUnrevoked customerId)).Triple
      (SessionsRevokedExcept customerId) (fun _ => SessionsRevoked) SessionsRevoked :=
    .exec (fun w n w' hw hrun => revokeUnrevoked_ok hw hrun) fun w e hw hrun => by cases hrun
  exact hrevoke.bind fun _ => .done_ok fun _ h => h

section Calls

variable [PyText]

/-- Between its two updates `disable_customer` breaks the invariant, but nothing fails there. -/
lemma disableCustomer_triple (actor : StaffInstance) (customerId : Id) (reason : String)
    (request : Option RequestContext) :
    (disableCustomer actor customerId reason request).Triple SessionsRevoked
      (fun _ => SessionsRevoked) SessionsRevoked := by
  have hquiet : ∀ {α : Type} {p : Service α}, p.Guarantees Quiet →
      p.Triple SessionsRevoked (fun _ => SessionsRevoked) SessionsRevoked := fun hp =>
    .of_guarantees hp fun _ _ h hw => h.sessionsRevoked hw
  refine (hquiet (Program.guarantees_require _ _)).bind fun _ => ?_
  refine (hquiet (hasConfirmedMfa_guarantees actor)).bind fun ⟨confirmed, actor⟩ => ?_
  refine (hquiet (Program.guarantees_require _ _)).bind fun _ => ?_
  refine (hquiet (Program.guarantees_require _ _)).bind fun _ => ?_
  refine (hquiet (Program.guarantees_exec (getCustomer_guarantees customerId))).bind fun c => ?_
  have hsave : (Program.exec (saveInactive c.id)).Triple SessionsRevoked
      (fun _ => SessionsRevokedExcept c.id) SessionsRevoked :=
    .exec (fun w u w' hw hrun => saveInactive_ok hw hrun) fun _ _ hw _ => hw
  refine hsave.bind fun _ => ?_
  refine (revokeAllSessions_triple c.id).bind fun _ => ?_
  refine hquiet (Program.Guarantees.bind (Program.guarantees_exec ?_) fun _ => trivial)
  exact writeAuditLog_guarantees OtherTable.quiet

/-! ## Histories -/

/-- The call does not log a disabled customer in through Google. -/
def AccountCall.AdmitsActive (w : World) : AccountCall → Prop
  | loginWithGoogle clientId reply =>
    ∀ profile, verifyIdToken clientId reply = .ok profile → ¬ AdmitsDisabled w profile
  | _ => True

/-- What a call that returned `result` leaves behind. -/
def AccountCall.Post (result : Option RefreshToken) (w : World) : Prop :=
  SessionsRevoked w ∧ ∀ refresh, result = some refresh → ¬ IsDisabled w refresh.userId

omit [PyText] in
lemma AccountCall.Post.of_none {w : World} (h : SessionsRevoked w) : AccountCall.Post none w :=
  ⟨h, fun _ hnone => by cases hnone⟩

omit [PyText] in
lemma Granted.post {refresh : RefreshToken} {w : World} (h : Granted refresh w) :
    AccountCall.Post (some refresh) w := by
  refine ⟨h.1, fun refresh' heq => ?_⟩
  rw [← Option.some.inj heq]
  exact h.2

omit [PyText] in
/-- A quiet service, as a call that returns no token. -/
lemma AccountCall.triple_of_quiet {α : Type} {p : Service α} {pre : World → Prop}
    (hp : p.Guarantees Quiet) (hpre : ∀ w, pre w → SessionsRevoked w) :
    (p >>= fun _ => return none : Service (Option RefreshToken)).Triple pre AccountCall.Post
      SessionsRevoked := by
  have hrun : p.Triple pre (fun _ => SessionsRevoked) SessionsRevoked :=
    (Program.Triple.of_guarantees hp fun _ _ h hw => h.sessionsRevoked hw).mono hpre
      (fun _ _ h => h) fun _ h => h
  exact hrun.bind fun _ => .done_ok fun _ h => .of_none h

/-- One call keeps the invariant and returns no token for a disabled customer. -/
theorem AccountCall.triple (call : AccountCall) :
    call.service.Triple (fun w => SessionsRevoked w ∧ call.AdmitsActive w) AccountCall.Post
      SessionsRevoked := by
  have hpre : ∀ w, SessionsRevoked w ∧ call.AdmitsActive w → SessionsRevoked w := fun _ h => h.1
  cases call with
  | registerCustomer email password => exact triple_of_quiet (registerCustomer_quiet _ _) hpre
  | verifyEmail rawToken => exact triple_of_quiet (verifyEmail_quiet _) hpre
  | loginCustomer email password =>
      have hlogin := (loginCustomer_triple email password).mono hpre (fun _ _ h => h) fun _ h => h
      exact hlogin.bind fun _ => .done_ok fun _ h => Granted.post h
  | loginWithGoogle clientId reply =>
      exact (loginWithGoogle_triple clientId reply).bind fun _ => .done_ok fun _ h => Granted.post h
  | rotateRefreshToken raw =>
      have hrotate := (rotateRefreshToken_triple raw).mono hpre (fun _ _ h => h) fun _ h => h
      exact hrotate.bind fun _ => .done_ok fun _ h => Granted.post h
  | revokeSession customer sessionId request =>
      exact triple_of_quiet (revokeSession_quiet _ _ _) hpre
  | revokeAllSessions customerId =>
      exact triple_of_quiet (revokeAllSessions_guarantees (revokeUnrevoked_quiet _)) hpre
  | requestPasswordReset email => exact triple_of_quiet (requestPasswordReset_quiet _) hpre
  | confirmPasswordReset rawToken newPassword =>
      exact triple_of_quiet (confirmPasswordReset_quiet _ _) hpre
  | requestEmailChange customer newEmail =>
      exact triple_of_quiet (requestEmailChange_quiet _ _) hpre
  | confirmEmailChange rawToken => exact triple_of_quiet (confirmEmailChange_quiet _) hpre
  | disableCustomer actor customerId reason request =>
      have hdisable := (disableCustomer_triple actor customerId reason request).mono hpre
        (fun _ _ h => h) fun _ h => h
      exact hdisable.bind fun _ => .done_ok fun _ h => .of_none h

/-- The invariant, along every history. -/
lemma sessionsRevoked_of_history {w₀ w : World} (hstart : SessionsRevoked w₀)
    (h : History (fun w call => call.AdmitsActive w) w₀ w) : SessionsRevoked w := by
  refine Program.Sequence.invariant hstart (fun call => ?_) ?_ h
  · exact call.triple.mono (fun _ h => h) (fun _ _ h => h.1) fun _ h => h
  · rintro w w' ⟨t, rfl⟩ hw
    exact hw

/-- A call that returns tokens returns them for a customer who is not disabled. -/
def TokensForActive (w : World) (call : AccountCall) : Prop :=
  ∀ refresh, (call.service.run w).1 = .ok (some refresh) →
    ¬ IsDisabled (call.after w) refresh.userId

/-- In every history without a Google login of a disabled customer, no disabled customer has an
active session, and no further such call returns tokens for a disabled customer. -/
theorem noDisabledSession_of_history {w₀ w : World} (hstart : SessionsRevoked w₀)
    (h : History (fun w call => call.AdmitsActive w) w₀ w) :
    NoDisabledSession w ∧ ∀ call : AccountCall, call.AdmitsActive w → TokensForActive w call := by
  have hw := sessionsRevoked_of_history hstart h
  refine ⟨hw.noDisabledSession, fun call hok refresh hresult => ?_⟩
  have hrun : call.service.run w = (.ok (some refresh), call.after w) := Prod.ext hresult rfl
  exact (call.triple.ok ⟨hw, hok⟩ hrun).2 refresh rfl

end Calls

/-! ### A customer who is disabled and logs in again -/

instance (w : World) : Decidable (NoDisabledSession w) :=
  inferInstanceAs (Decidable (∀ c ∈ w.db.customers.rows, c.isActive = false →
    ∀ s ∈ w.db.sessions.rows, s.customerId = c.id → s.isActive w.now = false))

section Example

attribute [local instance] plainText

/-- A login with a Google identity that is not known yet. -/
def firstGoogleLogin : AccountCall :=
  .loginWithGoogle "client" (.response 200 [("aud", "client"), ("sub", "subject"),
    ("email", "a@example.com"), ("email_verified", "true")])

def disableFirst : AccountCall := .disableCustomer administrator 0 "fraud" none

lemma sessionsRevoked_administeredWorld : SessionsRevoked administeredWorld := by
  have hnone : administeredWorld.db.sessions.rows = [] := by decide
  intro s hs
  rw [hnone] at hs
  cases hs

/-- After a login and `disable_customer`: the customer is disabled, and has a session. -/
theorem noDisabledSession_after_disabling :
    ∃ w, History (fun w call => call.AdmitsActive w) administeredWorld w ∧
      w.db.customers.rows.map Customer.isActive = [false] ∧ w.db.sessions.rows.length = 1 ∧
      NoDisabledSession w ∧ ∀ call : AccountCall, call.AdmitsActive w → TokensForActive w call := by
  have hfirst : firstGoogleLogin.AdmitsActive administeredWorld := by
    have hnone : administeredWorld.db.customers.rows = [] := by decide
    rintro profile - ⟨c, hc, -⟩
    rw [hnone] at hc
    cases hc
  have hlogin : History (fun w call => call.AdmitsActive w) administeredWorld
      (firstGoogleLogin.after administeredWorld) := .call _ .refl hfirst
  have hhistory := hlogin.call disableFirst trivial
  exact ⟨_, hhistory, by decide, by decide,
    noDisabledSession_of_history sessionsRevoked_administeredWorld hhistory⟩

/-- The disabled customer logs in with Google again and holds an active session. -/
theorem not_noDisabledSession :
    ¬ ∀ w₀ w : World, SessionsRevoked w₀ → History (fun _ _ => True) w₀ w →
      NoDisabledSession w ∧ ∀ call, TokensForActive w call := by
  intro hclaim
  have hhistory : History (fun _ _ => True) administeredWorld
      (firstGoogleLogin.after (disableFirst.after (firstGoogleLogin.after administeredWorld))) :=
    ((Program.Sequence.refl.call firstGoogleLogin trivial).call disableFirst trivial).call
      firstGoogleLogin trivial
  have hnone := (hclaim _ _ sessionsRevoked_administeredWorld hhistory).1
  exact absurd hnone (by decide)

end Example

end BePyEco
