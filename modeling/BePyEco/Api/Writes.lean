import BePyEco.Api.Findings

/-!
# The views keep to their policies

One lemma for each view, by the statements it is made of: what they find is the evidence that the
policy of the endpoint asks for, and what they write is within the policy.
-/

namespace BePyEco

open Library

/-- What the policy of an endpoint permits to a view that has found these databases. -/
abbrev Endpoint.Permits [Libraries] (endpoint : Endpoint) (request : HttpRequest)
    (found : Set World) : World → World → Prop := (endpoint.policy request found).Allows

/-- The view writes what its policy permits. -/
abbrev Endpoint.KeepsTo [Libraries] (endpoint : Endpoint) (request : HttpRequest) : Prop :=
  (endpoint.view request).Earns (endpoint.Permits request) (fun _ _ => True) ∅

variable [Libraries] {P : WorldPolicy} {request : HttpRequest} {found : Set World}

/-! ## What the audited statements leave -/

section Leaves

variable {w w' : World}

omit [Libraries] in
lemma saveInactive_leaves {customerId : Id} {u : Unit}
    (h : (saveInactive customerId).run w = .ok (u, w')) :
    ∃ c ∈ w'.db.customers.rows, c.id = customerId ∧ c.isActive = false := by
  obtain ⟨c, hc, hid⟩ := Objects.exists_of_save_ok h
  rw [Objects.save_ok h]
  refine ⟨(Customer.setIsActive false).on (fun r => Model.pk r == customerId) c,
    List.mem_map_of_mem hc, ?_⟩
  rw [Assignment.on_pos _ (by exact beq_iff_eq.2 hid)]
  exact ⟨hid, rfl⟩

omit [Libraries] in
lemma createVerificationToken_leaves {customerId : Id} {purpose : Purpose}
    {tokenHash : Sha256 RawToken} {newEmail : String} {ttl : Time} {t : VerificationToken}
    (h : (createVerificationToken customerId purpose tokenHash newEmail ttl).run w = .ok (t, w')) :
    t ∈ w'.db.verificationTokens.rows ∧ t.tokenHash = tokenHash ∧ t.purpose = purpose ∧
      t.customerId = customerId ∧ t.newEmail = newEmail := by
  obtain ⟨now, w₁, hnow, hcreate⟩ := Tx.bind_ok h
  obtain ⟨tokens, hinsert, -⟩ := Objects.create_ok hcreate
  obtain ⟨rfl, -⟩ := Table.insert_spec hinsert
  exact ⟨Objects.mem_of_create_ok hcreate, rfl, rfl, rfl, rfl⟩

lemma registerBlock_leaves {email password : String} {r : Customer × RawToken}
    (h : (registerBlock email password).run w = .ok (r, w')) :
    w.db.customers.next = r.1.id ∧ r.1 ∈ w'.db.customers.rows ∧
      ∃ t ∈ w'.db.verificationTokens.rows, t.tokenHash = sha256 r.2 ∧
        t.purpose = .emailVerification ∧ t.customerId = r.1.id := by
  obtain ⟨customer, w₁, hcustomer, hrest⟩ := Tx.bind_ok h
  obtain ⟨method, w₂, hmethod, hrest⟩ := Tx.bind_ok hrest
  obtain ⟨token, w₃, htoken, hrest⟩ := Tx.bind_ok hrest
  obtain ⟨stored, w₄, hstored, hpure⟩ := Tx.bind_ok hrest
  cases hpure
  obtain ⟨hmem, hhash, hpurpose, hid, -⟩ := createVerificationToken_leaves hstored
  have hnext : w.db.customers.next = customer.id := by
    obtain ⟨customers, hinsert, -⟩ := Objects.create_ok hcustomer
    rw [(Table.insert_spec hinsert).1]
    rfl
  have hcreated : customer ∈ w₁.db.customers.rows := Objects.mem_of_create_ok hcustomer
  obtain ⟨methods, -, rfl⟩ := Objects.create_ok hmethod
  cases htoken
  obtain ⟨now, w₅, hnow, hinsert⟩ := Tx.bind_ok hstored
  cases hnow
  obtain ⟨tokens, -, rfl⟩ := Objects.create_ok hinsert
  exact ⟨hnext, hcreated, stored, hmem, hhash, hpurpose, hid⟩

lemma insertStaff_leaves {email password : String} {role : Role} {staff : Staff}
    (h : (insertStaff email password role).run w = .ok (staff, w')) :
    staff ∈ w'.db.staff.rows := Objects.mem_of_create_ok h

omit [Libraries] in
lemma deleteTotpDevices_leaves {staffId : Id} {u : Unit}
    (h : (deleteTotpDevices staffId).run w = .ok (u, w')) :
    ∀ d ∈ w'.db.staffTotpDevices.rows, d.staffId ≠ staffId := by
  intro d hd
  cases h
  obtain ⟨-, hother⟩ := (Table.mem_delete _).1 hd
  exact of_decide_eq_false hother

omit [Libraries] in
lemma revokeOwn_leaves {customerId sessionId : Id} {updated : ℕ}
    (h : (revokeOwn customerId sessionId).run w = .ok (updated, w')) (hupdated : updated ≠ 0) :
    ∃ s ∈ w'.db.sessions.rows, s.id = sessionId ∧ s.customerId = customerId ∧
      s.revokedAt ≠ none := by
  obtain ⟨now, w₁, hnow, hupdate⟩ := Tx.bind_ok h
  cases hnow
  cases hupdate
  by_contra hnone
  refine hupdated (w.db.sessions.count_eq_zero_iff.2 fun s hs => Bool.eq_false_iff.2 ?_)
  intro hrevocable
  refine hnone ⟨(Session.setRevokedAt w.now).on (revocable customerId sessionId) s,
    List.mem_map_of_mem hs, ?_⟩
  rw [Assignment.on_pos _ hrevocable]
  simp only [revocable, Bool.and_eq_true, decide_eq_true_eq] at hrevocable
  exact ⟨hrevocable.1.1, hrevocable.1.2, Option.some_ne_none _⟩

omit [Libraries] in
lemma writeAuditLog_leaves [PyText] {actorType : ActorType} {actorId : Id}
    {action resourceType : String} {resourceId : Id} {before after : List (String × Json)}
    {reason : String} {ipAddress : Option String} {requestId : Option Id} {e : AuditLogEntry}
    (h : (writeAuditLog actorType actorId action resourceType resourceId before after reason
      ipAddress requestId).run w = .ok (e, w')) :
    (e ∈ w'.db.auditLog.rows ∧ e ∉ w.db.auditLog.rows) ∧
      (e.actorType = actorType ∧ e.actorId = actorId ∧ e.action = action) ∧
        e.resourceId = resourceId ∧ e.after = .obj (redact after) := by
  obtain ⟨entries, hinsert, -⟩ := Objects.create_ok h
  obtain ⟨rfl, happend, -⟩ := Table.insert_spec hinsert
  exact ⟨⟨Objects.mem_of_create_ok h, entries.not_mem_of_append happend⟩, ⟨rfl, rfl, rfl⟩, rfl, rfl⟩

end Leaves

/-! ## Verification tokens -/

/-- A consumer runs its effect on behalf of the token that the request presents. -/
lemma consumeToken_keeps {purpose : Purpose} {policy : VerificationToken → WorldPolicy}
    {effect : VerificationToken → Customer → Statement Customer} {rawToken : RawToken}
    (hraw : presentedToken request.data purpose = some rawToken)
    (heffect : ∀ token customer, customer.id = token.customerId →
      (effect token customer).Guarantees (consumerPolicy policy token).Allows) :
    (consumeToken purpose effect rawToken).Earns
      (fun found => (byToken request found purpose policy).Allows) (fun _ _ => True) found := by
  refine consumeToken_earns hraw fun token customer found' howner hpresents => ?_
  refine Program.Guarantees.earns (WorldPolicy.guarantees_union (.mk token hpresents) ?_)
  exact Program.guarantees_exec (consumeBlock_allows (heffect token customer howner.1))

lemma verifyEmailView_keeps : Endpoint.verifyEmail.KeepsTo request := by
  refine Program.Earns.bind_return (Program.earns_ofExcept_bind fun text htext => ?_)
  refine Program.Earns.bind_return (consumeToken_keeps ?_ fun token customer howner => ?_)
  · simp only [presentedToken, htext, Except.toOption, Option.map_some]
  · refine verifyEmailNow_allows fun c c' h => ?_
    rw [howner] at h
    exact h

lemma confirmPasswordResetView_keeps : Endpoint.confirmPasswordReset.KeepsTo request := by
  refine Program.Earns.bind_return (Program.earns_ofExcept_bind fun fields hfields => ?_)
  refine Program.Earns.bind_return (consumeToken_keeps ?_ fun token customer howner => ?_)
  · simp only [presentedToken, hfields, Except.toOption, Option.map_some]
  · rw [resetPassword, howner]
    refine Tx.Guarantees.bind (Tx.Guarantees.handling (allows_getSave fun m hm => ?_) _ ?_) fun _ =>
      Tx.guarantees_pure _
    · simp only [loginMethodOf, Bool.and_eq_true, decide_eq_true_eq] at hm
      have hrehashes : m.customerId = token.customerId ∧ ∃ text password,
          confirmPasswordResetSerializer request.data = .ok (text, password) ∧
            m.Rehashes password { m with passwordHash := some (makePassword fields.2) } :=
        ⟨hm.1, fields.1, fields.2, hfields, rfl⟩
      exact hrehashes
    · exact (allows_create fun _ => And.intro rfl rfl).bind fun _ => Tx.guarantees_pure _

lemma confirmEmailChangeView_keeps : Endpoint.confirmEmailChange.KeepsTo request := by
  refine Program.Earns.bind_return (Program.earns_ofExcept_bind fun text htext => ?_)
  refine Program.Earns.bind_return (consumeToken_keeps ?_ fun token customer howner => ?_)
  · simp only [presentedToken, htext, Except.toOption, Option.map_some]
  · refine allows_timezoneNow.bind fun now => ?_
    refine Tx.Guarantees.bind ?_ fun _ => Tx.guarantees_pure _
    refine (allows_saveChecked fun c hc => ?_).handling _ (Tx.guarantees_raise _)
    have hreaddresses : c.id = token.customerId ∧ c.Readdresses token.newEmail
        (setEmail token.newEmail now c) := ⟨hc.trans howner, now, rfl⟩
    exact hreaddresses

/-! ## Accounts -/

/-- The block adds a customer whose id is the next one, and what belongs to the customer. -/
lemma registerBlock_allows {email password : String} {w : World} (hw : w ∈ found)
    {r : Customer × RawToken} {w' : World}
    (h : (registerBlock email password).run w = .ok (r, w')) :
    Endpoint.register.Permits request found w w' := by
  have hnew : ∀ c : Customer, c.IsNew ∧ c.emailVerifiedAt = none →
      (Endpoint.register.policy request found .customers).add c := fun _ h => h
  have hcreate : (Objects.create fun id =>
      ({ id := id, email := normalizeEmail email } : Customer) : Statement Customer).Guarantees
        (Endpoint.register.Permits request found) :=
    allows_create fun _ => hnew _ ⟨⟨rfl, rfl, rfl⟩, rfl⟩
  obtain ⟨customer, w₁, hcustomer, hrest⟩ := Tx.bind_ok h
  refine trans_of (Endpoint.register.Permits request found) (hcreate w customer w₁ hcustomer) ?_
  have hfresh : NewCustomer found customer.id := by
    obtain ⟨t, hinsert, -⟩ := Objects.create_ok hcustomer
    rw [(Table.insert_spec hinsert).1]
    exact ⟨w, hw, rfl⟩
  have hlinked : (do
      let _ ← Objects.create fun id => ({
        id := id
        customerId := customer.id
        provider := .password
        passwordHash := some (makePassword password) } : LoginMethod)
      let token ← generateToken
      let _ ← createVerificationToken customer.id .emailVerification token.2 ""
        emailVerificationTokenTtl
      return (customer, token.1) : Statement (Customer × RawToken)).Guarantees
        (Endpoint.register.Permits request found) := by
    refine (allows_create fun _ => And.intro rfl hfresh).bind fun _ => ?_
    refine generateToken_allows.bind fun _ => ?_
    refine (createVerificationToken_allows fun t ht => ?_).bind fun _ => Tx.guarantees_pure _
    have htoken : t.purpose = .emailVerification ∧ t.consumedAt = none ∧
        NewCustomer found t.customerId := by
      rw [ht.2.2]
      exact ⟨ht.1, ht.2.1, hfresh⟩
    exact htoken
  exact hlinked w₁ r w' hrest

lemma registerView_keeps : Endpoint.register.KeepsTo request := by
  refine Program.Earns.bind_return (Program.Earns.bind (Program.Guarantees.earns ?_)
    fun fields found' _ _ => Program.Earns.bind_return ?_)
  · refine Program.guarantees_ofExcept_bind fun _ _ => Program.Guarantees.bind ?_ fun _ => ?_
    · unfold registerEmail
      split
      · exact Program.guarantees_exec ((Tx.guarantees_read _).bind fun _ => Tx.guarantees_pure _)
      · trivial
    · trivial
  · have hblock : (Program.exec (registerBlock fields.1 fields.2) : Service _).Earns
        (Endpoint.register.Permits request) (fun r found'' =>
          (Endpoint.register.policy request found'').mails ⟨r.1.email, r.2⟩) found' := by
      refine Program.earns_exec fun w r w' h =>
        ⟨registerBlock_allows (Set.mem_insert w found') h, ?_⟩
      obtain ⟨hnext, hstored, t, ht, hhash, htoken⟩ := registerBlock_leaves h
      exact ⟨r.1.id, ⟨w, Program.before_mem_learn, hnext⟩,
        ⟨w', Program.after_mem_learn, r.1, hstored, rfl, rfl⟩,
        w', Program.after_mem_learn, t, ht, hhash, htoken⟩
    refine hblock.bind fun r found'' _ hmail => Program.Guarantees.earns ?_
    exact (Program.guarantees_exec (allows_sendMail hmail)).bind fun _ => trivial

lemma loginView_keeps : Endpoint.login.KeepsTo request := by
  refine Program.Earns.bind_return (Program.earns_ofExcept_bind fun fields hfields => ?_)
  refine Program.Earns.bind_return (loginCustomer_earns fun c found' haddress hpassword => ?_)
  have hearned : ∃ email password, loginSerializer request.data = .ok (email, password) ∧
      AddressOf found' email c.id ∧ PasswordOf found' password c.id :=
    ⟨fields.1, fields.2, hfields, haddress, hpassword⟩
  have hissue : (issueSession c.id).Guarantees (sessionPolicy c.id).Allows :=
    issueSession_allows fun _ hs => hs
  exact Program.Guarantees.earns (WorldPolicy.guarantees_union (.mk c.id hearned) hissue)

section Google

variable {clientId : String} {tokeninfo : String → TokeninfoReply} {profile : GoogleProfile}

/-- The block creates a customer with the address of the account, or verifies the one who has it,
and links the account. -/
lemma googleBlock_permits (haccount : GoogleAccount request clientId tokeninfo profile) {w : World}
    (hw : w ∈ found) {customer : Customer} {w' : World}
    (h : (googleBlock profile).run w = .ok (customer, w')) :
    (Endpoint.googleLogin clientId tokeninfo).Permits request found w w' := by
  have hresolves : GoogleResolves found profile customer.id := ⟨w, hw, customer, w', h, rfl⟩
  suffices hallows : (googlePolicy found profile).Allows w w' from
    WorldPolicy.allows_union (.mk profile haccount) hallows
  obtain hknown | ⟨-, hlink⟩ := Tx.handling_ok h
  · have hget : (getGoogleCustomer profile.subjectId).Guarantees
        (googlePolicy found profile).Allows :=
      (Objects.guarantees_get _).bind fun _ => Objects.guarantees_get _
    exact hget w customer w' hknown
  · obtain ⟨⟨c₀, created⟩, w₁, hget, hrest⟩ := Tx.bind_ok hlink
    obtain ⟨u, w₂, hrequire, hrest⟩ := Tx.bind_ok hrest
    obtain ⟨c₁, w₃, hverify, hrest⟩ := Tx.bind_ok hrest
    obtain ⟨method, w₄, hcreate, hpure⟩ := Tx.bind_ok hrest
    cases hpure
    obtain ⟨rfl, -⟩ := Tx.require_ok hrequire
    have hfirst : (getOrCreateCustomer profile.email profile.emailVerified).Guarantees
        (googlePolicy found profile).Allows := by
      refine Tx.Guarantees.handling ?_ _ ?_
      · exact (Objects.guarantees_get _).bind fun _ => Tx.guarantees_pure _
      · refine allows_timezoneNow.bind fun _ => Tx.Guarantees.bind ?_ fun _ => Tx.guarantees_pure _
        exact allows_create fun _ => And.intro ⟨rfl, rfl, rfl⟩ rfl
    have hsecond : (verifyLinkedEmail c₀ created profile.emailVerified).Guarantees
        (googlePolicy found profile).Allows := by
      unfold verifyLinkedEmail
      split
      · rename_i hcond
        simp only [Bool.and_eq_true] at hcond
        have hid := (verifyLinkedEmail_ok hverify).1
        refine verifyEmailNow_allows fun c c' hc => ?_
        have hverifies : GoogleResolves found profile c.id ∧ profile.emailVerified = true ∧
            c.Verifies c' := by
          rw [hc.1, ← hid]
          exact ⟨hresolves, hcond.1.2, hc.2⟩
        exact hverifies
      · exact Tx.guarantees_pure _
    have hthird : (createGoogleMethod customer.id profile.subjectId).Guarantees
        (googlePolicy found profile).Allows :=
      allows_create fun _ => And.intro rfl ⟨rfl, hresolves⟩
    exact trans_of (googlePolicy found profile).Allows (hfirst w _ w₂ hget)
      (trans_of (googlePolicy found profile).Allows (hsecond w₂ _ w₃ hverify)
        (hthird w₃ _ w' hcreate))

lemma googleLoginView_keeps (clientId : String) (tokeninfo : String → TokeninfoReply) :
    (Endpoint.googleLogin clientId tokeninfo).KeepsTo request := by
  refine Program.Earns.bind_return (Program.earns_ofExcept_bind fun idToken hidToken => ?_)
  refine Program.Earns.bind_return (loginWithGoogle_earns ?_ ?_)
  · intro profile w customer w' hprofile hrun
    exact googleBlock_permits ⟨idToken, hidToken, hprofile⟩ (Set.mem_insert w ∅) hrun
  · intro profile customer found' hprofile hresolves
    refine Program.Guarantees.earns (WorldPolicy.guarantees_union
      (.mk profile ⟨idToken, hidToken, hprofile⟩) (issueSession_allows fun s hs => ?_))
    rw [← hs.1] at hresolves
    exact And.intro hresolves hs.2

end Google

lemma refreshTokenView_keeps : Endpoint.refreshToken.KeepsTo request := by
  refine Program.Earns.bind_return (Program.earns_ofExcept_bind fun text htext => ?_)
  refine Program.Earns.bind_return (rotateRefreshToken_earns htext fun session found' h => ?_)
  have hrevokes : ∀ s s', s.id = session.id ∧ s.Revokes s' →
      (rotationPolicy session .sessions).change s s' := fun _ _ h => h
  have hsave : (saveRevokedAt session).Guarantees (rotationPolicy session).Allows :=
    allows_timezoneNow.bind fun now => allows_save fun s hs => hrevokes s _ ⟨hs, now, rfl⟩
  have hissue : (issueSession session.customerId).Guarantees (rotationPolicy session).Allows :=
    issueSession_allows fun _ hs => hs
  exact Program.Guarantees.earns (WorldPolicy.guarantees_union (.mk session h)
    ((Program.guarantees_exec hsave).bind fun _ => hissue))

/-! ## Signed-in customers -/

omit [Libraries] in
/-- A view that reads only. -/
lemma reads_keeps {Ok : Set World → World → World → Prop} {handler : Actor → Service Answer}
    (h : ∀ user found, (handler user).Guarantees (Ok found)) [∀ found, Std.Refl (Ok found)] :
    (ifAuthenticated request handler).Earns Ok (fun _ _ => True) found :=
  ifAuthenticated_earns (fun _ => trivial) fun user found' _ => (h user found').earns

omit [Libraries] in
lemma ifAnyone_earns {Ok : Set World → World → World → Prop} [∀ found, Std.Refl (Ok found)]
    {handler : Service Response} (h : ∀ found, handler.Guarantees (Ok found)) :
    (ifAnyone request handler).Earns Ok (fun _ _ => True) found :=
  authenticate_earns.bind fun _ found' _ _ => Program.Guarantees.earns (h found').bind_return

lemma updateLocalePreferenceView_keeps : Endpoint.updateLocalePreference.KeepsTo request := by
  refine ifAuthenticated_earns (fun _ => trivial) fun user found hsigned =>
    Program.Earns.bind_return ?_
  cases user with
  | customer customer =>
      refine Program.earns_ofExcept_bind fun fields hfields => Program.Earns.bind_return ?_
      refine (validateLocaleAndCurrency_earns fields.1 fields.2).bind fun _ found' hsub hoffered =>
        Program.Guarantees.earns ?_
      have hsave : (savePreference customer.id fields.1 fields.2).Guarantees
          (Endpoint.updateLocalePreference.Permits request found') := by
        refine allows_saveChecked fun c hc => ?_
        exact Exists.intro (.mk customer (hsigned.mono hsub)) (And.intro hc ⟨fields.1, fields.2,
          hfields, hoffered, rfl⟩)
      exact (Program.guarantees_exec hsave).bind fun _ => trivial
  | staff staff =>
      exact Program.earns_ofExcept_bind fun fields _ =>
        (validateLocaleAndCurrency_earns fields.1 fields.2).bind fun _ _ _ _ => trivial

lemma meView_keeps : Endpoint.me.KeepsTo request := by
  refine reads_keeps fun user found => Program.Guarantees.bind_return ?_
  cases user <;> trivial

lemma sessionListView_keeps : Endpoint.sessionList.KeepsTo request := by
  refine reads_keeps fun user found => Program.Guarantees.bind_return ?_
  cases user with
  | customer customer =>
      have hactive : ∀ sessions, (activeSessions sessions).Guarantees
          (Endpoint.sessionList.Permits request found) := fun sessions =>
        allows_timezoneNow.bind fun _ => Tx.guarantees_pure _
      refine (Program.guarantees_exec (Tx.guarantees_read _)).bind fun sessions => ?_
      exact (Program.guarantees_exec (hactive sessions)).bind fun _ => trivial
  | staff staff => trivial

lemma sessionRevokeView_keeps (sessionId : Id) :
    (Endpoint.sessionRevoke sessionId).KeepsTo request := by
  refine ifAuthenticated_earns (fun _ => trivial) fun user found hsigned =>
    Program.Earns.bind_return ?_
  cases user with
  | customer customer =>
      have hrevoke : (revokeOwn customer.id sessionId).Guarantees
          ((Endpoint.sessionRevoke sessionId).Permits request found) := by
        refine allows_timezoneNow.bind fun now => allows_update fun s hs => ?_
        simp only [revocable, Bool.and_eq_true, decide_eq_true_eq] at hs
        exact Exists.intro (.mk customer hsigned) (And.intro hs.1.1 ⟨hs.1.2, now, rfl⟩)
      refine Program.Earns.bind_return ?_
      have hrevoked : (Program.exec (revokeOwn customer.id sessionId) : Service ℕ).Earns
          ((Endpoint.sessionRevoke sessionId).Permits request) (fun updated found' =>
            updated ≠ 0 → ∃ w ∈ found', ∃ s ∈ w.db.sessions.rows, s.id = sessionId ∧
              s.customerId = customer.id ∧ s.revokedAt ≠ none) found :=
        Program.earns_exec_of_guarantees hrevoke fun w updated w' hrun hupdated =>
          ⟨w', Program.after_mem_learn, revokeOwn_leaves hrun hupdated⟩
      refine hrevoked.bind fun updated found' hsub hreports => ?_
      refine Program.earns_require_bind fun hupdated => Program.Guarantees.earns ?_
      refine (Program.guarantees_exec (writeAuditLog_allows fun e he => ?_)).bind fun _ => trivial
      obtain ⟨hentry, hresource, -⟩ := he
      exact Exists.intro (.mk customer (hsigned.mono hsub)) (And.intro hentry
        ⟨hresource, hreports (of_decide_eq_true hupdated)⟩)
  | staff staff => exact Program.earns_raise _

lemma sessionRevokeAllView_keeps : Endpoint.sessionRevokeAll.KeepsTo request := by
  refine ifAuthenticated_earns (fun _ => trivial) fun user found hsigned =>
    Program.Earns.bind_return ?_
  cases user with
  | customer customer =>
      refine Program.Guarantees.earns ((revokeAllSessions_allows fun s s' hs => ?_).bind fun _ =>
        trivial)
      exact Exists.intro (.mk customer hsigned) hs
  | staff staff => exact Program.earns_raise _

omit [Libraries] in
/-- The token that is issued was stored, with its digest. -/
lemma issueVerificationToken_earns {policy : Set World → WorldPolicy} {customerId : Id}
    {purpose : Purpose} {newEmail : String} {ttl : Time} (h : ∀ found', found ⊆ found' →
      ∀ t : VerificationToken, t.purpose = purpose ∧ t.consumedAt = none ∧
        t.customerId = customerId → (policy found' .verificationTokens).add t) :
    (issueVerificationToken customerId purpose newEmail ttl).Earns
      (fun found' => (policy found').Allows) (fun rawToken found' => ∀ recipient,
        Carries found' (fun t => t.purpose = purpose ∧ t.customerId = customerId ∧
          t.newEmail = newEmail) ⟨recipient, rawToken⟩) found := by
  have hgenerate : (Program.exec generateToken : Service (RawToken × Sha256 RawToken)).Earns
      (fun found' => (policy found').Allows) (fun r _ => r.2 = sha256 r.1) found :=
    Program.earns_exec_of_guarantees generateToken_allows fun w r w' hrun => by
      cases hrun
      rfl
  refine hgenerate.bind fun r found' hsub hdigest => ?_
  refine Program.Earns.bind_return (Program.earns_exec_of_guarantees
    (createVerificationToken_allows (h found' hsub)) fun w t w' hrun recipient => ?_)
  obtain ⟨hmem, hhash, htoken⟩ := createVerificationToken_leaves hrun
  exact ⟨w', Program.after_mem_learn, t, hmem, hhash.trans hdigest, htoken⟩

lemma requestPasswordResetView_keeps : Endpoint.requestPasswordReset.KeepsTo request := by
  refine Program.Earns.bind_return (Program.earns_ofExcept_bind fun email hemail => ?_)
  refine Program.Earns.bind_return ?_
  have hfind : (Program.exec (findActiveCustomer (normalizeEmail email)) : Service _).Earns
      (Endpoint.requestPasswordReset.Permits request)
      (fun customer found => ∀ c, customer = some c →
        AddressOf found email c.id ∧ HasAddress found c.id c.email) ∅ := by
    refine Program.earns_exec fun w customer w' h => ?_
    obtain hget | ⟨-, hnone⟩ := Tx.handling_ok h
    · obtain ⟨c, w₁, hrow, hpure⟩ := Tx.bind_ok hget
      cases hpure
      obtain ⟨rfl, hrow⟩ := Objects.get_ok hrow
      refine ⟨refl_of _ w', fun c' hc' => ?_⟩
      cases hc'
      have hmem := Table.mem_of_get hrow
      exact ⟨⟨w', Program.before_mem_learn, c, hmem, Table.holds_of_get hrow, rfl⟩,
        w', Program.before_mem_learn, c, hmem, rfl, rfl⟩
    · cases hnone
      exact ⟨refl_of _ w, fun c hc => by cases hc⟩
  refine hfind.bind fun customer found _ haddress => ?_
  cases customer with
  | none => exact Program.earns_pure trivial
  | some customer =>
      obtain ⟨haddress, hrecipient⟩ := haddress customer rfl
      have hissue := @issueVerificationToken_earns found (Endpoint.requestPasswordReset.policy
        request) customer.id .passwordReset "" passwordResetTokenTtl fun found' hsub t ht => by
          refine And.intro ht.1 ⟨ht.2.1, email, hemail, ?_⟩
          rw [ht.2.2]
          exact haddress.mono hsub
      refine hissue.bind fun rawToken found' hsub hcarries => Program.Guarantees.earns ?_
      refine Program.guarantees_exec (allows_sendMail ?_)
      exact ⟨email, customer.id, hemail, haddress.mono hsub, hrecipient.mono hsub,
        (hcarries _).imp fun _ ht => ⟨ht.1, ht.2.1⟩⟩

lemma requestEmailChangeView_keeps : Endpoint.requestEmailChange.KeepsTo request := by
  refine ifAuthenticated_earns (fun _ => trivial) fun user found hsigned =>
    Program.Earns.bind_return ?_
  cases user with
  | customer customer =>
      refine Program.earns_ofExcept_bind fun newEmail hemail => Program.Earns.bind_return ?_
      have hreads : (Program.exec (emailTakenByOther (normalizeEmail newEmail) customer.id) :
          Service Bool).Guarantees (Endpoint.requestEmailChange.Permits request found) :=
        Program.guarantees_exec (Tx.guarantees_read _)
      refine (Program.Guarantees.earns hreads).bind fun taken found₁ hsub₁ _ => ?_
      refine Program.earns_require_bind fun _ => ?_
      have hissue := @issueVerificationToken_earns found₁ (Endpoint.requestEmailChange.policy
        request) customer.id .emailChange (normalizeEmail newEmail) emailChangeTokenTtl
          fun found' hsub t ht => Exists.intro (.mk customer (hsigned.mono (hsub₁.trans hsub))) ht
      refine hissue.bind fun rawToken found₂ hsub₂ hcarries => Program.Guarantees.earns ?_
      refine Program.guarantees_exec (allows_sendMail ?_)
      exact ⟨.mk customer (hsigned.mono (hsub₁.trans hsub₂)), newEmail, hemail, rfl, hcarries _⟩
  | staff staff =>
      refine Program.earns_ofExcept_bind fun _ _ => Program.Guarantees.earns ?_
      refine (Program.guarantees_exec (Tx.guarantees_read _)).bind fun _ => ?_
      refine (Program.guarantees_require _ _).bind fun _ => ?_
      exact (Program.guarantees_exec generateToken_allows).bind fun _ => trivial

/-! ## Staff -/

lemma staffLoginView_keeps : Endpoint.staffLogin.KeepsTo request := by
  have hstaff : ∀ email, (getActiveStaff email).Guarantees
      (Endpoint.staffLogin.Permits request ∅) :=
    fun email => (Objects.guarantees_get _).handling _ (Tx.guarantees_raise _)
  have hmint : ∀ staffId, (mintStaffToken staffId).Guarantees
      (Endpoint.staffLogin.Permits request ∅) := by
    intro staffId
    refine Tx.Guarantees.bind ?_ fun _ => Tx.guarantees_pure _
    exact allows_drawRandom.bind fun _ => allows_timezoneNow.bind fun _ => Tx.guarantees_pure _
  refine Program.Guarantees.earns (Program.Guarantees.bind_return ?_)
  refine Program.guarantees_ofExcept_bind fun _ _ => Program.Guarantees.bind ?_ fun _ => trivial
  refine (Program.guarantees_exec (hstaff _)).bind fun staff => ?_
  refine (Program.guarantees_require _ _).bind fun _ => ?_
  exact (Program.guarantees_exec (hmint _)).bind fun _ => trivial

section Sensitive

variable {action : String} {reports : Set World → AuditLogEntry → Prop} {effect : WorldPolicy}
  {staff : Staff}

/-- What a sensitive endpoint may do. -/
abbrev sensitiveOk (request : HttpRequest) (action : String)
    (reports : Set World → AuditLogEntry → Prop) (effect : WorldPolicy) :
    Set World → World → World → Prop := fun found =>
  (sensitivePolicy request found action (reports found) effect).Allows

omit [Libraries] in
/-- Somebody authorized writes what an audited action may. -/
lemma guarantees_audited {α : Type} {x : Statement α}
    (hauthorized : AuthorizedTo request found action staff)
    (hx : x.Guarantees (auditedPolicy request found action (reports found) effect staff).Allows) :
    x.Guarantees (sensitiveOk request action reports effect found) := fun w a w' hrun =>
  WorldPolicy.allows_union (.mk staff hauthorized) (hx w a w' hrun)

omit [Libraries] in
/-- The look at the record of the request's key deletes one of its own scope that has expired. -/
lemma replayIfCached_keeps {key : String} (hauthorized : AuthorizedTo request found action staff)
    (hkey : requireIdempotencyKey (request.ofStaff staff) = .ok key) :
    (replayIfCached (request.ofStaff staff) action key).Earns
      (sensitiveOk request action reports effect) (fun _ _ => True) found := by
  refine Program.Earns.bind_return ((findRecord_earns _).bind fun record found₁ hsub hrecord => ?_)
  cases record with
  | none => exact Program.earns_pure trivial
  | some record =>
      obtain ⟨hscope, w, hw, hstored⟩ := hrecord record rfl
      have hclock : (Program.exec timezoneNow : Service Time).Earns
          (sensitiveOk request action reports effect)
            (fun now found₂ => ∃ w' ∈ found₂, w'.now = now) found₁ := by
        refine Program.earns_exec fun w' now w'' hrun => ?_
        cases hrun
        exact ⟨refl_of _ _, w', Program.before_mem_learn, rfl⟩
      refine hclock.bind fun now found₂ hsub' ⟨w', hw', hnow⟩ => ?_
      split
      case isTrue hexpired =>
        have hdelete : (deleteRecord record).Guarantees
            (auditedPolicy request found₂ action (reports found₂) effect staff).Allows := by
          refine allows_delete fun r hr => ?_
          refine ⟨w, hsub' hw, record, hstored, (of_decide_eq_true hr).symm, ?_, w', hw', ?_⟩
          · exact ⟨key, hkey, hscope⟩
          · rwa [hnow]
        have hagain := hauthorized.mono (hsub.trans hsub')
        exact Program.Guarantees.earns ((Program.guarantees_exec
          (guarantees_audited hagain hdelete)).bind fun _ => trivial)
      case isFalse =>
        exact Program.earns_require_bind fun _ => Program.earns_pure trivial

omit [Libraries] in
/-- A sensitive endpoint writes its effect and, when that has been added to the log, the records of
its responses. -/
lemma sensitiveView_keeps [PyText] {run : StaffInstance → Request → Service Response}
    {post : Response → Set World → Prop} (hsigned : SignedIn request found (.staff staff))
    (h : ∀ actor found', actor.staff = staff → AuthorizedTo request found' action staff →
      (run actor (request.ofStaff staff)).Earns (sensitiveOk request action reports effect)
        (fun response found'' => post response found'' ∧
          Entered found'' .staff staff.id action (reports found'')) found') :
    (sensitiveView action run (request.ofStaff staff)).Earns
      (sensitiveOk request action reports effect) (fun _ _ => True) found := by
  refine sensitiveView_earns hsigned fun actor key found' hactor hauthorized hkey => ?_
  refine (replayIfCached_keeps hauthorized hkey).bind fun cached found'' hsub _ => ?_
  cases cached with
  | some response => exact Program.earns_pure trivial
  | none =>
      have hagain := hauthorized.mono hsub
      refine (h actor found'' hactor hagain).bind fun response found₃ hsub' ⟨_, hlogged⟩ => ?_
      have hstore : (rememberResponse (request.ofStaff staff) action key response).Guarantees
          (auditedPolicy request found₃ action (reports found₃) effect staff).Allows :=
        allows_timezoneNow.bind fun _ => allows_create fun _ =>
          And.intro ⟨key, hkey, rfl⟩ (And.intro rfl hlogged)
      refine Program.Guarantees.earns ?_
      exact (Program.guarantees_exec (guarantees_audited (hagain.mono hsub') hstore)).bind
        fun _ => trivial

omit [Libraries] in
/-- An audit entry reports what was found, and is added to the log. -/
lemma writeAuditLog_earns [PyText] {actor : StaffInstance} {resourceType : String}
    {resourceId : Id} {before after : List (String × Json)} {reason : String}
    {ipAddress : Option String} {requestId : Option Id}
    (hauthorized : AuthorizedTo request found action staff) (hactor : actor.staff = staff)
    (h : ∀ found', found ⊆ found' → ∀ e : AuditLogEntry, e.resourceId = resourceId →
      e.after = .obj (redact after) → reports found' e) :
    (Program.exec (writeAuditLog .staff actor.staff.id action resourceType resourceId before after
      reason ipAddress requestId) : Service AuditLogEntry).Earns
        (sensitiveOk request action reports effect)
          (fun _ found' => Entered found' .staff staff.id action (reports found')) found := by
  rw [hactor]
  refine Program.earns_exec_of_guarantees (guarantees_audited hauthorized
    (writeAuditLog_allows fun e he => ?_)) fun w e w' hrun => ?_
  · obtain ⟨hentry, hresource, hafter⟩ := he
    exact And.intro hentry (h found subset_rfl e hresource hafter)
  · obtain ⟨⟨hmem, hnew⟩, hentry, hresource, hafter⟩ := writeAuditLog_leaves hrun
    exact ⟨w, Program.before_mem_learn, w', Program.after_mem_learn, e, hmem, hnew, hentry,
      h _ Program.subset_learn e hresource hafter⟩

end Sensitive

/-- What the effect of an audited endpoint responds, when an entry of it is added to the log. -/
abbrev RespondsLogged (staff : Staff) (action : String)
    (reports : Set World → AuditLogEntry → Prop) (responds : Response → Prop)
    (response : Response) (found : Set World) : Prop :=
  responds response ∧ Entered found .staff staff.id action (reports found)

lemma createStaffEffect_earns {staff : Staff} {actor : StaffInstance} (hactor : actor.staff = staff)
    (h₁ : AuthorizedTo request found "accounts.create_staff" staff) :
    (createStaffEffect actor (request.ofStaff staff)).Earns (Endpoint.createStaff.Permits request)
      (RespondsLogged staff "accounts.create_staff" (fun found => ReportsCreated found)
        fun response => ∃ created : Staff, response = {
          status := 201
          data := some (successEnvelope (staffRepresentation created) request.context) })
      found := by
  refine Program.earns_ofExcept_bind fun fields hfields => Program.Earns.bind_return ?_
  refine Program.earns_require_bind fun _ => ?_
  refine (requireConfirmedMfa_staff actor).bind fun _ found₂ hsub₂ _ => ?_
  have h₂ := h₁.mono hsub₂
  have hinsert : (insertStaff fields.1 fields.2.1 fields.2.2).Guarantees
      (Endpoint.createStaff.Permits request found₂) := by
    refine allows_create fun id => ?_
    exact Exists.intro (.mk staff h₂) (Exists.intro fields.1 ⟨fields.2.1, fields.2.2, hfields, rfl⟩)
  have hstored : (Program.exec (insertStaff fields.1 fields.2.1 fields.2.2) :
      Service Staff).Earns (Endpoint.createStaff.Permits request)
        (fun created found' => ∃ w ∈ found', created ∈ w.db.staff.rows) found₂ :=
    Program.earns_exec_of_guarantees hinsert fun w created w' hrun =>
      ⟨w', Program.after_mem_learn, insertStaff_leaves hrun⟩
  refine hstored.bind fun created found₃ hsub₃ ⟨w, hw, hcreated⟩ => Program.Earns.bind_return ?_
  refine (writeAuditLog_earns (h₂.mono hsub₃) hactor fun found' hsub e he hafter => ?_).imp
    fun _ _ _ hlogged => ⟨⟨created, rfl⟩, hlogged⟩
  exact ⟨w, hsub hw, created, hcreated, he.symm, hafter⟩

lemma createStaffView_keeps : Endpoint.createStaff.KeepsTo request := by
  refine ifStaff_earns (fun _ => trivial) fun staff found hsigned => Program.Earns.bind_return ?_
  exact sensitiveView_keeps hsigned fun actor found₁ hactor h₁ => createStaffEffect_earns hactor h₁

lemma resetStaffMfaEffect_earns {staffId : Id} {staff : Staff} {actor : StaffInstance}
    (hactor : actor.staff = staff)
    (h₁ : AuthorizedTo request found "accounts.reset_staff_mfa" staff) :
    (resetStaffMfaEffect staffId actor (request.ofStaff staff)).Earns
      ((Endpoint.resetStaffMfa staffId).Permits request)
      (RespondsLogged staff "accounts.reset_staff_mfa" (fun found => ReportsReset found staffId)
        fun response => response = { status := 204 }) found := by
  have hget : (Program.exec (getStaff staffId) : Service Staff).Earns
      ((Endpoint.resetStaffMfa staffId).Permits request) (fun target _ => target.id = staffId)
        found := by
    refine Program.earns_exec fun w target w' hrun => ?_
    obtain ⟨rfl, hrow⟩ := Objects.get_ok hrun
    have hholds := Table.holds_of_get hrow
    exact ⟨refl_of _ w', of_decide_eq_true hholds⟩
  refine hget.bind fun target found₂ hsub₂ htarget => Program.Earns.bind_return ?_
  refine Program.earns_require_bind fun _ => ?_
  refine (requireConfirmedMfa_staff actor).bind fun actor' found₃ hsub₃ hactor' => ?_
  refine (hasConfirmedMfa_staff _).bind fun had found₄ hsub₄ hhad => ?_
  have hid : had.2.staff.id = staffId := (congrArg Staff.id hhad).trans htarget
  have h₄ := h₁.mono (hsub₂.trans (hsub₃.trans hsub₄))
  have hdelete : (deleteTotpDevices had.2.staff.id).Guarantees
      ((Endpoint.resetStaffMfa staffId).Permits request found₄) := by
    refine allows_delete fun d hd => ?_
    have hstaff : d.staffId = staffId := (of_decide_eq_true hd).trans hid
    exact Exists.intro (.mk staff h₄) hstaff
  have hreset : (Program.exec (deleteTotpDevices had.2.staff.id) : Service Unit).Earns
      ((Endpoint.resetStaffMfa staffId).Permits request) (fun _ found' => ∃ w ∈ found',
        ∀ d ∈ w.db.staffTotpDevices.rows, d.staffId ≠ had.2.staff.id) found₄ :=
    Program.earns_exec_of_guarantees hdelete fun w u w' hrun =>
      ⟨w', Program.after_mem_learn, deleteTotpDevices_leaves hrun⟩
  refine hreset.bind fun _ found₅ hsub₅ hreports => ?_
  rw [hid] at hreports
  obtain ⟨w, hw, hreset⟩ := hreports
  refine Program.Earns.bind_return ((writeAuditLog_earns (h₄.mono hsub₅) (hactor'.trans hactor)
    fun found' hsub e he _ => ?_).imp fun _ _ _ hlogged => ⟨rfl, hlogged⟩)
  exact ⟨he.trans hid, w, hsub hw, hreset⟩

lemma resetStaffMfaView_keeps (staffId : Id) :
    (Endpoint.resetStaffMfa staffId).KeepsTo request := by
  refine ifStaff_earns (fun _ => trivial) fun staff found hsigned => Program.Earns.bind_return ?_
  exact sensitiveView_keeps hsigned fun actor found₁ hactor h₁ =>
    resetStaffMfaEffect_earns hactor h₁

lemma disableCustomerEffect_earns {customerId : Id} {staff : Staff} {actor : StaffInstance}
    (hactor : actor.staff = staff)
    (h₁ : AuthorizedTo request found "accounts.disable_customer" staff) :
    (disableCustomerEffect customerId actor (request.ofStaff staff)).Earns
      ((Endpoint.disableCustomer customerId).Permits request)
      (RespondsLogged staff "accounts.disable_customer"
        (fun found => ReportsDisabled found customerId) fun response =>
          response = { status := 204 }) found := by
  refine Program.earns_ofExcept_bind fun reason _ => Program.Earns.bind_return ?_
  refine Program.earns_require_bind fun _ => ?_
  refine (hasConfirmedMfa_staff actor).bind fun r found₂ hsub₂ hactor' => ?_
  refine Program.earns_require_bind fun _ => Program.earns_require_bind fun _ => ?_
  have h₂ := h₁.mono hsub₂
  have hget : (Program.exec (getCustomer customerId) : Service Customer).Earns
      ((Endpoint.disableCustomer customerId).Permits request) (fun c _ => c.id = customerId)
        found₂ := by
    refine Program.earns_exec fun w c w' hrun => ?_
    obtain ⟨rfl, -, hid⟩ := getCustomer_ok hrun
    exact ⟨refl_of _ w', hid⟩
  refine hget.bind fun c found₃ hsub₃ hid => ?_
  have h₃ := h₂.mono hsub₃
  have hsave : (saveInactive c.id).Guarantees
      ((Endpoint.disableCustomer customerId).Permits request found₃) := by
    refine allows_save fun c' hc' => ?_
    exact Exists.intro (.mk staff h₃) (And.intro (hc'.trans hid) rfl)
  have hdisables : (Program.exec (saveInactive c.id) : Service Unit).Earns
      ((Endpoint.disableCustomer customerId).Permits request) (fun _ found' => ∃ w ∈ found',
        ∃ c' ∈ w.db.customers.rows, c'.id = c.id ∧ c'.isActive = false) found₃ :=
    Program.earns_exec_of_guarantees hsave fun w u w' hrun =>
      ⟨w', Program.after_mem_learn, saveInactive_leaves hrun⟩
  refine hdisables.bind fun _ found₄ hsub₄ hdisabled => ?_
  have h₄ := h₃.mono hsub₄
  have hrevoke : (revokeAllSessions c.id).Guarantees
      ((Endpoint.disableCustomer customerId).Permits request found₄) := by
    refine WorldPolicy.guarantees_union (.mk staff h₄) (revokeAllSessions_allows fun s s' hs => ?_)
    rw [hid] at hs
    exact hs
  refine (Program.Guarantees.earns hrevoke).bind fun _ found₅ hsub₅ _ => ?_
  obtain ⟨w', hw', hinactive⟩ := hdisabled
  rw [hid] at hinactive
  refine Program.Earns.bind_return ((writeAuditLog_earns (h₄.mono hsub₅) (hactor'.trans hactor)
    fun found' hsub e he _ => ?_).imp fun _ _ _ hlogged => ⟨rfl, hlogged⟩)
  exact ⟨he.trans hid, w', hsub (hsub₅ hw'), hinactive⟩

lemma disableCustomerView_keeps (customerId : Id) :
    (Endpoint.disableCustomer customerId).KeepsTo request := by
  refine ifStaff_earns (fun _ => trivial) fun staff found hsigned => Program.Earns.bind_return ?_
  exact sensitiveView_keeps hsigned fun actor found₁ hactor h₁ =>
    disableCustomerEffect_earns hactor h₁

omit [Libraries] in
lemma startMfaSetup_allows {staff : StaffInstance} (h : ∀ d : StaffTOTPDevice,
      d.staffId = staff.staff.id ∧ d.confirmedAt = none → (P .staffTotpDevices).add d) :
    (startMfaSetup staff).Guarantees P.Allows := by
  have hget : ∀ staffId, (getTotpDevice staffId).Guarantees P.Allows :=
    fun staffId => Objects.guarantees_get _
  have hcreate : (createTotpDevice staff.staff).Guarantees P.Allows := by
    refine Tx.Guarantees.handling ?_ _ ?_
    · refine allows_drawRandom.bind fun _ => ?_
      exact (allows_create fun _ => h _ ⟨rfl, rfl⟩).bind fun _ => Tx.guarantees_pure _
    · exact ((hget _).handling _ (Tx.guarantees_raise _)).bind fun _ => Tx.guarantees_pure _
  refine Program.Guarantees.bind ?_ fun found => Program.Guarantees.bind ?_ fun _ => trivial
  · refine (Program.guarantees_exec (findTotpDevice_allows _)).bind fun device => ?_
    cases device with
    | none => exact Program.guarantees_exec hcreate
    | some device => trivial
  · unfold deviceStaff
    split
    · trivial
    · exact Program.guarantees_exec (Objects.guarantees_get _)

lemma mfaSetupView_keeps : Endpoint.mfaSetup.KeepsTo request := by
  refine ifStaff_earns (fun _ => trivial) fun staff found hsigned => Program.Earns.bind_return ?_
  have hsetup : (startMfaSetup { staff := staff }).Guarantees
      (Endpoint.mfaSetup.Permits request found) :=
    startMfaSetup_allows fun d hd => Exists.intro (.mk staff hsigned) hd
  exact Program.Guarantees.earns (Program.Guarantees.bind (hsetup.bind fun _ => trivial) fun _ =>
    trivial)

lemma mfaConfirmView_keeps : Endpoint.mfaConfirm.KeepsTo request := by
  refine ifStaff_earns (fun _ => trivial) fun staff found hsigned => Program.Earns.bind_return ?_
  refine Program.earns_ofExcept_bind fun token htoken => Program.Earns.bind_return ?_
  refine Program.Earns.bind_return (confirmMfaSetup_earns htoken fun device found' hsub hproves =>
    Program.Guarantees.earns ?_)
  have hsave : (saveConfirmedAt device).Guarantees
      (Endpoint.mfaConfirm.Permits request found') := by
    refine allows_timezoneNow.bind fun now => ?_
    refine Tx.Guarantees.bind (allows_save fun d hd => ?_) fun _ => Tx.guarantees_pure _
    exact Exists.intro (.mk staff (hsigned.mono hsub))
      (And.intro ⟨device, hproves, hd⟩ ⟨now, rfl⟩)
  exact Program.guarantees_exec hsave

/-! ## Catalog, media and localization -/

section Catalog

omit [Libraries]

/-- Publication sets the status of the product and emits the event. -/
lemma publishProduct_allows {product : Product}
    (hstatus : ∀ p p', p.id = product.id ∧ Product.Changes .active p p' →
      (P .products).change p p')
    (hevent : ∀ e : OutboxEvent, e.eventType = productPublishedEvent → (P .outboxEvents).add e) :
    (publishProduct product defaultHasReadyMedia).Guarantees P.Allows :=
  publishProduct_guarantees (Tx.guarantees_read _)
    (allows_save fun p hp => hstatus p _ ⟨hp, rfl⟩) fun _ => allows_create fun _ => hevent _ rfl

lemma productPublishView_keeps [Libraries] (productId : Id) :
    (Endpoint.productPublish productId).KeepsTo request := by
  refine ifStaff_earns (fun _ => trivial) fun staff found hsigned => Program.Earns.bind_return ?_
  have hget : (getProduct productId).Guarantees
      ((Endpoint.productPublish productId).Permits request found) :=
    (Objects.guarantees_get _).handling _ (Tx.guarantees_raise _)
  refine Program.Guarantees.earns ?_
  refine Program.guarantees_exec_bind hget fun w product w' h => Program.Guarantees.bind_return ?_
  obtain hrun | ⟨-, hraise⟩ := Tx.handling_ok h
  · have hholds := Table.holds_of_get (Objects.get_ok hrun).2
    have hid : product.id = productId := of_decide_eq_true hholds
    refine publishProduct_allows (fun p p' hp => ?_) fun e he => ?_
    · rw [hid] at hp
      exact Exists.intro (.mk staff hsigned) hp
    · exact Exists.intro (.mk staff hsigned) he
  · cases hraise

lemma categoryDetailView_allows (categoryId : Id) (locale : Option String) :
    (CategoryDetailView.get categoryId locale request).Guarantees P.Allows := by
  have hfind : (findCategory categoryId).Guarantees P.Allows :=
    Tx.Guarantees.handling ((Objects.guarantees_get _).bind fun _ => Tx.guarantees_pure _) _
      (Tx.guarantees_pure _)
  refine (Program.guarantees_exec hfind).bind fun category => ?_
  cases category with
  | none => trivial
  | some category => exact (Program.guarantees_exec (Tx.guarantees_read _)).bind fun _ => trivial

lemma serializeProducts_allows (locale : String) (products : List Product)
    (responseLocale : String) :
    (serializeProducts locale products responseLocale).Guarantees P.Allows := by
  induction products generalizing responseLocale with
  | nil => trivial
  | cons product rest ih =>
      exact (Program.guarantees_exec (Tx.guarantees_read _)).bind fun _ =>
        (ih _).bind fun _ => trivial

lemma productListView_allows [PyText] (acceptLanguage : Option String) :
    (ProductListView.get acceptLanguage request).Guarantees P.Allows :=
  Program.Guarantees.bind ((Program.guarantees_exec (Tx.guarantees_read _)).bind fun _ =>
    serializeProducts_allows _ _ _) fun _ => trivial

lemma productDetailView_allows [PyText] (acceptLanguage : Option String) (productId : Id) :
    (ProductDetailView.get acceptLanguage productId request).Guarantees P.Allows := by
  have hget : (getActiveProduct productId).Guarantees P.Allows :=
    (Objects.guarantees_get _).handling _ (Tx.guarantees_raise _)
  refine Program.Guarantees.bind ?_ fun _ => trivial
  exact (Program.guarantees_exec hget).bind fun _ => Program.guarantees_exec (Tx.guarantees_read _)

lemma localeSuggestionView_allows [PyText] (acceptLanguage : Option String) :
    (LocaleSuggestionView.get acceptLanguage request).Guarantees P.Allows := by
  refine Program.Guarantees.bind ?_ fun _ => trivial
  refine (Program.guarantees_exec firstActiveCountry_allows).bind fun country => ?_
  cases country with
  | none => trivial
  | some country =>
      cases hcurrencies : country.allowedCurrencies with
      | nil =>
          dsimp only
          rw [hcurrencies]
          trivial
      | cons currency rest =>
          dsimp only
          rw [hcurrencies]
          trivial

/-- What `request_upload` adds is pending. -/
lemma requestUpload_allows [PresignedPosts] {contentType : String} {sizeBytes : ℕ}
    (h : ∀ m : MediaUpload, m.IsNew ∧ m.declaredSizeBytes = sizeBytes → (P .mediaUploads).add m) :
    (requestUpload contentType sizeBytes).Guarantees P.Allows :=
  requestUpload_guarantees allows_drawRandom fun _ => allows_create fun _ => h _ ⟨⟨rfl, rfl⟩, rfl⟩

/-- A size that the serializer accepts is within the limit. -/
lemma requestUploadSerializer_ok [SerializerFields] [IntegerFields] {data : Json}
    {contentType : String} {sizeBytes : ℕ}
    (h : requestUploadSerializer data = .ok (contentType, sizeBytes)) :
    1 ≤ sizeBytes ∧ sizeBytes ≤ maxUploadSizeBytes := by
  unfold requestUploadSerializer at h
  obtain ⟨fields, -, h⟩ := bind_eq_ok_iff.1 h
  dsimp only at h
  split at h
  · rename_i type size htype hsize
    cases h
    simp only [sizeBytesField, Option.map_eq_some_iff, Option.filter_eq_some_iff,
      Bool.and_eq_true, decide_eq_true_eq] at hsize
    obtain ⟨n, ⟨-, hmin, hmax⟩, rfl⟩ := hsize
    omega
  · cases h

lemma requestUploadView_keeps [Libraries] : Endpoint.requestUpload.KeepsTo request := by
  refine ifStaff_earns (fun _ => trivial) fun staff found hsigned => Program.Earns.bind_return ?_
  refine Program.earns_ofExcept_bind fun fields hfields => Program.Guarantees.earns ?_
  obtain ⟨hmin, hmax⟩ := requestUploadSerializer_ok hfields
  refine Program.Guarantees.bind_return (requestUpload_allows fun m hm => ?_)
  rw [← hm.2] at hmin hmax
  exact Exists.intro (.mk staff hsigned) (And.intro hm.1 ⟨hmin, hmax⟩)

end Catalog

/-- Every view keeps to the policy of its endpoint. -/
theorem Endpoint.view_keeps (endpoint : Endpoint) : endpoint.KeepsTo request := by
  cases endpoint with
  | register => exact registerView_keeps
  | verifyEmail => exact verifyEmailView_keeps
  | login => exact loginView_keeps
  | googleLogin clientId tokeninfo => exact googleLoginView_keeps clientId tokeninfo
  | refreshToken => exact refreshTokenView_keeps
  | me => exact meView_keeps
  | updateLocalePreference => exact updateLocalePreferenceView_keeps
  | sessionList => exact sessionListView_keeps
  | sessionRevoke sessionId => exact sessionRevokeView_keeps sessionId
  | sessionRevokeAll => exact sessionRevokeAllView_keeps
  | requestPasswordReset => exact requestPasswordResetView_keeps
  | confirmPasswordReset => exact confirmPasswordResetView_keeps
  | requestEmailChange => exact requestEmailChangeView_keeps
  | confirmEmailChange => exact confirmEmailChangeView_keeps
  | productList acceptLanguage =>
      exact ifAnyone_earns fun _ => productListView_allows acceptLanguage
  | productDetail acceptLanguage productId =>
      exact ifAnyone_earns fun _ => productDetailView_allows acceptLanguage productId
  | localeSuggestion acceptLanguage =>
      exact Program.Guarantees.earns (localeSuggestionView_allows acceptLanguage).bind_return
  | staffLogin => exact staffLoginView_keeps
  | createStaff => exact createStaffView_keeps
  | mfaSetup => exact mfaSetupView_keeps
  | mfaConfirm => exact mfaConfirmView_keeps
  | resetStaffMfa staffId => exact resetStaffMfaView_keeps staffId
  | disableCustomer customerId => exact disableCustomerView_keeps customerId
  | categoryDetail categoryId locale =>
      exact ifStaff_earns (fun _ => trivial) fun _ _ _ =>
        Program.Guarantees.earns (categoryDetailView_allows categoryId locale)
  | productPublish productId => exact productPublishView_keeps productId
  | requestUpload => exact requestUploadView_keeps

end BePyEco
