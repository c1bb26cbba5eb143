import BePyEco.Api.WorkWrites

/-!
# Who is answered, and what

`Endpoint.Earned` says what the response of an endpoint presupposes and whose data it carries: a
profile is that of the customer who is signed in or whose token was presented, tokens are for the
customer whose password was presented, a list of sessions is the caller's own, and so on.

`answer_earned` is the theorem: in any interleaving of any work, every response has been earned.
-/

namespace BePyEco

open Library

/-! ## What a response says -/

section Responses

/-- The response hands out tokens for the actor. -/
def HandsOut [TokenTexts] (context : RequestContext) (kind : ActorType) (userId : Id)
    (response : Response) : Prop :=
  ∃ access refresh, (access.userId = userId ∧ access.actorType = some kind) ∧
    (refresh.userId = userId ∧ refresh.actorType = some kind) ∧
    response = tokenResponse access refresh context

/-- The response is one that was recorded for the staff member, the key of the request and its
body. -/
def Replays (request : HttpRequest) (found : Set World) (action : String) (staff : Staff)
    (response : Response) : Prop :=
  ∃ key, requireIdempotencyKey (request.ofStaff staff) = .ok key ∧
    ∃ w ∈ found, ∃ record ∈ w.db.idempotencyRecords.rows,
      record.scope = (request.ofStaff staff).scope action key ∧
        record.requestHash = hashRequest request.data ∧
        response = { status := record.responseStatus, data := record.responseBody }

/-- The device of the staff member, stored or newly made. -/
def OwnDevice (found : Set World) (staff : Staff) (device : StaffTOTPDevice) : Prop :=
  device.staffId = staff.id ∧
    ((∃ w ∈ found, device ∈ w.db.staffTotpDevices.rows) ∨ ∃ w ∈ found, device.key = w.entropy)

/-- The row of the staff member, as the request has loaded it or as it was found since. -/
def OwnRow (found : Set World) (staff owner : Staff) : Prop :=
  owner.id = staff.id ∧ (owner = staff ∨ ∃ w ∈ found, owner ∈ w.db.staff.rows)

/-- The suggestion is from an active country. -/
def Suggested (found : Set World) (suggestion : LocaleSuggestion) : Prop :=
  ∃ w ∈ found, ∃ country ∈ w.db.supportedCountries.rows, country.isActive = true ∧
    suggestion.countryCode = country.code ∧ suggestion.currency ∈ country.allowedCurrencies ∧
    (suggestion.locale ∈ country.allowedLocales ∨ suggestion.locale = country.defaultLocale)

/-- The item of a product that the storefront may show. -/
def Shown (found : Set World) (item : ProductItem) : Prop :=
  ∃ w ∈ found, ∃ p ∈ w.db.products.rows, p.status = .active ∧ p.id = item.id

end Responses

section Earned

variable [Libraries] (request : HttpRequest) (found : Set World)

/-- The response is the profile of the customer whose token the request presents, as stored and with
what the token does to it. -/
def ConsumerEarned (purpose : Purpose)
    (effect : VerificationToken → Customer → Customer → Prop) (response : Response) : Prop :=
  ∃ token stored customer, Presents request found purpose token ∧ OwnerOf found token stored ∧
    effect token stored customer ∧ response = customerResponse customer request.context

/-- The response is to somebody authorized: the one of the effect, which is in the log, or one
recorded before. -/
def SensitiveEarned (action : String) (reports : Set World → AuditLogEntry → Prop)
    (effect : Response → Prop) (response : Response) : Prop :=
  ∃ staff, AuthorizedTo request found action staff ∧
    (RespondsLogged staff action reports effect response found ∨
      Replays request found action staff response)

/-- A signed-in staff member is answered. -/
def StaffEarned : Prop := ∃ staff, SignedIn request found (.staff staff)

/-- What a response of the endpoint presupposes, and whose data it carries. -/
def Endpoint.Earned : Endpoint → Response → Prop
  | register, response => ∃ customer, NewCustomer found customer.id ∧ customer.IsNew ∧
      response = createdResponse customer request.context
  | verifyEmail, response => ConsumerEarned request found .emailVerification
      (fun _ stored customer => stored.Verifies customer) response
  | login, response => ∃ email password customerId,
      loginSerializer request.data = .ok (email, password) ∧ AddressOf found email customerId ∧
        PasswordOf found password customerId ∧
        HandsOut request.context .customer customerId response
  | googleLogin clientId tokeninfo, response => ∃ profile customerId,
      GoogleAccount request clientId tokeninfo profile ∧ GoogleResolves found profile customerId ∧
        HandsOut request.context .customer customerId response
  | refreshToken, response => ∃ session, Refreshes request found session ∧
      HandsOut request.context .customer session.customerId response
  | me, response => ∃ customer, SignedIn request found (.customer customer) ∧
      response = customerResponse customer request.context
  | updateLocalePreference, response => ∃ customer locale currency,
      SignedIn request found (.customer customer) ∧ Offered found locale currency ∧
        response = customerResponse (setPreference locale currency customer) request.context
  | sessionList, response => ∃ (customer : Customer) (sessions : List Session),
      SignedIn request found (.customer customer) ∧
      response = okResponse (.arr (sessions.map sessionRepresentation)) request.context ∧
      ∀ s ∈ sessions, s.customerId = customer.id ∧ s.revokedAt = none ∧
        (∃ w ∈ found, s ∈ w.db.sessions.rows) ∧ ∃ w ∈ found, s.isActive w.now = true
  | sessionRevoke sessionId, response => ∃ customer, SignedIn request found (.customer customer) ∧
      response = { status := 204 } ∧
      (∃ w ∈ found, ∃ s ∈ w.db.sessions.rows, revocable customer.id sessionId s = true) ∧
      Entered found .customer customer.id "accounts.revoke_session"
        (ReportsRevoked found customer.id sessionId)
  | sessionRevokeAll, response => ∃ customer, SignedIn request found (.customer customer) ∧
      response = { status := 204 }
  | requestPasswordReset, response => response = { status := 202 }
  | confirmPasswordReset, response => ConsumerEarned request found .passwordReset
      (fun _ stored customer => customer = stored) response
  | requestEmailChange, response => ∃ customer, SignedIn request found (.customer customer) ∧
      response = { status := 202 }
  | confirmEmailChange, response => ConsumerEarned request found .emailChange
      (fun token stored customer => stored.Readdresses token.newEmail customer) response
  | productList _, response => ∃ items : List ProductItem,
      response = okResponse (.arr (items.map ProductItem.toJson)) request.context ∧
      ∀ item ∈ items, Shown found item
  | productDetail _ productId, response => ∃ item, item.id = productId ∧ Shown found item ∧
      response = okResponse item.toJson request.context
  | localeSuggestion _, response => ∃ suggestion, Suggested found suggestion ∧
      response = okResponse (.obj [("country_code", .str suggestion.countryCode),
        ("locale", .str suggestion.locale), ("currency", .str suggestion.currency)])
        request.context
  | staffLogin, response => ∃ email password staff,
      loginSerializer request.data = .ok (email, password) ∧
      (∃ w ∈ found, staff ∈ w.db.staff.rows) ∧ staff.email = normalizeEmail email ∧
      staff.isActive = true ∧ checkPassword password (some staff.passwordHash) = true ∧
      HandsOut request.context .staff staff.id response
  | createStaff, response => SensitiveEarned request found "accounts.create_staff"
      (fun found => ReportsCreated found) (fun response => ∃ staff : Staff, response = {
        status := 201
        data := some (successEnvelope (staffRepresentation staff) request.context) }) response
  | mfaSetup, response => ∃ staff device owner, SignedIn request found (.staff staff) ∧
      OwnDevice found staff device ∧ OwnRow found staff owner ∧
      response = okResponse (.obj [("provisioning_uri",
        .str (UriTexts.provisioningUri (provisioningUri device owner)))]) request.context
  | mfaConfirm, response => ∃ staff device, SignedIn request found (.staff staff) ∧
      ProvesDevice request found staff device ∧ response = { status := 204 }
  | resetStaffMfa staffId, response => SensitiveEarned request found "accounts.reset_staff_mfa"
      (fun found => ReportsReset found staffId) (fun response => response = { status := 204 })
      response
  | disableCustomer customerId, response =>
    SensitiveEarned request found "accounts.disable_customer"
      (fun found => ReportsDisabled found customerId) (fun response => response = { status := 204 })
      response
  | categoryDetail _ _, _ => StaffEarned request found
  | productPublish _, _ => StaffEarned request found
  | requestUpload, _ => StaffEarned request found

/-- What an answer presupposes: a refusal, nothing. -/
def Answer.Earned (endpoint : Endpoint) : Answer → Prop
  | response r => endpoint.Earned request found r
  | _ => True

end Earned

/-! ## The views -/

/-- Whatever the view writes, its answers are earned. -/
abbrev Endpoint.Answers [Libraries] (endpoint : Endpoint) (request : HttpRequest) : Prop :=
  (endpoint.view request).Earns Program.anyMove
    (fun answer found => answer.Earned request found endpoint) ∅

variable {request : HttpRequest} {found : Set World}

/-- A session is issued with tokens for its customer. -/
lemma issueSession_finds (customerId : Id) :
    (issueSession customerId).Earns Program.anyMove (fun tokens _ =>
      (tokens.1.userId = customerId ∧ tokens.1.actorType = some .customer) ∧
        (tokens.2.userId = customerId ∧ tokens.2.actorType = some .customer)) found := by
  have hmint : (Program.exec (mintCustomerToken customerId) : Service RefreshToken).Earns
      Program.anyMove (fun refresh _ => refresh.userId = customerId ∧
        refresh.actorType = some .customer) found := by
    refine Program.earns_exec fun w refresh w' h => ⟨trivial, mintCustomerToken_userId h, ?_⟩
    obtain ⟨refresh₀, w₁, -, hpure⟩ := Tx.bind_ok h
    cases hpure
    rfl
  refine hmint.bind fun refresh found' _ hrefresh => ?_
  exact (Program.earns_anyMove _ found').bind fun _ _ _ _ => ⟨hrefresh, hrefresh⟩

section Views

variable [Libraries]

/-! ### Customers -/

lemma registerView_answers : Endpoint.register.Answers request := by
  refine Program.Earns.bind_return ((Program.earns_anyMove _ ∅).bind fun fields found _ _ => ?_)
  refine Program.Earns.bind_return ?_
  have hblock : (Program.exec (registerBlock fields.1 fields.2) : Service _).Earns
      Program.anyMove (fun r found' => NewCustomer found' r.1.id ∧ r.1.IsNew) found := by
    refine Program.earns_exec fun w r w' h => ⟨trivial, ?_⟩
    obtain ⟨customer, w₁, hcustomer, hrest⟩ := Tx.bind_ok h
    obtain ⟨method, w₂, -, hrest⟩ := Tx.bind_ok hrest
    obtain ⟨token, w₃, -, hrest⟩ := Tx.bind_ok hrest
    obtain ⟨stored, w₄, -, hpure⟩ := Tx.bind_ok hrest
    cases hpure
    obtain ⟨t, hinsert, -⟩ := Objects.create_ok hcustomer
    obtain rfl := (Table.insert_spec hinsert).1
    exact ⟨⟨w, Program.before_mem_learn, rfl⟩, rfl, rfl, rfl⟩
  refine hblock.bind fun r found' _ ⟨hnew, hfresh⟩ => ?_
  refine (Program.earns_anyMove _ found').bind fun _ found'' hsub _ => ?_
  obtain ⟨w, hw, hnext⟩ := hnew
  exact ⟨r.1, ⟨w, hsub hw, hnext⟩, hfresh, rfl⟩

/-- A consumer answers with what its effect makes of the token's customer. -/
lemma consumeToken_answers {purpose : Purpose}
    {effect : VerificationToken → Customer → Statement Customer}
    {shows : VerificationToken → Customer → Customer → Prop} {rawToken : RawToken}
    (hraw : presentedToken request.data purpose = some rawToken)
    (heffect : ∀ token customer w c w', (effect token customer).run w = .ok (c, w') →
      shows token customer c) :
    (consumeToken purpose effect rawToken).Earns Program.anyMove (fun customer found' =>
      ConsumerEarned request found' purpose shows (customerResponse customer request.context))
        found := by
  refine consumeToken_earns hraw fun token customer found' howner hpresents => ?_
  refine Program.earns_exec fun w c w' h => ⟨trivial, token, customer, c, ?_, ?_, ?_, rfl⟩
  · exact hpresents.mono Program.subset_learn
  · exact howner.mono Program.subset_learn
  · obtain ⟨now, w₁, -, hrest⟩ := Tx.bind_ok h
    obtain ⟨u, w₂, -, hrun⟩ := Tx.bind_ok hrest
    exact heffect token customer w₂ c w' hrun

lemma verifyEmailView_answers : Endpoint.verifyEmail.Answers request := by
  refine Program.Earns.bind_return (Program.earns_ofExcept_bind fun text htext => ?_)
  refine Program.Earns.bind_return (consumeToken_answers ?_ fun token customer w c w' h => ?_)
  · simp only [presentedToken, htext, Except.toOption, Option.map_some]
  · obtain ⟨now, w₁, -, hrest⟩ := Tx.bind_ok h
    obtain ⟨u, w₂, -, hpure⟩ := Tx.bind_ok hrest
    cases hpure
    exact ⟨now, rfl⟩

lemma confirmPasswordResetView_answers : Endpoint.confirmPasswordReset.Answers request := by
  refine Program.Earns.bind_return (Program.earns_ofExcept_bind fun fields hfields => ?_)
  refine Program.Earns.bind_return (consumeToken_answers ?_ fun token customer w c w' h => ?_)
  · simp only [presentedToken, hfields, Except.toOption, Option.map_some]
  · obtain ⟨u, w₁, -, hpure⟩ := Tx.bind_ok h
    cases hpure
    rfl

lemma confirmEmailChangeView_answers : Endpoint.confirmEmailChange.Answers request := by
  refine Program.Earns.bind_return (Program.earns_ofExcept_bind fun text htext => ?_)
  refine Program.Earns.bind_return (consumeToken_answers ?_ fun token customer w c w' h => ?_)
  · simp only [presentedToken, htext, Except.toOption, Option.map_some]
  · obtain ⟨now, w₁, -, hrest⟩ := Tx.bind_ok h
    obtain ⟨u, w₂, -, hpure⟩ := Tx.bind_ok hrest
    cases hpure
    exact ⟨now, rfl⟩

lemma loginView_answers : Endpoint.login.Answers request := by
  refine Program.Earns.bind_return (Program.earns_ofExcept_bind fun fields hfields => ?_)
  refine Program.Earns.bind_return (loginCustomer_earns fun c found haddress hpassword => ?_)
  refine (issueSession_finds c.id).imp fun tokens found' hsub ⟨haccess, hrefresh⟩ => ?_
  exact ⟨fields.1, fields.2, c.id, hfields, haddress.mono hsub, hpassword.mono hsub, tokens.1,
    tokens.2, haccess, hrefresh, rfl⟩

lemma googleLoginView_answers (clientId : String) (tokeninfo : String → TokeninfoReply) :
    (Endpoint.googleLogin clientId tokeninfo).Answers request := by
  refine Program.Earns.bind_return (Program.earns_ofExcept_bind fun idToken hidToken => ?_)
  refine Program.Earns.bind_return (loginWithGoogle_earns (fun _ _ _ _ _ _ => trivial) ?_)
  intro profile customer found hprofile hresolves
  refine (issueSession_finds customer.id).imp fun tokens found' hsub ⟨haccess, hrefresh⟩ => ?_
  exact ⟨profile, customer.id, ⟨idToken, hidToken, hprofile⟩, hresolves.mono hsub, tokens.1,
    tokens.2, haccess, hrefresh, rfl⟩

lemma refreshTokenView_answers : Endpoint.refreshToken.Answers request := by
  refine Program.Earns.bind_return (Program.earns_ofExcept_bind fun text htext => ?_)
  refine Program.Earns.bind_return (rotateRefreshToken_earns htext fun session found h => ?_)
  refine (Program.earns_anyMove _ found).bind fun _ found' hsub _ => ?_
  refine (issueSession_finds session.customerId).imp fun tokens found'' hsub' htokens => ?_
  exact ⟨session, h.mono (hsub.trans hsub'), tokens.1, tokens.2, htokens.1, htokens.2, rfl⟩

lemma meView_answers : Endpoint.me.Answers request := by
  refine ifAuthenticated_earns (fun _ => trivial) fun user found hsigned =>
    Program.Earns.bind_return ?_
  cases user with
  | customer customer => exact ⟨customer, hsigned, rfl⟩
  | staff staff => exact Program.earns_raise _

lemma updateLocalePreferenceView_answers : Endpoint.updateLocalePreference.Answers request := by
  refine ifAuthenticated_earns (fun _ => trivial) fun user found hsigned =>
    Program.Earns.bind_return ?_
  cases user with
  | customer customer =>
      refine Program.earns_ofExcept_bind fun fields _ => Program.Earns.bind_return ?_
      refine (validateLocaleAndCurrency_earns fields.1 fields.2).bind fun _ found' hsub hoffered =>
        ?_
      refine (Program.earns_anyMove _ found').bind fun _ found'' hsub' _ => ?_
      obtain ⟨w, hw, hcountry⟩ := hoffered
      exact ⟨customer, fields.1, fields.2, hsigned.mono (hsub.trans hsub'), ⟨w, hsub' hw, hcountry⟩,
        rfl⟩
  | staff staff =>
      refine Program.earns_ofExcept_bind fun fields _ => ?_
      exact (Program.earns_anyMove _ found).bind fun _ _ _ _ => Program.earns_raise _

lemma sessionListView_answers : Endpoint.sessionList.Answers request := by
  refine ifAuthenticated_earns (fun _ => trivial) fun user found hsigned =>
    Program.Earns.bind_return ?_
  cases user with
  | customer customer =>
      have hread : (Program.exec (unrevokedSessions customer.id) : Service (List Session)).Earns
          Program.anyMove (fun sessions found' => ∀ s ∈ sessions, unrevokedOf customer.id s = true ∧
            ∃ w ∈ found', s ∈ w.db.sessions.rows) found := by
        refine Program.earns_exec fun w sessions w' h => ⟨trivial, fun s hs => ?_⟩
        cases h
        obtain ⟨hstored, hown⟩ := List.mem_filter.1 (List.mem_reverse.1 hs)
        exact ⟨hown, w, Program.before_mem_learn, hstored⟩
      refine hread.bind fun sessions found' hsub hsessions => ?_
      have hlook : (Program.exec (activeSessions sessions) : Service (List Session)).Earns
          Program.anyMove (fun active found'' => found' ⊆ found'' ∧ ∀ s ∈ active, s ∈ sessions ∧
            ∃ w ∈ found'', s.isActive w.now = true) found' := by
        refine Program.earns_exec fun w active w' h => ⟨trivial, Program.subset_learn, ?_⟩
        obtain ⟨now, w₁, hnow, hpure⟩ := Tx.bind_ok h
        cases hnow
        cases hpure
        intro s hs
        obtain ⟨hmem, hactive⟩ := List.mem_filter.1 hs
        exact ⟨hmem, w, Program.before_mem_learn, hactive⟩
      refine hlook.bind fun active found'' _ ⟨hsub', hactive⟩ => ?_
      refine ⟨customer, active, hsigned.mono (hsub.trans hsub'), rfl, fun s hs => ?_⟩
      obtain ⟨hmem, hlive⟩ := hactive s hs
      obtain ⟨hown, w, hw, hstored⟩ := hsessions s hmem
      simp only [unrevokedOf, Bool.and_eq_true, decide_eq_true_eq] at hown
      exact ⟨hown.1, hown.2, ⟨w, hsub' hw, hstored⟩, hlive⟩
  | staff staff => exact Program.earns_raise _

lemma sessionRevokeView_answers (sessionId : Id) :
    (Endpoint.sessionRevoke sessionId).Answers request := by
  refine ifAuthenticated_earns (fun _ => trivial) fun user found hsigned =>
    Program.Earns.bind_return ?_
  cases user with
  | customer customer =>
      have hrevoke : (Program.exec (revokeOwn customer.id sessionId) : Service ℕ).Earns
          Program.anyMove (fun updated found' => updated ≠ 0 →
            (∃ w ∈ found', ∃ s ∈ w.db.sessions.rows, revocable customer.id sessionId s = true) ∧
              ∃ w ∈ found', ∃ s ∈ w.db.sessions.rows, s.id = sessionId ∧
                s.customerId = customer.id ∧ s.revokedAt ≠ none) found := by
        refine Program.earns_exec fun w updated w' h => ⟨trivial, fun hupdated => ⟨?_, w',
          Program.after_mem_learn, revokeOwn_leaves h hupdated⟩⟩
        obtain ⟨now, w₁, hnow, hupdate⟩ := Tx.bind_ok h
        cases hnow
        cases hupdate
        by_contra hnone
        refine hupdated (w.db.sessions.count_eq_zero_iff.2 fun s hs => Bool.eq_false_iff.2 ?_)
        exact fun hrevocable => hnone ⟨w, Program.before_mem_learn, s, hs, hrevocable⟩
      refine Program.Earns.bind_return (hrevoke.bind fun updated found' hsub hupdated => ?_)
      refine Program.earns_require_bind fun hmatched => ?_
      obtain ⟨⟨w, hw, hsession⟩, w₁, hw₁, hrevoked⟩ := hupdated (of_decide_eq_true hmatched)
      have hlogged : (Program.exec (writeAuditLog .customer customer.id "accounts.revoke_session"
          "session" sessionId [("revoked_at", .null)] [("revoked_at", .str "now")] ""
          (clientIp (some request.context)) (requestId (some request.context))) :
            Service AuditLogEntry).Earns Program.anyMove (fun _ found'' => found' ⊆ found'' ∧
              Entered found'' .customer customer.id "accounts.revoke_session"
                (ReportsRevoked found'' customer.id sessionId)) found' := by
        refine Program.earns_exec fun w e w' hrun => ⟨trivial, Program.subset_learn, ?_⟩
        obtain ⟨⟨hmem, hnew⟩, hentry, hresource, -⟩ := writeAuditLog_leaves hrun
        exact ⟨w, Program.before_mem_learn, w', Program.after_mem_learn, e, hmem, hnew, hentry,
          hresource, w₁, Program.subset_learn hw₁, hrevoked⟩
      refine hlogged.bind fun _ found'' _ ⟨hsub', hentry⟩ => ?_
      exact ⟨customer, hsigned.mono (hsub.trans hsub'), rfl, ⟨w, hsub' hw, hsession⟩, hentry⟩
  | staff staff => exact Program.earns_raise _

lemma sessionRevokeAllView_answers : Endpoint.sessionRevokeAll.Answers request := by
  refine ifAuthenticated_earns (fun _ => trivial) fun user found hsigned =>
    Program.Earns.bind_return ?_
  cases user with
  | customer customer =>
      exact (Program.earns_anyMove _ found).bind fun _ found' hsub _ =>
        ⟨customer, hsigned.mono hsub, rfl⟩
  | staff staff => exact Program.earns_raise _

lemma requestPasswordResetView_answers : Endpoint.requestPasswordReset.Answers request :=
  Program.Earns.bind_return (Program.earns_ofExcept_bind fun _ _ =>
    (Program.earns_anyMove _ ∅).bind fun _ _ _ _ => rfl)

lemma requestEmailChangeView_answers : Endpoint.requestEmailChange.Answers request := by
  refine ifAuthenticated_earns (fun _ => trivial) fun user found hsigned =>
    Program.Earns.bind_return ?_
  cases user with
  | customer customer =>
      refine Program.earns_ofExcept_bind fun _ _ => ?_
      exact (Program.earns_anyMove _ found).bind fun _ found' hsub _ =>
        ⟨customer, hsigned.mono hsub, rfl⟩
  | staff staff =>
      refine Program.earns_ofExcept_bind fun _ _ => ?_
      refine (Program.earns_anyMove _ found).bind fun _ found' _ _ => ?_
      refine Program.earns_require_bind fun _ => ?_
      exact (Program.earns_anyMove _ found').bind fun _ _ _ _ => Program.earns_raise _

/-! ### Storefront -/

omit [Libraries] in
lemma Shown.mono {found' : Set World} {item : ProductItem} (h : Shown found item)
    (hsub : found ⊆ found') : Shown found' item := by
  obtain ⟨w, hw, hproduct⟩ := h
  exact ⟨w, hsub hw, hproduct⟩

omit [Libraries] in
/-- The items are those of the products. -/
lemma serializeProducts_finds (locale : String) (products : List Product)
    (responseLocale : String) :
    (serializeProducts locale products responseLocale).Earns Program.anyMove
      (fun response _ => response.1.map ProductItem.id = products.map Product.id) found := by
  induction products generalizing responseLocale found with
  | nil => exact Program.earns_pure rfl
  | cons product rest ih =>
      have hread : (Program.exec (Tx.read fun w => serializeProduct w product locale) :
          Service (ProductItem × String)).Earns Program.anyMove
            (fun serialized _ => serialized.1.id = product.id) found := by
        refine Program.earns_exec fun w serialized w' h => ⟨trivial, ?_⟩
        cases h
        rfl
      refine hread.bind fun serialized found' _ hid => Program.Earns.bind_return ?_
      refine (ih serialized.2).imp fun response found'' _ hids => ?_
      rw [List.map_cons, List.map_cons, hid, hids]

lemma productListView_answers (acceptLanguage : Option String) :
    (Endpoint.productList acceptLanguage).Answers request := by
  refine (Program.earns_anyMove _ ∅).bind fun _ found _ _ => Program.Earns.bind_return ?_
  refine Program.Earns.bind_return ?_
  have hread : (Program.exec activeProducts : Service (List Product)).Earns Program.anyMove
      (fun products found' => ∀ p ∈ products, ∃ w ∈ found', ∃ p' ∈ w.db.products.rows,
        p'.status = .active ∧ p'.id = p.id) found := by
    refine Program.earns_exec fun w products w' h => ⟨trivial, fun p hp => ?_⟩
    cases h
    obtain ⟨hstored, hactive⟩ := List.mem_filter.1 ((List.perm_insertionSort _ _).subset hp)
    exact ⟨w, Program.before_mem_learn, p, hstored, of_decide_eq_true hactive, rfl⟩
  refine hread.bind fun products found' _ hproducts => ?_
  refine (serializeProducts_finds _ products _).imp fun response found'' hsub hids => ?_
  refine ⟨response.1, rfl, fun item hitem => Shown.mono ?_ hsub⟩
  have hmem : item.id ∈ products.map Product.id := by
    rw [← hids]
    exact List.mem_map_of_mem hitem
  obtain ⟨p, hp, hid⟩ := List.mem_map.1 hmem
  obtain ⟨w, hw, p', hp', hactive, hid'⟩ := hproducts p hp
  exact ⟨w, hw, p', hp', hactive, hid'.trans hid⟩

lemma productDetailView_answers (acceptLanguage : Option String) (productId : Id) :
    (Endpoint.productDetail acceptLanguage productId).Answers request := by
  refine (Program.earns_anyMove _ ∅).bind fun _ found _ _ => Program.Earns.bind_return ?_
  refine Program.Earns.bind_return ?_
  have hget : (Program.exec (getActiveProduct productId) : Service Product).Earns Program.anyMove
      (fun product found' => product.id = productId ∧ ∃ w ∈ found',
        product ∈ w.db.products.rows ∧ product.status = .active) found := by
    refine Program.earns_exec fun w product w' h => ⟨trivial, ?_⟩
    obtain hrun | ⟨-, hraise⟩ := Tx.handling_ok h
    · obtain ⟨rfl, hrow⟩ := Objects.get_ok hrun
      have hholds := Table.holds_of_get hrow
      simp only [Bool.and_eq_true, decide_eq_true_eq] at hholds
      exact ⟨hholds.1, w', Program.before_mem_learn, Table.mem_of_get hrow, hholds.2⟩
    · cases hraise
  refine hget.bind fun product found' _ ⟨hid, w, hw, hstored, hactive⟩ => ?_
  refine Program.earns_exec fun w' serialized w'' h => ⟨trivial, ?_⟩
  cases h
  exact ⟨_, hid, ⟨w, Program.subset_learn hw, product, hstored, hactive, rfl⟩, rfl⟩

lemma localeSuggestionView_answers (acceptLanguage : Option String) :
    (Endpoint.localeSuggestion acceptLanguage).Answers request := by
  refine Program.Earns.bind_return (Program.Earns.bind_return ?_)
  refine firstActiveCountry_earns.bind fun country found _ hcountry => ?_
  cases country with
  | none => exact Program.earns_raise _
  | some country =>
      obtain ⟨w, hw, hstored, hactive⟩ := hcountry country rfl
      dsimp only
      cases hcurrencies : country.allowedCurrencies with
      | nil => exact Program.earns_raise _
      | cons currency rest =>
          refine Program.earns_pure ⟨_, ⟨w, hw, country, hstored, hactive, rfl, ?_, ?_⟩, rfl⟩
          · rw [hcurrencies]
            exact List.mem_cons_self
          · exact suggestedLocale_mem acceptLanguage country.allowedLocales country.defaultLocale

/-! ### Staff -/

lemma staffLoginView_answers : Endpoint.staffLogin.Answers request := by
  refine Program.Earns.bind_return (Program.earns_ofExcept_bind fun fields hfields => ?_)
  refine Program.Earns.bind_return ?_
  have hstaff : (Program.exec (getActiveStaff (normalizeEmail fields.1)) : Service Staff).Earns
      Program.anyMove (fun staff found => (∃ w ∈ found, staff ∈ w.db.staff.rows) ∧
        staff.email = normalizeEmail fields.1 ∧ staff.isActive = true) ∅ := by
    refine Program.earns_exec fun w staff w' h => ⟨trivial, ?_⟩
    obtain hget | ⟨-, hraise⟩ := Tx.handling_ok h
    · obtain ⟨rfl, hrow⟩ := Objects.get_ok hget
      have hholds := Table.holds_of_get hrow
      simp only [Bool.and_eq_true, decide_eq_true_eq] at hholds
      exact ⟨⟨w', Program.before_mem_learn, Table.mem_of_get hrow⟩, hholds⟩
    · cases hraise
  refine hstaff.bind fun staff found _ ⟨⟨w, hw, hstored⟩, hemail, hactive⟩ => ?_
  refine Program.earns_require_bind fun hpassword => Program.Earns.bind_return ?_
  refine Program.earns_exec fun w' refresh w'' h => ⟨trivial, ?_⟩
  have hrun : (mintStaffToken staff.id).run w' = .ok (refresh, w'') := h
  obtain ⟨refresh₀, w₁, hmint, hpure⟩ := Tx.bind_ok hrun
  obtain ⟨jti, w₂, -, hrest⟩ := Tx.bind_ok hmint
  obtain ⟨now, w₃, -, hpure₀⟩ := Tx.bind_ok hrest
  cases hpure₀
  cases hpure
  exact ⟨fields.1, fields.2, staff, hfields, ⟨w, Program.subset_learn hw, hstored⟩, hemail,
    hactive, hpassword, _, _, ⟨rfl, rfl⟩, ⟨rfl, rfl⟩, rfl⟩

omit [Libraries] in
/-- What is replayed was recorded for the staff member, the key and the body. -/
lemma replayIfCached_finds {action key : String} {staff : Staff}
    (hkey : requireIdempotencyKey (request.ofStaff staff) = .ok key) :
    (replayIfCached (request.ofStaff staff) action key).Earns Program.anyMove
      (fun cached found' => ∀ response, cached = some response →
        Replays request found' action staff response) found := by
  refine Program.Earns.bind_return ((findRecord_earns _).bind fun record found' _ hrecord => ?_)
  cases record with
  | none => exact Program.earns_pure fun response h => by cases h
  | some record =>
      obtain ⟨hscope, w, hw, hstored⟩ := hrecord record rfl
      refine (Program.earns_anyMove _ found').bind fun now found'' hsub _ => ?_
      split
      · exact (Program.earns_anyMove _ found'').bind fun _ _ _ _ =>
          Program.earns_pure fun response h => by cases h
      · refine Program.earns_require_bind fun hhash => Program.earns_pure fun response h => ?_
        cases h
        exact ⟨key, hkey, w, hsub hw, record, hstored, hscope, of_decide_eq_true hhash, rfl⟩

/-- A sensitive endpoint answers with what its effect responds, or did before. -/
lemma sensitiveView_answers {action : String} {staff : Staff}
    {reports : Set World → AuditLogEntry → Prop} {effect : Response → Prop}
    {run : StaffInstance → Request → Service Response} {Ok : Set World → World → World → Prop}
    (hsigned : SignedIn request found (.staff staff))
    (hmono : ∀ {found found' : Set World}, found ⊆ found' → ∀ e, reports found e → reports found' e)
    (h : ∀ actor found', actor.staff = staff → AuthorizedTo request found' action staff →
      (run actor (request.ofStaff staff)).Earns Ok
        (RespondsLogged staff action reports effect) found') :
    (sensitiveView action run (request.ofStaff staff)).Earns Program.anyMove (fun response found' =>
      SensitiveEarned request found' action reports effect response) found := by
  refine sensitiveView_earns hsigned fun actor key found' hactor hauthorized hkey => ?_
  refine (replayIfCached_finds hkey).bind fun cached found'' hsub hcached => ?_
  cases cached with
  | some response =>
      exact Program.earns_pure
        ⟨staff, hauthorized.mono hsub, Or.inr (hcached response rfl)⟩
  | none =>
      have heffect := (h actor found'' hactor (hauthorized.mono hsub)).anyMove
      refine heffect.bind fun response found₃ hsub' ⟨hresponds, hlogged⟩ => ?_
      refine (Program.earns_anyMove _ found₃).bind fun _ found₄ hsub'' _ => ?_
      exact ⟨staff, hauthorized.mono (hsub.trans (hsub'.trans hsub'')),
        Or.inl ⟨hresponds, hlogged.mono hsub'' (hmono hsub'')⟩⟩

lemma createStaffView_answers : Endpoint.createStaff.Answers request := by
  refine ifStaff_earns (fun _ => trivial) fun staff found hsigned => Program.Earns.bind_return ?_
  exact sensitiveView_answers hsigned (fun hsub _ h => h.mono hsub) fun actor found' hactor h =>
    createStaffEffect_earns hactor h

lemma resetStaffMfaView_answers (staffId : Id) :
    (Endpoint.resetStaffMfa staffId).Answers request := by
  refine ifStaff_earns (fun _ => trivial) fun staff found hsigned => Program.Earns.bind_return ?_
  exact sensitiveView_answers hsigned (fun hsub _ h => h.mono hsub) fun actor found' hactor h =>
    resetStaffMfaEffect_earns hactor h

lemma disableCustomerView_answers (customerId : Id) :
    (Endpoint.disableCustomer customerId).Answers request := by
  refine ifStaff_earns (fun _ => trivial) fun staff found hsigned => Program.Earns.bind_return ?_
  exact sensitiveView_answers hsigned (fun hsub _ h => h.mono hsub) fun actor found' hactor h =>
    disableCustomerEffect_earns hactor h

omit [Libraries] in
/-- The device that a setup goes on with is the staff member's own, and a new one comes with the
instance of the request. -/
lemma getOrCreateTotpDevice_finds (staff : Staff) :
    (getOrCreateTotpDevice staff).Earns Program.anyMove
      (fun r found' => OwnDevice found' staff r.1 ∧ ∀ cached, r.2 = some cached → cached = staff)
      found := by
  refine (loadTotpDevice_earns staff).bind fun device found' _ hdevice => ?_
  cases device with
  | some device =>
      obtain ⟨w, hw, hstored, howner⟩ := hdevice device rfl
      exact Program.earns_pure ⟨⟨howner, Or.inl ⟨w, hw, hstored⟩⟩, nofun⟩
  | none =>
      refine Program.earns_exec fun w r w' h => ⟨trivial, ?_⟩
      obtain hcreate | ⟨-, hget⟩ := Tx.handling_ok h
      · obtain ⟨key, w₁, hdraw, hcreate⟩ := Tx.bind_ok hcreate
        cases hdraw
        obtain ⟨d, w₂, hcreate, hpure⟩ := Tx.bind_ok hcreate
        cases hpure
        obtain ⟨t, hinsert, rfl⟩ := Objects.create_ok hcreate
        obtain rfl := (Table.insert_spec hinsert).1
        refine ⟨⟨rfl, Or.inr ⟨w, Program.before_mem_learn, rfl⟩⟩, fun cached hcached => ?_⟩
        cases hcached
        rfl
      · obtain ⟨d, w₁, hget, hpure⟩ := Tx.bind_ok hget
        cases hpure
        obtain hget | ⟨-, hraise⟩ := Tx.handling_ok hget
        · obtain ⟨rfl, hrow⟩ := Objects.get_ok hget
          have hholds := Table.holds_of_get hrow
          exact ⟨⟨of_decide_eq_true hholds, Or.inl ⟨w', Program.before_mem_learn,
            Table.mem_of_get hrow⟩⟩, nofun⟩
        · cases hraise

omit [Libraries] in
lemma OwnDevice.mono {found' : Set World} {staff : Staff} {device : StaffTOTPDevice}
    (h : OwnDevice found staff device) (hsub : found ⊆ found') :
    OwnDevice found' staff device := by
  obtain ⟨howner, ⟨w, hw, hstored⟩ | ⟨w, hw, hkey⟩⟩ := h
  · exact ⟨howner, Or.inl ⟨w, hsub hw, hstored⟩⟩
  · exact ⟨howner, Or.inr ⟨w, hsub hw, hkey⟩⟩

omit [Libraries] in
/-- `device.staff` is the row of the staff member. -/
lemma deviceStaff_finds {staff : Staff} {device : StaffTOTPDevice} {cached : Option Staff}
    (hdevice : device.staffId = staff.id) (hcached : ∀ s, cached = some s → s = staff) :
    (deviceStaff device cached).Earns Program.anyMove
      (fun owner found' => OwnRow found' staff owner) found := by
  cases cached with
  | some s =>
      obtain rfl := hcached s rfl
      exact Program.earns_pure ⟨rfl, Or.inl rfl⟩
  | none =>
      refine Program.earns_exec fun w owner w' h => ⟨trivial, ?_⟩
      obtain ⟨rfl, hrow⟩ := Objects.get_ok h
      have hholds := Table.holds_of_get hrow
      exact ⟨(of_decide_eq_true hholds).trans hdevice, Or.inr ⟨w', Program.before_mem_learn,
        Table.mem_of_get hrow⟩⟩

lemma mfaSetupView_answers : Endpoint.mfaSetup.Answers request := by
  refine ifStaff_earns (fun _ => trivial) fun staff found hsigned => Program.Earns.bind_return ?_
  refine Program.Earns.bind_return (Program.Earns.bind_return ?_)
  refine (getOrCreateTotpDevice_finds staff).bind fun r found' hsub hown => ?_
  obtain ⟨hdevice, hcached⟩ := hown
  refine (deviceStaff_finds hdevice.1 hcached).bind fun owner found'' hsub' howner => ?_
  exact ⟨staff, r.1, owner, hsigned.mono (hsub.trans hsub'), hdevice.mono hsub', howner, rfl⟩

lemma mfaConfirmView_answers : Endpoint.mfaConfirm.Answers request := by
  refine ifStaff_earns (fun _ => trivial) fun staff found hsigned => Program.Earns.bind_return ?_
  refine Program.earns_ofExcept_bind fun token htoken => Program.Earns.bind_return ?_
  refine Program.Earns.bind_return (confirmMfaSetup_earns htoken fun device found' hsub hproves =>
    ?_)
  exact (Program.earns_anyMove _ found').imp fun _ found'' hsub' _ =>
    ⟨staff, device, hsigned.mono (hsub.trans hsub'), hproves.mono hsub', rfl⟩

omit [Libraries] in
/-- A view behind `IsStaff` answers staff. -/
lemma ifStaff_answers {handler : Staff → Service Answer} {post : Answer → Set World → Prop}
    (hnobody : ∀ found', post .notAuthenticated found')
    (h : ∀ answer found', StaffEarned request found' → post answer found') :
    (ifStaff request handler).Earns Program.anyMove post found := by
  refine ifStaff_earns hnobody fun staff found' hsigned => ?_
  exact (Program.earns_anyMove _ found').imp fun answer found'' hsub _ =>
    h answer found'' ⟨staff, hsigned.mono hsub⟩

/-- Every view answers what is earned. -/
theorem Endpoint.view_answers (endpoint : Endpoint) : endpoint.Answers request := by
  have hstaff : ∀ {endpoint : Endpoint} {handler : Staff → Service Answer},
      (∀ response found', StaffEarned request found' →
        endpoint.Earned request found' response) →
      (ifStaff request handler).Earns Program.anyMove
        (fun answer found => answer.Earned request found endpoint) ∅ := by
    intro endpoint handler h
    refine ifStaff_answers (fun _ => trivial) fun answer found' hearned => ?_
    cases answer with
    | response r => exact h r found' hearned
    | notAuthenticated => trivial
    | categoryNotFound => trivial
  cases endpoint with
  | register => exact registerView_answers
  | verifyEmail => exact verifyEmailView_answers
  | login => exact loginView_answers
  | googleLogin clientId tokeninfo => exact googleLoginView_answers clientId tokeninfo
  | refreshToken => exact refreshTokenView_answers
  | me => exact meView_answers
  | updateLocalePreference => exact updateLocalePreferenceView_answers
  | sessionList => exact sessionListView_answers
  | sessionRevoke sessionId => exact sessionRevokeView_answers sessionId
  | sessionRevokeAll => exact sessionRevokeAllView_answers
  | requestPasswordReset => exact requestPasswordResetView_answers
  | confirmPasswordReset => exact confirmPasswordResetView_answers
  | requestEmailChange => exact requestEmailChangeView_answers
  | confirmEmailChange => exact confirmEmailChangeView_answers
  | productList acceptLanguage => exact productListView_answers acceptLanguage
  | productDetail acceptLanguage productId =>
      exact productDetailView_answers acceptLanguage productId
  | localeSuggestion acceptLanguage => exact localeSuggestionView_answers acceptLanguage
  | staffLogin => exact staffLoginView_answers
  | createStaff => exact createStaffView_answers
  | mfaSetup => exact mfaSetupView_answers
  | mfaConfirm => exact mfaConfirmView_answers
  | resetStaffMfa staffId => exact resetStaffMfaView_answers staffId
  | disableCustomer customerId => exact disableCustomerView_answers customerId
  | categoryDetail categoryId locale => exact hstaff fun _ _ h => h
  | productPublish productId => exact hstaff fun _ _ h => h
  | requestUpload => exact hstaff fun _ _ h => h

end Views

/-! ## Runs -/

section Runs

variable [Libraries] {ι : Type} [DecidableEq ι] {w : World} {work : ι → Work}
  {P : Pool ι (Service (Option Answer)) World}

/-- What the result of a piece of work presupposes. -/
def Work.ResultEarned (work : Work) (result : Option Answer) (found : Set World) : Prop :=
  ∀ endpoint request answer, work = .http endpoint request → result = some answer →
    answer.Earned request found endpoint

omit [DecidableEq ι] in
lemma Work.program_answers (work : Work) :
    work.program.Earns Program.anyMove work.ResultEarned ∅ := by
  cases work with
  | http endpoint request =>
      refine Program.Earns.bind_return (endpoint.view_answers.imp fun answer found _ hearned => ?_)
      intro endpoint' request' answer' hwork hresult
      cases hwork
      cases hresult
      exact hearned
  | internal call =>
      exact (Program.earns_anyMove _ ∅).imp fun _ _ _ _ _ _ _ hwork => by cases hwork
  | createMasterAdmin email password =>
      exact (Program.earns_anyMove _ ∅).imp fun _ _ _ _ _ _ _ hwork => by cases hwork
  | seedSupportedCountries uuid =>
      exact (Program.earns_anyMove _ ∅).imp fun _ _ _ _ _ _ _ hwork => by cases hwork

end Runs

section Example

attribute [local instance] plainLibraries

end Example

end BePyEco
