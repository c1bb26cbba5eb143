import BePyEco.Accounts.CustomerWrites
import BePyEco.Accounts.DisabledLogins
import BePyEco.Accounts.ProvenDevices
import BePyEco.Accounts.SessionControl
import BePyEco.Api.Policies

/-!
# What the services find

One rule for each service that looks for credentials: what follows its checks runs with the evidence
at hand.  The rules say nothing about writes, which are for the caller to judge.
-/

namespace BePyEco

open Library

variable {Ok : Set World → World → World → Prop} [∀ found, Std.Refl (Ok found)]
  {request : HttpRequest} {found : Set World}

/-! ## Customers -/

section Customers

variable [PyText]

/-- A login issues a session to the customer whose address and password were presented. -/
lemma loginCustomer_earns {email password : String}
    {post : Customer × AccessToken × RefreshToken → Set World → Prop}
    (h : ∀ c found', AddressOf found' email c.id → PasswordOf found' password c.id →
      (issueSession c.id).Earns Ok (fun tokens => post (c, tokens)) found') :
    (loginCustomer email password).Earns Ok post found := by
  have hcustomer : (Program.exec (getActiveCustomer (normalizeEmail email)) :
      Service Customer).Earns Ok (fun c found' => AddressOf found' email c.id) found := by
    refine Program.earns_exec fun w c w' h => ?_
    obtain hget | ⟨-, hraise⟩ := Tx.handling_ok h
    · obtain ⟨rfl, hrow⟩ := Objects.get_ok hget
      exact ⟨refl_of _ w', w', Program.before_mem_learn, c, Table.mem_of_get hrow,
        Table.holds_of_get hrow, rfl⟩
    · cases hraise
  refine hcustomer.bind fun c found' _ haddress => ?_
  have hmethod : (Program.exec (getPasswordMethod c.id) : Service LoginMethod).Earns Ok
      (fun m found'' => AddressOf found'' email c.id ∧
        ∃ w ∈ found'', m ∈ w.db.loginMethods.rows ∧ loginMethodOf c.id .password m = true)
      found' := by
    refine Program.earns_exec fun w m w' h => ?_
    obtain hget | ⟨-, hraise⟩ := Tx.handling_ok h
    · obtain ⟨rfl, hrow⟩ := Objects.get_ok hget
      obtain ⟨w₀, hw₀, haddress⟩ := haddress
      exact ⟨refl_of _ w', ⟨w₀, Program.subset_learn hw₀, haddress⟩, w',
        Program.before_mem_learn, Table.mem_of_get hrow, Table.holds_of_get hrow⟩
    · cases hraise
  refine hmethod.bind fun m found'' _ ⟨haddress, w, hw, hm, howner⟩ => ?_
  refine Program.earns_require_bind fun hpassword => Program.Earns.bind_return ?_
  exact h c found'' haddress ⟨w, hw, m, hm, howner, hpassword⟩

/-- A Google login issues a session to the customer that the block resolves the account to. -/
lemma loginWithGoogle_earns {clientId : String} {reply : TokeninfoReply}
    {post : Customer × AccessToken × RefreshToken → Set World → Prop}
    (hblock : ∀ profile w customer w', verifyIdToken clientId reply = .ok profile →
      (googleBlock profile).run w = .ok (customer, w') → Ok (insert w found) w w')
    (h : ∀ profile customer found', verifyIdToken clientId reply = .ok profile →
      GoogleResolves found' profile customer.id →
      (issueSession customer.id).Earns Ok (fun tokens => post (customer, tokens)) found') :
    (loginWithGoogle clientId reply).Earns Ok post found := by
  refine Program.earns_ofExcept_bind fun profile hprofile => ?_
  have hresolves : (Program.exec (googleBlock profile) : Service Customer).Earns Ok
      (fun customer found' => GoogleResolves found' profile customer.id) found :=
    Program.earns_exec fun w customer w' hrun =>
      ⟨hblock profile w customer w' hprofile hrun, w, Program.before_mem_learn, customer, w', hrun,
        rfl⟩
  exact hresolves.bind fun customer found' _ hcustomer =>
    Program.Earns.bind_return (h profile customer found' hprofile hcustomer)

omit [PyText] in
/-- A rotation goes on with the active session of the token that was presented. -/
lemma rotateRefreshToken_earns [Libraries] {text : String}
    (htext : refreshTokenSerializer request.data = .ok text)
    {post : AccessToken × RefreshToken → Set World → Prop}
    (h : ∀ session found', Refreshes request found' session →
      (do
        let _ ← (saveRevokedAt session : Statement Unit)
        issueSession session.customerId : Service _).Earns Ok post found') :
    (rotateRefreshToken (TokenTexts.readRefresh text)).Earns Ok post found := by
  have hdecode : (Program.exec (decodeCustomerToken (TokenTexts.readRefresh text)) :
      Service RefreshToken).Earns Ok (fun token _ => TokenTexts.readRefresh text = .signed token ∧
        token.actorType = some .customer) found := by
    refine Program.earns_exec fun w token w' h => ?_
    obtain ⟨rfl, hsigned, hkind⟩ := decodeCustomerToken_ok h
    exact ⟨refl_of _ w', hsigned, hkind⟩
  refine hdecode.bind fun token found' _ ⟨hsigned, hkind⟩ => ?_
  have hlookup : (Program.exec (lookupSession token) : Service Session).Earns Ok
      (fun session found'' => ∃ w ∈ found'', session ∈ w.db.sessions.rows ∧
        session.refreshTokenHash = hashJti token.jti) found' := by
    refine Program.earns_exec fun w session w' h => ?_
    obtain ⟨rfl, hstored, hhash⟩ := lookupSession_ok h
    exact ⟨refl_of _ w', w', Program.before_mem_learn, hstored, hhash⟩
  refine hlookup.bind fun session found'' _ ⟨w, hw, hstored⟩ => ?_
  have hcheck : (Program.exec (checkSession session) : Service Unit).Earns Ok
      (fun _ found₃ => Refreshes request found₃ session) found'' := by
    refine Program.earns_exec fun w' u w'' h => ?_
    obtain ⟨rfl, hactive⟩ := checkSession_ok h
    exact ⟨refl_of _ w'', ⟨text, token, htext, hsigned, hkind, w, Program.subset_learn hw,
      hstored⟩, w'', Program.before_mem_learn, hactive⟩
  exact hcheck.bind fun _ found₃ _ hrefreshes => h session found₃ hrefreshes

end Customers

/-! ## Verification tokens -/

section Tokens

lemma checkTokenExpiry_fresh {token : VerificationToken} {w w' : World} {u : Unit}
    (h : (checkTokenExpiry token).run w = .ok (u, w')) : w' = w ∧ w.now ≤ token.expiresAt := by
  obtain ⟨now, w₁, hnow, hrest⟩ := Tx.bind_ok h
  cases hnow
  obtain ⟨rfl, hfresh⟩ := Tx.require_ok hrest
  simpa using hfresh

/-- A consumer runs its block for the token that the request presents. -/
lemma consumeToken_earns [Libraries] {purpose : Purpose}
    {effect : VerificationToken → Customer → Statement Customer} {rawToken : RawToken}
    (hraw : presentedToken request.data purpose = some rawToken)
    {post : Customer → Set World → Prop}
    (h : ∀ token customer found', OwnerOf found' token customer →
      Presents request found' purpose token →
      (Program.exec (consumeBlock effect token customer) : Service Customer).Earns Ok post found') :
    (consumeToken purpose effect rawToken).Earns Ok post found := by
  have hlookup : (Program.exec (lookupToken purpose rawToken) : Service _).Earns Ok
      (fun r found' => OwnerOf found' r.1 r.2 ∧ ∃ w ∈ found',
        r.1 ∈ w.db.verificationTokens.rows ∧ consumable purpose rawToken r.1 = true) found := by
    refine Program.earns_exec fun w r w' h => ?_
    obtain ⟨rfl, hstored, hconsumable⟩ := lookupToken_ok h
    obtain ⟨howner, hcustomer⟩ := lookupToken_customer h
    exact ⟨refl_of _ w', ⟨howner, w', Program.before_mem_learn, hcustomer⟩, w',
      Program.before_mem_learn, hstored, hconsumable⟩
  refine hlookup.bind fun r found' _ ⟨howner, w, hw, hstored⟩ => ?_
  have hcheck : (Program.exec (checkTokenExpiry r.1) : Service Unit).Earns Ok
      (fun _ found'' => Presents request found'' purpose r.1) found' := by
    refine Program.earns_exec fun w' u w'' h => ?_
    obtain ⟨rfl, hfresh⟩ := checkTokenExpiry_fresh h
    exact ⟨refl_of _ w'', ⟨rawToken, hraw, w, Program.subset_learn hw, hstored⟩, w'',
      Program.before_mem_learn, hfresh⟩
  exact hcheck.bind fun _ found'' hsub hpresents =>
    h r.1 r.2 found'' (howner.mono hsub) hpresents

end Tokens

/-! ## Locales -/

lemma firstActiveCountry_earns : (Program.exec firstActiveCountry : Service _).Earns Ok
    (fun country found' => ∀ c, country = some c → ∃ w ∈ found',
      c ∈ w.db.supportedCountries.rows ∧ c.isActive = true) found := by
  refine Program.earns_exec fun w country w' h => ?_
  obtain rfl : w = w' := congrArg Prod.snd (Except.ok.inj h)
  refine ⟨refl_of _ w, fun c hc => ⟨w, Program.before_mem_learn, ?_⟩⟩
  rw [hc] at h
  obtain ⟨-, hfirst⟩ := firstActiveCountry_ok h
  exact ⟨hfirst.stored, hfirst.active⟩

/-- The chosen locale and currency are offered by the country that was found. -/
lemma validateLocaleAndCurrency_earns (locale currency : String) :
    (validateLocaleAndCurrency locale currency).Earns Ok
      (fun _ found' => Offered found' locale currency) found := by
  refine firstActiveCountry_earns.bind fun country found' _ hcountry => ?_
  cases country with
  | none => exact Program.earns_raise _
  | some country =>
      obtain ⟨w, hw, hstored, hactive⟩ := hcountry country rfl
      refine Program.earns_require_bind fun hlocale => ?_
      refine Program.earns_require_bind fun hcurrency => Program.earns_pure ?_
      exact ⟨w, hw, country, hstored, hactive, of_decide_eq_true hlocale,
        of_decide_eq_true hcurrency⟩

/-! ## Staff -/

section Staff

/-- The device of the staff member, with what was found of it. -/
lemma loadTotpDevice_earns (staff : Staff) :
    (loadTotpDevice { staff := staff }).Earns Ok (fun device found' => ∀ d, device = some d →
      ∃ w ∈ found', d ∈ w.db.staffTotpDevices.rows ∧ d.staffId = staff.id) found := by
  refine Program.earns_exec fun w device w' h => ?_
  obtain hget | ⟨-, hnone⟩ := Tx.handling_ok h
  · obtain ⟨d, w₁, hrow, hpure⟩ := Tx.bind_ok hget
    cases hpure
    obtain ⟨rfl, hrow⟩ := Objects.get_ok hrow
    have hholds := Table.holds_of_get hrow
    refine ⟨refl_of _ w', fun d' hd' => ?_⟩
    cases hd'
    exact ⟨w', Program.before_mem_learn, Table.mem_of_get hrow, of_decide_eq_true hholds⟩
  · cases hnone
    exact ⟨refl_of _ w, fun d hd => by cases hd⟩

/-- A device is confirmed once the request has proven it. -/
lemma confirmMfaSetup_earns [Libraries] {staff : Staff} {token : String}
    (htoken : confirmMfaSerializer request.data = .ok token)
    {post : StaffTOTPDevice → Set World → Prop}
    (h : ∀ device found', found ⊆ found' → ProvesDevice request found' staff device →
      (Program.exec (saveConfirmedAt device) : Service StaffTOTPDevice).Earns Ok post found') :
    (confirmMfaSetup { staff := staff } token).Earns Ok post found := by
  refine (loadTotpDevice_earns staff).bind fun device found' hsub hdevice => ?_
  cases device with
  | none => exact Program.earns_raise _
  | some device =>
      obtain ⟨w, hw, hstored⟩ := hdevice device rfl
      have hverify : (Program.exec (verifyToken device token) : Service Bool).Earns Ok
          (fun verified found'' => found' ⊆ found'' ∧
            (verified = true → ProvesDevice request found'' staff device)) found' := by
        refine Program.earns_exec fun w' verified w'' h => ?_
        obtain rfl : w'' = w' := (verifyToken_ok h).1
        refine ⟨refl_of _ w'', Program.subset_learn, fun hverified => ?_⟩
        rw [hverified] at h
        exact ⟨⟨w, Program.subset_learn hw, hstored⟩, token, htoken, w'',
          Program.before_mem_learn, h⟩
      exact hverify.bind fun verified found'' _ ⟨hsub', hproves⟩ =>
        Program.earns_require_bind fun hverified =>
          h device found'' (hsub.trans hsub') (hproves hverified)

/-- The guard lets a staff member pass who was found with a confirmed device. -/
lemma requireConfirmedMfa_earns (staff : Staff) :
    (requireConfirmedMfa { staff := staff }).Earns Ok (fun actor found' => actor.staff = staff ∧
      ∃ w ∈ found', ConfirmedMfa w { staff := staff }) found := by
  have hload : (loadTotpDevice { staff := staff }).Earns Ok (fun device found' =>
      device.any StaffTOTPDevice.isConfirmed = true →
        ∃ w ∈ found', ConfirmedMfa w { staff := staff }) found := by
    refine Program.earns_exec fun w device w' hrun => ?_
    obtain ⟨device', hfound, hconfirmed⟩ := findTotpDevice_run staff.id w
    cases hfound.symm.trans hrun
    exact ⟨refl_of _ w, fun hdevice => ⟨w, Program.before_mem_learn, hconfirmed.1 hdevice⟩⟩
  have hlook : (hasConfirmedMfa { staff := staff }).Earns Ok (fun r found' => r.2.staff = staff ∧
      (r.1 = true → ∃ w ∈ found', ConfirmedMfa w { staff := staff })) found :=
    hload.bind fun _ _ _ hdevice => Program.earns_pure ⟨rfl, hdevice⟩
  exact hlook.bind fun _ _ _ hr => Program.earns_require_bind fun hconfirmed =>
    Program.earns_pure ⟨hr.1, hr.2 hconfirmed⟩

/-- The look at the device of an instance leaves it the instance of the same row. -/
lemma hasConfirmedMfa_staff (staff : StaffInstance) :
    (hasConfirmedMfa staff).Earns Ok (fun r _ => r.2.staff = staff.staff) found := by
  have hload : (loadTotpDevice staff).Earns Ok (fun _ _ => True) found := by
    unfold loadTotpDevice
    cases staff.totpDevice with
    | some device => exact Program.earns_pure trivial
    | none =>
        refine Program.earns_exec fun w device w' hrun => ?_
        obtain ⟨device', hfound, -⟩ := findTotpDevice_run staff.staff.id w
        cases hfound.symm.trans hrun
        exact ⟨refl_of _ w, trivial⟩
  exact hload.bind fun _ _ _ _ => Program.earns_pure rfl

lemma requireConfirmedMfa_staff (staff : StaffInstance) :
    (requireConfirmedMfa staff).Earns Ok (fun actor _ => actor.staff = staff.staff) found :=
  (hasConfirmedMfa_staff staff).bind fun _ _ _ hstaff => Program.earns_require_bind fun _ =>
    Program.earns_pure hstaff

/-- Behind its guards a sensitive endpoint has found all that it takes. -/
lemma sensitiveView_earns [PyText] {action : String} {staff : Staff}
    {run : StaffInstance → Request → Service Response} {post : Response → Set World → Prop}
    (hsigned : SignedIn request found (.staff staff))
    (h : ∀ (actor : StaffInstance) (key : String) (found' : Set World), actor.staff = staff →
      AuthorizedTo request found' action staff →
      requireIdempotencyKey (request.ofStaff staff) = .ok key →
      (replayOrRun (request.ofStaff staff) action key (run actor (request.ofStaff staff))).Earns
        Ok post found') :
    (sensitiveView action run (request.ofStaff staff)).Earns Ok post found := by
  refine Program.earns_require_bind fun hpermitted => ?_
  refine (requireConfirmedMfa_earns staff).bind fun actor found' hsub ⟨hactor, hconfirmed⟩ => ?_
  exact Program.earns_ofExcept_bind fun key hkey =>
    h actor key found' hactor ⟨hsigned.mono hsub, hpermitted, hconfirmed⟩ hkey

/-- The record that is found has the scope. -/
lemma findRecord_earns (scope : IdempotencyScope) :
    (Program.exec (findRecord scope) : Service (Option IdempotencyRecord)).Earns Ok
      (fun record found' => ∀ r, record = some r → r.scope = scope ∧
        ∃ w ∈ found', r ∈ w.db.idempotencyRecords.rows) found := by
  refine Program.earns_exec fun w record w' h => ?_
  obtain hget | ⟨-, hnone⟩ := Tx.handling_ok h
  · obtain ⟨r', w₁, hrow, hpure⟩ := Tx.bind_ok hget
    cases hpure
    obtain ⟨rfl, hrow⟩ := Objects.get_ok hrow
    refine ⟨refl_of _ w', fun r hr => ?_⟩
    cases hr
    have hholds := Table.holds_of_get hrow
    exact ⟨of_decide_eq_true hholds, w', Program.before_mem_learn, Table.mem_of_get hrow⟩
  · cases hnone
    exact ⟨refl_of _ _, fun r hr => by cases hr⟩

end Staff

end BePyEco
