import BePyEco.Api.Permanence

/-!
# Whose account it is

The account of a customer is the customer's row, login methods and sessions.  `ActsOnAccount` are
the ways to act on one: to be signed in, to know the password, to hold a refresh token, a mailed
token or the linked Google account, or to be authorized to disable the customer.

`account_untouched` is the theorem: in any interleaving of any work, an account that nobody acts on
is left exactly as it is.
-/

namespace BePyEco

open Library

/-! ## Acting on an account -/

/-- The endpoint that consumes the tokens of a purpose. -/
def Purpose.consumer : Purpose → Endpoint
  | emailVerification => .verifyEmail
  | passwordReset => .confirmPasswordReset
  | emailChange => .confirmEmailChange

/-- A piece of work acts on the account of a customer, with these databases for evidence. -/
inductive ActsOnAccount [Libraries] (visited : Set World) (customerId : Id) : Work → Prop
  | signedIn {endpoint : Endpoint} {request : HttpRequest} {customer : Customer}
      (h : SignedIn request visited (.customer customer)) (hid : customer.id = customerId) :
      ActsOnAccount visited customerId (.http endpoint request)
  | password {request : HttpRequest} {email password : String}
      (h : loginSerializer request.data = .ok (email, password))
      (haddress : AddressOf visited email customerId)
      (hpassword : PasswordOf visited password customerId) :
      ActsOnAccount visited customerId (.http .login request)
  | google {clientId : String} {tokeninfo : String → TokeninfoReply} {request : HttpRequest}
      {profile : GoogleProfile} (h : GoogleAccount request clientId tokeninfo profile)
      (hresolves : GoogleResolves visited profile customerId) :
      ActsOnAccount visited customerId (.http (.googleLogin clientId tokeninfo) request)
  | refresh {request : HttpRequest} {session : Session} (h : Refreshes request visited session)
      (hid : session.customerId = customerId) :
      ActsOnAccount visited customerId (.http .refreshToken request)
  | token {endpoint : Endpoint} {request : HttpRequest} {purpose : Purpose}
      {token : VerificationToken} (hconsumer : endpoint = purpose.consumer)
      (h : Presents request visited purpose token) (hid : token.customerId = customerId) :
      ActsOnAccount visited customerId (.http endpoint request)
  | disable {request : HttpRequest} {staff : Staff}
      (h : AuthorizedTo request visited "accounts.disable_customer" staff) :
      ActsOnAccount visited customerId (.http (.disableCustomer customerId) request)

section Acts

variable [Libraries] {found visited : Set World} {customerId : Id} {work : Work}

lemma ActsOnAccount.mono (h : ActsOnAccount found customerId work) (hsub : found ⊆ visited) :
    ActsOnAccount visited customerId work := by
  cases h with
  | signedIn h hid => exact .signedIn (h.mono hsub) hid
  | password h haddress hpassword => exact .password h (haddress.mono hsub) (hpassword.mono hsub)
  | google h hresolves => exact .google h (hresolves.mono hsub)
  | refresh h hid => exact .refresh (h.mono hsub) hid
  | token hconsumer h hid => exact .token hconsumer (h.mono hsub) hid
  | disable h => exact .disable (h.mono hsub)

/-- Whoever changes a customer acts on the account. -/
lemma actsOnAccount_of_customer_change {c c' : Customer}
    (h : (work.policy found .customers).change c c') : ActsOnAccount found c.id work := by
  cases work with
  | http endpoint request =>
      cases endpoint
      case verifyEmail =>
        obtain ⟨⟨token, hpresents⟩, hid, -⟩ := h
        exact .token rfl hpresents hid.symm
      case googleLogin clientId tokeninfo =>
        obtain ⟨⟨profile, haccount⟩, hresolves, -⟩ := h
        exact .google haccount hresolves
      case confirmEmailChange =>
        obtain ⟨⟨token, hpresents⟩, hid, -⟩ := h
        exact .token rfl hpresents hid.symm
      case updateLocalePreference =>
        obtain ⟨⟨customer, hsigned⟩, hid, -⟩ := h
        exact .signedIn hsigned hid.symm
      case disableCustomer customerId =>
        obtain ⟨⟨staff, hauthorized⟩, hid, -⟩ := h
        rw [hid]
        exact .disable hauthorized
      all_goals first | exact h.elim | exact h.elim fun _ h => h.elim
  | internal call => cases call <;> exact h.elim
  | _ => exact h.elim

/-- Whoever adds a login method acts on the account, or has found it not to be there. -/
lemma actsOnAccount_of_loginMethod_add {m : LoginMethod}
    (h : (work.policy found .loginMethods).add m) :
    ActsOnAccount found m.customerId work ∨ NewCustomer found m.customerId := by
  cases work with
  | http endpoint request =>
      cases endpoint
      case register => exact Or.inr h.2
      case googleLogin clientId tokeninfo =>
        obtain ⟨⟨profile, haccount⟩, -, -, hresolves⟩ := h
        exact Or.inl (.google haccount hresolves)
      case confirmPasswordReset =>
        obtain ⟨⟨token, hpresents⟩, hid, -⟩ := h
        exact Or.inl (.token rfl hpresents hid.symm)
      all_goals first | exact h.elim | exact h.elim fun _ h => h.elim
  | internal call => cases call <;> exact h.elim
  | _ => exact h.elim

lemma actsOnAccount_of_loginMethod_change {m m' : LoginMethod}
    (h : (work.policy found .loginMethods).change m m') :
    ActsOnAccount found m.customerId work := by
  cases work with
  | http endpoint request =>
      cases endpoint
      case confirmPasswordReset =>
        obtain ⟨⟨token, hpresents⟩, hid, -⟩ := h
        exact .token rfl hpresents hid.symm
      all_goals first | exact h.elim | exact h.elim fun _ h => h.elim
  | internal call => cases call <;> exact h.elim
  | _ => exact h.elim

/-- Whoever adds a session acts on the account. -/
lemma actsOnAccount_of_session_add {s : Session} (h : (work.policy found .sessions).add s) :
    ActsOnAccount found s.customerId work := by
  cases work with
  | http endpoint request =>
      cases endpoint
      case login =>
        obtain ⟨⟨id, email, password, hfields, haddress, hpassword⟩, hid, -⟩ := h
        rw [hid]
        exact .password hfields haddress hpassword
      case googleLogin clientId tokeninfo =>
        obtain ⟨⟨profile, haccount⟩, hresolves, -⟩ := h
        exact .google haccount hresolves
      case refreshToken =>
        obtain ⟨⟨session, hrefreshes⟩, hid, -⟩ := h
        exact .refresh hrefreshes hid.symm
      all_goals first | exact h.elim | exact h.elim fun _ h => h.elim
  | internal call => cases call <;> exact h.elim
  | _ => exact h.elim

/-- Whoever changes a session acts on the account, or on that of the session with its id. -/
lemma actsOnAccount_of_session_change {s s' : Session}
    (h : (work.policy found .sessions).change s s') :
    ActsOnAccount found s.customerId work ∨ ∃ request session, work = .http .refreshToken request ∧
      Refreshes request found session ∧ s.id = session.id := by
  cases work with
  | http endpoint request =>
      cases endpoint
      case refreshToken =>
        obtain ⟨⟨session, hrefreshes⟩, hid, -⟩ := h
        exact Or.inr ⟨request, session, rfl, hrefreshes, hid⟩
      case sessionRevoke sessionId =>
        obtain ⟨⟨customer, hsigned⟩, -, hid, -⟩ := h
        exact Or.inl (.signedIn hsigned hid.symm)
      case sessionRevokeAll =>
        obtain ⟨⟨customer, hsigned⟩, hid, -⟩ := h
        exact Or.inl (.signedIn hsigned hid.symm)
      case disableCustomer customerId =>
        obtain ⟨⟨staff, hauthorized⟩, hid, -⟩ := h
        rw [hid]
        exact Or.inl (.disable hauthorized)
      all_goals first | exact h.elim | exact h.elim fun _ h => h.elim
  | internal call => cases call <;> exact h.elim
  | _ => exact h.elim

end Acts

/-! ## Accounts -/

/-- The rows that make up the account of a customer. -/
def accountOf (customerId : Id) (db : Database) :
    List Customer × List LoginMethod × List Session :=
  (db.customers.rows.filter (customerOf customerId),
    db.loginMethods.rows.filter fun m => decide (m.customerId = customerId),
    db.sessions.rows.filter fun s => decide (s.customerId = customerId))

section Runs

variable [Libraries] {ι : Type} [DecidableEq ι] {w : World} {work : ι → Work}
  {P : Pool ι (Service (Option Answer)) World} {c : Customer} {visited : Set World}

omit [DecidableEq ι] in
/-- What the surroundings may do, they do to categories. -/
lemma earned_by_work {name : TableName} (hname : name ≠ .categories) :
    (∀ {r}, (earnedPolicy work visited name).add r →
      ∃ i, ∃ found ⊆ visited, ((work i).policy found name).add r) ∧
    (∀ {r r'}, (earnedPolicy work visited name).change r r' →
      ∃ i, ∃ found ⊆ visited, ((work i).policy found name).change r r') := by
  constructor
  · rintro r ⟨source, h⟩
    cases source with
    | none => cases name <;> first | exact h.elim | exact absurd rfl hname
    | some s => exact ⟨s.1, s.2.1, s.2.2, h⟩
  · rintro r r' ⟨source, h⟩
    cases source with
    | none => cases name <;> first | exact h.elim | exact absurd rfl hname
    | some s => exact ⟨s.1, s.2.1, s.2.2, h⟩

/-- A row of a table whose rows never change was there at the start, or is added by a piece of
work. -/
lemma origin_of_row {name : TableName} (hname : name ≠ .categories)
    (hconstant : ∀ {source : Option (Work × Set World)} {r r' : name.Row},
      ¬ (sourcePolicy source name).change r r')
    (h : ApiVisits (apiPool w work) visited P) {r : name.Row}
    (hr : r ∈ (name.table P.store.db).rows) :
    r ∈ (name.table w.db).rows ∨
      ∃ i, ∃ found ⊆ visited, ((work i).policy found name).add r := by
  have hkeeps : ∀ r r', (earnedPolicy work visited name).change r r' → r = r' := by
    intro r r' hchange
    obtain ⟨source, hsource⟩ := ((earnedPolicy_le _).tables name).change r r' hchange
    exact absurd hsource hconstant
  obtain ⟨r₀, hr₀, -, rfl⟩ | ⟨r₀, hadd, -, rfl⟩ :=
    TablePolicy.origin_of_allows hkeeps ((run_allows_start h).tables name) hr
  · exact Or.inl hr₀
  · exact Or.inr ((earned_by_work hname).1 hadd)

/-- The key of a stored customer is not given to a new one. -/
lemma not_newCustomer (hc : c ∈ w.db.customers.rows) (h : ApiVisits (apiPool w work) visited P) :
    ¬ NewCustomer visited c.id := by
  rintro ⟨w', hw', hnext⟩
  obtain ⟨P', hrun, -, rfl⟩ := h.exists_run hw'
  have hle : w.db.customers.next ≤ P'.store.db.customers.next :=
    TablePolicy.next_le_of_allows ((app_policy .refl hrun).tables .customers)
  have hlt : c.id < w.db.customers.next := w.db.customers.pk_lt c hc
  exact absurd hnext (Nat.ne_of_gt (Nat.lt_of_lt_of_le hlt hle))

/-- Sessions with one id, on the way to a database and in one visited before it, belong to one
customer. -/
lemma customerId_eq_of_session (h : ApiVisits (apiPool w work) visited P) {t : Table Session}
    (ht : (appPolicy .sessions).Allows t P.store.db.sessions) {s session : Session}
    (hs : s ∈ t.rows) {w' : World} (hw' : w' ∈ visited)
    (hsession : session ∈ w'.db.sessions.rows) (hid : s.id = session.id) :
    s.customerId = session.customerId := by
  obtain ⟨s₁, hs₁, hkept₁⟩ := (permanent_of_visited .refl h hw').sessions session hsession
  have hsessions : KeptAs SessionKept t.rows P.store.db.sessions.rows :=
    keptAs_of_appPolicy rfl session_change ht
  obtain ⟨s₂, hs₂, hkept₂⟩ := hsessions s hs
  have hsame : s₂ = s₁ := by
    refine P.store.db.sessions.eq_of_pk hs₂ hs₁ ?_
    exact (congrArg Prod.fst hkept₂.1).trans (hid.trans (congrArg Prod.fst hkept₁.1).symm)
  rw [hsame] at hkept₂
  have howner₁ : s₁.customerId = session.customerId := congrArg (fun k => k.2.1) hkept₁.1
  have howner₂ : s₁.customerId = s.customerId := congrArg (fun k => k.2.1) hkept₂.1
  exact howner₂.symm.trans howner₁

omit [DecidableEq ι] in
lemma not_removed_by_work {name : TableName} {r : name.Row}
    (hname : name.losesRows = false) : ¬ (earnedPolicy work visited name).remove r := by
  intro h
  obtain ⟨source, h⟩ := ((earnedPolicy_le visited).tables name).remove r h
  exact not_removed hname h

section Untouched

variable (hc : c ∈ w.db.customers.rows) (h : ApiVisits (apiPool w work) visited P)
  (hnobody : ∀ i, ¬ ActsOnAccount visited c.id (work i))

include hnobody

omit [DecidableEq ι] in
lemma ne_of_actsOnAccount {i : ι} {found : Set World} {customerId : Id}
    (hsub : found ⊆ visited) (hon : ActsOnAccount found customerId (work i)) :
    customerId ≠ c.id := by
  rintro rfl
  exact hnobody i (hon.mono hsub)

include hc h

lemma customers_untouched : P.store.db.customers.rows.filter (customerOf c.id) =
    w.db.customers.rows.filter (customerOf c.id) := by
  refine TablePolicy.filter_eq_of_allows ?_ ?_ ?_ ((run_allows_start h).tables .customers)
  · intro t r _ _ _ hnext
    have hlt : c.id < w.db.customers.next := w.db.customers.pk_lt c hc
    exact decide_eq_false (Nat.ne_of_gt (Nat.lt_of_lt_of_le hlt hnext))
  · intro t r r' _ _ _ hpk hchange
    obtain ⟨i, found, hsub, hchange⟩ := (earned_by_work (by decide)).2 hchange
    have hne : r.id ≠ c.id :=
      ne_of_actsOnAccount hnobody hsub (actsOnAccount_of_customer_change hchange)
    exact ⟨decide_eq_false hne, decide_eq_false (hpk.trans_ne hne)⟩
  · exact fun r hr => absurd hr (not_removed_by_work rfl)

lemma loginMethods_untouched :
    (P.store.db.loginMethods.rows.filter fun m => decide (m.customerId = c.id)) =
      w.db.loginMethods.rows.filter fun m => decide (m.customerId = c.id) := by
  refine TablePolicy.filter_eq_of_allows ?_ ?_ ?_ ((run_allows_start h).tables .loginMethods)
  · intro t m _ hadd _ _
    obtain ⟨i, found, hsub, hadd⟩ := (earned_by_work (by decide)).1 hadd
    obtain hon | ⟨w', hw', hnew⟩ := actsOnAccount_of_loginMethod_add hadd
    · exact decide_eq_false (ne_of_actsOnAccount hnobody hsub hon)
    · refine decide_eq_false fun heq => not_newCustomer hc h ⟨w', hsub hw', ?_⟩
      rw [← heq]
      exact hnew
  · intro t m m' _ _ _ _ hchange
    obtain ⟨i, found, hsub, hchange⟩ := (earned_by_work (by decide)).2 hchange
    have hne := ne_of_actsOnAccount hnobody hsub (actsOnAccount_of_loginMethod_change hchange)
    have hsource : (sourcePolicy (some (work i, found)) .loginMethods).change m m' := hchange
    have howner : m'.customerId = m.customerId :=
      congrArg (fun k => k.2.1) (loginMethod_change hsource).1
    exact ⟨decide_eq_false hne, decide_eq_false (howner.trans_ne hne)⟩
  · exact fun r hr => absurd hr (not_removed_by_work rfl)

omit hc in
lemma sessions_untouched :
    (P.store.db.sessions.rows.filter fun s => decide (s.customerId = c.id)) =
      w.db.sessions.rows.filter fun s => decide (s.customerId = c.id) := by
  refine TablePolicy.filter_eq_of_allows ?_ ?_ ?_ ((run_allows_start h).tables .sessions)
  · intro t s _ hadd _ _
    obtain ⟨i, found, hsub, hadd⟩ := (earned_by_work (by decide)).1 hadd
    exact decide_eq_false (ne_of_actsOnAccount hnobody hsub (actsOnAccount_of_session_add hadd))
  · intro t s s' _ hrest hs _ hchange
    obtain ⟨i, found, hsub, hchange⟩ := (earned_by_work (by decide)).2 hchange
    have hne : s.customerId ≠ c.id := by
      obtain hon | ⟨request, session, hwork, hrefreshes, hid⟩ :=
        actsOnAccount_of_session_change hchange
      · exact ne_of_actsOnAccount hnobody hsub hon
      · -- the session was found under its id, which belongs to it for good
        obtain ⟨text, token, -, -, -, w', hw', hsession, -⟩ := hrefreshes.stored
        have happ : (appPolicy .sessions).Allows _ P.store.db.sessions :=
          hrest.mono ((earnedPolicy_le _).tables .sessions)
        rw [customerId_eq_of_session h happ hs (hsub hw') hsession hid]
        refine ne_of_actsOnAccount hnobody (i := i) hsub ?_
        rw [hwork]
        exact .refresh hrefreshes rfl
    have hsource : (sourcePolicy (some (work i, found)) .sessions).change s s' := hchange
    have howner : s'.customerId = s.customerId :=
      congrArg (fun k => k.2.1) (session_change hsource).1
    exact ⟨decide_eq_false hne, decide_eq_false (howner.trans_ne hne)⟩
  · exact fun r hr => absurd hr (not_removed_by_work rfl)

/-- In any interleaving of any work, the account of a customer on which nobody acts is left exactly
as it is. -/
theorem account_untouched : accountOf c.id P.store.db = accountOf c.id w.db := by
  rw [accountOf, accountOf, customers_untouched hc h hnobody, loginMethods_untouched hc h hnobody,
    sessions_untouched h hnobody]

end Untouched

end Runs

section Example

attribute [local instance] plainLibraries

/-- The requests of the second staff member have no other caller. -/
lemma eq_of_signedIn_byRoot {data : Json} {visited : Set World} {user : Actor}
    (h : SignedIn (byRoot data) visited user) : user.id = 1 ∧ user.kind = .staff := by
  obtain ⟨w, -, ⟨token, htoken, hid, hkind⟩, -⟩ := h.caller
  cases htoken
  exact ⟨hid.symm, (Option.some.inj hkind).symm⟩

/-- None of the errands acts on the account of the second customer. -/
lemma not_actsOnAccount_errands (visited : Set World) (errand : Errand) :
    ¬ ActsOnAccount visited 1 (errands errand) := by
  intro h
  cases errand <;> cases h
  case newcomer.signedIn customer hid h =>
    obtain ⟨w, -, ⟨token, htoken, -⟩, -⟩ := h.caller
    cases htoken
  all_goals first
    | cases (eq_of_signedIn_byRoot ‹SignedIn _ _ _›).2
    | cases ‹Purpose› <;> cases ‹_ = Purpose.consumer _›

lemma account_untouched_secondCustomer :
    accountOf 1 errandsDone.store.db = accountOf 1 openingWorld.db := by
  have hc : ⟨1, "b@example.com", none, true, "", ""⟩ ∈ openingWorld.db.customers.rows := by decide
  obtain ⟨visited, h⟩ := (rootEnrolled_run.trans errandsDone_run).visits
  exact account_untouched hc h (not_actsOnAccount_errands visited)

end Example

end BePyEco
