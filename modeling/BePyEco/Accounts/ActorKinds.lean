import BePyEco.Accounts.Customers
import BePyEco.Accounts.SessionControl
import BePyEco.Library.Trace

/-!
# The actors behind the tokens

`login_staff`, and what `JWTAuthentication.get_user` makes of the access tokens that the login
flows and `rotate_refresh_token` hand out.

A rotation mints its tokens for the customer of the session it finds, not for the user of the
token it is presented.  That the two are the same is an invariant of the traces of these calls:
every session with the digest of a token is a session of the customer whom the token was minted
for.  With it a token resolves, along a chain of rotations of any length, to the row that the
login at its start returned (`staysWithin_of_trace`).
-/

namespace BePyEco

open Library Library.Program

/-! ## Staff login -/

/-- `Staff.objects.get(email=..., is_active=True)`. -/
def getActiveStaff (email : String) : Statement Staff :=
  (Objects.get fun s : Staff => decide (s.email = email) && s.isActive).handling .doesNotExist
    (Tx.raise (.app .invalidCredentials))

/-- Mint a refresh token with the staff claim. -/
def mintStaffToken (staffId : Id) : Statement RefreshToken := do
  let refresh ← RefreshToken.forStaff staffId
  return { refresh with actorType := some .staff }

def loginStaff [PyText] (email password : String) :
    Service (Staff × AccessToken × RefreshToken) := do
  let staff ← getActiveStaff (normalizeEmail email)
  Program.require (checkPassword password (some staff.passwordHash)) .invalidCredentials
  let refresh ← mintStaffToken staff.id
  return (staff, refresh.staffAccessToken, refresh)

/-! ## Resolving a token -/

def Actor.kind : Actor → ActorType
  | customer _ => .customer
  | staff _ => .staff

def Actor.id : Actor → Id
  | customer c => c.id
  | staff s => s.id

/-- The row of the actor is stored and active. -/
def Actor.Active (w : World) : Actor → Prop
  | customer c => c ∈ w.db.customers.rows ∧ c.isActive = true
  | staff s => s ∈ w.db.staff.rows ∧ s.isActive = true

/-- A lookup by key and activity finds the active row with the key, if there is one. -/
private lemma resolve_run {Row : Type} [Model Row] [Stored World Row] {key : Id}
    {isActive : Row → Bool} {wrap : Row → Actor} {w : World}
    {x : Statement Actor}
    (hx : x = (do let row ← Objects.get fun r : Row => decide (Model.pk r = key) && isActive r
                  return wrap row : Statement Actor).handling .doesNotExist
              (Tx.raise (.app .invalidToken))) :
    (∃ r ∈ (Stored.table w : Table Row).rows, Model.pk r = key ∧ isActive r = true ∧
        x.run w = .ok (wrap r, w)) ∨
      ((∀ r ∈ (Stored.table w : Table Row).rows, Model.pk r = key → isActive r = false) ∧
        x.run w = .error (.app .invalidToken)) := by
  have huniq : ∀ a ∈ (Stored.table w : Table Row).rows, ∀ b ∈ (Stored.table w : Table Row).rows,
      (decide (Model.pk a = key) && isActive a) = true →
        (decide (Model.pk b = key) && isActive b) = true → a = b := by
    intro a ha b hb hpa hpb
    simp only [Bool.and_eq_true, decide_eq_true_eq] at hpa hpb
    exact (Stored.table w : Table Row).eq_of_pk ha hb (hpa.1.trans hpb.1.symm)
  rw [hx]
  obtain ⟨r, hr, hp, hget⟩ | hnone := Table.get_cases huniq
  · simp only [Bool.and_eq_true, decide_eq_true_eq] at hp
    refine Or.inl ⟨r, hr, hp.1, hp.2, Tx.run_handling_ok ?_⟩
    rw [Tx.run_bind, Objects.run_get_of_ok hget]
    rfl
  · refine Or.inr ⟨fun r hr hkey => ?_, (Tx.run_handling_error ?_).trans rfl⟩
    · have hfalse := Table.get_eq_doesNotExist_iff.1 hnone r hr
      simpa [hkey] using hfalse
    · rw [Tx.run_bind, Objects.run_get_of_error hnone]

/-- An access token resolves to the active row of its kind and id, or is refused. -/
lemma getUser_run {access : AccessToken} {kind : ActorType} (hkind : access.actorType = some kind)
    (w : World) :
    (∃ actor : Actor, actor.Active w ∧ actor.kind = kind ∧ actor.id = access.userId ∧
        (getUser access).run w = .ok (actor, w)) ∨
      ((∀ actor : Actor, actor.Active w → actor.kind = kind → actor.id ≠ access.userId) ∧
        (getUser access).run w = .error (.app .invalidToken)) := by
  unfold getUser
  rw [hkind]
  cases kind with
  | customer =>
      obtain ⟨c, hc, hid, hactive, hrun⟩ | ⟨hnone, hrun⟩ := @resolve_run Customer _ _
        access.userId Customer.isActive .customer w (authenticateCustomer access.userId) rfl
      · exact Or.inl ⟨.customer c, ⟨hc, hactive⟩, rfl, hid, hrun⟩
      · refine Or.inr ⟨fun actor hactor hkind hid => ?_, hrun⟩
        cases actor with
        | customer c =>
            have hfalse := hnone c hactor.1 hid
            rw [hactor.2] at hfalse
            cases hfalse
        | staff s => cases hkind
  | staff =>
      obtain ⟨s, hs, hid, hactive, hrun⟩ | ⟨hnone, hrun⟩ := @resolve_run Staff _ _
        access.userId Staff.isActive .staff w (authenticateStaff access.userId) rfl
      · exact Or.inl ⟨.staff s, ⟨hs, hactive⟩, rfl, hid, hrun⟩
      · refine Or.inr ⟨fun actor hactor hkind hid => ?_, hrun⟩
        cases actor with
        | customer c => cases hkind
        | staff s =>
            have hfalse := hnone s hactor.1 hid
            rw [hactor.2] at hfalse
            cases hfalse

/-- Two active actors of one kind with one id are the same row. -/
lemma Actor.Active.eq {w : World} {a b : Actor} (ha : a.Active w) (hb : b.Active w)
    (hkind : a.kind = b.kind) (hid : a.id = b.id) : a = b := by
  cases a with
  | customer c =>
      cases b with
      | customer c' => rw [w.db.customers.eq_of_pk ha.1 hb.1 hid]
      | staff s => cases hkind
  | staff s =>
      cases b with
      | customer c => cases hkind
      | staff s' => rw [w.db.staff.eq_of_pk ha.1 hb.1 hid]

/-- In every world the token resolves to the row of the kind with the id while that row is active,
and is refused otherwise. -/
structure ResolvesTo (access : AccessToken) (kind : ActorType) (id : Id) : Prop where
  row : ∀ w actor w', (getUser access).run w = .ok (actor, w') ↔
    actor.Active w ∧ actor.kind = kind ∧ actor.id = id ∧ w' = w
  refused : ∀ w e, (getUser access).run w = .error e → e = .app .invalidToken

lemma resolvesTo_of_claims {access : AccessToken} {kind : ActorType} {id : Id}
    (hid : access.userId = id) (hkind : access.actorType = some kind) :
    ResolvesTo access kind id := by
  refine ⟨fun w actor w' => ?_, fun w e hrun => ?_⟩
  · obtain ⟨found, hfound, hfoundKind, hfoundId, hrun⟩ | ⟨hnone, hrun⟩ := getUser_run hkind w
    · constructor
      · intro h
        cases hrun.symm.trans h
        exact ⟨hfound, hfoundKind, hfoundId.trans hid, rfl⟩
      · rintro ⟨hactor, hactorKind, hactorId, rfl⟩
        have heq : actor = found := hactor.eq hfound (hactorKind.trans hfoundKind.symm)
          (hactorId.trans (hfoundId.trans hid).symm)
        rw [heq]
        exact hrun
    · constructor
      · intro h
        cases hrun.symm.trans h
      · rintro ⟨hactor, hactorKind, hactorId, -⟩
        exact absurd (hactorId.trans hid.symm) (hnone actor hactor hactorKind)
  · obtain ⟨found, -, -, -, hok⟩ | ⟨-, herror⟩ := getUser_run hkind w
    · cases hok.symm.trans hrun
    · cases herror.symm.trans hrun
      rfl

/-! ## Minting -/

/-- Between two worlds random values were drawn at most, and no session got another digest or
another customer. -/
structure KeepsOwners (w w' : World) : Prop where
  entropy : w.entropy ≤ w'.entropy
  sessions : ∀ s' ∈ w'.db.sessions.rows, ∃ s ∈ w.db.sessions.rows,
    s.refreshTokenHash = s'.refreshTokenHash ∧ s.customerId = s'.customerId

instance : Std.Refl KeepsOwners where
  refl _ := ⟨le_refl _, fun s hs => ⟨s, hs, rfl, rfl⟩⟩

instance : IsTrans World KeepsOwners where
  trans a b c hab hbc := by
    refine ⟨hab.entropy.trans hbc.entropy, fun s'' hs'' => ?_⟩
    obtain ⟨s', hs', hhash', hcustomer'⟩ := hbc.sessions s'' hs''
    obtain ⟨s, hs, hhash, hcustomer⟩ := hab.sessions s' hs'
    exact ⟨s, hs, hhash.trans hhash', hcustomer.trans hcustomer'⟩

lemma KeepsOwners.of_eq {w w' : World} (hentropy : w'.entropy = w.entropy)
    (hsessions : w'.db.sessions = w.db.sessions) : KeepsOwners w w' := by
  refine ⟨hentropy.ge, fun s hs => ?_⟩
  rw [hsessions] at hs
  exact ⟨s, hs, rfl, rfl⟩

/-- A pair of tokens was minted for an actor: both carry the claims of the actor, the random value
of the refresh token is new, and only a session of that customer may have been added for it. -/
structure Minted (kind : ActorType) (id : Id) (access : AccessToken) (refresh : RefreshToken)
    (w w' : World) : Prop where
  refreshUser : refresh.userId = id
  refreshKind : refresh.actorType = some kind
  accessUser : access.userId = id
  accessKind : access.actorType = some kind
  fresh : w.entropy ≤ refresh.jti
  drawn : refresh.jti < w'.entropy
  sessions : ∀ s' ∈ w'.db.sessions.rows,
    (∃ s ∈ w.db.sessions.rows,
      s.refreshTokenHash = s'.refreshTokenHash ∧ s.customerId = s'.customerId) ∨
    (s'.refreshTokenHash = hashJti refresh.jti ∧ s'.customerId = id)

lemma mintCustomerToken_run (customerId : Id) (w : World) :
    ∃ refresh, (mintCustomerToken customerId).run w =
        .ok (refresh, { w with entropy := w.entropy + 1 }) ∧
      refresh.userId = customerId ∧ refresh.actorType = some .customer ∧
      refresh.jti = w.entropy :=
  ⟨_, rfl, rfl, rfl, rfl⟩

lemma mintStaffToken_run (staffId : Id) (w : World) :
    ∃ refresh, (mintStaffToken staffId).run w =
        .ok (refresh, { w with entropy := w.entropy + 1 }) ∧
      refresh.userId = staffId ∧ refresh.actorType = some .staff ∧ refresh.jti = w.entropy :=
  ⟨_, rfl, rfl, rfl, rfl⟩

/-- `issue_session` mints for the customer it is given. -/
lemma issueSession_mints (w₀ : World) (customerId : Id) :
    (issueSession customerId).Triple (KeepsOwners w₀)
      (fun r w => Minted .customer customerId r.1 r.2 w₀ w) (KeepsOwners w₀) := by
  let Drawn : RefreshToken → World → Prop := fun refresh w => KeepsOwners w₀ w ∧
    refresh.userId = customerId ∧ refresh.actorType = some .customer ∧
    w₀.entropy ≤ refresh.jti ∧ refresh.jti < w.entropy
  have hmint : (Program.exec (mintCustomerToken customerId)).Triple (KeepsOwners w₀) Drawn
      (KeepsOwners w₀) := by
    refine .exec (fun w refresh w' hw hrun => ?_) fun _ _ hw _ => hw
    obtain ⟨minted, hminted, huser, hkind, hjti⟩ := mintCustomerToken_run customerId w
    cases hrun.symm.trans hminted
    refine ⟨⟨hw.entropy.trans (Nat.le_succ _), hw.sessions⟩, huser, hkind, ?_, ?_⟩
    · rw [hjti]
      exact hw.entropy
    · rw [hjti]
      exact Nat.lt_succ_self _
  have hcreate : ∀ refresh : RefreshToken, (Program.exec (createSession customerId refresh)).Triple
      (Drawn refresh) (fun _ w => Minted .customer customerId refresh.accessToken refresh w₀ w)
      (KeepsOwners w₀) := by
    intro refresh
    refine .exec (fun w s w' hw hrun => ?_) fun _ _ hw _ => hw.1
    obtain ⟨hkeeps, huser, hkind, hfresh, hdrawn⟩ := hw
    obtain ⟨t, hinsert, rfl⟩ := Objects.create_ok hrun
    refine ⟨huser, hkind, huser, hkind, hfresh, hdrawn, fun s' hs' => ?_⟩
    obtain hs' | rfl := (Table.mem_insert hinsert).1 hs'
    · exact Or.inl (hkeeps.sessions s' hs')
    · rw [(Table.insert_spec hinsert).1]
      exact Or.inr ⟨rfl, rfl⟩
  refine hmint.bind fun refresh => ?_
  exact (hcreate refresh).bind fun _ => .done_ok fun _ h => h

/-! ### The part before the minting -/

section Before

variable {w₀ : World} {α : Type}

/-- A statement that keeps the owners, before anything is minted. -/
lemma KeepsOwners.exec {x : Statement α} (hx : x.Guarantees KeepsOwners) :
    (Program.exec x).Triple (KeepsOwners w₀) (fun _ => KeepsOwners w₀) (KeepsOwners w₀) :=
  .of_guarantees (Program.guarantees_exec hx) fun _ _ hmove hw => trans_of KeepsOwners hw hmove

/-- A statement that leaves sessions and random values alone. -/
lemma keepsOwners_of_same {x : Statement α}
    (hx : x.Guarantees (Same fun w : World => (w.entropy, w.db.sessions))) :
    x.Guarantees KeepsOwners := by
  refine hx.mono fun w w' hsame => ?_
  have heq : (w'.entropy, w'.db.sessions) = (w.entropy, w.db.sessions) := hsame
  rw [Prod.mk.injEq] at heq
  exact .of_eq heq.1 heq.2

lemma verifyEmailNow_same (customer : Customer) :
    (verifyEmailNow customer).Guarantees (Same fun w => (w.entropy, w.db.sessions)) := by
  refine Tx.Guarantees.bind (Tx.guarantees_read _) fun _ => ?_
  exact Tx.Guarantees.bind (Objects.guarantees_save fun _ => rfl) fun _ => Tx.guarantees_pure _

lemma googleBlock_same (profile : GoogleProfile) :
    (googleBlock profile).Guarantees (Same fun w => (w.entropy, w.db.sessions)) := by
  refine Tx.Guarantees.handling ?_ _ ?_
  · exact Tx.Guarantees.bind (Objects.guarantees_get _) fun _ => Objects.guarantees_get _
  · have hcustomer : (getOrCreateCustomer profile.email profile.emailVerified).Guarantees
        (Same fun w => (w.entropy, w.db.sessions)) := by
      refine Tx.Guarantees.handling ?_ _ ?_
      · exact Tx.Guarantees.bind (Objects.guarantees_get _) fun _ => Tx.guarantees_pure _
      · refine Tx.Guarantees.bind (Tx.guarantees_read _) fun _ => ?_
        refine Tx.Guarantees.bind ?_ fun _ => Tx.guarantees_pure _
        exact Objects.guarantees_create fun _ _ => rfl
    have hverify : ∀ (c : Customer) (created : Bool),
        (verifyLinkedEmail c created profile.emailVerified).Guarantees
          (Same fun w => (w.entropy, w.db.sessions)) := by
      intro c created
      unfold verifyLinkedEmail
      split
      · exact verifyEmailNow_same c
      · exact Tx.guarantees_pure c
    refine hcustomer.bind fun ⟨c, created⟩ => ?_
    refine Tx.Guarantees.bind (Tx.guarantees_require _ _) fun _ => ?_
    refine (hverify c created).bind fun c => ?_
    refine Tx.Guarantees.bind ?_ fun _ => Tx.guarantees_pure _
    exact Objects.guarantees_create fun _ _ => rfl

end Before

/-! ### The four calls -/

section Calls

variable [PyText] (w₀ : World)

lemma loginCustomer_mints (email password : String) :
    (loginCustomer email password).Triple (KeepsOwners w₀)
      (fun r w => Minted .customer r.1.id r.2.1 r.2.2 w₀ w) (KeepsOwners w₀) := by
  have hcustomer : (getActiveCustomer (normalizeEmail email)).Guarantees KeepsOwners :=
    (Objects.guarantees_get _).handling _ (Tx.guarantees_raise _)
  refine (KeepsOwners.exec hcustomer).bind fun c => ?_
  have hmethod : (getPasswordMethod c.id).Guarantees KeepsOwners :=
    (Objects.guarantees_get _).handling _ (Tx.guarantees_raise _)
  refine (KeepsOwners.exec hmethod).bind fun m => ?_
  refine (Program.Triple.require fun _ hw => hw).bind fun _ => ?_
  have hissue : (issueSession c.id).Triple
      (fun w => KeepsOwners w₀ w ∧ checkPassword password m.passwordHash = true)
      (fun r w => Minted .customer c.id r.1 r.2 w₀ w) (KeepsOwners w₀) :=
    (issueSession_mints w₀ c.id).mono (fun _ h => h.1) (fun _ _ h => h) fun _ h => h
  exact hissue.bind fun _ => .done_ok fun _ h => h

lemma loginWithGoogle_mints (clientId : String) (reply : TokeninfoReply) :
    (loginWithGoogle clientId reply).Triple (KeepsOwners w₀)
      (fun r w => Minted .customer r.1.id r.2.1 r.2.2 w₀ w) (KeepsOwners w₀) := by
  unfold loginWithGoogle
  cases verifyIdToken clientId reply with
  | error e => exact .done_error fun _ h => h
  | ok profile =>
      refine (KeepsOwners.exec (keepsOwners_of_same (googleBlock_same profile))).bind fun c => ?_
      exact (issueSession_mints w₀ c.id).bind fun _ => .done_ok fun _ h => h

lemma loginStaff_mints (email password : String) :
    (loginStaff email password).Triple (KeepsOwners w₀)
      (fun r w => Minted .staff r.1.id r.2.1 r.2.2 w₀ w) (KeepsOwners w₀) := by
  have hstaff : (getActiveStaff (normalizeEmail email)).Guarantees KeepsOwners :=
    (Objects.guarantees_get _).handling _ (Tx.guarantees_raise _)
  refine (KeepsOwners.exec hstaff).bind fun staff => ?_
  refine (Program.Triple.require fun _ hw => hw).bind fun _ => ?_
  have hmint : (Program.exec (mintStaffToken staff.id)).Triple
      (fun w => KeepsOwners w₀ w ∧ checkPassword password (some staff.passwordHash) = true)
      (fun refresh w => Minted .staff staff.id refresh.staffAccessToken refresh w₀ w)
      (KeepsOwners w₀) := by
    refine .exec (fun w refresh w' hw hrun => ?_) fun _ _ hw _ => hw.1
    obtain ⟨minted, hminted, huser, hkind, hjti⟩ := mintStaffToken_run staff.id w
    cases hrun.symm.trans hminted
    refine ⟨huser, hkind, huser, hkind, ?_, ?_, fun s hs => Or.inl (hw.1.sessions s hs)⟩
    · rw [hjti]
      exact hw.1.entropy
    · rw [hjti]
      exact Nat.lt_succ_self _
  exact hmint.bind fun _ => .done_ok fun _ h => h

omit [PyText] in
/-- A rotation mints for the customer of the session that has the digest of the token. -/
lemma rotateRefreshToken_mints (raw : RawRefreshToken) :
    (rotateRefreshToken raw).Triple (KeepsOwners w₀)
      (fun r w => ∃ old s, raw = .signed old ∧ old.actorType = some .customer ∧
        s ∈ w₀.db.sessions.rows ∧ s.refreshTokenHash = hashJti old.jti ∧
        Minted .customer s.customerId r.1 r.2 w₀ w) (KeepsOwners w₀) := by
  have hdecode : (Program.exec (decodeCustomerToken raw)).Triple (KeepsOwners w₀)
      (fun old w => KeepsOwners w₀ w ∧ raw = .signed old ∧ old.actorType = some .customer)
      (KeepsOwners w₀) := by
    refine .exec (fun w old w' hw hrun => ?_) fun _ _ hw _ => hw
    obtain ⟨rfl, hraw, hkind⟩ := decodeCustomerToken_ok hrun
    exact ⟨hw, hraw, hkind⟩
  refine hdecode.bind fun old => ?_
  let Found : Session → World → Prop := fun session w => KeepsOwners w₀ w ∧ raw = .signed old ∧
    old.actorType = some .customer ∧ ∃ s ∈ w₀.db.sessions.rows,
      s.refreshTokenHash = hashJti old.jti ∧ s.customerId = session.customerId
  have hlookup : (Program.exec (lookupSession old)).Triple
      (fun w => KeepsOwners w₀ w ∧ raw = .signed old ∧ old.actorType = some .customer) Found
      (KeepsOwners w₀) := by
    refine .exec (fun w session w' hw hrun => ?_) fun _ _ hw _ => hw.1
    obtain ⟨rfl, hmem, hhash⟩ := lookupSession_ok hrun
    obtain ⟨s, hs, hsame, hcustomer⟩ := hw.1.sessions session hmem
    exact ⟨hw.1, hw.2.1, hw.2.2, s, hs, hsame.trans hhash, hcustomer⟩
  refine hlookup.bind fun session => ?_
  have hcheck : (Program.exec (checkSession session)).Triple (Found session)
      (fun _ => Found session) (KeepsOwners w₀) := by
    refine .exec (fun w u w' hw hrun => ?_) fun _ _ hw _ => hw.1
    rw [(checkSession_ok hrun).1]
    exact hw
  refine hcheck.bind fun _ => ?_
  have hsave : (Program.exec (saveRevokedAt session)).Triple (Found session)
      (fun _ => Found session) (KeepsOwners w₀) := by
    refine .exec (fun w u w' hw hrun => ?_) fun _ _ hw _ => hw.1
    have hmove : KeepsOwners w w' := by
      rw [saveRevokedAt_ok hrun]
      refine ⟨le_refl _, fun s' hs' => ?_⟩
      obtain ⟨s, hs, rfl⟩ := (Table.mem_update _).1 hs'
      have hlater := Session.Later.setRevokedAt_on s (fun s => Model.pk s == session.id) w.now
      exact ⟨s, hs, hlater.refreshTokenHash_eq.symm, hlater.customerId_eq.symm⟩
    exact ⟨trans_of KeepsOwners hw.1 hmove, hw.2⟩
  refine hsave.bind fun _ w hw => ?_
  obtain ⟨hkeeps, hraw, hkind, s, hs, hhash, hcustomer⟩ := hw
  have hissue := (issueSession_mints w₀ session.customerId).mono (fun _ h => h) (fun r w h => by
    rw [← hcustomer] at h
    exact (⟨old, s, hraw, hkind, hs, hhash, h⟩ : ∃ old s, raw = .signed old ∧
      old.actorType = some .customer ∧ s ∈ w₀.db.sessions.rows ∧
        s.refreshTokenHash = hashJti old.jti ∧ Minted .customer s.customerId r.1 r.2 w₀ w))
    fun _ h => h
  exact hissue w hkeeps

end Calls

/-! ## Traces -/

/-- A call that returns tokens. -/
inductive TokenCall
  | loginCustomer (email password : String)
  | loginWithGoogle (clientId : String) (reply : TokeninfoReply)
  | rotateRefreshToken (rawRefreshToken : RawRefreshToken)
  | loginStaff (email password : String)
  deriving DecidableEq, Repr

/-- The row that a login returns, and the tokens. -/
abbrev Tokens := Option Actor × AccessToken × RefreshToken

def TokenCall.service [PyText] : TokenCall → Service Tokens
  | loginCustomer email password => do
    let (customer, access, refresh) ← BePyEco.loginCustomer email password
    return (some (.customer customer), access, refresh)
  | loginWithGoogle clientId reply => do
    let (customer, access, refresh) ← BePyEco.loginWithGoogle clientId reply
    return (some (.customer customer), access, refresh)
  | rotateRefreshToken rawRefreshToken => do
    let (access, refresh) ← BePyEco.rotateRefreshToken rawRefreshToken
    return (none, access, refresh)
  | loginStaff email password => do
    let (staff, access, refresh) ← BePyEco.loginStaff email password
    return (some (.staff staff), access, refresh)

/-- The kind of actor a call mints for. -/
def TokenCall.kind : TokenCall → ActorType
  | loginStaff _ _ => .staff
  | _ => .customer

abbrev TokenEvent := Event TokenCall World ApiError Tokens

/-- Whom a refresh token was minted for: the row that a login returned with it, or, for a rotation,
whom the token presented to it was minted for. -/
inductive MintedFor : List TokenEvent → RefreshToken → ActorType → Id → Prop
  | login {e : TokenEvent} {actor : Actor} {access : AccessToken} {refresh : RefreshToken}
      (log : List TokenEvent) (hresult : e.result = .ok (some actor, access, refresh)) :
      MintedFor (e :: log) refresh actor.kind actor.id
  | rotate {e : TokenEvent} {log : List TokenEvent} {old refresh : RefreshToken}
      {access : AccessToken} {kind : ActorType} {id : Id}
      (hcall : e.call = .rotateRefreshToken (.signed old))
      (hresult : e.result = .ok (none, access, refresh)) (hold : MintedFor log old kind id) :
      MintedFor (e :: log) refresh kind id
  | older {log : List TokenEvent} {refresh : RefreshToken} {kind : ActorType} {id : Id}
      (e : TokenEvent) (h : MintedFor log refresh kind id) : MintedFor (e :: log) refresh kind id

/-- Tokens are unforgeable: a signed token that is presented was returned by an earlier call. -/
def Unforged (log : List TokenEvent) (_ : World) : TokenCall → Prop
  | .rotateRefreshToken (.signed token) =>
    ∃ e ∈ log, ∃ row access, e.result = .ok (row, access, token)
  | _ => True

/-- The traces of calls that return tokens, with any other change in between that leaves the
digests and the customers of the sessions alone. -/
abbrev TokenTrace [PyText] (w₀ : World) : List TokenEvent → World → Prop :=
  Trace TokenCall.service Unforged KeepsOwners w₀

/-- The random values behind the sessions were drawn before. -/
def JtisDrawn (w : World) : Prop :=
  ∀ s ∈ w.db.sessions.rows, s.refreshTokenHash.preimage < w.entropy

/-- What the tokens returned so far say about the sessions. -/
structure TokensOwned (log : List TokenEvent) (w : World) : Prop where
  jtis : JtisDrawn w
  claims : ∀ t kind id, MintedFor log t kind id → t.userId = id ∧ t.actorType = some kind
  drawn : ∀ t kind id, MintedFor log t kind id → t.jti < w.entropy
  owner : ∀ t kind id, MintedFor log t kind id →
    ∀ s ∈ w.db.sessions.rows, s.refreshTokenHash = hashJti t.jti → s.customerId = id
  returned : ∀ e ∈ log, ∀ row access refresh, e.result = .ok (row, access, refresh) →
    ∃ id, MintedFor log refresh e.call.kind id ∧ access.userId = id ∧
      access.actorType = some e.call.kind

/-! ### What one call does -/

section Step

variable [PyText]

/-- Whom a call mints for: the row it returns, or the customer of the session that has the digest
of the token presented. -/
def TokenCall.MintsFor (call : TokenCall) (w : World) (id : Id) : Option Actor → Prop
  | some actor => actor.kind = call.kind ∧ actor.id = id
  | none => ∃ old, call = .rotateRefreshToken (.signed old) ∧
    old.actorType = some .customer ∧
      ∃ s ∈ w.db.sessions.rows, s.refreshTokenHash = hashJti old.jti ∧ s.customerId = id

lemma TokenCall.mints (call : TokenCall) (w₀ : World) :
    call.service.Triple (KeepsOwners w₀)
      (fun r w => ∃ id, Minted call.kind id r.2.1 r.2.2 w₀ w ∧ call.MintsFor w₀ id r.1)
      (KeepsOwners w₀) := by
  cases call with
  | loginCustomer email password =>
      refine (loginCustomer_mints w₀ email password).bind fun r => .done_ok fun w h => ?_
      exact ⟨r.1.id, h, rfl, rfl⟩
  | loginWithGoogle clientId reply =>
      refine (loginWithGoogle_mints w₀ clientId reply).bind fun r => .done_ok fun w h => ?_
      exact ⟨r.1.id, h, rfl, rfl⟩
  | rotateRefreshToken raw =>
      refine (rotateRefreshToken_mints w₀ raw).bind fun r => .done_ok fun w h => ?_
      obtain ⟨old, s, rfl, hkind, hs, hhash, hminted⟩ := h
      exact ⟨s.customerId, hminted, old, rfl, hkind, s, hs, hhash, rfl⟩
  | loginStaff email password =>
      refine (loginStaff_mints w₀ email password).bind fun r => .done_ok fun w h => ?_
      exact ⟨r.1.id, h, rfl, rfl⟩

variable {log : List TokenEvent} {w w' : World}

omit [PyText] in
/-- What the surroundings do keeps the owners. -/
lemma TokensOwned.mono (h : TokensOwned log w) (hmove : KeepsOwners w w') :
    TokensOwned log w' where
  jtis s' hs' := by
    obtain ⟨s, hs, hhash, -⟩ := hmove.sessions s' hs'
    rw [← hhash]
    exact lt_of_lt_of_le (h.jtis s hs) hmove.entropy
  claims := h.claims
  drawn t kind id hminted := lt_of_lt_of_le (h.drawn t kind id hminted) hmove.entropy
  owner t kind id hminted s' hs' hhash' := by
    obtain ⟨s, hs, hhash, hcustomer⟩ := hmove.sessions s' hs'
    rw [← hcustomer]
    exact h.owner t kind id hminted s hs (hhash.trans hhash')
  returned := h.returned

omit [PyText] in
/-- A call that raised returned no tokens. -/
lemma TokensOwned.raised {e : TokenEvent} {x : Raised ApiError} (h : TokensOwned log w)
    (he : e.result = .error x) : TokensOwned (e :: log) w := by
  have hold : ∀ t kind id, MintedFor (e :: log) t kind id → MintedFor log t kind id := by
    intro t kind id hminted
    cases hminted with
    | login log hresult => cases he.symm.trans hresult
    | rotate hcall hresult hold => cases he.symm.trans hresult
    | older e hminted => exact hminted
  refine ⟨h.jtis, fun t kind id hm => h.claims t kind id (hold t kind id hm),
    fun t kind id hm => h.drawn t kind id (hold t kind id hm),
    fun t kind id hm => h.owner t kind id (hold t kind id hm), ?_⟩
  intro e' he' row access refresh hresult
  obtain rfl | he' := List.mem_cons.1 he'
  · cases he.symm.trans hresult
  · obtain ⟨id, hminted, hclaims⟩ := h.returned e' he' row access refresh hresult
    exact ⟨id, hminted.older e, hclaims⟩

omit [PyText] in
/-- The tokens that a call returned were minted for one actor only. -/
lemma TokensOwned.mintedFor_cons {e : TokenEvent} {row : Option Actor} {access : AccessToken}
    {refresh : RefreshToken} {id : Id} (h : TokensOwned log w)
    (he : e.result = .ok (row, access, refresh)) (hfor : e.call.MintsFor w id row)
    {t : RefreshToken} {kind' : ActorType} {id' : Id} (hminted : MintedFor (e :: log) t kind' id') :
    MintedFor log t kind' id' ∨ (t = refresh ∧ kind' = e.call.kind ∧ id' = id) := by
  cases hminted with
  | login log hresult =>
      cases he.symm.trans hresult
      exact Or.inr ⟨rfl, hfor⟩
  | @rotate _ _ old _ _ _ _ hcall hresult hold =>
      cases he.symm.trans hresult
      obtain ⟨old', hcall', hkind, s, hs, hhash, rfl⟩ := hfor
      cases hcall.symm.trans hcall'
      have hclaims := h.claims old kind' id' hold
      refine Or.inr ⟨rfl, ?_, (h.owner old kind' id' hold s hs hhash).symm⟩
      rw [hcall]
      exact Option.some.inj (hclaims.2.symm.trans hkind)
  | older e hminted => exact Or.inl hminted

omit [PyText] in
/-- The tokens that a call returned were minted for whom the call mints for. -/
lemma TokensOwned.mintedFor_head {e : TokenEvent} {row : Option Actor} {access : AccessToken}
    {refresh : RefreshToken} {id : Id} (h : TokensOwned log w) (hunforged : Unforged log w e.call)
    (he : e.result = .ok (row, access, refresh)) (hfor : e.call.MintsFor w id row) :
    MintedFor (e :: log) refresh e.call.kind id := by
  cases row with
  | some actor =>
      obtain ⟨hkind, rfl⟩ := hfor
      rw [← hkind]
      exact .login log he
  | none =>
      obtain ⟨old, hcall, hkind, s, hs, hhash, rfl⟩ := hfor
      rw [hcall] at hunforged
      obtain ⟨e₀, he₀, row₀, access₀, hresult₀⟩ := hunforged
      obtain ⟨id₀, hold, -, -⟩ := h.returned e₀ he₀ row₀ access₀ old hresult₀
      have hcustomer : e₀.call.kind = .customer :=
        Option.some.inj ((h.claims old _ id₀ hold).2.symm.trans hkind)
      rw [hcall, h.owner old _ id₀ hold s hs hhash]
      rw [hcustomer] at hold
      exact .rotate hcall he hold

omit [PyText] in
/-- A call that returned tokens added an owner for them and kept the others. -/
lemma TokensOwned.minted {e : TokenEvent} {row : Option Actor} {access : AccessToken}
    {refresh : RefreshToken} {id : Id} (h : TokensOwned log w) (hunforged : Unforged log w e.call)
    (he : e.result = .ok (row, access, refresh)) (hfor : e.call.MintsFor w id row)
    (hmint : Minted e.call.kind id access refresh w w') : TokensOwned (e :: log) w' := by
  have hentropy : w.entropy ≤ w'.entropy := hmint.fresh.trans (Nat.le_of_lt hmint.drawn)
  refine ⟨fun s' hs' => ?_, fun t kind' id' hm => ?_, fun t kind' id' hm => ?_,
    fun t kind' id' hm s' hs' hhash' => ?_, fun e' he' row' access' refresh' hresult' => ?_⟩
  · obtain ⟨s, hs, hhash, -⟩ | ⟨hhash, -⟩ := hmint.sessions s' hs'
    · rw [← hhash]
      exact lt_of_lt_of_le (h.jtis s hs) hentropy
    · rw [hhash]
      exact hmint.drawn
  · obtain hm | ⟨rfl, rfl, rfl⟩ := h.mintedFor_cons he hfor hm
    · exact h.claims t kind' id' hm
    · exact ⟨hmint.refreshUser, hmint.refreshKind⟩
  · obtain hm | ⟨rfl, rfl, rfl⟩ := h.mintedFor_cons he hfor hm
    · exact lt_of_lt_of_le (h.drawn t kind' id' hm) hentropy
    · exact hmint.drawn
  · obtain hm | ⟨rfl, rfl, rfl⟩ := h.mintedFor_cons he hfor hm
    · obtain ⟨s, hs, hhash, hcustomer⟩ | ⟨hhash, -⟩ := hmint.sessions s' hs'
      · rw [← hcustomer]
        exact h.owner t kind' id' hm s hs (hhash.trans hhash')
      · -- the random value of an older token was drawn before
        have hjti : t.jti = refresh.jti := sha256_injective (hhash'.symm.trans hhash)
        have hlt := lt_of_lt_of_le (h.drawn t kind' id' hm) hmint.fresh
        rw [hjti] at hlt
        exact absurd hlt (lt_irrefl _)
    · obtain ⟨s, hs, hhash, -⟩ | ⟨-, hcustomer⟩ := hmint.sessions s' hs'
      · -- and the one of the new token was not
        have hlt := lt_of_lt_of_le (h.jtis s hs) hmint.fresh
        rw [hhash, hhash'] at hlt
        exact absurd hlt (lt_irrefl _)
      · exact hcustomer
  · obtain rfl | he' := List.mem_cons.1 he'
    · cases he.symm.trans hresult'
      exact ⟨id, h.mintedFor_head hunforged he hfor, hmint.accessUser, hmint.accessKind⟩
    · obtain ⟨id', hminted, hclaims⟩ := h.returned e' he' row' access' refresh' hresult'
      exact ⟨id', hminted.older e, hclaims⟩

lemma TokensOwned.call (h : TokensOwned log w) (call : TokenCall)
    (hunforged : Unforged log w call) :
    TokensOwned (event TokenCall.service call w :: log) (event TokenCall.service call w).after := by
  have hstart : KeepsOwners w w := refl_of KeepsOwners w
  rcases hrun : call.service.run w with ⟨result, w'⟩
  have hresult : (event TokenCall.service call w).result = result := congrArg Prod.fst hrun
  have hafter : (event TokenCall.service call w).after = w' := congrArg Prod.snd hrun
  rw [hafter]
  cases result with
  | error x => exact (h.mono ((call.mints w).error hstart hrun)).raised hresult
  | ok r =>
      obtain ⟨id, hmint, hfor⟩ := (call.mints w).ok hstart hrun
      exact h.minted hunforged hresult hfor hmint

/-- Along every trace the tokens returned are owned. -/
lemma tokensOwned_of_trace {w₀ : World} (hstart : JtisDrawn w₀) (h : TokenTrace w₀ log w) :
    TokensOwned log w := by
  refine Trace.invariant (I := TokensOwned) ?_ (fun log w call hw hok => hw.call call hok)
    (fun _ _ _ hw hmove => hw.mono hmove) h
  refine ⟨hstart, ?_, ?_, ?_, ?_⟩
  · intro t kind id hminted
    cases hminted
  · intro t kind id hminted
    cases hminted
  · intro t kind id hminted
    cases hminted
  · intro e he
    cases he

end Step

/-! ## Kinds stay apart -/

/-- What the tokens that a call returned are good for: they were minted for one actor, of the kind
of the call; the access token resolves to the row of that actor only; and a refresh token of
staff cannot be rotated. -/
structure StaysWithin (log : List TokenEvent) (kind : ActorType) (access : AccessToken)
    (refresh : RefreshToken) : Prop where
  minted : ∃ id, MintedFor log refresh kind id
  resolves : ∀ kind' id, MintedFor log refresh kind' id →
    kind' = kind ∧ ResolvesTo access kind id
  unrotatable : kind = .staff → ∀ w : World,
    (rotateRefreshToken (.signed refresh)).run w = (.error (.app .invalidRefreshToken), w)

/-- A token with the staff claim is not rotated. -/
lemma rotateRefreshToken_run_of_staff {raw : RawRefreshToken}
    (h : ∀ token, raw = .signed token → token.actorType = some .staff) (w : World) :
    (rotateRefreshToken raw).run w = (.error (.app .invalidRefreshToken), w) := by
  have hdecode : (decodeCustomerToken raw).run w = .error (.app .invalidRefreshToken) := by
    cases hold : decodeRefreshToken raw w.now with
    | none => simp only [decodeCustomerToken, Tx.run_bind, run_timezoneNow, hold, Tx.run_raise]
    | some old =>
        have hkind := h old (decodeRefreshToken_eq_some hold)
        have hother : decide (old.actorType = some .customer) = false := by
          rw [hkind]
          rfl
        simp only [decodeCustomerToken, Tx.run_bind, run_timezoneNow, hold, hother,
          Tx.run_require_false]
  rw [rotateRefreshToken, Program.run_bind, Program.liftM_eq, Program.run_exec,
    Tx.exec_error hdecode]

/-- In every trace of logins and rotations, the tokens that a call returned stay with the actor
they were minted for. -/
theorem staysWithin_of_trace [PyText] {w₀ w : World} {log : List TokenEvent}
    (hstart : JtisDrawn w₀) (h : TokenTrace w₀ log w) :
    ∀ e ∈ log, ∀ row access refresh, e.result = .ok (row, access, refresh) →
      StaysWithin log e.call.kind access refresh := by
  intro e he row access refresh hresult
  have howned := tokensOwned_of_trace hstart h
  obtain ⟨id, hminted, huser, hkind⟩ := howned.returned e he row access refresh hresult
  have hclaims := howned.claims refresh _ id hminted
  refine ⟨⟨id, hminted⟩, fun kind' id' hminted' => ?_, fun hstaff w => ?_⟩
  · have hclaims' := howned.claims refresh kind' id' hminted'
    rw [← hclaims'.1, hclaims.1]
    exact ⟨Option.some.inj (hclaims'.2.symm.trans hclaims.2), resolvesTo_of_claims huser hkind⟩
  · rw [hstaff] at hclaims
    refine rotateRefreshToken_run_of_staff (fun token htoken => ?_) w
    rw [← RawRefreshToken.signed.inj htoken]
    exact hclaims.2

/-! ### A customer and a staff member with one id -/

section Example

attribute [local instance] plainText

/-- The administrator, and a customer who has the same id. -/
def sharedIdWorld : World :=
  ((registerCustomer "a@example.com" "teapot-on-fire").run administeredWorld).2

/-- The refresh token of the customer. -/
def customerToken : RefreshToken where
  jti := 1
  userId := 0
  actorType := some .customer
  currentTime := 0
  exp := 2592000

/-- The customer logs in and rotates the token, and the administrator logs in. -/
def loginsAndRotation : List TokenEvent × World :=
  Trace.execute TokenCall.service [.loginCustomer "a@example.com" "teapot-on-fire",
    .rotateRefreshToken (.signed customerToken), .loginStaff "admin@example.com" "teapot-on-fire"]
    ([], sharedIdWorld)

/-- The three calls succeed, and their tokens stay apart. -/
theorem staysWithin_with_shared_id :
    (loginsAndRotation.1.map fun e => e.result.isOk) = [true, true, true] ∧
      ∀ e ∈ loginsAndRotation.1, ∀ row access refresh,
        e.result = .ok (row, access, refresh) →
          StaysWithin loginsAndRotation.1 e.call.kind access refresh := by
  have hstart : JtisDrawn sharedIdWorld := by
    intro s hs
    cases hs
  have htrace : TokenTrace sharedIdWorld loginsAndRotation.1 loginsAndRotation.2 :=
    Trace.execute_of_allowed .refl ⟨trivial, ⟨_, List.mem_cons_self, _, _, rfl⟩, trivial, trivial⟩
  exact ⟨by decide, staysWithin_of_trace hstart htrace⟩

end Example

end BePyEco
