import BePyEco.Accounts.ActorKinds
import BePyEco.Accounts.AdminViews
import BePyEco.Library.Evidence

/-!
# Requests and who they come from

An `HttpRequest` carries what its `Authorization` header holds.  `authenticate` makes an actor of
it, and the permission classes decide whether the handler of the view runs at all.

`SignedIn` is what the statements of a view have found out about its caller by the time that the
handler runs.
-/

namespace BePyEco

open Library

/-! ## Requests -/

/-- What the `Authorization` header holds: nothing for the scheme, a text that is no access token
with a valid signature, or a signed one. -/
inductive Bearer
  | absent
  | malformed
  | signed (token : AccessToken)
  deriving DecidableEq, Repr

structure HttpRequest where
  authorization : Bearer := .absent
  idempotencyKey : Option String := none
  data : Json
  context : RequestContext

/-- What a view makes of a request: a response, or one of the two exceptions that only views
raise. -/
inductive Answer
  | response (response : Response)
  /-- `NotAuthenticated`. -/
  | notAuthenticated
  /-- `CategoryNotFoundError`. -/
  | categoryNotFound
  deriving DecidableEq, Repr

/-- The answer of a handler that returns a response. -/
def answering (handler : Service Response) : Service Answer := do
  let response ← handler
  return .response response

/-! ## Authentication -/

/-- The check of the `exp` claim. -/
def AccessToken.isExpired (token : AccessToken) (now : Time) : Bool :=
  decide (token.exp * second ≤ now)

/-- `get_validated_token(raw_token)` of a signed token. -/
def getValidatedToken (token : AccessToken) : Statement AccessToken := do
  let now ← timezoneNow
  Tx.require (!token.isExpired now) .invalidToken
  return token

/-- `JWTAuthentication.authenticate(request)`; `none` is the anonymous user. -/
def authenticate : Bearer → Service (Option Actor)
  | .absent => return none
  | .malformed => Program.raise .invalidToken
  | .signed token => do
    let validatedToken ← getValidatedToken token
    let user ← getUser validatedToken
    return some user

/-- A view with `IsAuthenticated`. -/
def ifAuthenticated (request : HttpRequest) (handler : Actor → Service Answer) :
    Service Answer := do
  match ← authenticate request.authorization with
  | none => return .notAuthenticated
  | some user => handler user

/-- `IsStaff`, checked before the handler. -/
def requireStaff (handler : Staff → Service Answer) : Actor → Service Answer
  | .customer _ => Program.raise .permissionDenied
  | .staff staff => handler staff

/-- A view with `IsAuthenticated` and `IsStaff`. -/
def ifStaff (request : HttpRequest) (handler : Staff → Service Answer) : Service Answer :=
  ifAuthenticated request (requireStaff handler)

/-! ## What a view has found out -/

/-- The request carries a token for the actor that has not expired, and the actor is stored and
active. -/
structure CalledBy (request : HttpRequest) (user : Actor) (w : World) : Prop where
  token : ∃ token, request.authorization = .signed token ∧ token.userId = user.id ∧
    token.actorType = some user.kind
  active : user.Active w

/-- The token that the request carries has not expired. -/
def Unexpired (request : HttpRequest) (w : World) : Prop :=
  ∃ token, request.authorization = .signed token ∧ w.now < token.exp * second

lemma getValidatedToken_ok {token token' : AccessToken} {w w' : World}
    (h : (getValidatedToken token).run w = .ok (token', w')) :
    w' = w ∧ token' = token ∧ w.now < token.exp * second := by
  obtain ⟨now, w₁, hnow, hrest⟩ := Tx.bind_ok h
  cases hnow
  obtain ⟨u, w₂, hcheck, hpure⟩ := Tx.bind_ok hrest
  obtain ⟨rfl, hfresh⟩ := Tx.require_ok hcheck
  cases hpure
  simp only [AccessToken.isExpired, Bool.not_eq_true', decide_eq_false_iff_not, not_le] at hfresh
  exact ⟨rfl, rfl, hfresh⟩

/-- The actor that a token stands for is the active row of the kind and the id of its claims. -/
lemma getUser_ok {token : AccessToken} {w w' : World} {user : Actor}
    (h : (getUser token).run w = .ok (user, w')) :
    w' = w ∧ user.Active w ∧ token.userId = user.id ∧ token.actorType = some user.kind := by
  cases hkind : token.actorType with
  | none =>
      rw [getUser, hkind] at h
      cases h
  | some kind =>
      obtain ⟨actor, hactive, hkind', hid, hrun⟩ | ⟨-, hrun⟩ := getUser_run hkind w
      · rw [hrun] at h
        cases h
        exact ⟨rfl, hactive, hid.symm, congrArg some hkind'.symm⟩
      · rw [hrun] at h
        cases h

/-- The view has found that its request comes from the actor. -/
structure SignedIn (request : HttpRequest) (found : Set World) (user : Actor) : Prop where
  unexpired : ∃ w ∈ found, Unexpired request w
  caller : ∃ w ∈ found, CalledBy request user w

lemma SignedIn.mono {request : HttpRequest} {found found' : Set World} {user : Actor}
    (h : SignedIn request found user) (hsub : found ⊆ found') : SignedIn request found' user := by
  obtain ⟨w, hw, hunexpired⟩ := h.unexpired
  obtain ⟨w', hw', hcaller⟩ := h.caller
  exact ⟨⟨w, hsub hw, hunexpired⟩, w', hsub hw', hcaller⟩

/-! ## Handlers behind the permission classes -/

section Permissions

variable {Ok : Set World → World → World → Prop} [∀ found, Std.Refl (Ok found)]
  {request : HttpRequest} {found : Set World}

lemma authenticate_earns : (authenticate request.authorization).Earns Ok
    (fun result found' => ∀ user, result = some user → SignedIn request found' user) found := by
  cases hbearer : request.authorization with
  | absent => exact Program.earns_pure fun user huser => by cases huser
  | malformed => exact Program.earns_raise _
  | signed token =>
      have hvalid : (Program.exec (getValidatedToken token) : Service AccessToken).Earns Ok
          (fun token' found' => token' = token ∧ ∃ w ∈ found', Unexpired request w) found := by
        refine Program.earns_exec fun w token' w' hrun => ?_
        obtain ⟨rfl, htoken, hfresh⟩ := getValidatedToken_ok hrun
        exact ⟨refl_of _ w', htoken, w', Program.before_mem_learn, token, hbearer, hfresh⟩
      refine hvalid.bind fun token' found' _ ⟨htoken, w, hw, hunexpired⟩ => ?_
      have huser : (Program.exec (getUser token') : Service Actor).Earns Ok
          (fun user found'' => SignedIn request found'' user) found' := by
        refine Program.earns_exec fun w' user w'' hrun => ?_
        obtain ⟨rfl, hactive, hid, hkind⟩ := getUser_ok hrun
        rw [htoken] at hid hkind
        exact ⟨refl_of _ w'', ⟨w, Program.subset_learn hw, hunexpired⟩, w'',
          Program.before_mem_learn, ⟨token, hbearer, hid, hkind⟩, hactive⟩
      refine huser.bind fun user found'' _ hsigned => Program.earns_pure fun user' heq => ?_
      cases heq
      exact hsigned

variable {post : Answer → Set World → Prop}

/-- A handler runs for the actor that the request was found to come from. -/
lemma ifAuthenticated_earns {handler : Actor → Service Answer}
    (hnobody : ∀ found', post .notAuthenticated found')
    (h : ∀ user found', SignedIn request found' user → (handler user).Earns Ok post found') :
    (ifAuthenticated request handler).Earns Ok post found := by
  refine authenticate_earns.bind fun result found' _ hresult => ?_
  cases result with
  | none => exact Program.earns_pure (hnobody found')
  | some user => exact h user found' (hresult user rfl)

lemma ifStaff_earns {handler : Staff → Service Answer}
    (hnobody : ∀ found', post .notAuthenticated found') (h : ∀ staff found',
      SignedIn request found' (.staff staff) → (handler staff).Earns Ok post found') :
    (ifStaff request handler).Earns Ok post found := by
  refine ifAuthenticated_earns hnobody fun user found' hsigned => ?_
  cases user with
  | customer customer => exact Program.earns_raise _
  | staff staff => exact h staff found' hsigned

end Permissions

end BePyEco
