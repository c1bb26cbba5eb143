import BePyEco.Api.Ownership

/-!
# Where sessions come from

`GoesBack` is the history behind a session row: it was there at first, it was issued to somebody who
presented the password or the Google account of its customer, or it continues a session whose token
was presented.  `session_goesBack` says that every session of a run has such a history, whatever
requests are made, and however they interleave.
-/

namespace BePyEco

open Library

/-- The history behind a session, with these databases for evidence. -/
inductive GoesBack [Libraries] {ι : Type} (w : World) (work : ι → Work) (visited : Set World) :
    Session → Prop
  | initial {s s₀ : Session} (h : s₀ ∈ w.db.sessions.rows) (hkept : SessionKept s₀ s) :
      GoesBack w work visited s
  | password {s : Session} {i : ι} {request : HttpRequest} {email password : String}
      (hwork : work i = .http .login request)
      (hfields : loginSerializer request.data = .ok (email, password))
      (haddress : AddressOf visited email s.customerId)
      (hpassword : PasswordOf visited password s.customerId) : GoesBack w work visited s
  | google {s : Session} {i : ι} {request : HttpRequest} {clientId : String}
      {tokeninfo : String → TokeninfoReply} {profile : GoogleProfile}
      (hwork : work i = .http (.googleLogin clientId tokeninfo) request)
      (haccount : GoogleAccount request clientId tokeninfo profile)
      (hresolves : GoogleResolves visited profile s.customerId) : GoesBack w work visited s
  | rotated {s presented session : Session} {i : ι} {request : HttpRequest}
      (hwork : work i = .http .refreshToken request)
      (hrefreshes : Refreshes request visited presented) (hkept : SessionKept presented session)
      (howner : s.customerId = session.customerId) (hearlier : GoesBack w work visited session) :
      GoesBack w work visited s

section Origins

variable [Libraries] {ι : Type} {w : World} {work : ι → Work} {found visited : Set World}
  {s s' : Session}

lemma GoesBack.mono (h : GoesBack w work found s) (hsub : found ⊆ visited) :
    GoesBack w work visited s := by
  induction h with
  | initial h hkept => exact .initial h hkept
  | password hwork hfields haddress hpassword =>
      exact .password hwork hfields (haddress.mono hsub) (hpassword.mono hsub)
  | google hwork haccount hresolves => exact .google hwork haccount (hresolves.mono hsub)
  | rotated hwork hrefreshes hkept howner _ ih =>
      exact .rotated hwork (hrefreshes.mono hsub) hkept howner ih

omit [Libraries] in
lemma SessionKept.customerId_eq (h : SessionKept s s') : s'.customerId = s.customerId :=
  congrArg (fun k => k.2.1) h.1

/-- A session that is revoked has the history that it had. -/
lemma GoesBack.kept (h : GoesBack w work visited s) (hkept : SessionKept s s') :
    GoesBack w work visited s' := by
  have howner := SessionKept.customerId_eq hkept
  cases h with
  | initial h hkept₀ => exact .initial h (trans_of SessionKept hkept₀ hkept)
  | password hwork hfields haddress hpassword =>
      rw [← howner] at haddress hpassword
      exact .password hwork hfields haddress hpassword
  | google hwork haccount hresolves =>
      rw [← howner] at hresolves
      exact .google hwork haccount hresolves
  | rotated hwork hrefreshes hkept₁ howner₁ hearlier =>
      exact .rotated hwork hrefreshes hkept₁ (howner.trans howner₁) hearlier

/-- Who adds a session has presented credentials, or the token of a session that was found. -/
lemma goesBack_of_add {i : ι} (h : ((work i).policy found .sessions).add s) (hsub : found ⊆ visited)
    (hfound : ∀ w' ∈ found, ∀ presented ∈ w'.db.sessions.rows, ∃ session,
      SessionKept presented session ∧ GoesBack w work visited session) :
    GoesBack w work visited s := by
  cases hwork : work i with
  | http endpoint request =>
      rw [hwork] at h
      cases endpoint
      case login =>
        obtain ⟨⟨id, email, password, hfields, haddress, hpassword⟩, hid, -⟩ := h
        obtain rfl : s.customerId = id := hid
        exact .password hwork hfields (haddress.mono hsub) (hpassword.mono hsub)
      case googleLogin clientId tokeninfo =>
        obtain ⟨⟨profile, haccount⟩, hresolves, -⟩ := h
        exact .google hwork haccount (hresolves.mono hsub)
      case refreshToken =>
        obtain ⟨⟨presented, hrefreshes⟩, hid, -⟩ := h
        obtain ⟨text, token, -, -, -, w', hw', hstored, -⟩ := hrefreshes.stored
        obtain ⟨session, hkept, hearlier⟩ := hfound w' hw' presented hstored
        have howner : s.customerId = session.customerId :=
          hid.trans (SessionKept.customerId_eq hkept).symm
        exact .rotated hwork (hrefreshes.mono hsub) hkept howner hearlier
      all_goals first | exact h.elim | exact h.elim fun _ h => h.elim
  | internal call =>
      rw [hwork] at h
      cases call <;> exact h.elim
  | createMasterAdmin email password =>
      rw [hwork] at h
      exact h.elim
  | seedSupportedCountries uuid =>
      rw [hwork] at h
      exact h.elim

/-- In any interleaving of any work, every session goes back to a login, or was there at first. -/
theorem session_goesBack [DecidableEq ι] {P : Pool ι (Service (Option Answer)) World}
    (h : ApiVisits (apiPool w work) visited P) :
    ∀ s ∈ P.store.db.sessions.rows, GoesBack w work visited s := by
  refine h.earned_invariant
    (motive := fun visited P => ∀ s ∈ P.store.db.sessions.rows, GoesBack w work visited s)
    (fun i => (work i).program_keeps) (fun s hs => .initial hs (refl_of SessionKept s)) ?_ ?_
  · intro visited P P' i evidence hvisits ih hsub hmove s hs
    have hearlier : visited ⊆ insert P'.store visited := Set.subset_insert _ _
    have hchange : ∀ r r', ((work i).policy evidence .sessions).change r r' → SessionKept r r' := by
      intro r r' hchange
      have hsource : (sourcePolicy (some (work i, evidence)) .sessions).change r r' := hchange
      exact session_change hsource
    obtain ⟨r, hr, -, hkept⟩ | ⟨r, hadd, -, hkept⟩ :=
      TablePolicy.origin_of_allows hchange (hmove.tables .sessions) hs
    · exact ((ih r hr).kept hkept).mono hearlier
    · refine GoesBack.kept (goesBack_of_add hadd (hsub.trans hearlier) ?_) hkept
      -- a session that was found is still stored, and has its history by the induction
      intro w' hw' presented hpresented
      obtain ⟨session, hstored, hkept'⟩ :=
        (permanent_of_visited .refl hvisits (hsub hw')).sessions presented hpresented
      exact ⟨session, hkept', (ih session hstored).mono hearlier⟩
  · intro visited P P' hvisits ih henv s hs
    have hsame : P'.store.db.sessions = P.store.db.sessions :=
      TablePolicy.eq_of_allows ⟨fun _ _ h => h, fun _ h => h⟩ (fun _ h => h)
        (henv.allows.tables .sessions)
    rw [hsame] at hs
    exact (ih s hs).mono (Set.subset_insert _ _)

end Origins

section Example

attribute [local instance] plainLibraries

/-- The first customer signs in. -/
def oneLogin : Unit → Work
  | () => .http .login (byAnyone (.obj [("email", .str "a@example.com"),
      ("password", .str "teapot-on-fire")]))

def afterLogin : Pool Unit (Service (Option Answer)) World :=
  (programSystem Surroundings).replay (fun _ _ => true) (apiPool openingWorld oneLogin)
    [(), (), (), ()] (by decide)

lemma session_goesBack_afterLogin : ∃ visited,
    ApiVisits (apiPool openingWorld oneLogin) visited afterLogin ∧
      ∃ s ∈ afterLogin.store.db.sessions.rows, s.customerId = 0 ∧
        GoesBack openingWorld oneLogin visited s := by
  have hrun : ApiRun (apiPool openingWorld oneLogin) afterLogin :=
    System.run_replay (fun _ _ _ => trivial) _
  have hsession : ∃ s ∈ afterLogin.store.db.sessions.rows, s.customerId = 0 := by decide
  obtain ⟨s, hs, howner⟩ := hsession
  obtain ⟨visited, h⟩ := hrun.visits
  exact ⟨visited, h, s, hs, howner, session_goesBack h s hs⟩

end Example

end BePyEco
