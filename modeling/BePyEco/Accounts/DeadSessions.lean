import BePyEco.Accounts.SessionRotation

/-!
# Dead sessions

A session that is revoked or expired never becomes active again, whatever the interleaved calls
do: `revoked_at` is only ever set, `expires_at` never changes, and the clock does not go back.  A
rotation that looks such a session up therefore holds a dead copy, and its check of the copy
refuses it (`inactive_for_good`).
-/

namespace BePyEco

open Library

/-! ## What is inactive stays inactive -/

/-- No session is lost, and time does not go back. -/
def SessionsAge (w w' : World) : Prop := KeepsSessions w w' ∧ w.now ≤ w'.now

instance : Std.Refl SessionsAge where
  refl w := ⟨refl_of KeepsSessions w, le_refl _⟩

instance : IsTrans World SessionsAge where
  trans _ _ _ hab hbc := ⟨trans_of KeepsSessions hab.1 hbc.1, hab.2.trans hbc.2⟩

lemma OnlyRevokes.sessionsAge {w w' : World} (h : OnlyRevokes w w') : SessionsAge w w' :=
  ⟨h.keeps, h.now⟩

/-- A later version of an inactive session is inactive, at any later time. -/
lemma Session.Later.not_isActive {s s' : Session} (h : s.Later s') {now now' : Time}
    (hnow : now ≤ now') (hs : s.isActive now = false) : s'.isActive now' = false := by
  have hdead : ¬ (s.revokedAt = none ∧ now < s.expiresAt) := by
    rw [← Session.isActive_iff, hs]
    exact Bool.false_ne_true
  rw [← Bool.not_eq_true, Session.isActive_iff]
  rintro ⟨hrevoked, hexpires⟩
  obtain rfl | ⟨t, rfl⟩ := h
  · exact hdead ⟨hrevoked, lt_of_le_of_lt hnow hexpires⟩
  · cases hrevoked

/-- No step of a session call moves the clock. -/
lemma SessionStep.now {c c' : SessionPc} {w w' : World} (h : SessionStep c w c' w') :
    w'.now = w.now := by
  cases h with
  | issueCreate hcreated => exact hcreated.now
  | create old hcreated => exact hcreated.now
  | _ => rfl

lemma sessions_age : sessionSystem.RelyGuarantee SessionsAge SessionCall.Sound where
  stable hcall hage := hcall.mono hage.1
  guarantee {call call' w w'} hcall hnext := by
    obtain ⟨hkeeps, hcall'⟩ := hcall.next hnext
    refine ⟨⟨hkeeps, ?_⟩, hcall'⟩
    obtain ⟨c, c', rfl, rfl, hstep⟩ | ⟨rest, rest', rfl, rfl, hstep⟩ := sessionSystem_next hnext
    · exact hstep.now.ge
    · exact (Program.Guarantees.step hcall hstep).1.now
  rely henv := OnlyRevokes.sessionsAge henv

/-! ## Late rotations -/

/-- The call has been refused, or holds a dead copy that its check will refuse. -/
def SessionCall.Refused (w : World) : SessionPc ⊕ Service Unit → Prop
  | .inl (.rotateCheck _ s) => s.isActive w.now = false
  | .inl (.failed e) => e = .app .invalidRefreshToken
  | _ => False

lemma SessionCall.Refused.mono {w w' : World} (h : w.now ≤ w'.now)
    {call : SessionPc ⊕ Service Unit} (hcall : SessionCall.Refused w call) :
    SessionCall.Refused w' call := by
  cases call with
  | inl c =>
      cases c with
      | rotateCheck old s => exact Session.Later.not_isActive (.refl s) h hcall
      | failed e => exact hcall
      | _ => cases hcall
  | inr rest => cases hcall

/-- The check refuses a dead copy and changes nothing. -/
lemma SessionCall.Refused.next {w w' : World} {call call' : SessionPc ⊕ Service Unit}
    (hcall : SessionCall.Refused w call) (h : sessionSystem.next call w = some (call', w')) :
    call' = .inl (.failed (.app .invalidRefreshToken)) ∧ w' = w := by
  obtain ⟨c, c', rfl, rfl, hnext⟩ | ⟨rest, rest', rfl, -, -⟩ := Control.system_next h
  · cases c with
    | rotateCheck old s =>
        have hinactive : s.isActive w.now = false := hcall
        have hcheck : (checkSession s).run w = .error (.app .invalidRefreshToken) := by
          simp only [checkSession, Tx.run_bind, run_timezoneNow, hinactive, Tx.run_require_false]
        have hnext : Control.advance (checkSession s) (fun _ => .rotateSave old s) .failed w =
          some (c', w') := hnext
        rw [Control.advance, Tx.exec_error hcheck] at hnext
        cases hnext
        exact ⟨rfl, rfl⟩
    | failed e => cases hnext
    | _ => cases hcall
  · cases hcall

/-- A lookup finds the copy of a dead session. -/
lemma refused_of_lookup {w w' : World} {old : RefreshToken} {s : Session}
    (hs : s ∈ w.db.sessions.rows) (hhash : s.refreshTokenHash = hashJti old.jti)
    (hdead : s.isActive w.now = false) {call' : SessionPc ⊕ Service Unit}
    (h : sessionSystem.next (.inl (.rotateLookup old)) w = some (call', w')) :
    SessionCall.Refused w' call' ∧ w' = w := by
  have hget : w.db.sessions.get
      (fun r : Session => decide (r.refreshTokenHash = hashJti old.jti)) = .ok s := by
    refine Table.get_of_unique hs (decide_eq_true hhash) fun r hr hr' => ?_
    exact w.db.sessions.eq_of_conflicts hr hs
      (decide_eq_true ((of_decide_eq_true hr').trans hhash.symm))
  have hlookup : (lookupSession old).run w = .ok (s, w) :=
    Tx.run_handling_ok (Objects.run_get_of_ok hget)
  obtain ⟨c, c', hc, rfl, hnext⟩ | ⟨rest, rest', hc, -, -⟩ := Control.system_next h
  · cases hc
    have hnext : Control.advance (lookupSession old) (.rotateCheck old) .failed w =
      some (c', w') := hnext
    rw [Control.advance, Tx.exec_ok hlookup] at hnext
    cases hnext
    exact ⟨hdead, rfl⟩
  · cases hc

/-! ## Revocations of other customers -/

/-- The sessions of the other customers are the same before and after. -/
def SpareOthers (customerId : Id) (w w' : World) : Prop :=
  ∀ s : Session, s.customerId ≠ customerId → (s ∈ w'.db.sessions.rows ↔ s ∈ w.db.sessions.rows)

instance (customerId : Id) : Std.Refl (SpareOthers customerId) where
  refl _ _ _ := Iff.rfl

lemma revokeOwn_spareOthers (customerId sessionId : Id) :
    (revokeOwn customerId sessionId).Guarantees (SpareOthers customerId) := by
  have hother : ∀ s : Session, s.customerId ≠ customerId →
      revocable customerId sessionId s = false := by
    intro s hs
    simp [revocable, hs]
  intro w n w' hrun
  obtain ⟨now, w₁, hnow, hupdate⟩ := Tx.bind_ok hrun
  cases hnow
  cases hupdate
  intro s hs
  refine (Table.mem_update _).trans ⟨?_, fun hmem => ⟨s, hmem, Assignment.on_neg _ (hother s hs)⟩⟩
  rintro ⟨r, hr, heq⟩
  have hcustomer : r.customerId = s.customerId := by
    rw [← heq]
    exact (Session.Later.setRevokedAt_on r _ _).customerId_eq.symm
  rw [← hcustomer] at hs
  rw [Assignment.on_neg _ (hother r hs)] at heq
  rw [← heq]
  exact hr

lemma revokeSession_spareOthers [PyText] (customer : Customer) (sessionId : Id)
    (request : Option RequestContext) :
    (revokeSession customer sessionId request).Guarantees (SpareOthers customer.id) :=
  revokeSession_guarantees (fun _ _ _ _ => Iff.rfl) (revokeOwn_spareOthers _ _)

/-! ## Along every run -/

section Runs

variable [PyText] {ι : Type} [DecidableEq ι]

/-- What is inactive in `P₁` is inactive in `P₂`, a rotation that looks it up from `P₂` on is
refused without changing anything, and a call of `revoke_session` spares the sessions of other
customers.  `P₀` is the pool in which no call has begun. -/
structure DeadForGood (P₀ P₁ P₂ : SessionPool ι) : Prop where
  dead : ∀ s ∈ P₁.store.db.sessions.rows, s.isActive P₁.store.now = false →
    ∀ s' ∈ P₂.store.db.sessions.rows, s'.id = s.id → s'.isActive P₂.store.now = false
  refused : ∀ s ∈ P₁.store.db.sessions.rows, s.isActive P₁.store.now = false →
    ∀ i old, P₂.pc i = .inl (.rotateLookup old) → s.refreshTokenHash = hashJti old.jti →
      ∀ call' w', sessionSystem.next (P₂.pc i) P₂.store = some (call', w') → w' = P₂.store ∧
        ∀ P, sessionSystem.Run (fun _ _ => True) (P₂.advance i call' w') P →
          SessionCall.Refused P.store (P.pc i) ∧
            ∀ call'' w'', sessionSystem.next (P.pc i) P.store = some (call'', w'') →
              call'' = .inl (.failed (.app .invalidRefreshToken)) ∧ w'' = P.store
  spares : ∀ i customer sessionId request,
    P₀.pc i = .inr (revokeSession customer sessionId request) →
      ∀ call' w', sessionSystem.next (P₂.pc i) P₂.store = some (call', w') →
        SpareOthers customer.id P₂.store w'

variable {ok : SessionPool ι → ι → Prop} {P₀ P₁ P₂ : SessionPool ι}

omit [PyText] in
/-- A call that is refused stays refused. -/
lemma refused_of_run {i : ι} (hsound : ∀ j, SessionCall.Sound P₁.store (P₁.pc j))
    (hrefused : SessionCall.Refused P₁.store (P₁.pc i)) (hrun : sessionSystem.Run ok P₁ P₂) :
    SessionCall.Refused P₂.store (P₂.pc i) := by
  induction hrun with
  | refl => exact hrefused
  | @call P j call' w' hrun _ hnext ih =>
      obtain ⟨rfl, hpc⟩ | ⟨-, hpc⟩ := P.pc_advance_cases j i call' w'
      · rw [hpc, (ih.next hnext).1]
        rfl
      · rw [hpc]
        have hage := (sessions_age.guarantee (sessions_age.knows hsound hrun j) hnext).1
        exact ih.mono hage.2
  | env _ henv ih => exact ih.mono (OnlyRevokes.now henv)

/-- In every interleaving of logins, rotations and revocations, whatever is inactive at some
point is dead for good. -/
theorem inactive_for_good (hstart : ∀ i, NotStarted (P₀.pc i))
    (hbefore : sessionSystem.Run ok P₀ P₁) (hafter : sessionSystem.Run ok P₁ P₂) :
    DeadForGood P₀ P₁ P₂ := by
  have hsound₁ := sound_of_run hstart hbefore
  have hsound₂ := sound_of_run hstart (hbefore.trans hafter)
  have hage : SessionsAge P₁.store P₂.store := sessions_age.related hsound₁ hafter
  have hdead : ∀ s ∈ P₁.store.db.sessions.rows, s.isActive P₁.store.now = false →
      ∀ s' ∈ P₂.store.db.sessions.rows, s'.id = s.id → s'.isActive P₂.store.now = false := by
    intro s hs hinactive s' hs' hid
    have hlater : s.Later s' := (hage.1 s hs).later_of_pk hs' hid
    exact hlater.not_isActive hage.2 hinactive
  refine ⟨hdead, ?_, ?_⟩
  · intro s hs hinactive i old hpc hhash call' w' hnext
    obtain ⟨s', hs', hlater⟩ := hage.1 s hs
    have hhash' : s'.refreshTokenHash = hashJti old.jti :=
      (Session.Later.refreshTokenHash_eq hlater).trans hhash
    have hlookup := hnext
    rw [hpc] at hlookup
    obtain ⟨hrefused, rfl⟩ := refused_of_lookup hs' hhash'
      (hdead s hs hinactive s' hs' (Session.Later.id_eq hlater)) hlookup
    refine ⟨rfl, fun P hrun => ?_⟩
    have hstep : sessionSystem.Run (fun _ _ => True) P₂ (P₂.advance i call' P₂.store) :=
      System.Run.refl.call trivial hnext
    have hstill : SessionCall.Refused P.store (P.pc i) := by
      refine refused_of_run (sessions_age.knows hsound₂ hstep) ?_ hrun
      rw [Pool.pc_advance_self]
      exact hrefused
    exact ⟨hstill, fun call'' w'' h => hstill.next h⟩
  · intro i customer sessionId request hpc call' w' hnext
    obtain ⟨rest, hrest, hspares⟩ := Control.guarantees_of_run (hbefore.trans hafter) hpc
      (revokeSession_spareOthers customer sessionId request)
    rw [hrest] at hnext
    obtain ⟨c, c', hc, -, -⟩ | ⟨q, q', hq, -, hstep⟩ := sessionSystem_next hnext
    · cases hc
    · cases hq
      exact (hspares.step hstep).1

end Runs

/-! ### A rotation that comes too late -/

section Example

attribute [local instance] plainText

/-- The customer who logs in. -/
def loggedInCustomer : Customer where
  id := 0
  email := "a@example.com"

/-- A rotation, and a call that revokes the session it presents. -/
def rotationAndRevoke : SessionPool (Fin 2) where
  store := loggedIn
  pc
    | 0 => .inl (.rotateDecode (.signed loginToken))
    | 1 => .inr (revokeSession loggedInCustomer 0 none)

lemma notStarted_rotationAndRevoke : ∀ i, NotStarted (rotationAndRevoke.pc i)
  | 0 => trivial
  | 1 => revokeSession_onlyRevokes loggedInCustomer 0 none

/-- The session is revoked, and its rotation has not begun. -/
def revokedFirst : SessionPool (Fin 2) :=
  sessionSystem.replay (fun _ _ => true) rotationAndRevoke [⟨1, Nat.one_lt_two⟩] (by decide)

/-- The rotation is about to look the session up. -/
def atLookup : SessionPool (Fin 2) :=
  sessionSystem.replay (fun _ _ => true) revokedFirst [⟨0, Nat.two_pos⟩] (by decide)

/-- A lookup of the revoked session, in an interleaving with the revocation. -/
theorem inactive_for_good_after_revocation :
    (∃ s ∈ revokedFirst.store.db.sessions.rows, s.isActive revokedFirst.store.now = false) ∧
      atLookup.pc 0 = .inl (.rotateLookup loginToken) ∧
        DeadForGood rotationAndRevoke revokedFirst atLookup := by
  refine ⟨by decide, rfl, ?_⟩
  exact inactive_for_good notStarted_rotationAndRevoke
    (@System.run_replay _ _ _ _ _ (fun _ _ => True) _ _ (fun _ _ _ => trivial) _ _)
    (System.run_replay (fun _ _ _ => trivial) _)

end Example

end BePyEco
