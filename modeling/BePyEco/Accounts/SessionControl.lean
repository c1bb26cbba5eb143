import BePyEco.Accounts.Staff
import BePyEco.Library.Copies
import BePyEco.Library.Interleaving

/-!
# Interleaved session calls

The control points of `issue_session` and `rotate_refresh_token`, and the system in which any
number of such calls run on one database together with calls of any other service that does
nothing to sessions but revoke them.

The control points of a rotation keep the presented token and the copy of the `Session` row that
the lookup returned; `rotated` also keeps the new row, so that a pool of calls determines which
session descends from which.
-/

namespace BePyEco

open Library

/-! ## Control points -/

/-- Where a call stands. -/
inductive SessionPc
  | issueMint (customerId : Id)
  | issueCreate (customerId : Id) (refresh : RefreshToken)
  | issued (session : Session) (refresh : RefreshToken)
  | rotateDecode (raw : RawRefreshToken)
  | rotateLookup (old : RefreshToken)
  | rotateCheck (old : RefreshToken) (session : Session)
  | rotateSave (old : RefreshToken) (session : Session)
  | rotateMint (old : RefreshToken) (session : Session)
  | rotateCreate (old : RefreshToken) (session : Session) (refresh : RefreshToken)
  | rotated (old : RefreshToken) (session new : Session) (refresh : RefreshToken)
  | failed (e : Raised ApiError)

namespace SessionPc

/-- What is left of a call. -/
def program : SessionPc → Service (AccessToken × RefreshToken)
  | issueMint customerId => issueSession customerId
  | issueCreate customerId refresh => do
    let _ ← createSession customerId refresh
    return (refresh.accessToken, refresh)
  | issued _ refresh => return (refresh.accessToken, refresh)
  | rotateDecode raw => rotateRefreshToken raw
  | rotateLookup old => do
    let session ← lookupSession old
    checkSession session
    saveRevokedAt session
    issueSession session.customerId
  | rotateCheck _ session => do
    checkSession session
    saveRevokedAt session
    issueSession session.customerId
  | rotateSave _ session => do
    saveRevokedAt session
    issueSession session.customerId
  | rotateMint _ session => issueSession session.customerId
  | rotateCreate _ session refresh => do
    let _ ← createSession session.customerId refresh
    return (refresh.accessToken, refresh)
  | rotated _ _ _ refresh => return (refresh.accessToken, refresh)
  | failed e => .done (.error e)

/-- Execute the next statement of a call. -/
def next : SessionPc → World → Option (SessionPc × World)
  | issueMint customerId, w =>
    Control.advance (mintCustomerToken customerId) (issueCreate customerId) failed w
  | issueCreate customerId refresh, w =>
    Control.advance (createSession customerId refresh) (fun s => issued s refresh) failed w
  | issued _ _, _ => none
  | rotateDecode raw, w => Control.advance (decodeCustomerToken raw) rotateLookup failed w
  | rotateLookup old, w => Control.advance (lookupSession old) (rotateCheck old) failed w
  | rotateCheck old session, w =>
    Control.advance (checkSession session) (fun _ => rotateSave old session) failed w
  | rotateSave old session, w =>
    Control.advance (saveRevokedAt session) (fun _ => rotateMint old session) failed w
  | rotateMint old session, w =>
    Control.advance (mintCustomerToken session.customerId) (rotateCreate old session) failed w
  | rotateCreate old session refresh, w =>
    Control.advance (createSession session.customerId refresh)
      (fun new => rotated old session new refresh) failed w
  | rotated _ _ _ _, _ => none
  | failed _, _ => none

end SessionPc

/-- The control points follow the services. -/
def sessionControl : Control World ApiError (AccessToken × RefreshToken) SessionPc where
  program := SessionPc.program
  next := SessionPc.next
  sound c w := by
    have hstep {β : Type} {c : SessionPc} {x : Statement β} {onOk : β → SessionPc}
        (hnext : c.next w = Control.advance x onOk .failed w)
        (hc : c.program = Program.exec x >>= fun b => (onOk b).program) :
        c.program.step w = (c.next w).map fun y => (y.1.program, y.2) := by
      rw [hnext]
      exact Control.step_eq_advance SessionPc.program _ hc (fun _ => rfl) (fun _ => rfl) w
    cases c with
    | issueMint customerId => exact @hstep _ _ _ (.issueCreate customerId) rfl rfl
    | issueCreate customerId refresh => exact hstep rfl rfl
    | issued session refresh => rfl
    | rotateDecode raw => exact hstep rfl rfl
    | rotateLookup old => exact hstep rfl rfl
    | rotateCheck old session => exact hstep rfl rfl
    | rotateSave old session => exact hstep rfl rfl
    | rotateMint old session => exact @hstep _ _ _ (.rotateCreate old session) rfl rfl
    | rotateCreate old session refresh => exact hstep rfl rfl
    | rotated old session new refresh => rfl
    | failed e => rfl

/-! ## What one step does -/

/-- The row that `createSession` inserted, and the world after it. -/
structure SessionCreated (w : World) (customerId : Id) (refresh : RefreshToken) (s : Session)
    (w' : World) : Prop where
  row : s = {
    id := w.db.sessions.next
    customerId := customerId
    refreshTokenHash := hashJti refresh.jti
    expiresAt := w.now + refreshTokenLifetime }
  rows : w'.db.sessions.rows = w.db.sessions.rows ++ [s]
  now : w'.now = w.now

lemma mintCustomerToken_ok {customerId : Id} {w w' : World} {refresh : RefreshToken}
    (h : (mintCustomerToken customerId).run w = .ok (refresh, w')) :
    w' = { w with entropy := w.entropy + 1 } := by
  simp only [mintCustomerToken, RefreshToken.forUser, Tx.run_bind, run_drawRandom,
    run_timezoneNow, Tx.run_pure, Except.ok.injEq, Prod.mk.injEq] at h
  exact h.2.symm

lemma createSession_ok {customerId : Id} {refresh : RefreshToken} {w w' : World} {s : Session}
    (h : (createSession customerId refresh).run w = .ok (s, w')) :
    SessionCreated w customerId refresh s w' := by
  obtain ⟨t, hinsert, rfl⟩ := Objects.create_ok h
  obtain ⟨hrow, hrows, -, -, -⟩ := Table.insert_spec hinsert
  exact ⟨hrow, hrows, rfl⟩

lemma decodeCustomerToken_ok {raw : RawRefreshToken} {w w' : World} {old : RefreshToken}
    (h : (decodeCustomerToken raw).run w = .ok (old, w')) :
    w' = w ∧ raw = .signed old ∧ old.actorType = some .customer := by
  simp only [decodeCustomerToken, Tx.run_bind, run_timezoneNow] at h
  cases hdecode : decodeRefreshToken raw w.now with
  | none =>
      rw [hdecode] at h
      cases h
  | some token =>
      have hraw : raw = .signed token := decodeRefreshToken_eq_some hdecode
      rw [hdecode] at h
      by_cases hactor : token.actorType = some .customer
      · simp only [hactor, decide_true] at h
        cases h
        exact ⟨rfl, hraw, hactor⟩
      · simp only [hactor, decide_false] at h
        cases h

lemma lookupSession_ok {old : RefreshToken} {w w' : World} {s : Session}
    (h : (lookupSession old).run w = .ok (s, w')) :
    w' = w ∧ s ∈ w.db.sessions.rows ∧ s.refreshTokenHash = hashJti old.jti := by
  obtain hget | ⟨-, hraise⟩ := Tx.handling_ok h
  · obtain ⟨rfl, hrow⟩ := Objects.get_ok hget
    exact ⟨rfl, Table.mem_of_get hrow, by simpa using Table.holds_of_get hrow⟩
  · cases hraise

lemma checkSession_ok {session : Session} {w w' : World} {u : Unit}
    (h : (checkSession session).run w = .ok (u, w')) :
    w' = w ∧ session.isActive w.now = true := by
  simp only [checkSession, Tx.run_bind, run_timezoneNow] at h
  cases hactive : session.isActive w.now with
  | true =>
      rw [hactive] at h
      cases h
      exact ⟨rfl, rfl⟩
  | false =>
      rw [hactive] at h
      cases h

lemma saveRevokedAt_ok {session : Session} {w w' : World} {u : Unit}
    (h : (saveRevokedAt session).run w = .ok (u, w')) :
    w' = Stored.put (w.db.sessions.update (fun s => Model.pk s == session.id)
      (Session.setRevokedAt w.now)) w :=
  Objects.save_ok h

/-- The steps of a call, with what each reads and changes. -/
inductive SessionStep : SessionPc → World → SessionPc → World → Prop
  | fail (c : SessionPc) (e : Raised ApiError) (w : World) : SessionStep c w (.failed e) w
  | issueMint (customerId : Id) (refresh : RefreshToken) (w : World) :
      SessionStep (.issueMint customerId) w (.issueCreate customerId refresh)
        { w with entropy := w.entropy + 1 }
  | issueCreate {customerId : Id} {refresh : RefreshToken} {w w' : World} {s : Session}
      (h : SessionCreated w customerId refresh s w') :
      SessionStep (.issueCreate customerId refresh) w (.issued s refresh) w'
  | decode (old : RefreshToken) (w : World) :
      SessionStep (.rotateDecode (.signed old)) w (.rotateLookup old) w
  | lookup {old : RefreshToken} {s : Session} {w : World} (hmem : s ∈ w.db.sessions.rows)
      (hhash : s.refreshTokenHash = hashJti old.jti) :
      SessionStep (.rotateLookup old) w (.rotateCheck old s) w
  | check (old : RefreshToken) {s : Session} {w : World} (hactive : s.isActive w.now = true) :
      SessionStep (.rotateCheck old s) w (.rotateSave old s) w
  | save (old : RefreshToken) (s : Session) (w : World) :
      SessionStep (.rotateSave old s) w (.rotateMint old s)
        (Stored.put (w.db.sessions.update (fun r => Model.pk r == s.id)
          (Session.setRevokedAt w.now)) w)
  | mint (old : RefreshToken) (s : Session) (refresh : RefreshToken) (w : World) :
      SessionStep (.rotateMint old s) w (.rotateCreate old s refresh)
        { w with entropy := w.entropy + 1 }
  | create (old : RefreshToken) {s new : Session} {refresh : RefreshToken} {w w' : World}
      (h : SessionCreated w s.customerId refresh new w') :
      SessionStep (.rotateCreate old s refresh) w (.rotated old s new refresh) w'

/-- Every step of a call is one of `SessionStep`. -/
lemma sessionStep_of_next {c c' : SessionPc} {w w' : World} (h : c.next w = some (c', w')) :
    SessionStep c w c' w' := by
  cases c with
  | issueMint customerId =>
      rw [SessionPc.next] at h
      obtain ⟨refresh, hrun, rfl⟩ | ⟨e, -, rfl, rfl⟩ := Control.advance_cases h
      · rw [mintCustomerToken_ok hrun]
        exact .issueMint customerId refresh w
      · exact .fail _ e w'
  | issueCreate customerId refresh =>
      rw [SessionPc.next] at h
      obtain ⟨s, hrun, rfl⟩ | ⟨e, -, rfl, rfl⟩ := Control.advance_cases h
      · exact .issueCreate (createSession_ok hrun)
      · exact .fail _ e w'
  | issued session refresh => cases h
  | rotateDecode raw =>
      rw [SessionPc.next] at h
      obtain ⟨old, hrun, rfl⟩ | ⟨e, -, rfl, rfl⟩ := Control.advance_cases h
      · obtain ⟨rfl, rfl, -⟩ := decodeCustomerToken_ok hrun
        exact .decode old w'
      · exact .fail _ e w'
  | rotateLookup old =>
      rw [SessionPc.next] at h
      obtain ⟨s, hrun, rfl⟩ | ⟨e, -, rfl, rfl⟩ := Control.advance_cases h
      · obtain ⟨rfl, hmem, hhash⟩ := lookupSession_ok hrun
        exact .lookup hmem hhash
      · exact .fail _ e w'
  | rotateCheck old session =>
      rw [SessionPc.next] at h
      obtain ⟨u, hrun, rfl⟩ | ⟨e, -, rfl, rfl⟩ := Control.advance_cases h
      · obtain ⟨rfl, hactive⟩ := checkSession_ok hrun
        exact .check old hactive
      · exact .fail _ e w'
  | rotateSave old session =>
      rw [SessionPc.next] at h
      obtain ⟨u, hrun, rfl⟩ | ⟨e, -, rfl, rfl⟩ := Control.advance_cases h
      · rw [saveRevokedAt_ok hrun]
        exact .save old session w
      · exact .fail _ e w'
  | rotateMint old session =>
      rw [SessionPc.next] at h
      obtain ⟨refresh, hrun, rfl⟩ | ⟨e, -, rfl, rfl⟩ := Control.advance_cases h
      · rw [mintCustomerToken_ok hrun]
        exact .mint old session refresh w
      · exact .fail _ e w'
  | rotateCreate old session refresh =>
      rw [SessionPc.next] at h
      obtain ⟨new, hrun, rfl⟩ | ⟨e, -, rfl, rfl⟩ := Control.advance_cases h
      · exact .create old (createSession_ok hrun)
      · exact .fail _ e w'
  | rotated old session new refresh => cases h
  | failed e => cases h

/-! ## What the other services do to the sessions -/

/-- `s'` is the row `s`, possibly revoked since. -/
def Session.Later (s s' : Session) : Prop :=
  s' = s ∨ ∃ t, s' = { s with revokedAt := some t }

namespace Session.Later

variable {a b c : Session}

lemma refl (a : Session) : a.Later a := Or.inl rfl

lemma trans (hab : a.Later b) (hbc : b.Later c) : a.Later c := by
  rcases hab with rfl | ⟨t, rfl⟩
  · exact hbc
  · rcases hbc with rfl | ⟨u, rfl⟩
    · exact Or.inr ⟨t, rfl⟩
    · exact Or.inr ⟨u, rfl⟩

lemma id_eq (h : a.Later b) : b.id = a.id := by
  rcases h with rfl | ⟨t, rfl⟩ <;> rfl

lemma customerId_eq (h : a.Later b) : b.customerId = a.customerId := by
  rcases h with rfl | ⟨t, rfl⟩ <;> rfl

lemma refreshTokenHash_eq (h : a.Later b) : b.refreshTokenHash = a.refreshTokenHash := by
  rcases h with rfl | ⟨t, rfl⟩ <;> rfl

/-- A revoked session stays revoked. -/
lemma revoked (h : a.Later b) (ha : a.revokedAt ≠ none) : b.revokedAt ≠ none := by
  rcases h with rfl | ⟨t, rfl⟩
  · exact ha
  · simp

lemma setRevokedAt_on (a : Session) (p : Session → Bool) (t : Time) :
    a.Later ((Session.setRevokedAt t).on p a) := by
  unfold Assignment.on
  split
  · exact Or.inr ⟨t, rfl⟩
  · exact refl a

end Session.Later

instance : Evolving Session where
  Later := Session.Later
  refl := Session.Later.refl
  trans := Session.Later.trans
  pk_eq := Session.Later.id_eq

/-- The sessions are the same rows, some of them revoked since, and time has not gone back. -/
structure OnlyRevokes (w w' : World) : Prop where
  rows : ∃ f : Session → Session, (∀ s, Session.Later s (f s)) ∧
    w'.db.sessions.rows = w.db.sessions.rows.map f
  next : w'.db.sessions.next = w.db.sessions.next
  now : w.now ≤ w'.now

instance : Std.Refl OnlyRevokes where
  refl w := ⟨⟨id, Session.Later.refl, by simp⟩, rfl, le_refl _⟩

instance : IsTrans World OnlyRevokes where
  trans a b c hab hbc := by
    obtain ⟨f, hf, hrows⟩ := hab.rows
    obtain ⟨g, hg, hrows'⟩ := hbc.rows
    refine ⟨⟨g ∘ f, fun s => (hf s).trans (hg (f s)), ?_⟩, ?_, hab.now.trans hbc.now⟩
    · rw [hrows', hrows, List.map_map]
    · rw [hbc.next, hab.next]

/-- A statement on another table. -/
lemma OnlyRevokes.of_sessions_eq {w w' : World} (h : w'.db.sessions = w.db.sessions)
    (hnow : w.now ≤ w'.now) : OnlyRevokes w w' :=
  ⟨⟨id, Session.Later.refl, by simp [h]⟩, by rw [h], hnow⟩

/-- An `UPDATE` of `revoked_at`. -/
lemma OnlyRevokes.of_update (w : World) (p : Session → Bool) (t : Time) :
    OnlyRevokes w (Stored.put (w.db.sessions.update p (Session.setRevokedAt t)) w) :=
  ⟨⟨(Session.setRevokedAt t).on p, fun s => Session.Later.setRevokedAt_on s p t, rfl⟩, rfl,
    le_refl _⟩

lemma revokeOwn_onlyRevokes (customerId sessionId : Id) :
    (revokeOwn customerId sessionId).Guarantees OnlyRevokes :=
  (Tx.guarantees_read _).bind fun _ =>
    Objects.guarantees_update fun w => OnlyRevokes.of_update w _ _

lemma revokeUnrevoked_onlyRevokes (customerId : Id) :
    (revokeUnrevoked customerId).Guarantees OnlyRevokes :=
  (Tx.guarantees_read _).bind fun _ =>
    Objects.guarantees_update fun w => OnlyRevokes.of_update w _ _

lemma saveInactive_onlyRevokes (customerId : Id) :
    (saveInactive customerId).Guarantees OnlyRevokes :=
  Objects.guarantees_save fun _ => .of_sessions_eq rfl (le_refl _)

section

variable [PyText]

lemma revokeSession_onlyRevokes (customer : Customer) (sessionId : Id)
    (request : Option RequestContext) :
    (revokeSession customer sessionId request).Guarantees OnlyRevokes :=
  revokeSession_guarantees (fun _ _ => .of_sessions_eq rfl (le_refl _)) (revokeOwn_onlyRevokes _ _)

omit [PyText] in
lemma revokeAllSessions_onlyRevokes (customerId : Id) :
    (revokeAllSessions customerId).Guarantees OnlyRevokes :=
  revokeAllSessions_guarantees (revokeUnrevoked_onlyRevokes customerId)

lemma disableCustomer_onlyRevokes (actor : StaffInstance) (customerId : Id) (reason : String)
    (request : Option RequestContext) :
    (disableCustomer actor customerId reason request).Guarantees OnlyRevokes :=
  disableCustomer_guarantees saveInactive_onlyRevokes revokeUnrevoked_onlyRevokes
    fun _ _ => .of_sessions_eq rfl (le_refl _)

end

/-! ## The system -/

/-- Any number of issue and rotate calls, other calls, and changes from outside that do nothing
to sessions but revoke them. -/
def sessionSystem : System (SessionPc ⊕ Service Unit) World := sessionControl.system OnlyRevokes

/-- A pool of session calls. -/
abbrev SessionPool (ι : Type) := Pool ι (SessionPc ⊕ Service Unit) World

/-- No call has executed a statement yet: each is a call of `issue_session` or
`rotate_refresh_token`, or of a service that does nothing to sessions but revoke them. -/
def NotStarted : SessionPc ⊕ Service Unit → Prop
  | .inl (.issueMint _) => True
  | .inl (.rotateDecode _) => True
  | .inl _ => False
  | .inr rest => rest.Guarantees OnlyRevokes

end BePyEco
