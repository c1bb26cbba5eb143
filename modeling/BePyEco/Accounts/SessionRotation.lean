import BePyEco.Accounts.SessionControl
import BePyEco.Library.Ticket
import Mathlib.Logic.Relation

/-!
# Rotation under interleaving

A rotation looks its session up, checks the copy, and saves the revocation without a lock or a
conditional update, so two rotations can hold the same unrevoked copy.  This file says exactly
which schedules are harmless.

A session is a ticket of `Library.Ticket`: a rotation holds it from a lookup that found it
unrevoked until the save, and has spent it afterwards.  Under `LookupsAlone`, the discipline that
no lookup finds a session that another call holds, a token is rotated at most once and a lineage
has at most one active session (`rotatedOnce_of_lookupsAlone`).

The bulk revocation has a condition of the same kind.  If no rotation of the customer is past its
lookup when the `UPDATE` executes (`UpdatesAlone`), nothing that descends from a session of the
customer is active afterwards (`revokeAll_leaves_no_descendant`).
-/

namespace BePyEco

open Library Relation

/-! ## The copies that calls keep -/

lemma OnlyRevokes.keeps {w w' : World} (h : OnlyRevokes w w') :
    w.db.sessions.Keeps w'.db.sessions := by
  obtain ⟨f, hf, hrows⟩ := h.rows
  intro s hs
  refine ⟨f s, ?_, hf s⟩
  rw [hrows]
  exact List.mem_map_of_mem hs

lemma SessionCreated.keeps {w w' : World} {customerId : Id} {refresh : RefreshToken}
    {s : Session} (h : SessionCreated w customerId refresh s w') :
    w.db.sessions.Keeps w'.db.sessions := by
  intro r hr
  refine Table.hasLater_of_mem ?_
  rw [h.rows]
  exact List.mem_append_left _ hr

lemma SessionCreated.mem {w w' : World} {customerId : Id} {refresh : RefreshToken}
    {s : Session} (h : SessionCreated w customerId refresh s w') : s ∈ w'.db.sessions.rows := by
  rw [h.rows]
  simp

/-- What the data at a control point has to do with the table. -/
def SessionPc.Sound (w : World) : SessionPc → Prop
  | rotateCheck old s => w.db.sessions.HasLater s ∧ s.refreshTokenHash = hashJti old.jti
  | rotateSave old s => w.db.sessions.HasLater s ∧ s.refreshTokenHash = hashJti old.jti
  | rotateMint old s => w.db.sessions.HasLater s ∧ s.refreshTokenHash = hashJti old.jti
  | rotateCreate old s _ => w.db.sessions.HasLater s ∧ s.refreshTokenHash = hashJti old.jti
  | rotated old s new _ => (w.db.sessions.HasLater s ∧ s.refreshTokenHash = hashJti old.jti) ∧
      w.db.sessions.HasLater new ∧ new.customerId = s.customerId
  | _ => True

lemma SessionPc.Sound.mono {w w' : World} (h : w.db.sessions.Keeps w'.db.sessions) {c : SessionPc}
    (hc : c.Sound w) : c.Sound w' := by
  cases c with
  | rotateCheck old s => exact ⟨h.hasLater hc.1, hc.2⟩
  | rotateSave old s => exact ⟨h.hasLater hc.1, hc.2⟩
  | rotateMint old s => exact ⟨h.hasLater hc.1, hc.2⟩
  | rotateCreate old s refresh => exact ⟨h.hasLater hc.1, hc.2⟩
  | rotated old s new refresh => exact ⟨⟨h.hasLater hc.1.1, hc.1.2⟩, h.hasLater hc.2.1, hc.2.2⟩
  | _ => trivial

/-- A step loses no session, and the control point it reaches is sound. -/
lemma SessionStep.sound {c c' : SessionPc} {w w' : World} (h : SessionStep c w c' w')
    (hc : c.Sound w) : w.db.sessions.Keeps w'.db.sessions ∧ c'.Sound w' := by
  cases h with
  | fail c e w => exact ⟨.refl _, trivial⟩
  | issueMint customerId refresh w => exact ⟨.refl _, trivial⟩
  | issueCreate hcreated => exact ⟨hcreated.keeps, trivial⟩
  | decode old w => exact ⟨.refl _, trivial⟩
  | lookup hmem hhash => exact ⟨.refl _, Table.hasLater_of_mem hmem, hhash⟩
  | check old hactive => exact ⟨.refl _, hc⟩
  | save old s w =>
      have hkeeps := (OnlyRevokes.of_update w (fun r => Model.pk r == s.id) w.now).keeps
      exact ⟨hkeeps, hkeeps.hasLater hc.1, hc.2⟩
  | mint old s refresh w => exact ⟨.refl _, hc⟩
  | create old hcreated =>
      have hkeeps := hcreated.keeps
      refine ⟨hkeeps, ⟨hkeeps.hasLater hc.1, hc.2⟩, Table.hasLater_of_mem hcreated.mem, ?_⟩
      rw [hcreated.row]

/-- The invariant of every run: copies are copies of stored rows, and the other calls do nothing
to sessions but revoke them. -/
def SessionCall.Sound (w : World) : SessionPc ⊕ Service Unit → Prop
  | .inl c => c.Sound w
  | .inr rest => rest.Guarantees OnlyRevokes

lemma SessionCall.Sound.mono {w w' : World} (h : w.db.sessions.Keeps w'.db.sessions)
    {call : SessionPc ⊕ Service Unit} (hcall : SessionCall.Sound w call) :
    SessionCall.Sound w' call := by
  cases call with
  | inl c => exact SessionPc.Sound.mono h hcall
  | inr rest => exact hcall

lemma NotStarted.sound {call : SessionPc ⊕ Service Unit} (h : NotStarted call) (w : World) :
    SessionCall.Sound w call := by
  cases call with
  | inl c =>
      cases c with
      | issueMint customerId => trivial
      | rotateDecode raw => trivial
      | _ => cases h
  | inr rest => exact h

/-- The two kinds of steps of the system. -/
lemma sessionSystem_next {call call' : SessionPc ⊕ Service Unit} {w w' : World}
    (h : sessionSystem.next call w = some (call', w')) :
    (∃ c c', call = .inl c ∧ call' = .inl c' ∧ SessionStep c w c' w') ∨
      (∃ rest rest', call = .inr rest ∧ call' = .inr rest' ∧ rest.step w = some (rest', w')) := by
  obtain ⟨c, c', rfl, rfl, hnext⟩ | hother := Control.system_next h
  · exact Or.inl ⟨c, c', rfl, rfl, sessionStep_of_next hnext⟩
  · exact Or.inr hother

/-- A step of the system from a sound call. -/
lemma SessionCall.Sound.next {call call' : SessionPc ⊕ Service Unit} {w w' : World}
    (hcall : SessionCall.Sound w call) (h : sessionSystem.next call w = some (call', w')) :
    w.db.sessions.Keeps w'.db.sessions ∧ SessionCall.Sound w' call' := by
  obtain ⟨c, c', rfl, rfl, hstep⟩ | ⟨rest, rest', rfl, rfl, hstep⟩ := sessionSystem_next h
  · exact hstep.sound hcall
  · obtain ⟨honly, hrest⟩ := Program.Guarantees.step hcall hstep
    exact ⟨honly.keeps, hrest⟩

/-- No session is lost. -/
def KeepsSessions (w w' : World) : Prop := w.db.sessions.Keeps w'.db.sessions

instance : Std.Refl KeepsSessions where
  refl w := Table.Keeps.refl w.db.sessions

instance : IsTrans World KeepsSessions where
  trans _ _ _ := Table.Keeps.trans

lemma sessions_relyGuarantee :
    sessionSystem.RelyGuarantee KeepsSessions SessionCall.Sound where
  stable hcall hkeeps := hcall.mono hkeeps
  guarantee hcall hnext := hcall.next hnext
  rely henv := OnlyRevokes.keeps henv

section Runs

variable {ι : Type} [DecidableEq ι] {ok : SessionPool ι → ι → Prop} {P₀ P : SessionPool ι}

/-- Along every run, every call is sound. -/
lemma sound_of_run (hstart : ∀ i, NotStarted (P₀.pc i)) (hrun : sessionSystem.Run ok P₀ P) :
    ∀ i, SessionCall.Sound P.store (P.pc i) :=
  sessions_relyGuarantee.knows (fun i => (hstart i).sound P₀.store) hrun

end Runs

/-! ## Sessions as tickets -/

/-- The call has read a session unrevoked and not saved it yet. -/
def holdsUnsaved (sessionId : Id) : SessionPc ⊕ Service Unit → Bool
  | .inl (.rotateCheck _ s) => decide (s.id = sessionId) && decide (s.revokedAt = none)
  | .inl (.rotateSave _ s) => decide (s.id = sessionId)
  | _ => false

/-- The discipline: a lookup does not find a session unrevoked that another call holds. -/
def LookupsAlone {ι : Type} (P : SessionPool ι) (i : ι) : Prop :=
  ∀ old, P.pc i = .inl (.rotateLookup old) → ∀ s ∈ P.store.db.sessions.rows,
    s.refreshTokenHash = hashJti old.jti → s.revokedAt = none →
      ∀ j, holdsUnsaved s.id (P.pc j) = false

/-- The phase of a control point in the ticket protocol. -/
def SessionPc.phase : SessionPc → Ticket.Phase Id
  | rotateDecode _ => .idle
  | rotateLookup _ => .idle
  | rotateCheck _ s => if s.revokedAt = none then .holding s.id else .gone
  | rotateSave _ s => .holding s.id
  | rotateMint _ s => .spent s.id
  | rotateCreate _ s _ => .spent s.id
  | rotated _ s _ _ => .spent s.id
  | _ => .gone

def SessionCall.phase : SessionPc ⊕ Service Unit → Ticket.Phase Id
  | .inl c => c.phase
  | .inr _ => .gone

lemma holdsUnsaved_of_phase {call : SessionPc ⊕ Service Unit} {sessionId : Id}
    (h : SessionCall.phase call = .holding sessionId) : holdsUnsaved sessionId call = true := by
  cases call with
  | inl c =>
      cases c with
      | rotateCheck old s =>
          simp only [SessionCall.phase, SessionPc.phase] at h
          by_cases hrevoked : s.revokedAt = none
          · rw [if_pos hrevoked] at h
            cases h
            simp [holdsUnsaved, hrevoked]
          · rw [if_neg hrevoked] at h
            cases h
      | rotateSave old s =>
          cases h
          simp [holdsUnsaved]
      | _ => cases h
  | inr rest => cases h

/-- The row of a session is revoked. -/
def IsRevoked (w : World) (sessionId : Id) : Prop :=
  ∃ s ∈ w.db.sessions.rows, s.id = sessionId ∧ s.revokedAt ≠ none

lemma IsRevoked.mono {w w' : World} (h : w.db.sessions.Keeps w'.db.sessions) {sessionId : Id}
    (hrevoked : IsRevoked w sessionId) : IsRevoked w' sessionId := by
  obtain ⟨s, hmem, hid, hs⟩ := hrevoked
  obtain ⟨s', hmem', hlater⟩ := h s hmem
  exact ⟨s', hmem', hlater.id_eq.trans hid, hlater.revoked hs⟩

/-- A stored row that is not revoked shows that its session is not revoked. -/
lemma not_isRevoked {w : World} {s : Session} (hmem : s ∈ w.db.sessions.rows)
    (hs : s.revokedAt = none) : ¬ IsRevoked w s.id := by
  rintro ⟨r, hr, hid, hrevoked⟩
  have heq : r = s := w.db.sessions.eq_of_pk hr hmem hid
  rw [heq] at hrevoked
  exact hrevoked hs

/-- Saving a copy of a stored row revokes its session. -/
lemma isRevoked_save {w : World} {s : Session} (hs : w.db.sessions.HasLater s) (t : Time) :
    IsRevoked (Stored.put (w.db.sessions.update (fun r => Model.pk r == s.id)
      (Session.setRevokedAt t)) w) s.id := by
  obtain ⟨r, hr, hlater⟩ := hs
  have hid : r.id = s.id := hlater.id_eq
  have hsel : (Model.pk r == s.id) = true := beq_iff_eq.2 hid
  refine ⟨(Session.setRevokedAt t).apply r, ?_, hid, by simp [Session.setRevokedAt]⟩
  exact (Table.mem_update _).2 ⟨r, hr, Assignment.on_pos _ hsel⟩

variable {ι : Type}

/-- A disciplined step of a session call is a step of the ticket protocol. -/
lemma sessionStep_ticket [DecidableEq ι] {P : SessionPool ι} {i : ι} {c c' : SessionPc} {w' : World}
    (hpc : P.pc i = .inl c) (hsound : c.Sound P.store) (hok : LookupsAlone P i)
    (hstep : SessionStep c P.store c' w') :
    Ticket.Step (SessionCall.phase ∘ P.pc) (IsRevoked P.store)
      (Function.update (SessionCall.phase ∘ P.pc) i c'.phase) (IsRevoked w') := by
  have hphase : (SessionCall.phase ∘ P.pc) i = c.phase := by
    rw [Function.comp_apply, hpc]
    rfl
  have hkeeps : P.store.db.sessions.Keeps w'.db.sessions := (hstep.sound hsound).1
  have hmono : ∀ k, IsRevoked P.store k → IsRevoked w' k := fun _ hk => hk.mono hkeeps
  cases hstep with
  | fail c e w => exact .leave i
  | issueMint customerId refresh w => exact .stay hphase hmono
  | issueCreate hcreated => exact .stay hphase hmono
  | decode old w => exact .stay hphase hmono
  | @lookup old s w hmem hhash =>
      -- the only place where a ticket is taken, and where the discipline is needed
      by_cases hrevoked : s.revokedAt = none
      · have hfree : ∀ j, (SessionCall.phase ∘ P.pc) j ≠ .holding s.id := by
          intro j hj
          have hheld := holdsUnsaved_of_phase hj
          rw [hok old hpc s hmem hhash hrevoked j] at hheld
          cases hheld
        have htake := Ticket.Step.take i s.id hphase (not_isRevoked hmem hrevoked) hfree
        simpa only [SessionPc.phase, if_pos hrevoked] using htake
      · simpa only [SessionPc.phase, if_neg hrevoked] using Ticket.Step.leave i
  | check old hactive =>
      have hrevoked := (Session.isActive_iff.1 hactive).1
      refine .stay ?_ hmono
      simpa only [SessionPc.phase, if_pos hrevoked] using hphase
  | save old s w => exact .spend i s.id hphase hmono (isRevoked_save hsound.1 _)
  | mint old s refresh w => exact .stay hphase hmono
  | create old hcreated => exact .stay hphase hmono

/-- Under the discipline the sessions are an implementation of the ticket protocol. -/
theorem sessions_implement_tickets [DecidableEq ι] :
    Ticket.Implements sessionSystem (LookupsAlone : SessionPool ι → ι → Prop)
      (fun P => ∀ i, SessionCall.Sound P.store (P.pc i)) SessionCall.phase IsRevoked where
  call P i call' w' hsound hok hnext := by
    obtain ⟨c, c', hpc, rfl, hstep⟩ | ⟨rest, rest', hpc, rfl, hstep⟩ := sessionSystem_next hnext
    · have hc := hsound i
      rw [hpc] at hc
      exact sessionStep_ticket hpc hc hok hstep
    · have hrest := hsound i
      rw [hpc] at hrest
      have hkeeps := (Program.Guarantees.step hrest hstep).1.keeps
      refine .stay ?_ fun _ hk => hk.mono hkeeps
      rw [Function.comp_apply, hpc]
      rfl
  env P w' _ henv := fun _ hk => hk.mono (OnlyRevokes.keeps henv)

/-! ## One rotation for each token, one active session for each login -/

/-- A rotation that succeeded turned session `a` into session `b`. -/
def RotatedTo (P : SessionPool ι) (a b : Id) : Prop :=
  ∃ i old s new refresh, P.pc i = .inl (.rotated old s new refresh) ∧ s.id = a ∧ new.id = b

/-- Session `b` is session `a` or descends from it by rotations. -/
def Descends (P : SessionPool ι) : Id → Id → Prop := ReflTransGen (RotatedTo P)

/-- The session is active at the present time. -/
def ActiveIn (P : SessionPool ι) (sessionId : Id) : Prop :=
  ∃ s ∈ P.store.db.sessions.rows, s.id = sessionId ∧ s.isActive P.store.now = true

/-- Every token was rotated at most once, and every lineage has at most one active session. -/
structure RotatedOnce (P : SessionPool ι) : Prop where
  one_success : ∀ i j old s s' new new' refresh refresh',
    P.pc i = .inl (.rotated old s new refresh) → P.pc j = .inl (.rotated old s' new' refresh') →
      i = j
  one_active : ∀ login a b, Descends P login a → Descends P login b → ActiveIn P a →
    ActiveIn P b → a = b

lemma not_activeIn_of_isRevoked {P : SessionPool ι} {sessionId : Id}
    (h : IsRevoked P.store sessionId) : ¬ ActiveIn P sessionId := by
  rintro ⟨s, hmem, rfl, hactive⟩
  exact not_isRevoked hmem (Session.isActive_iff.1 hactive).1 h

lemma rotatedTo_rightUnique {P : SessionPool ι}
    (h : Ticket.Exclusive (SessionCall.phase ∘ P.pc) (IsRevoked P.store)) :
    Relator.RightUnique (RotatedTo P) := by
  rintro a b b' ⟨i, old, s, new, refresh, hi, ha, hb⟩ ⟨j, old', s', new', refresh', hj, ha', hb'⟩
  have hspent : (SessionCall.phase ∘ P.pc) i = .spent a := by
    rw [Function.comp_apply, hi, ← ha]
    rfl
  have hspent' : (SessionCall.phase ∘ P.pc) j = .spent a := by
    rw [Function.comp_apply, hj, ← ha']
    rfl
  have hij : i = j := h.one_spender i j a hspent hspent'
  rw [hij, hj] at hi
  cases hi
  exact hb.symm.trans hb'

/-- Whatever descends from a session by at least one rotation shows the session revoked. -/
lemma isRevoked_of_rotatedTo {P : SessionPool ι}
    (h : Ticket.Exclusive (SessionCall.phase ∘ P.pc) (IsRevoked P.store)) {a b : Id}
    (hab : RotatedTo P a b) : IsRevoked P.store a := by
  obtain ⟨i, old, s, new, refresh, hi, ha, -⟩ := hab
  refine h.spent_used i a ?_
  rw [Function.comp_apply, hi, ← ha]
  rfl

/-- Two copies of sessions with one digest are copies of the same session. -/
lemma Session.id_eq_of_copies {w : World} {s s' : Session} (hs : w.db.sessions.HasLater s)
    (hs' : w.db.sessions.HasLater s') (h : s.refreshTokenHash = s'.refreshTokenHash) :
    s.id = s'.id := by
  obtain ⟨r, hr, hlater⟩ := hs
  obtain ⟨r', hr', hlater'⟩ := hs'
  have hhash : r.refreshTokenHash = r'.refreshTokenHash := by
    rw [hlater.refreshTokenHash_eq, hlater'.refreshTokenHash_eq, h]
  have heq : r = r' := w.db.sessions.eq_of_conflicts hr hr' (decide_eq_true hhash)
  rw [← hlater.id_eq, ← hlater'.id_eq, heq]

/-- In every interleaving of rotations, logins and revocations in which no lookup finds a session
that another call has read unrevoked and not saved yet, every token is rotated at most once and
every login has at most one active session. -/
theorem rotatedOnce_of_lookupsAlone [DecidableEq ι] {P₀ P : SessionPool ι}
    (hstart : ∀ i, NotStarted (P₀.pc i)) (hrun : sessionSystem.Run LookupsAlone P₀ P) :
    RotatedOnce P := by
  have hphase : ∀ i, SessionCall.phase (P₀.pc i) = .idle ∨ SessionCall.phase (P₀.pc i) = .gone := by
    intro i
    have hi := hstart i
    cases hcall : P₀.pc i with
    | inl c =>
        rw [hcall] at hi
        cases c with
        | issueMint customerId => exact Or.inr rfl
        | rotateDecode raw => exact Or.inl rfl
        | _ => cases hi
    | inr rest => exact Or.inr rfl
  have hexcl := sessions_implement_tickets.exclusive (fun P hrun => sound_of_run hstart hrun) hphase
    hrun
  have hsound := sound_of_run hstart hrun
  refine ⟨?_, ?_⟩
  · intro i j old s s' new new' refresh refresh' hi hj
    have hsi := hsound i
    have hsj := hsound j
    rw [hi] at hsi
    rw [hj] at hsj
    have hid : s.id = s'.id := Session.id_eq_of_copies hsi.1.1 hsj.1.1 (hsi.1.2.trans hsj.1.2.symm)
    refine hexcl.one_spender i j s.id ?_ ?_
    · rw [Function.comp_apply, hi]
      rfl
    · rw [Function.comp_apply, hj, hid]
      rfl
  · -- a lineage is a chain, and every session of it but the last is revoked
    intro login a b ha hb hactive hactive'
    have hlast : ∀ {x y : Id}, ReflTransGen (RotatedTo P) x y → ActiveIn P x → x = y := by
      intro x y hxy hx
      obtain rfl | ⟨z, hxz, -⟩ := hxy.cases_head
      · rfl
      · exact absurd hx (not_activeIn_of_isRevoked (isRevoked_of_rotatedTo hexcl hxz))
    obtain hab | hba := ReflTransGen.total_of_right_unique (rotatedTo_rightUnique hexcl) ha hb
    · exact hlast hab hactive
    · exact (hlast hba hactive').symm

/-- The call succeeded with the token. -/
def succeededWith (old : RefreshToken) : SessionPc ⊕ Service Unit → Bool
  | .inl (.rotated old' _ _ _) => decide (old' = old)
  | _ => false

lemma exists_rotated {old : RefreshToken} {call : SessionPc ⊕ Service Unit}
    (h : succeededWith old call = true) :
    ∃ s new refresh, call = .inl (.rotated old s new refresh) := by
  cases call with
  | inl c =>
      cases c with
      | rotated old' s new refresh =>
          rw [← of_decide_eq_true h]
          exact ⟨s, new, refresh, rfl⟩
      | _ => cases h
  | inr rest => cases h

/-- A new customer logs in. -/
def firstLogin : Service (AccessToken × RefreshToken) := do
  let customer ← insertCustomer "a@example.com"
  issueSession customer.id

/-- A database in which one customer has logged in once. -/
def loggedIn : World := (firstLogin.run {}).2

/-- The token of that login. -/
def loginToken : RefreshToken where
  jti := 0
  userId := 0
  actorType := some .customer
  currentTime := 0
  exp := refreshTokenLifetime / second

/-- Two rotations of that token. -/
def twoRotations : SessionPool (Fin 2) where
  store := loggedIn
  pc _ := .inl (.rotateDecode (.signed loginToken))

lemma notStarted_twoRotations (i : Fin 2) : NotStarted (twoRotations.pc i) := trivial

/-- The check of a step that `LookupsAlone` asks for, on a pool of two calls. -/
def checkLookup (P : SessionPool (Fin 2)) (i : Fin 2) : Bool :=
  match P.pc i with
  | .inl (.rotateLookup old) => decide (∀ s ∈ P.store.db.sessions.rows,
      s.refreshTokenHash = hashJti old.jti → s.revokedAt = none →
        ∀ j, holdsUnsaved s.id (P.pc j) = false)
  | _ => true

lemma lookupsAlone_of_check {P : SessionPool (Fin 2)} {i : Fin 2}
    (h : checkLookup P i = true) : LookupsAlone P i := by
  intro old hpc
  rw [checkLookup, hpc] at h
  exact of_decide_eq_true h

/-- One rotation after the other: the first succeeds, the second is refused. -/
theorem rotatedOnce_of_sequential_rotations :
    ∃ P, sessionSystem.Run LookupsAlone twoRotations P ∧
      succeededWith loginToken (P.pc 0) = true ∧ RotatedOnce P := by
  have h : (sessionSystem.execute checkLookup twoRotations [0, 0, 0, 0, 0, 0, 1, 1, 1]).map
      (fun P => succeededWith loginToken (P.pc 0)) = some true := by decide
  obtain ⟨P, hrun, hp⟩ := System.exists_run_of_execute (fun _ _ => lookupsAlone_of_check) h
  exact ⟨P, hrun, hp, rotatedOnce_of_lookupsAlone notStarted_twoRotations hrun⟩

/-- Two rotations that interleave both succeed with one token. -/
theorem not_rotatedOnce :
    ¬ ∀ P₀ P : SessionPool (Fin 2), (∀ i, NotStarted (P₀.pc i)) →
      sessionSystem.Run (fun _ _ => True) P₀ P → RotatedOnce P := by
  intro hclaim
  have h : (sessionSystem.execute (fun _ _ => true) twoRotations
      [0, 0, 1, 1, 0, 1, 0, 1, 0, 1, 0, 1]).map
      (fun P => succeededWith loginToken (P.pc 0) && succeededWith loginToken (P.pc 1)) =
        some true := by decide
  obtain ⟨P, hrun, hp⟩ := System.exists_run_of_execute (fun _ _ _ => trivial) h
  obtain ⟨hfirst, hsecond⟩ := Bool.and_eq_true_iff.1 hp
  obtain ⟨s, new, refresh, h₀⟩ := exists_rotated hfirst
  obtain ⟨s', new', refresh', h₁⟩ := exists_rotated hsecond
  have honce := hclaim twoRotations P notStarted_twoRotations hrun
  have heq : (0 : Fin 2) = 1 := honce.one_success 0 1 _ _ _ _ _ _ _ h₀ h₁
  exact absurd heq (by decide)

/-! ## Revoking all sessions -/

/-- A rotation of the customer is past its lookup, has not found its session revoked, and has not
created the new one yet. -/
def inFlight (customerId : Id) : SessionPc ⊕ Service Unit → Bool
  | .inl (.rotateCheck _ s) => decide (s.customerId = customerId) && decide (s.revokedAt = none)
  | .inl (.rotateSave _ s) => decide (s.customerId = customerId)
  | .inl (.rotateMint _ s) => decide (s.customerId = customerId)
  | .inl (.rotateCreate _ s _) => decide (s.customerId = customerId)
  | _ => false

/-- The call is about to execute the `UPDATE` of `revoke_all_sessions`. -/
def AtRevokeAll (customerId : Id) (call : SessionPc ⊕ Service Unit) : Prop :=
  ∃ rest : ℕ → Service Unit, call = .inr (Program.exec (revokeUnrevoked customerId) >>= rest)

/-- The discipline: no rotation of the customer is in flight when the `UPDATE` executes. -/
def UpdatesAlone (P : SessionPool ι) (i : ι) : Prop :=
  ∀ customerId, AtRevokeAll customerId (P.pc i) → ∀ j, inFlight customerId (P.pc j) = false

/-- The sessions of a customer. -/
def SessionsOf (w : World) (customerId : Id) (sessionId : Id) : Prop :=
  ∃ s ∈ w.db.sessions.rows, s.id = sessionId ∧ s.customerId = customerId

/-- What a control point must not do to a set of dead sessions: go on with one of them. -/
def SessionPc.Quiet (dead : Id → Prop) : SessionPc → Prop
  | rotateCheck _ s => dead s.id → s.revokedAt ≠ none
  | rotateSave _ s => ¬ dead s.id
  | rotateMint _ s => ¬ dead s.id
  | rotateCreate _ s _ => ¬ dead s.id
  | rotated _ s new _ => dead s.id → dead new.id
  | _ => True

/-- All sessions of a set are revoked, and no call will turn one of them into another session. -/
structure Buried (dead : Id → Prop) (P : SessionPool ι) : Prop where
  revoked : ∀ sessionId, dead sessionId → IsRevoked P.store sessionId
  quiet : ∀ i c, P.pc i = .inl c → c.Quiet dead

/-- A step of a session call keeps dead sessions dead. -/
lemma SessionStep.quiet {dead : Id → Prop} {c c' : SessionPc} {w w' : World}
    (h : SessionStep c w c' w') (hrevoked : ∀ sessionId, dead sessionId → IsRevoked w sessionId)
    (hc : c.Quiet dead) : c'.Quiet dead := by
  cases h with
  | lookup hmem hhash =>
      intro hdead hnone
      exact not_isRevoked hmem hnone (hrevoked _ hdead)
  | check old hactive => exact fun hdead => hc hdead (Session.isActive_iff.1 hactive).1
  | save old s w => exact hc
  | mint old s refresh w => exact hc
  | create old hcreated => exact fun hdead => absurd hdead hc
  | _ => trivial

lemma Buried.of_run [DecidableEq ι] {dead : Id → Prop} {ok : SessionPool ι → ι → Prop}
    {P₀ P : SessionPool ι} (hsound : ∀ i, SessionCall.Sound P₀.store (P₀.pc i))
    (h₀ : Buried dead P₀) (hrun : sessionSystem.Run ok P₀ P) : Buried dead P := by
  induction hrun with
  | refl => exact h₀
  | @call P i call' w' hrun _ hnext ih =>
      have hkeeps := ((sessions_relyGuarantee.knows hsound hrun i).next hnext).1
      refine ⟨fun sessionId hdead => (ih.revoked sessionId hdead).mono hkeeps, fun j c hj => ?_⟩
      obtain ⟨-, hpc⟩ | ⟨-, hpc⟩ := P.pc_advance_cases i j call' w'
      · rw [hpc] at hj
        obtain ⟨c₀, c', hpc₀, rfl, hstep⟩ | ⟨rest, rest', -, rfl, -⟩ := sessionSystem_next hnext
        · cases hj
          exact hstep.quiet ih.revoked (ih.quiet i c₀ hpc₀)
        · cases hj
      · rw [hpc] at hj
        exact ih.quiet j c hj
  | env _ henv ih =>
      exact ⟨fun sessionId hdead => (ih.revoked sessionId hdead).mono
        (OnlyRevokes.keeps henv), ih.quiet⟩

/-- Nothing that descends from a dead session is active. -/
lemma Buried.not_activeIn {dead : Id → Prop} {P : SessionPool ι} (h : Buried dead P) {a b : Id}
    (ha : dead a) (hab : Descends P a b) : ¬ ActiveIn P b := by
  have hdead : dead b := by
    induction hab with
    | refl => exact ha
    | tail _ hstep ih =>
        obtain ⟨i, old, s, new, refresh, hi, rfl, rfl⟩ := hstep
        exact h.quiet i _ hi ih
  exact not_activeIn_of_isRevoked (h.revoked b hdead)

/-- A copy of a session of a customer is a session of that customer. -/
lemma Session.customerId_eq_of_copy {w : World} {s : Session} {customerId : Id}
    (hs : w.db.sessions.HasLater s) (hof : SessionsOf w customerId s.id) :
    s.customerId = customerId := by
  obtain ⟨r, hr, hlater⟩ := hs
  obtain ⟨r', hr', hid, hcustomer⟩ := hof
  have heq : r = r' := w.db.sessions.eq_of_pk hr hr' (hlater.id_eq.trans hid.symm)
  rw [← hlater.customerId_eq, heq, hcustomer]

/-- The `UPDATE` revokes every session of the customer. -/
lemma isRevoked_revokeUnrevoked {w : World} {customerId sessionId : Id}
    (h : SessionsOf w customerId sessionId) :
    IsRevoked ((revokeUnrevoked customerId).exec w).2 sessionId := by
  obtain ⟨s, hmem, rfl, hcustomer⟩ := h
  refine ⟨(Session.setRevokedAt w.now).on (unrevokedOf customerId) s,
    (Table.mem_update _).2 ⟨s, hmem, rfl⟩, Assignment.pk_on _ _ s, ?_⟩
  by_cases hrevoked : s.revokedAt = none
  · rw [Assignment.on_pos _ (by simp [unrevokedOf, hcustomer, hrevoked])]
    simp [Session.setRevokedAt]
  · rw [Assignment.on_neg _ (by simp [unrevokedOf, hrevoked])]
    exact hrevoked

/-- When the `UPDATE` executes with no rotation in flight, the sessions the customer has at that
moment are dead from then on. -/
lemma buried_of_update [DecidableEq ι] {P : SessionPool ι} {i : ι} {customerId : Id}
    {call' : SessionPc ⊕ Service Unit} {w' : World}
    (hsound : ∀ j, SessionCall.Sound P.store (P.pc j)) (hpc : AtRevokeAll customerId (P.pc i))
    (hok : UpdatesAlone P i) (hnext : sessionSystem.next (P.pc i) P.store = some (call', w')) :
    Buried (SessionsOf P.store customerId) (P.advance i call' w') := by
  have hflight := hok customerId hpc
  obtain ⟨rest, hrest⟩ := hpc
  rw [hrest] at hnext
  cases hnext
  refine ⟨fun sessionId hof => isRevoked_revokeUnrevoked hof, fun j c hj => ?_⟩
  obtain ⟨-, hadvance⟩ | ⟨-, hadvance⟩ := P.pc_advance_cases i j _ _
  · rw [hadvance] at hj
    cases hj
  · rw [hadvance] at hj
    have hc := hsound j
    have hfree := hflight j
    rw [hj] at hc hfree
    cases c with
    | rotateCheck old s =>
        intro hof hnone
        simp [inFlight, Session.customerId_eq_of_copy hc.1 hof, hnone] at hfree
    | rotateSave old s =>
        intro hof
        simp [inFlight, Session.customerId_eq_of_copy hc.1 hof] at hfree
    | rotateMint old s =>
        intro hof
        simp [inFlight, Session.customerId_eq_of_copy hc.1 hof] at hfree
    | rotateCreate old s refresh =>
        intro hof
        simp [inFlight, Session.customerId_eq_of_copy hc.1 hof] at hfree
    | rotated old s new refresh =>
        intro hof
        obtain ⟨r, hr, hlater⟩ := hc.2.1
        refine ⟨r, hr, hlater.id_eq, ?_⟩
        rw [hlater.customerId_eq, hc.2.2, Session.customerId_eq_of_copy hc.1.1 hof]
    | _ => trivial

/-- Once `revoke_all_sessions` has executed its `UPDATE`, no session that the customer had when
the call began, and none that descends from such a session by rotations, is active, in every
interleaving in which no rotation of the customer is in flight at the moment of an `UPDATE`.
`P₁` is the pool in which the call begins and `P₂` the one in which its `UPDATE` executes. -/
theorem revokeAll_leaves_no_descendant [DecidableEq ι] {P₀ P₁ P₂ P : SessionPool ι} {i : ι}
    {customerId : Id} {call' : SessionPc ⊕ Service Unit} {w' : World}
    (hstart : ∀ j, NotStarted (P₀.pc j)) (hbefore : sessionSystem.Run UpdatesAlone P₀ P₁)
    (hwait : sessionSystem.Run UpdatesAlone P₁ P₂) (hpc : AtRevokeAll customerId (P₂.pc i))
    (hok : UpdatesAlone P₂ i)
    (hnext : sessionSystem.next (P₂.pc i) P₂.store = some (call', w'))
    (hafter : sessionSystem.Run UpdatesAlone (P₂.advance i call' w') P) :
    ∀ s ∈ P₁.store.db.sessions.rows, s.customerId = customerId →
      ∀ sessionId, Descends P s.id sessionId → ¬ ActiveIn P sessionId := by
  intro s hs hcustomer sessionId hdescends
  have hkeeps := sessions_relyGuarantee.related (sound_of_run hstart hbefore) hwait
  have hsound₂ := sound_of_run hstart (hbefore.trans hwait)
  have hsound := sound_of_run hstart ((hbefore.trans hwait).call hok hnext)
  have hburied := (buried_of_update hsound₂ hpc hok hnext).of_run hsound hafter
  obtain ⟨r, hr, hlater⟩ := hkeeps s hs
  refine hburied.not_activeIn ⟨r, hr, hlater.id_eq, ?_⟩ hdescends
  rw [hlater.customerId_eq, hcustomer]

/-- A rotation, and a call that revokes all sessions of its customer. -/
def rotationAndRevokeAll : SessionPool (Fin 2) where
  store := loggedIn
  pc i := if i = 0 then .inl (.rotateDecode (.signed loginToken)) else .inr (revokeAllSessions 0)

lemma notStarted_rotationAndRevokeAll (i : Fin 2) : NotStarted (rotationAndRevokeAll.pc i) := by
  simp only [rotationAndRevokeAll]
  split
  · trivial
  · exact revokeAllSessions_onlyRevokes 0

/-- A rotation is past its lookup and not over. -/
def pastLookup : SessionPc ⊕ Service Unit → Bool
  | .inl (.rotateCheck _ _) => true
  | .inl (.rotateSave _ _) => true
  | .inl (.rotateMint _ _) => true
  | .inl (.rotateCreate _ _ _) => true
  | _ => false

lemma inFlight_of_pastLookup {call : SessionPc ⊕ Service Unit} (h : pastLookup call = false)
    (customerId : Id) : inFlight customerId call = false := by
  cases call with
  | inl c =>
      cases c with
      | rotateCheck old s => cases h
      | rotateSave old s => cases h
      | rotateMint old s => cases h
      | rotateCreate old s refresh => cases h
      | _ => rfl
  | inr rest => rfl

/-- A check of a step that implies `UpdatesAlone`. -/
def checkUpdate (P : SessionPool (Fin 2)) (i : Fin 2) : Bool :=
  (P.pc i).isLeft || decide (∀ j, pastLookup (P.pc j) = false)

lemma updatesAlone_of_check {P : SessionPool (Fin 2)} {i : Fin 2}
    (h : checkUpdate P i = true) : UpdatesAlone P i := by
  rintro customerId ⟨rest, hpc⟩ j
  rw [checkUpdate, hpc] at h
  exact inFlight_of_pastLookup (of_decide_eq_true h j) customerId

/-- The rotation has succeeded, and the other call has not begun. -/
def rotatedFirst : SessionPool (Fin 2) :=
  sessionSystem.replay checkUpdate rotationAndRevokeAll [0, 0, 0, 0, 0, 0] (by decide)

/-- A pool after the `UPDATE` of its second call. -/
def afterUpdate (P : SessionPool (Fin 2)) : SessionPool (Fin 2) :=
  P.advance 1 (.inr (.done (.ok ()))) ((revokeUnrevoked 0).exec P.store).2

/-- A rotation that is over before the `UPDATE` leaves nothing alive. -/
theorem revokeAll_after_rotation :
    RotatedTo (afterUpdate rotatedFirst) 0 1 ∧
      ∀ sessionId, Descends (afterUpdate rotatedFirst) 0 sessionId →
        ¬ ActiveIn (afterUpdate rotatedFirst) sessionId := by
  have hrun : sessionSystem.Run UpdatesAlone rotationAndRevokeAll rotatedFirst :=
    System.run_replay (fun _ _ => updatesAlone_of_check) _
  have hmem : ∃ s ∈ rotatedFirst.store.db.sessions.rows, s.id = 0 ∧ s.customerId = 0 := by decide
  obtain ⟨s, hs, hid, hcustomer⟩ := hmem
  refine ⟨⟨0, _, _, _, _, rfl, rfl, rfl⟩, ?_⟩
  have hpc : AtRevokeAll 0 (rotatedFirst.pc 1) := ⟨_, rfl⟩
  have hdead := revokeAll_leaves_no_descendant notStarted_rotationAndRevokeAll hrun .refl hpc
    (updatesAlone_of_check (by decide)) rfl .refl s hs hcustomer
  rw [hid] at hdead
  exact hdead

/-- The rotation has checked its session, and the other call has not begun. -/
def checkedFirst : SessionPool (Fin 2) :=
  sessionSystem.replay (fun _ _ => true) rotationAndRevokeAll [0, 0, 0] (by decide)

/-- The `UPDATE` has executed between the check and the save of the rotation, and both calls are
over. -/
def bothFinished : SessionPool (Fin 2) :=
  sessionSystem.replay (fun _ _ => true) (afterUpdate checkedFirst) [0, 0, 0] (by decide)

/-- A rotation that has checked its session when the `UPDATE` executes leaves an active session
behind, after both calls have finished. -/
theorem not_revokeAll_leaves_no_descendant :
    ¬ ∀ (P₀ P₁ P₂ P : SessionPool (Fin 2)) (i : Fin 2) (customerId : Id)
      (call' : SessionPc ⊕ Service Unit) (w' : World), (∀ j, NotStarted (P₀.pc j)) →
      sessionSystem.Run (fun _ _ => True) P₀ P₁ → sessionSystem.Run (fun _ _ => True) P₁ P₂ →
      AtRevokeAll customerId (P₂.pc i) →
      sessionSystem.next (P₂.pc i) P₂.store = some (call', w') →
      sessionSystem.Run (fun _ _ => True) (P₂.advance i call' w') P →
      (∀ j, (sessionSystem.next (P.pc j) P.store).isNone = true) →
      ∀ s ∈ P₁.store.db.sessions.rows, s.customerId = customerId →
        ∀ sessionId, Descends P s.id sessionId → ¬ ActiveIn P sessionId := by
  intro hclaim
  have hmem : ∃ s ∈ checkedFirst.store.db.sessions.rows, s.id = 0 ∧ s.customerId = 0 := by decide
  obtain ⟨s, hs, hid, hcustomer⟩ := hmem
  have hactive : ActiveIn bothFinished 1 := by
    have h : ∃ s ∈ bothFinished.store.db.sessions.rows,
      s.id = 1 ∧ s.isActive bothFinished.store.now = true := by decide
    exact h
  have hrotated : RotatedTo bothFinished 0 1 := ⟨0, _, _, _, _, rfl, rfl, rfl⟩
  refine hclaim rotationAndRevokeAll checkedFirst checkedFirst bothFinished 1 0 _ _
    notStarted_rotationAndRevokeAll (System.run_replay (fun _ _ _ => trivial) _) .refl ⟨_, rfl⟩ rfl
    (System.run_replay (fun _ _ _ => trivial) _) (by decide) s hs hcustomer 1 ?_ hactive
  rw [hid]
  exact .single hrotated

end BePyEco
