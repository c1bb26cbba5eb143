import BePyEco.Accounts.Calls
import BePyEco.Accounts.GoogleControl

/-!
# What becomes of a Google login

Any number of `login_with_google` calls on one database, interleaved in any way.  A call answers
as its errors say, `AllAnswered`, when it returns tokens for the customer of the Google identity,
or raises `InvalidGoogleTokenError` or `GoogleEmailNotVerifiedError` and has changed nothing.

Two things stand in the way: a payload without an email or a subject, and a statement that the
database refuses (`GooglePc.Breaks`), such as the link of an identity that another call has linked
since this one has looked.  `allAnswered_iff` says that nothing else does.
-/

namespace BePyEco

open Library

/-! ## The system -/

/-- Customers, login methods and sessions are as before; random values may have been drawn. -/
structure Aside (w w' : World) : Prop where
  customers : w'.db.customers = w.db.customers
  methods : w'.db.loginMethods = w.db.loginMethods
  sessions : w'.db.sessions = w.db.sessions
  entropy : w.entropy ≤ w'.entropy

/-- Any number of Google logins, with changes elsewhere in between. -/
def googleSystem : System GooglePc World where
  next := GooglePc.next
  env := Aside

abbrev GooglePool (ι : Type) := Pool ι GooglePc World

/-- The calls with these replies of Google, none of which has executed a statement yet. -/
def googlePool [PyText] {ι : Type} (w : World) (clientId : String) (replies : ι → TokeninfoReply) :
    GooglePool ι where
  store := w
  pc i := .start clientId (replies i)

/-- An interleaving of the calls. -/
abbrev GoogleRun {ι : Type} [DecidableEq ι] (P P' : GooglePool ι) : Prop :=
  googleSystem.Run (fun _ _ => True) P P'

/-! ## What the calls keep -/

/-- Customers keep their addresses, links and sessions stay, and random values are drawn. -/
structure Onward (w w' : World) : Prop where
  customers : ∀ c ∈ w.db.customers.rows,
    ∃ c' ∈ w'.db.customers.rows, c'.id = c.id ∧ c'.email = c.email
  methods : ∀ m ∈ w.db.loginMethods.rows, m ∈ w'.db.loginMethods.rows
  sessions : ∀ s ∈ w.db.sessions.rows, s ∈ w'.db.sessions.rows
  entropy : w.entropy ≤ w'.entropy

section Steps

variable {c c' : GooglePc} {w w' : World}

lemma Aside.onward (h : Aside w w') : Onward w w' where
  customers b hb := ⟨b, by rwa [h.customers], rfl, rfl⟩
  methods m hm := by rwa [h.methods]
  sessions s hs := by rwa [h.sessions]
  entropy := h.entropy

lemma Onward.of_eq (w : World) : Onward w w :=
  ⟨fun b hb => ⟨b, hb, rfl, rfl⟩, fun _ h => h, fun _ h => h, le_refl _⟩

lemma LinkMade.onward {profile : GoogleProfile} {customerId : Id}
    (h : LinkMade profile customerId w w') : Onward w w' where
  customers := h.customers
  methods m hm := by
    rw [h.methods]
    exact List.mem_append_left _ hm
  sessions s hs := by rwa [h.frame]
  entropy := by rw [h.frame]

lemma GoogleStep.onward (h : GoogleStep c w c' w') : Onward w w' := by
  cases h with
  | linked c h => exact h.onward
  | inserted h => exact h.onward
  | mint profile h hjti => exact ⟨(Onward.of_eq w).1, fun _ h => h, fun _ h => h, Nat.le_succ _⟩
  | create profile h =>
      refine ⟨(Onward.of_eq w).1, fun _ h => h, fun s hs => ?_, le_refl _⟩
      rw [h.rows]
      exact List.mem_append_left _ hs
  | _ => exact .of_eq w

/-- A session that a step adds has the random value of the call. -/
lemma GoogleStep.session_cases (h : GoogleStep c w c' w') : ∀ s ∈ w'.db.sessions.rows,
    s ∈ w.db.sessions.rows ∨ ∃ n, c.pendingJti = some n ∧ s.refreshTokenHash = hashJti n := by
  intro s hs
  cases h with
  | linked c h =>
      rw [h.frame] at hs
      exact Or.inl hs
  | inserted h =>
      rw [h.frame] at hs
      exact Or.inl hs
  | create profile h =>
      rw [h.rows, List.mem_append, List.mem_singleton] at hs
      obtain hs | rfl := hs
      · exact Or.inl hs
      · exact Or.inr ⟨_, rfl, by rw [h.row]⟩
  | _ => exact Or.inl hs

/-- A random value that a step draws is new. -/
lemma GoogleStep.pendingJti_eq (h : GoogleStep c w c' w') {n : Jti}
    (hn : c'.pendingJti = some n) : n = w.entropy ∧ w'.entropy = w.entropy + 1 := by
  cases h with
  | mint profile h hjti => exact ⟨(Option.some.inj hn).symm.trans hjti, rfl⟩
  | _ => cases hn

lemma GoogleStep.hasCommitted (h : GoogleStep c w c' w') : c'.hasCommitted = true ∨ w' = w := by
  cases h with
  | known h => exact Or.inl rfl
  | linked c h => exact Or.inl rfl
  | inserted h => exact Or.inl rfl
  | mint profile h hjti => exact Or.inl rfl
  | create profile h => exact Or.inl rfl
  | _ => exact Or.inr rfl

/-- After the commit nothing is refused. -/
lemma GoogleStep.hasCommitted_of (h : GoogleStep c w c' w') (hc : c.hasCommitted = true) :
    c'.hasCommitted = true := by
  cases h with
  | mint profile h hjti => rfl
  | create profile h => rfl
  | broken e h =>
      cases c with
      | linkFound profile customer => cases hc
      | insert profile => cases hc
      | _ => cases h
  | _ => cases hc

lemma GoogleStep.remaining_lt (h : GoogleStep c w c' w') : c'.remaining < c.remaining := by
  cases h with
  | broken e h =>
      cases c with
      | linkFound profile customer => simp [GooglePc.remaining]
      | insert profile => simp [GooglePc.remaining]
      | _ => cases h
  | _ => simp [GooglePc.remaining]

end Steps

/-! ### Knowledge -/

lemma IdStored.mono {w w' : World} {customerId : Id} (h : IdStored w customerId)
    (hmove : Onward w w') : IdStored w' customerId := by
  obtain ⟨c, hc, hid⟩ := h
  obtain ⟨c', hc', hid', -⟩ := hmove.customers c hc
  exact ⟨c', hc', hid'.trans hid⟩

lemma EmailStored.mono {w w' : World} {email : String} (h : EmailStored w email)
    (hmove : Onward w w') : EmailStored w' email := by
  obtain ⟨c, hc, hemail⟩ := h
  obtain ⟨c', hc', -, hemail'⟩ := hmove.customers c hc
  exact ⟨c', hc', hemail'.trans hemail⟩

lemma Identified.mono {w w' : World} {profile : GoogleProfile} {customerId : Id}
    (h : Identified w profile customerId) (hmove : Onward w w') :
    Identified w' profile customerId := by
  obtain ⟨⟨m, hm, hlinked⟩, hstored⟩ := h
  exact ⟨⟨m, hmove.methods m hm, hlinked⟩, hstored.mono hmove⟩

/-- A committed link identifies the customer. -/
lemma LinkMade.identified {w w' : World} {profile : GoogleProfile} {customerId : Id}
    (h : LinkMade profile customerId w w') : Identified w' profile customerId := by
  let m : LoginMethod := {
    id := w.db.loginMethods.next
    customerId := customerId
    provider := .google
    providerSubjectId := profile.subjectId }
  have hm : m ∈ w'.db.loginMethods.rows := by
    rw [h.methods]
    exact List.mem_append_right _ (List.mem_singleton_self _)
  have hsubject : googleMethod profile.subjectId m = true := by simp [googleMethod, m]
  exact ⟨⟨m, hm, hsubject, rfl⟩, h.stored⟩

/-- A step leaves the call with what it knows. -/
lemma GoogleStep.knows {c c' : GooglePc} {w w' : World} (hknows : c.Knows w)
    (hjtis : JtisDrawn w) (h : GoogleStep c w c' w') : c'.Knows w' := by
  have hmove := h.onward
  cases h with
  | known h => exact h
  | linked c h => exact h.identified
  | inserted h => exact h.identified
  | found profile h => exact h
  | taken h => exact h
  | again profile h => exact h
  | @mint profile customer refresh w h hjti =>
      refine ⟨Identified.mono hknows hmove, h, ?_, fun s hs hhash => ?_⟩
      · rw [hjti]
        exact Nat.lt_succ_self _
      · have hlt : s.refreshTokenHash.preimage < w.entropy := hjtis s hs
        rw [hhash, hjti] at hlt
        exact lt_irrefl _ hlt
  | @create profile customer refresh s t w h =>
      obtain ⟨hidentified, hissued, -⟩ := hknows
      refine ⟨hidentified.mono hmove, hissued, s, ?_, ?_, ?_⟩
      · rw [h.rows]
        exact List.mem_append_right _ (List.mem_singleton_self _)
      · rw [h.row]
      · rw [h.row]
  | _ => trivial

/-- What a call knows survives a step that gives no session its random value. -/
lemma GooglePc.Knows.mono {c : GooglePc} {w w' : World} (hknows : c.Knows w)
    (hmove : Onward w w') (hsessions : ∀ n, c.pendingJti = some n →
      ∀ s ∈ w'.db.sessions.rows, s ∈ w.db.sessions.rows ∨ s.refreshTokenHash ≠ hashJti n) :
    c.Knows w' := by
  cases c with
  | linkFound profile customer => exact IdStored.mono hknows hmove
  | readAgain profile => exact EmailStored.mono hknows hmove
  | mint profile customer => exact Identified.mono hknows hmove
  | create profile customer refresh =>
      obtain ⟨hidentified, hissued, hdrawn, hunused⟩ := hknows
      refine ⟨hidentified.mono hmove, hissued, lt_of_lt_of_le hdrawn hmove.entropy, ?_⟩
      intro s hs
      obtain hold | hother := hsessions refresh.jti rfl s hs
      · exact hunused s hold
      · exact hother
  | returned profile customer refresh =>
      obtain ⟨hidentified, hissued, s, hs, hsession⟩ := hknows
      exact ⟨hidentified.mono hmove, hissued, s, hmove.sessions s hs, hsession⟩
  | _ => trivial

/-- What holds at every moment of every interleaving. -/
structure GoogleSound {ι : Type} (P : GooglePool ι) : Prop where
  knows : ∀ i, (P.pc i).Knows P.store
  jtis : JtisDrawn P.store
  drawn : ∀ i n, (P.pc i).pendingJti = some n → n < P.store.entropy
  distinct : ∀ i j n, i ≠ j → (P.pc i).pendingJti = some n → (P.pc j).pendingJti ≠ some n

section Runs

variable {ι : Type} [DecidableEq ι] {P P' : GooglePool ι}

lemma GoogleSound.step (h : GoogleSound P) {i : ι} {c : GooglePc} {w : World}
    (hstep : GoogleStep (P.pc i) P.store c w) : GoogleSound (P.advance i c w) := by
  have hmove := hstep.onward
  refine ⟨fun j => ?_, fun s hs => ?_, fun j n hn => ?_, fun j k n hne hj hk => ?_⟩
  · obtain ⟨rfl, hpc⟩ | ⟨hne, hpc⟩ := P.pc_advance_cases i j c w
    · rw [hpc]
      exact hstep.knows (h.knows j) h.jtis
    · rw [hpc]
      refine (h.knows j).mono hmove fun n hn s hs => ?_
      obtain hold | ⟨n', hn', hhash⟩ := hstep.session_cases s hs
      · exact Or.inl hold
      · -- the new session has the random value of another call
        refine Or.inr fun heq => h.distinct i j n' hne.symm hn' ?_
        rw [hn, sha256_injective (hhash.symm.trans heq)]
  · obtain hold | ⟨n, hn, hhash⟩ := hstep.session_cases s hs
    · exact lt_of_lt_of_le (h.jtis s hold) hmove.entropy
    · rw [hhash]
      exact lt_of_lt_of_le (h.drawn i n hn) hmove.entropy
  · obtain ⟨rfl, hpc⟩ | ⟨hne, hpc⟩ := P.pc_advance_cases i j c w
    · rw [hpc] at hn
      obtain ⟨rfl, hentropy⟩ := hstep.pendingJti_eq hn
      rw [Pool.store_advance, hentropy]
      exact Nat.lt_succ_self _
    · rw [hpc] at hn
      exact lt_of_lt_of_le (h.drawn j n hn) hmove.entropy
  · -- a value drawn by the step was not drawn before
    have hfresh : ∀ k, (P.pc k).pendingJti = some n → c.pendingJti ≠ some n := by
      intro k hk hc
      have hlt := h.drawn k n hk
      rw [(hstep.pendingJti_eq hc).1] at hlt
      exact lt_irrefl _ hlt
    obtain ⟨rfl, hpcj⟩ | ⟨hnej, hpcj⟩ := P.pc_advance_cases i j c w
    · rw [hpcj] at hj
      rw [Pool.pc_advance_of_ne hne.symm] at hk
      exact hfresh k hk hj
    · rw [hpcj] at hj
      obtain ⟨rfl, hpck⟩ | ⟨hnek, hpck⟩ := P.pc_advance_cases i k c w
      · rw [hpck] at hk
        exact hfresh j hj hk
      · rw [hpck] at hk
        exact h.distinct j k n hne hj hk

omit [DecidableEq ι] in
lemma GoogleSound.env (h : GoogleSound P) {w : World} (hmove : Aside P.store w) :
    GoogleSound { P with store := w } := by
  refine ⟨fun i => (h.knows i).mono hmove.onward fun n _ s hs => ?_, fun s hs => ?_,
    fun i n hn => lt_of_lt_of_le (h.drawn i n hn) hmove.entropy, h.distinct⟩
  · rw [hmove.sessions] at hs
    exact Or.inl hs
  · rw [hmove.sessions] at hs
    exact lt_of_lt_of_le (h.jtis s hs) hmove.entropy

/-- The invariant, along every interleaving. -/
lemma GoogleSound.run {ok : GooglePool ι → ι → Prop} (hstart : GoogleSound P)
    (h : googleSystem.Run ok P P') : GoogleSound P' :=
  System.Run.invariant hstart
    (fun _ i _ _ hP _ hnext => hP.step (googleStep_of_next (hP.knows i) hnext))
    (fun _ _ hP hmove => hP.env hmove) h

end Runs

/-! ## Answers -/

/-- The exceptions that the service declares. -/
def IsDeclared (e : Raised ApiError) : Prop :=
  e = .app .invalidGoogleToken ∨ e = .app .googleEmailNotVerified

/-- The call is over. -/
def GooglePc.IsOver : GooglePc → Prop
  | returned _ _ _ => True
  | failed _ => True
  | _ => False

/-- The call has returned tokens for the customer of the Google identity: both have one Google
login method, and the session of the refresh token is stored. -/
structure AnsweredWith (w : World) (profile : GoogleProfile) (customer : Customer)
    (refresh : RefreshToken) : Prop where
  stored : IdStored w customer.id
  method : ∃ m ∈ w.db.loginMethods.rows,
    googleMethod profile.subjectId m = true ∧ loginMethodOf customer.id .google m = true ∧
      ∀ m' ∈ w.db.loginMethods.rows, googleMethod profile.subjectId m' = true ∨
        loginMethodOf customer.id .google m' = true → m' = m
  issued : IssuedTo customer.id refresh
  session : ∃ s ∈ w.db.sessions.rows, s.customerId = customer.id ∧
    s.refreshTokenHash = hashJti refresh.jti

/-- Every call has answered, or can go on and is nearer to its end when it does: with tokens for
the customer of its Google identity, or with a declared exception and without having changed a
table.  Calls for one identity that return tokens return them for one customer. -/
structure AllAnswered [PyText] {ι : Type} [DecidableEq ι] (clientId : String)
    (replies : ι → TokeninfoReply) (P₀ P : GooglePool ι) : Prop where
  goesOn : ∀ i, (P.pc i).IsOver ∨ ∃ c w, (P.pc i).next P.store = some (c, w) ∧
    c.remaining < (P.pc i).remaining
  answered : ∀ i profile customer refresh, P.pc i = .returned profile customer refresh →
    verifyIdToken clientId (replies i) = .ok profile ∧
      AnsweredWith P.store profile customer refresh
  declared : ∀ i e, P.pc i = .failed e → IsDeclared e
  unchanged : ∀ i e, P.pc i = .failed e → ∀ Q c w, GoogleRun P₀ Q →
    (Q.pc i).next Q.store = some (c, w) → GoogleRun (Q.advance i c w) P → w.db = Q.store.db
  agreed : ∀ i j profile profile' customer customer' refresh refresh',
    P.pc i = .returned profile customer refresh → P.pc j = .returned profile' customer' refresh' →
      profile.subjectId = profile'.subjectId → customer.id = customer'.id

/-- A payload for this client has a subject and an email. -/
def HasIdentity (clientId : String) : TokeninfoReply → Prop
  | .unreachable => True
  | .response status payload => status = 200 → payload.lookup "aud" = some clientId →
    (payload.lookup "sub").isSome = true ∧ (payload.lookup "email").isSome = true

/-- The database does not refuse the statement that the call executes. -/
def Accepted {ι : Type} (P : GooglePool ι) (i : ι) : Prop := ¬ (P.pc i).Breaks P.store

instance {ι : Type} (P : GooglePool ι) (i : ι) : Decidable (Accepted P i) :=
  inferInstanceAs (Decidable (¬ (P.pc i).Breaks P.store))

/-- The profile that the call has been told. -/
def GooglePc.profile? : GooglePc → Option GoogleProfile
  | readSubject profile => some profile
  | readEmail profile => some profile
  | linkFound profile _ => some profile
  | insert profile => some profile
  | readAgain profile => some profile
  | mint profile _ => some profile
  | create profile _ _ => some profile
  | returned profile _ _ => some profile
  | failed _ => none

lemma GoogleStep.profile?_eq {c c' : GooglePc} {w w' : World} (h : GoogleStep c w c' w')
    {profile : GoogleProfile} (hprofile : c'.profile? = some profile) :
    c.profile? = some profile := by
  cases h with
  | refused c w h => cases hprofile
  | broken e h => cases hprofile
  | _ => exact hprofile

/-- A call that has not ended takes a step. -/
lemma exists_next_of_not_isOver {c : GooglePc} (h : ¬ c.IsOver) (w : World) :
    ∃ r, c.next w = some r := by
  cases c with
  | returned profile customer refresh => exact absurd trivial h
  | failed e => exact absurd trivial h
  | mint profile customer =>
      rw [GooglePc.next]
      exact Control.exists_advance _ _ _ w
  | _ => exact Control.exists_advance _ _ _ w

/-- Both constraints of the login methods speak of the one that links them. -/
lemma Identified.method {w : World} {profile : GoogleProfile} {customerId : Id}
    (h : Identified w profile customerId) : ∃ m ∈ w.db.loginMethods.rows,
      googleMethod profile.subjectId m = true ∧ loginMethodOf customerId .google m = true ∧
        ∀ m' ∈ w.db.loginMethods.rows, googleMethod profile.subjectId m' = true ∨
          loginMethodOf customerId .google m' = true → m' = m := by
  obtain ⟨m, hm, hsubject, hcustomer⟩ := h.linked
  have hprovider : m.provider = .google := by
    simp only [googleMethod, Bool.and_eq_true, decide_eq_true_eq] at hsubject
    exact hsubject.1
  have howner : loginMethodOf customerId .google m = true := by
    simp [loginMethodOf, hcustomer, hprovider]
  refine ⟨m, hm, hsubject, howner, fun m' hm' hsame => ?_⟩
  obtain hsubject' | howner' := hsame
  · exact googleMethod_unique profile.subjectId hm' hm hsubject' hsubject
  · refine w.db.loginMethods.eq_of_conflicts hm' hm ?_
    simp only [loginMethodOf, Bool.and_eq_true, decide_eq_true_eq] at howner'
    simp [Model.conflicts, howner'.1, howner'.2, hcustomer, hprovider]

/-- A subject is linked to one customer. -/
lemma IsLinkedTo.unique {w : World} {subjectId : String} {a b : Id}
    (ha : IsLinkedTo w subjectId a) (hb : IsLinkedTo w subjectId b) : a = b := by
  obtain ⟨m, hm, hsubject, rfl⟩ := ha
  obtain ⟨m', hm', hsubject', rfl⟩ := hb
  rw [googleMethod_unique subjectId hm hm' hsubject hsubject']

section Start

variable [PyText] {clientId : String} {reply : TokeninfoReply}

/-- A call starts with a profile, or has been refused. -/
lemma start_of_hasIdentity (h : HasIdentity clientId reply) :
    (∃ profile, verifyIdToken clientId reply = .ok profile ∧
        GooglePc.start clientId reply = .readSubject profile) ∨
      GooglePc.start clientId reply = .failed (.app .invalidGoogleToken) := by
  unfold GooglePc.start
  cases reply with
  | unreachable => exact Or.inr rfl
  | response status payload =>
      by_cases hstatus : status = 200
      · by_cases haud : payload.lookup "aud" = some clientId
        · obtain ⟨hsub, hemail⟩ := h hstatus haud
          obtain ⟨subjectId, hsub⟩ := Option.isSome_iff_exists.1 hsub
          obtain ⟨email, hemail⟩ := Option.isSome_iff_exists.1 hemail
          have hverify : verifyIdToken clientId (.response status payload) = .ok {
              subjectId := subjectId
              email := normalizeEmail email
              emailVerified := decide (payload.lookup "email_verified" = some "true") } := by
            simp only [verifyIdToken, hstatus, haud, payloadItem, hsub, hemail, ne_eq,
              not_true_eq_false, if_false]
            rfl
          rw [hverify]
          exact Or.inl ⟨_, rfl, rfl⟩
        · simp only [verifyIdToken, hstatus, haud, ne_eq, not_true_eq_false, not_false_eq_true,
            if_false, if_true]
          exact Or.inr trivial
      · simp only [verifyIdToken, hstatus, ne_eq, not_false_eq_true, if_true]
        exact Or.inr trivial

/-- A payload without a subject or an email is a `KeyError`. -/
lemma start_of_not_hasIdentity (h : ¬ HasIdentity clientId reply) :
    ∃ key, GooglePc.start clientId reply = .failed (.app (.keyError key)) := by
  unfold GooglePc.start
  cases reply with
  | unreachable => exact absurd trivial h
  | response status payload =>
      simp only [HasIdentity] at h
      push Not at h
      obtain ⟨hstatus, haud, hmissing⟩ := h
      cases hsub : payload.lookup "sub" with
      | none =>
          simp only [verifyIdToken, hstatus, haud, payloadItem, hsub, ne_eq, not_true_eq_false,
            if_false]
          exact ⟨"sub", rfl⟩
      | some subjectId =>
          have hemail : payload.lookup "email" = none := by
            have hnot := hmissing (by rw [hsub]; rfl)
            rwa [ne_eq, Option.not_isSome_iff_eq_none] at hnot
          simp only [verifyIdToken, hstatus, haud, payloadItem, hsub, hemail, ne_eq,
            not_true_eq_false, if_false]
          exact ⟨"email", rfl⟩

end Start

section Runs

variable {ι : Type} [DecidableEq ι] {P P' : GooglePool ι}

/-- A call that has committed does not fail. -/
lemma hasCommitted_of_run {ok : GooglePool ι → ι → Prop} (hsound : GoogleSound P) {i : ι}
    (hcommitted : (P.pc i).hasCommitted = true) (h : googleSystem.Run ok P P') :
    (P'.pc i).hasCommitted = true := by
  have hinv : GoogleSound P' ∧ (P'.pc i).hasCommitted = true := by
    refine @System.Run.invariant _ _ _ _ _ _ _ _
      (fun Q => GoogleSound Q ∧ (Q.pc i).hasCommitted = true) ⟨hsound, hcommitted⟩ ?_
      (fun Q w hQ hmove => ⟨hQ.1.env hmove, hQ.2⟩) h
    rintro Q j c w ⟨hQ, hi⟩ - hnext
    have hstep := googleStep_of_next (hQ.knows j) hnext
    refine ⟨hQ.step hstep, ?_⟩
    obtain ⟨rfl, hpc⟩ | ⟨-, hpc⟩ := Q.pc_advance_cases j i c w
    · rw [hpc]
      exact hstep.hasCommitted_of hi
    · rw [hpc]
      exact hi
  exact hinv.2

/-- A call fails otherwise than declared at the statements that the database refuses. -/
lemma googleSystem_deadEnds :
    (googleSystem).DeadEnds (ι := ι) GoogleSound Accepted
      fun c => ∃ e, c = .failed e ∧ ¬ IsDeclared e where
  call {_ i _ _} hQ hnext := hQ.step (googleStep_of_next (hQ.knows i) hnext)
  env hQ hmove := hQ.env hmove
  stuck := by
    rintro c w ⟨e, rfl, -⟩
    rfl
  leads {Q i c w} hQ hnext := by
    constructor
    · rintro ⟨e, rfl, hundeclared⟩ hok
      have hstep := googleStep_of_next (hQ.knows i) hnext
      generalize hc : Q.pc i = c₀ at hstep
      cases hstep with
      | refused c w h => exact hundeclared (Or.inr rfl)
      | broken e h =>
          rw [← hc] at h
          exact hok h
    · intro hnot
      obtain ⟨e, hrefused⟩ := next_of_breaks (hQ.knows i) (not_not.1 hnot)
      cases hrefused.symm.trans hnext
      exact ⟨.db e, rfl, by rintro (hgone | hgone) <;> cases hgone⟩

/-- Calls fail as declared only, if and only if they did before the run and the database has refused
no statement of it. -/
lemma declared_iff (hsound : GoogleSound P) (h : GoogleRun P P') :
    (∀ i e, P'.pc i = .failed e → IsDeclared e) ↔
      (∀ i e, P.pc i = .failed e → IsDeclared e) ∧ googleSystem.Run Accepted P P' := by
  have hdead := googleSystem_deadEnds.forall_not_dead_iff hsound h
  simp only [not_exists, not_and, not_not] at hdead
  exact hdead

end Runs

/-! ## Databases that can be reached -/

section Reachable

/-- A table that is not the one of sessions. -/
class SparesSessions (Row : Type) [Model Row] [Stored World Row] : Prop where
  keeps : ∀ (w : World) (t : Table Row), KeepsOwners w (Stored.put t w)

instance : SparesSessions Customer := ⟨fun _ _ => .of_eq rfl rfl⟩
instance : SparesSessions LoginMethod := ⟨fun _ _ => .of_eq rfl rfl⟩
instance : SparesSessions VerificationToken := ⟨fun _ _ => .of_eq rfl rfl⟩
instance : SparesSessions AuditLogEntry := ⟨fun _ _ => .of_eq rfl rfl⟩

lemma drawRandom_keepsOwners : drawRandom.Guarantees KeepsOwners := by
  intro w n w' h
  cases h
  exact ⟨Nat.le_succ _, fun s hs => ⟨s, hs, rfl, rfl⟩⟩

lemma sendMail_keepsOwners (address : String) (token : RawToken) :
    (sendMail address token).Guarantees KeepsOwners :=
  Tx.guarantees_modify fun _ => .of_eq rfl rfl

/-- Sessions that are revoked keep their digests and customers. -/
lemma keepsOwners_of_onlyRevokes {α : Type} {x : Statement α} (hx : x.Guarantees OnlyRevokes)
    (hentropy : x.Guarantees (Same World.entropy)) : x.Guarantees KeepsOwners := by
  intro w a w' h
  obtain ⟨f, hf, hrows⟩ := (hx w a w' h).rows
  have hsame : w'.entropy = w.entropy := hentropy w a w' h
  refine ⟨hsame.ge, fun s' hs' => ?_⟩
  rw [hrows] at hs'
  obtain ⟨s, hs, rfl⟩ := List.mem_map.1 hs'
  exact ⟨s, hs, (hf s).refreshTokenHash_eq.symm, (hf s).customerId_eq.symm⟩

lemma revokeUnrevoked_keepsOwners (customerId : Id) :
    (revokeUnrevoked customerId).Guarantees KeepsOwners :=
  keepsOwners_of_onlyRevokes (revokeUnrevoked_onlyRevokes customerId)
    ((Tx.guarantees_read _).bind fun _ => Objects.guarantees_update fun _ => rfl)

lemma revokeOwn_keepsOwners (customerId sessionId : Id) :
    (revokeOwn customerId sessionId).Guarantees KeepsOwners :=
  keepsOwners_of_onlyRevokes (revokeOwn_onlyRevokes customerId sessionId)
    ((Tx.guarantees_read _).bind fun _ => Objects.guarantees_update fun _ => rfl)

lemma KeepsOwners.jtisDrawn {w w' : World} (h : KeepsOwners w w') (hw : JtisDrawn w) :
    JtisDrawn w' := by
  intro s' hs'
  obtain ⟨s, hs, hhash, -⟩ := h.sessions s' hs'
  rw [← hhash]
  exact lt_of_lt_of_le (hw s hs) h.entropy

lemma Minted.jtisDrawn {kind : ActorType} {id : Id} {access : AccessToken} {refresh : RefreshToken}
    {w w' : World} (h : Minted kind id access refresh w w') (hw : JtisDrawn w) :
    JtisDrawn w' := by
  intro s' hs'
  obtain ⟨s, hs, hhash, -⟩ | ⟨hhash, -⟩ := h.sessions s' hs'
  · rw [← hhash]
    exact lt_of_lt_of_le (hw s hs) (h.fresh.trans h.drawn.le)
  · rw [hhash]
    exact h.drawn

/-- A call that issues no session. -/
lemma jtisDrawn_of_guarantees {α : Type} {p : Service α} (hp : p.Guarantees KeepsOwners) :
    (p >>= fun _ => return none : Service (Option RefreshToken)).Triple JtisDrawn
      (fun _ => JtisDrawn) JtisDrawn := by
  have hrun : p.Triple JtisDrawn (fun _ => JtisDrawn) JtisDrawn :=
    .of_guarantees hp fun _ _ hmove hw => hmove.jtisDrawn hw
  exact hrun.bind fun _ => .done_ok fun _ h => h

/-- A call that issues one. -/
lemma jtisDrawn_of_mints {α : Type} {p : Service α} {f : α → RefreshToken}
    (hp : ∀ w₀, p.Triple (KeepsOwners w₀)
      (fun r w => ∃ kind id access, Minted kind id access (f r) w₀ w) (KeepsOwners w₀)) :
    (p >>= fun r => return some (f r) : Service (Option RefreshToken)).Triple JtisDrawn
      (fun _ => JtisDrawn) JtisDrawn := by
  have hrun : p.Triple JtisDrawn (fun _ => JtisDrawn) JtisDrawn := by
    intro w hw
    have hpost := hp w w (refl_of KeepsOwners w)
    rcases h : p.run w with ⟨r, w'⟩
    rw [h] at hpost
    cases r with
    | ok r =>
        obtain ⟨kind, id, access, hminted⟩ := hpost
        exact hminted.jtisDrawn hw
    | error e => exact KeepsOwners.jtisDrawn hpost hw
  exact hrun.bind fun _ => .done_ok fun _ h => h

variable [PyText]

/-- The random values behind the sessions of a database stay drawn. -/
lemma AccountCall.jtisDrawn (call : AccountCall) :
    call.service.Triple JtisDrawn (fun _ => JtisDrawn) JtisDrawn := by
  have hverify : ∀ customer, (verifyEmailNow customer).Guarantees KeepsOwners := fun customer =>
    keepsOwners_of_same (verifyEmailNow_same customer)
  cases call with
  | registerCustomer email password =>
      exact jtisDrawn_of_guarantees (registerCustomer_guarantees
        (fun _ => Objects.guarantees_create SparesSessions.keeps) SparesSessions.keeps
        SparesSessions.keeps drawRandom_keepsOwners sendMail_keepsOwners)
  | verifyEmail rawToken =>
      exact jtisDrawn_of_guarantees
        (consumeToken_guarantees SparesSessions.keeps fun _ customer => hverify customer)
  | loginCustomer email password =>
      exact jtisDrawn_of_mints fun w₀ => (loginCustomer_mints w₀ email password).mono
        (fun _ h => h) (fun _ _ h => ⟨_, _, _, h⟩) fun _ h => h
  | loginWithGoogle clientId reply =>
      exact jtisDrawn_of_mints fun w₀ => (loginWithGoogle_mints w₀ clientId reply).mono
        (fun _ h => h) (fun _ _ h => ⟨_, _, _, h⟩) fun _ h => h
  | rotateRefreshToken raw =>
      refine jtisDrawn_of_mints fun w₀ => (rotateRefreshToken_mints w₀ raw).mono
        (fun _ h => h) (fun _ _ h => ?_) fun _ h => h
      obtain ⟨old, s, -, -, -, -, hminted⟩ := h
      exact ⟨_, _, _, hminted⟩
  | revokeSession customer sessionId request =>
      exact jtisDrawn_of_guarantees
        (revokeSession_guarantees SparesSessions.keeps (revokeOwn_keepsOwners _ _))
  | revokeAllSessions customerId =>
      exact jtisDrawn_of_guarantees (revokeAllSessions_guarantees (revokeUnrevoked_keepsOwners _))
  | requestPasswordReset email =>
      exact jtisDrawn_of_guarantees (requestPasswordReset_guarantees SparesSessions.keeps
        drawRandom_keepsOwners sendMail_keepsOwners)
  | confirmPasswordReset rawToken newPassword =>
      exact jtisDrawn_of_guarantees (consumeToken_guarantees SparesSessions.keeps fun _ _ =>
        Tx.Guarantees.bind (setPassword_guarantees SparesSessions.keeps) fun _ =>
          Tx.guarantees_pure _)
  | requestEmailChange customer newEmail =>
      exact jtisDrawn_of_guarantees (requestEmailChange_guarantees SparesSessions.keeps
        drawRandom_keepsOwners sendMail_keepsOwners)
  | confirmEmailChange rawToken =>
      refine jtisDrawn_of_guarantees (consumeToken_guarantees SparesSessions.keeps fun _ _ => ?_)
      refine Tx.Guarantees.bind (Tx.guarantees_read _) fun _ => ?_
      refine Tx.Guarantees.bind ?_ fun _ => Tx.guarantees_pure _
      exact (Objects.guarantees_saveChecked SparesSessions.keeps).handling _
        (Tx.guarantees_raise _)
  | disableCustomer actor customerId reason request =>
      exact jtisDrawn_of_guarantees (disableCustomer_guarantees
        (fun _ => Objects.guarantees_save fun w => SparesSessions.keeps w _)
        revokeUnrevoked_keepsOwners SparesSessions.keeps)

/-- In every database that the account calls reach. -/
lemma jtisDrawn_of_history {w : World} (h : History (fun _ _ => True) {} w) : JtisDrawn w := by
  refine Program.Sequence.invariant (fun s hs => ?_) (fun call => ?_) ?_ h
  · cases hs
  · exact call.jtisDrawn.mono (fun _ h => h.1) (fun _ _ h => h) fun _ h => h
  · rintro w w' ⟨t, rfl⟩ hw
    exact hw

end Reachable

section Calls

variable [PyText] {ι : Type} [DecidableEq ι] {w₀ : World} {clientId : String}
  {replies : ι → TokeninfoReply} {P : GooglePool ι}

omit [DecidableEq ι] in
lemma googleSound_pool (hjtis : JtisDrawn w₀) : GoogleSound (googlePool w₀ clientId replies) := by
  have hpending : ∀ i, ((googlePool w₀ clientId replies).pc i).pendingJti = none := by
    intro i
    change (GooglePc.start clientId (replies i)).pendingJti = none
    unfold GooglePc.start
    split <;> rfl
  refine ⟨fun i => ?_, hjtis, fun i n hn => ?_, fun i j n _ hn => ?_⟩
  · change (GooglePc.start clientId (replies i)).Knows w₀
    unfold GooglePc.start
    split <;> trivial
  · rw [hpending i] at hn
    cases hn
  · rw [hpending i] at hn
    cases hn

/-- A call knows the profile that it was told. -/
lemma profile_of_run (h : GoogleRun (googlePool w₀ clientId replies) P)
    (hjtis : JtisDrawn w₀) : ∀ i profile, (P.pc i).profile? = some profile →
      verifyIdToken clientId (replies i) = .ok profile := by
  induction h with
  | refl =>
      intro i profile hprofile
      change (GooglePc.start clientId (replies i)).profile? = some profile at hprofile
      unfold GooglePc.start at hprofile
      split at hprofile
      · rename_i profile' hverify
        cases hprofile
        exact hverify
      · cases hprofile
  | @call Q i c w hrun _ hnext ih =>
      have hstep := googleStep_of_next (((googleSound_pool hjtis).run hrun).knows i) hnext
      intro j profile hprofile
      obtain ⟨rfl, hpc⟩ | ⟨-, hpc⟩ := Q.pc_advance_cases i j c w
      · rw [hpc] at hprofile
        exact ih j profile (hstep.profile?_eq hprofile)
      · rw [hpc] at hprofile
        exact ih j profile hprofile
  | env _ _ ih => exact ih

/-- From every database that the account calls reach, and in every interleaving of Google logins:
all calls answer, if and only if every payload for this client has a subject and an email and the
database refuses no statement on the way. -/
theorem allAnswered_iff (hw : History (fun _ _ => True) {} w₀)
    (h : GoogleRun (googlePool w₀ clientId replies) P) :
    AllAnswered clientId replies (googlePool w₀ clientId replies) P ↔
      (∀ i, HasIdentity clientId (replies i)) ∧
        googleSystem.Run Accepted (googlePool w₀ clientId replies) P := by
  have hjtis := jtisDrawn_of_history hw
  have hstart : GoogleSound (googlePool w₀ clientId replies) := googleSound_pool hjtis
  have hsound := hstart.run h
  constructor
  · intro hall
    obtain ⟨hdeclared, haccepted⟩ := (declared_iff hstart h).1 hall.declared
    refine ⟨fun i => ?_, haccepted⟩
    by_contra hmissing
    obtain ⟨key, hfailed⟩ := start_of_not_hasIdentity hmissing
    obtain hgone | hgone := hdeclared i _ hfailed
    · cases hgone
    · cases hgone
  · rintro ⟨hidentity, haccepted⟩
    refine ⟨fun i => ?_, fun i profile customer refresh hi => ?_, ?_, ?_, ?_⟩
    · by_cases hover : (P.pc i).IsOver
      · exact Or.inl hover
      · obtain ⟨⟨c, w⟩, hnext⟩ := exists_next_of_not_isOver hover P.store
        exact Or.inr ⟨c, w, hnext, (googleStep_of_next (hsound.knows i) hnext).remaining_lt⟩
    · have hknows := hsound.knows i
      rw [hi] at hknows
      obtain ⟨hidentified, hissued, hsession⟩ := hknows
      refine ⟨profile_of_run h hjtis i profile ?_, hidentified.stored, hidentified.method, hissued,
        hsession⟩
      rw [hi]
      rfl
    · refine (declared_iff hstart h).2 ⟨fun i e hi => ?_, haccepted⟩
      obtain ⟨profile, -, hbegin⟩ | hbegin := start_of_hasIdentity (hidentity i)
      · cases hbegin.symm.trans hi
      · cases hbegin.symm.trans hi
        exact Or.inl rfl
    · intro i e hi Q c w hQ hnext hrest
      have hstep := googleStep_of_next ((hstart.run hQ).knows i) hnext
      obtain hcommitted | rfl := hstep.hasCommitted
      · -- the call would have committed, and not failed
        have hafter : ((Q.advance i c w).pc i).hasCommitted = true := by
          rw [Q.pc_advance_self i c w]
          exact hcommitted
        have hlast := hasCommitted_of_run ((hstart.run hQ).step hstep) hafter hrest
        rw [hi] at hlast
        cases hlast
      · rfl
    · intro i j profile profile' customer customer' refresh refresh' hi hj hsubject
      have hlinked := hsound.knows i
      have hlinked' := hsound.knows j
      rw [hi] at hlinked
      rw [hj] at hlinked'
      have hsame := hlinked'.1.linked
      rw [← hsubject] at hsame
      exact hlinked.1.linked.unique hsame

end Calls

/-! ### Two logins with one identity -/

section Example

attribute [local instance] plainText

/-- The payload of an identity with a verified email. -/
def verifiedLogin : TokeninfoReply :=
  .response 200 [("aud", "client"), ("sub", "subject"), ("email", "a@example.com"),
    ("email_verified", "true")]

/-- Two first logins with the identity. -/
def firstLogins : GooglePool Bool := googlePool {} "client" fun _ => verifiedLogin

/-- The rows of customers, login methods and sessions. -/
def storedCounts (P : GooglePool Bool) : ℕ × ℕ × ℕ :=
  (P.store.db.customers.rows.length, P.store.db.loginMethods.rows.length,
    P.store.db.sessions.rows.length)

/-- The exception that the call has ended with. -/
def GooglePc.error? : GooglePc → Option (Raised ApiError)
  | failed e => some e
  | _ => none

lemma GooglePc.eq_failed {c : GooglePc} {e : Raised ApiError} (h : c.error? = some e) :
    c = failed e := by
  cases c with
  | failed e' =>
      cases h
      rfl
  | _ => cases h

/-- One after the other they end with one customer, one login method and two sessions. -/
theorem allAnswered_oneAfterAnother : ∃ P, GoogleRun firstLogins P ∧ storedCounts P = (1, 1, 2) ∧
    AllAnswered "client" (fun _ => verifiedLogin) firstLogins P := by
  have hcheck : ∀ (P : GooglePool Bool) (i : Bool), decide (Accepted P i) = true → Accepted P i :=
    fun _ _ h => of_decide_eq_true h
  have hcounts : ((googleSystem.execute (fun P i => decide (Accepted P i)) firstLogins
      [false, false, false, false, false, true, true, true]).map
        fun P => decide (storedCounts P = (1, 1, 2))) = some true := by decide
  obtain ⟨P, hrun, hP⟩ := System.exists_run_of_execute hcheck hcounts
  have hany : GoogleRun firstLogins P := hrun.mono fun _ _ _ => trivial
  have hidentity : HasIdentity "client" verifiedLogin := fun _ _ => ⟨rfl, rfl⟩
  exact ⟨P, hany, of_decide_eq_true hP, (allAnswered_iff .refl hany).2 ⟨fun _ => hidentity, hrun⟩⟩

/-- At once: both find nobody, and the second meets the customer of the first, and then its login
method. -/
theorem not_allAnswered_atOnce :
    ¬ ∀ (w₀ : World) (clientId : String) (replies : Bool → TokeninfoReply) (P : GooglePool Bool),
      History (fun _ _ => True) {} w₀ → GoogleRun (googlePool w₀ clientId replies) P →
        AllAnswered clientId replies (googlePool w₀ clientId replies) P := by
  intro hclaim
  have hcheck : ∀ (_ : GooglePool Bool) (_ : Bool), true = true → True := fun _ _ _ => trivial
  have hfailed : ((googleSystem.execute (fun _ _ => true) firstLogins
      [false, false, true, true, false, true, true, true]).map
        fun P => decide ((P.pc true).error? = some (.db .integrityError))) = some true := by decide
  obtain ⟨P, hrun, hP⟩ := System.exists_run_of_execute hcheck hfailed
  have hall := hclaim {} "client" (fun _ => verifiedLogin) P .refl hrun
  have hpc : P.pc true = .failed (.db .integrityError) := GooglePc.eq_failed (of_decide_eq_true hP)
  obtain hgone | hgone := hall.declared true _ hpc
  · cases hgone
  · cases hgone

end Example

end BePyEco
