import BePyEco.Accounts.TokenConsumption

/-!
# Complete calls of the token flows

What a call that runs alone does: the consumers of verification tokens (`Consumer.run_cases`), and
the services that issue and mail one (`registerCustomer_run`, `requestPasswordReset_run`,
`requestEmailChange_run`).  Each lemma gives the world after the call, so nothing below unfolds a
service again.
-/

namespace BePyEco

open Library

/-! ## Consuming -/

/-- Every token belongs to a stored customer. -/
def TokenCustomersStored (w : World) : Prop :=
  ∀ t ∈ w.db.verificationTokens.rows, ∃ c ∈ w.db.customers.rows, c.id = t.customerId

/-- The password method of the customer has the hash of the password: it was there, or is new. -/
def PasswordSet (customerId : Id) (password : String) (w w' : World) : Prop :=
  (∃ m ∈ w.db.loginMethods.rows, loginMethodOf customerId .password m = true ∧
    w'.db.loginMethods.rows = w.db.loginMethods.rewritten (fun m' => m'.id == m.id)
      fun m' => { m' with passwordHash := some (makePassword password) }) ∨
  ((∀ m ∈ w.db.loginMethods.rows, loginMethodOf customerId .password m = false) ∧
    w'.db.loginMethods.rows = w.db.loginMethods.rows ++ [{
      id := w.db.loginMethods.next
      customerId := customerId
      provider := .password
      passwordHash := some (makePassword password) }])

/-- No other customer holds the new email of the token. -/
def EmailFree (w : World) (t : VerificationToken) : Prop :=
  ∀ c ∈ w.db.customers.rows, c.email = t.newEmail → c.id = t.customerId

namespace Consumer

/-- What a consumer changes besides the token: the verified flag, the password method, or the email
and the verified flag, each of the token's customer. -/
def Changes (t : VerificationToken) (w w' : World) : Consumer → Prop
  | verifyEmail =>
    w'.db.customers.rows = w.db.customers.rewritten (fun c => c.id == t.customerId)
      (fun c => { c with emailVerifiedAt := some w.now }) ∧
    w'.db.loginMethods = w.db.loginMethods
  | confirmPasswordReset newPassword =>
    w'.db.customers = w.db.customers ∧ PasswordSet t.customerId newPassword w w'
  | confirmEmailChange =>
    w'.db.customers.rows = w.db.customers.rewritten (fun c => c.id == t.customerId)
      (fun c => { c with email := t.newEmail, emailVerifiedAt := some w.now }) ∧
    w'.db.loginMethods = w.db.loginMethods

/-- The world after a success: exactly the token is consumed, the columns of the consumer are set,
and nothing else is touched. -/
structure Completes (k : Consumer) (t : VerificationToken) (w w' : World) : Prop where
  tokens : w'.db.verificationTokens.rows = w.db.verificationTokens.rewritten
    (fun t' => t'.id == t.id) fun t' => { t' with consumedAt := some w.now }
  changes : k.Changes t w w'
  frame : w' = { w with db := { w.db with
    customers := w'.db.customers
    loginMethods := w'.db.loginMethods
    verificationTokens := w'.db.verificationTokens } }

/-- The stored token that lets a call succeed: its purpose is that of the consumer, it is neither
consumed nor expired, and no other customer holds an email that it would set. -/
structure Accepts (k : Consumer) (rawToken : RawToken) (w : World) (t : VerificationToken) :
    Prop where
  stored : t ∈ w.db.verificationTokens.rows
  consumable : consumable k.purpose rawToken t = true
  alive : w.now ≤ t.expiresAt
  free : k = .confirmEmailChange → EmailFree w t

end Consumer

section Statements

variable {w : World} {t : VerificationToken} {c : Customer}

lemma getCustomerOf_run (hc : c ∈ w.db.customers.rows) (hid : c.id = t.customerId) :
    (Objects.get (customerOf t.customerId) : Statement Customer).run w = .ok (c, w) := by
  refine Objects.run_get_of_ok (Table.get_of_unique hc (decide_eq_true hid) fun c' hc' hid' => ?_)
  exact w.db.customers.eq_of_pk hc' hc ((of_decide_eq_true hid').trans hid.symm)

lemma consumable_iff {purpose : Purpose} {rawToken : RawToken} :
    consumable purpose rawToken t = true ↔
      t.tokenHash = sha256 rawToken ∧ t.purpose = purpose ∧ t.consumedAt = none := by
  simp [consumable, and_assoc]

/-- A consumable token is found, with its customer. -/
lemma lookupToken_run {purpose : Purpose} {rawToken : RawToken}
    (ht : t ∈ w.db.verificationTokens.rows) (hfound : consumable purpose rawToken t = true)
    (hc : c ∈ w.db.customers.rows) (hid : c.id = t.customerId) :
    (lookupToken purpose rawToken).run w = .ok ((t, c), w) := by
  have hget : w.db.verificationTokens.get (consumable purpose rawToken) = .ok t := by
    refine Table.get_of_unique ht hfound fun t' ht' hfound' => ?_
    refine w.db.verificationTokens.eq_of_conflicts ht' ht (decide_eq_true ?_)
    rw [(consumable_iff.1 hfound').1, (consumable_iff.1 hfound).1]
  refine Tx.run_handling_ok ?_
  rw [Tx.run_bind, Objects.run_get_of_ok hget]
  dsimp only
  rw [Tx.run_bind, getCustomerOf_run hc hid]
  rfl

lemma lookupToken_run_of_not {purpose : Purpose} {rawToken : RawToken}
    (h : ∀ t ∈ w.db.verificationTokens.rows, consumable purpose rawToken t = false) :
    (lookupToken purpose rawToken).run w = .error (.app .invalidVerificationToken) := by
  refine (Tx.run_handling_error ?_).trans rfl
  rw [Tx.run_bind, Objects.run_get_of_error (Table.get_eq_doesNotExist_iff.2 h)]

lemma checkTokenExpiry_run : (checkTokenExpiry t).run w =
    if w.now ≤ t.expiresAt then .ok ((), w) else .error (.app .invalidVerificationToken) := by
  unfold checkTokenExpiry
  rw [Tx.run_bind, run_timezoneNow]
  dsimp only
  by_cases halive : w.now ≤ t.expiresAt
  · rw [if_pos halive, decide_eq_false (Nat.not_lt.2 halive)]
    rfl
  · rw [if_neg halive, decide_eq_true (Nat.lt_of_not_le halive)]
    rfl

/-- There is at most one password method of a customer. -/
lemma passwordMethod_unique (customerId : Id) : ∀ a ∈ w.db.loginMethods.rows,
    ∀ b ∈ w.db.loginMethods.rows, loginMethodOf customerId .password a = true →
      loginMethodOf customerId .password b = true → a = b := by
  intro a ha b hb hpa hpb
  refine w.db.loginMethods.eq_of_conflicts ha hb ?_
  simp only [loginMethodOf, Bool.and_eq_true, decide_eq_true_eq] at hpa hpb
  simp [Model.conflicts, hpa.1, hpa.2, hpb.1, hpb.2]

lemma setPassword_run (customerId : Id) (password : String) (w : World) :
    ∃ w', (setPassword customerId password).run w = .ok ((), w') ∧
      PasswordSet customerId password w w' ∧
      w' = { w with db := { w.db with loginMethods := w'.db.loginMethods } } := by
  obtain ⟨m, hm, hp, hget⟩ | hnone := Table.get_cases (passwordMethod_unique (w := w) customerId)
  · let saved : World := Stored.put (w.db.loginMethods.update (fun m' => Model.pk m' == m.id)
      (LoginMethod.setPasswordHash (makePassword password))) w
    refine ⟨saved, Tx.run_handling_ok ?_, Or.inl ⟨m, hm, hp, rfl⟩, rfl⟩
    rw [Tx.run_bind, Objects.run_get_of_ok hget]
    exact Objects.run_save_of_mem hm rfl
  · have hnot := Table.get_eq_doesNotExist_iff.1 hnone
    let mk : ℕ → LoginMethod := fun id => {
      id := id
      customerId := customerId
      provider := .password
      passwordHash := some (makePassword password) }
    have hpk : ∀ i, Model.pk (mk i) = i := fun _ => rfl
    have hfits : Model.fits (mk w.db.loginMethods.next) = true := rfl
    have hfree : ∀ m ∈ w.db.loginMethods.rows,
        Model.conflicts m (mk w.db.loginMethods.next) = false := by
      intro m hm
      have hother := hnot m hm
      simp only [loginMethodOf] at hother
      simp [Model.conflicts, mk, hother]
    obtain ⟨t, hrun, hrows⟩ := @Objects.run_create_of_free _ ApiError _ _ _ mk hpk w hfits hfree
    refine ⟨Stored.put t w, ?_, Or.inr ⟨hnot, hrows⟩, rfl⟩
    refine (Tx.run_handling_error ?_).trans ?_
    · rw [Tx.run_bind, Objects.run_get_of_error hnone]
    · rw [Tx.run_bind, hrun]
      rfl

/-- A customer row with a new email fits when the email does. -/
lemma fits_setEmail {email : String} {now : Time} (hc : c ∈ w.db.customers.rows)
    (hemail : email.length ≤ 254) : Model.fits (setEmail email now c) = true := by
  have hfits : Model.fits c = true := w.db.customers.all_fit c hc
  simp only [Model.fits, Bool.and_eq_true, decide_eq_true_eq] at hfits ⊢
  exact ⟨⟨hemail, hfits.1.2⟩, hfits.2⟩

lemma changeEmail_run (hc : c ∈ w.db.customers.rows) (hid : c.id = t.customerId)
    (hwidth : t.newEmail.length ≤ 254) (hfree : EmailFree w t) :
    ∃ w', (changeEmail t c).run w = .ok (setEmail t.newEmail w.now c, w') ∧
      Consumer.confirmEmailChange.Changes t w w' ∧
      w' = { w with db := { w.db with customers := w'.db.customers } } := by
  have hconflict : ∀ c' ∈ w.db.customers.rows, Model.pk c' ≠ Model.pk c →
      Model.conflicts c' (setEmail t.newEmail w.now c) = false := by
    intro c' hc' hne
    refine decide_eq_false fun hemail => hne ?_
    exact (hfree c' hc' hemail).trans hid.symm
  have hfits : Model.fits (setEmail t.newEmail w.now c) = true := fits_setEmail hc hwidth
  obtain ⟨customers, hrewrite, hsave⟩ := @Objects.run_saveChecked_of_mem World ApiError Customer _ _
    (setEmail t.newEmail w.now) (fun _ => rfl) w c hc hfits hconflict
  have hsave' : (Objects.saveChecked c.id (setEmail t.newEmail w.now) fun _ => rfl :
      Statement Unit).run w = .ok ((), Stored.put customers w) := hsave
  have hrows := (Table.rewrite_spec hrewrite).1
  refine ⟨Stored.put customers w, ?_, ⟨?_, rfl⟩, rfl⟩
  · unfold changeEmail
    rw [Tx.run_bind, run_timezoneNow]
    dsimp only
    rw [Tx.run_bind, Tx.run_handling_ok hsave']
    rfl
  · rw [← hid]
    exact hrows

lemma changeEmail_run_of_not (hc : c ∈ w.db.customers.rows) (hid : c.id = t.customerId)
    (hfree : ¬ EmailFree w t) : ∃ e, (changeEmail t c).run w = .error e := by
  cases hrun : (changeEmail t c).run w with
  | error e => exact ⟨e, rfl⟩
  | ok r =>
      obtain ⟨now, w₁, hnow, hrest⟩ := Tx.bind_ok hrun
      cases hnow
      obtain ⟨u, w₂, hhandled, -⟩ := Tx.bind_ok hrest
      obtain hsave | ⟨-, hraise⟩ := Tx.handling_ok hhandled
      · obtain ⟨customers, hrewrite, -⟩ := Objects.saveChecked_ok hsave
        unfold EmailFree at hfree
        push Not at hfree
        obtain ⟨c', hc', hemail, hne⟩ := hfree
        -- both rows would hold the email
        have hmem : setEmail t.newEmail w.now c ∈ customers.rows :=
          (Table.mem_rewrite hrewrite).2 ⟨c, hc, if_pos (beq_self_eq_true c.id)⟩
        have hmem' : c' ∈ customers.rows := by
          refine (Table.mem_rewrite hrewrite).2 ⟨c', hc', if_neg ?_⟩
          intro heq
          exact hne ((beq_iff_eq.1 heq).trans hid)
        have heq : c' = setEmail t.newEmail w.now c :=
          customers.eq_of_conflicts hmem' hmem (decide_eq_true hemail)
        refine absurd ?_ hne
        rw [heq]
        exact hid
      · cases hraise

end Statements

namespace Consumer

variable {k : Consumer} {rawToken : RawToken} {w : World} {t : VerificationToken} {c : Customer}

lemma effect_run (hc : c ∈ w.db.customers.rows) (hid : c.id = t.customerId)
    (hwidth : t.newEmail.length ≤ 254) (hfree : k = .confirmEmailChange → EmailFree w t) :
    ∃ c' w', (k.effect t c).run w = .ok (c', w') ∧ c'.id = c.id ∧ k.Changes t w w' ∧
      w' = { w with db := { w.db with
        customers := w'.db.customers
        loginMethods := w'.db.loginMethods } } := by
  cases k with
  | verifyEmail =>
      let saved : World := Stored.put (w.db.customers.update (fun c' => Model.pk c' == c.id)
        (Customer.setEmailVerifiedAt w.now)) w
      have hsave : (Objects.save c.id (Customer.setEmailVerifiedAt w.now) : Statement Unit).run w =
          .ok ((), saved) := Objects.run_save_of_mem hc rfl
      refine ⟨{ c with emailVerifiedAt := some w.now }, saved, ?_, rfl, ⟨?_, rfl⟩, rfl⟩
      · change (verifyEmailNow c).run w = _
        unfold verifyEmailNow
        rw [Tx.run_bind, run_timezoneNow]
        dsimp only
        rw [Tx.run_bind, hsave]
        rfl
      · rw [← hid]
        rfl
  | confirmPasswordReset newPassword =>
      obtain ⟨w', hrun, hset, hframe⟩ := setPassword_run c.id newPassword w
      have hcustomers : w'.db.customers = w.db.customers := by rw [hframe]
      refine ⟨c, w', ?_, rfl, ⟨hcustomers, ?_⟩, ?_⟩
      · change (resetPassword newPassword t c).run w = _
        unfold resetPassword
        rw [Tx.run_bind, hrun]
        rfl
      · rw [← hid]
        exact hset
      · rw [hframe]
  | confirmEmailChange =>
      obtain ⟨w', hrun, hchanges, hframe⟩ := changeEmail_run hc hid hwidth (hfree rfl)
      refine ⟨_, w', hrun, rfl, hchanges, ?_⟩
      rw [hframe]

/-- The block works on a token that the call may consume. -/
lemma consumeBlock_run (h : k.Accepts rawToken w t) (hc : c ∈ w.db.customers.rows)
    (hid : c.id = t.customerId) :
    ∃ c' w', (consumeBlock k.effect t c).run w = .ok (c', w') ∧ c'.id = c.id ∧
      k.Completes t w w' := by
  let marked : World := Stored.put (w.db.verificationTokens.update (fun t' => Model.pk t' == t.id)
    (VerificationToken.setConsumedAt w.now)) w
  have hsave : (Objects.save t.id (VerificationToken.setConsumedAt w.now) : Statement Unit).run w =
      .ok ((), marked) := Objects.run_save_of_mem h.stored rfl
  have hwidth : t.newEmail.length ≤ 254 :=
    of_decide_eq_true (w.db.verificationTokens.all_fit t h.stored)
  obtain ⟨c', w', hrun, hid', hchanges, hframe⟩ := @effect_run k marked t c hc hid hwidth h.free
  have htokens : w'.db.verificationTokens = marked.db.verificationTokens := by rw [hframe]
  refine ⟨c', w', ?_, hid', ?_, ?_, ?_⟩
  · unfold consumeBlock
    rw [Tx.run_bind, run_timezoneNow]
    dsimp only
    rw [Tx.run_bind, hsave]
    exact hrun
  · rw [htokens]
    rfl
  · cases k with
    | verifyEmail => exact hchanges
    | confirmPasswordReset newPassword => exact hchanges
    | confirmEmailChange => exact hchanges
  · rw [htokens]
    exact hframe

/-- The block is rolled back when the new email is taken. -/
lemma consumeBlock_run_of_taken (ht : t ∈ w.db.verificationTokens.rows)
    (hc : c ∈ w.db.customers.rows) (hid : c.id = t.customerId) (hfree : ¬ EmailFree w t) :
    ∃ e, (consumeBlock confirmEmailChange.effect t c).run w = .error e := by
  let marked : World := Stored.put (w.db.verificationTokens.update (fun t' => Model.pk t' == t.id)
    (VerificationToken.setConsumedAt w.now)) w
  have hsave : (Objects.save t.id (VerificationToken.setConsumedAt w.now) : Statement Unit).run w =
      .ok ((), marked) := Objects.run_save_of_mem ht rfl
  obtain ⟨e, hrun⟩ := @changeEmail_run_of_not marked t c hc hid hfree
  refine ⟨e, ?_⟩
  unfold consumeBlock
  rw [Tx.run_bind, run_timezoneNow]
  dsimp only
  rw [Tx.run_bind, hsave]
  exact hrun

/-- A call that finds a token it may consume succeeds. -/
lemma run_of_accepts (h : k.Accepts rawToken w t) (hc : c ∈ w.db.customers.rows)
    (hid : c.id = t.customerId) :
    ∃ c' w', (k.service rawToken).run w = (.ok c', w') ∧ c'.id = t.customerId ∧
      k.Completes t w w' := by
  obtain ⟨c', w', hblock, hid', hcompletes⟩ := consumeBlock_run h hc hid
  refine ⟨c', w', ?_, hid'.trans hid, hcompletes⟩
  have hcheck : (checkTokenExpiry t).run w = .ok ((), w) := by
    rw [checkTokenExpiry_run, if_pos h.alive]
  rw [service_eq_consumeToken, consumeToken, Program.run_bind, Program.liftM_eq, Program.run_exec,
    Tx.exec_ok (lookupToken_run h.stored h.consumable hc hid)]
  dsimp only
  rw [Program.run_bind, Program.liftM_eq, Program.run_exec, Tx.exec_ok hcheck]
  dsimp only
  rw [Program.liftM_eq, Program.run_exec, Tx.exec_ok hblock]

/-- A call that finds none changes nothing. -/
lemma run_of_not_accepts (howned : TokenCustomersStored w) (h : ∀ t, ¬ k.Accepts rawToken w t) :
    ∃ e, (k.service rawToken).run w = (.error e, w) := by
  rw [service_eq_consumeToken, consumeToken, Program.run_bind, Program.liftM_eq, Program.run_exec]
  by_cases hfound : ∃ t ∈ w.db.verificationTokens.rows,
      BePyEco.consumable k.purpose rawToken t = true
  · obtain ⟨t, ht, hconsumable⟩ := hfound
    obtain ⟨c, hc, hid⟩ := howned t ht
    rw [Tx.exec_ok (lookupToken_run ht hconsumable hc hid)]
    dsimp only
    rw [Program.run_bind, Program.liftM_eq, Program.run_exec]
    by_cases halive : w.now ≤ t.expiresAt
    · have hcheck : (checkTokenExpiry t).run w = .ok ((), w) := by
        rw [checkTokenExpiry_run, if_pos halive]
      rw [Tx.exec_ok hcheck]
      dsimp only
      have htaken : k = .confirmEmailChange ∧ ¬ EmailFree w t := by
        by_contra hnot
        refine h t ⟨ht, hconsumable, halive, fun hk => ?_⟩
        by_contra hfree
        exact hnot ⟨hk, hfree⟩
      obtain ⟨rfl, hfree⟩ := htaken
      obtain ⟨e, hblock⟩ := consumeBlock_run_of_taken ht hc hid hfree
      exact ⟨e, Tx.exec_error hblock⟩
    · have hcheck : (checkTokenExpiry t).run w = .error (.app .invalidVerificationToken) := by
        rw [checkTokenExpiry_run, if_neg halive]
      rw [Tx.exec_error hcheck]
      exact ⟨_, rfl⟩
  · have hnone : ∀ t ∈ w.db.verificationTokens.rows,
        BePyEco.consumable k.purpose rawToken t = false := by
      intro t ht
      rw [← Bool.not_eq_true]
      exact fun hconsumable => hfound ⟨t, ht, hconsumable⟩
    rw [Tx.exec_error (lookupToken_run_of_not hnone)]
    exact ⟨_, rfl⟩

/-- A call of a consumer, alone: it succeeds and completes for a token that it accepts, or it
raises and changes nothing. -/
lemma run_cases (k : Consumer) (rawToken : RawToken) (howned : TokenCustomersStored w) :
    (∃ t c w', k.Accepts rawToken w t ∧ (k.service rawToken).run w = (.ok c, w') ∧
      c.id = t.customerId ∧ k.Completes t w w') ∨
    ((∀ t, ¬ k.Accepts rawToken w t) ∧ ∃ e, (k.service rawToken).run w = (.error e, w)) := by
  by_cases h : ∃ t, k.Accepts rawToken w t
  · obtain ⟨t, ht⟩ := h
    obtain ⟨c, hc, hid⟩ := howned t ht.stored
    obtain ⟨c', w', hrun, hid', hcompletes⟩ := run_of_accepts ht hc hid
    exact Or.inl ⟨t, c', w', ht, hrun, hid', hcompletes⟩
  · have hnot : ∀ t, ¬ k.Accepts rawToken w t := fun t ht => h ⟨t, ht⟩
    exact Or.inr ⟨hnot, run_of_not_accepts howned hnot⟩

/-- A call accepts at most one token. -/
lemma Accepts.unique {t' : VerificationToken} (h : k.Accepts rawToken w t)
    (h' : k.Accepts rawToken w t') : t' = t := by
  refine w.db.verificationTokens.eq_of_conflicts h'.stored h.stored (decide_eq_true ?_)
  rw [(consumable_iff.1 h'.consumable).1, (consumable_iff.1 h.consumable).1]

end Consumer

/-! ## Issuing -/

/-- The token that a service creates next. -/
def nextToken (w : World) (customerId : Id) (purpose : Purpose) (newEmail : String) (ttl : Time) :
    VerificationToken where
  id := w.db.verificationTokens.next
  customerId := customerId
  purpose := purpose
  tokenHash := sha256 w.entropy
  newEmail := newEmail
  expiresAt := w.now + ttl

/-- Nothing but random values was drawn. -/
def Drew (w w' : World) : Prop := ∃ n : ℕ, w' = { w with entropy := w.entropy + n }

/-- The token was stored and mailed. -/
structure Issued (recipient : String) (t : VerificationToken) (w w' : World) : Prop where
  rows : w'.db.verificationTokens.rows = w.db.verificationTokens.rows ++ [t]
  mail : w'.mailbox = ⟨recipient, w.entropy⟩ :: w.mailbox
  frame : w' = { w with
    db := { w.db with verificationTokens := w'.db.verificationTokens }
    entropy := w.entropy + 1
    mailbox := w'.mailbox }

section Issuing

variable {w w' : World}

lemma createVerificationToken_ok {customerId : Id} {purpose : Purpose} {rawToken : RawToken}
    {newEmail : String} {ttl : Time} {t : VerificationToken}
    (h : (createVerificationToken customerId purpose (sha256 rawToken) newEmail ttl).run w =
      .ok (t, w')) :
    t = { nextToken w customerId purpose newEmail ttl with tokenHash := sha256 rawToken } ∧
      w'.db.verificationTokens.rows = w.db.verificationTokens.rows ++ [t] ∧
      w' = { w with db := { w.db with verificationTokens := w'.db.verificationTokens } } := by
  obtain ⟨now, w₁, hnow, hcreate⟩ := Tx.bind_ok h
  cases hnow
  obtain ⟨table, hinsert, rfl⟩ := Objects.create_ok hcreate
  obtain ⟨hrow, hrows, -⟩ := Table.insert_spec hinsert
  exact ⟨hrow, hrows, rfl⟩

/-- A token is issued and mailed, or its insert is refused. -/
lemma issueAndMail_run (customerId : Id) (purpose : Purpose) (newEmail : String) (ttl : Time)
    (recipient : String) (w : World) :
    let call : Service Unit := do
      let rawToken ← issueVerificationToken customerId purpose newEmail ttl
      sendMail recipient rawToken
    (∃ w', call.run w = (.ok (), w') ∧
      Issued recipient (nextToken w customerId purpose newEmail ttl) w w') ∨
    ∃ e w', call.run w = (.error e, w') ∧ Drew w w' := by
  intro call
  let drawn : World := { w with entropy := w.entropy + 1 }
  have hcall : call.run w = ((Program.exec (createVerificationToken customerId purpose
      (sha256 w.entropy) newEmail ttl) >>= fun _ =>
        Program.exec (sendMail recipient w.entropy)) : Service Unit).run drawn := by
    have hgenerate : generateToken.run w = .ok ((w.entropy, sha256 w.entropy), drawn) := rfl
    unfold call issueVerificationToken
    simp only [Program.bind_assoc, Program.liftM_eq, Program.pure_eq, Program.done_ok_bind]
    rw [Program.run_bind, Program.run_exec, Tx.exec_ok hgenerate]
  rw [hcall, Program.run_bind, Program.run_exec]
  cases hcreate : (createVerificationToken customerId purpose (sha256 w.entropy) newEmail ttl).run
      drawn with
  | error e =>
      rw [Tx.exec_error hcreate]
      exact Or.inr ⟨e, drawn, rfl, 1, rfl⟩
  | ok r =>
      obtain ⟨ht, hrows, hframe⟩ := createVerificationToken_ok hcreate
      rw [Tx.exec_ok hcreate]
      refine Or.inl ⟨{ r.2 with mailbox := ⟨recipient, w.entropy⟩ :: r.2.mailbox }, rfl, ?_, ?_, ?_⟩
      · change r.2.db.verificationTokens.rows = _
        rw [hrows, ht]
        rfl
      · change _ :: r.2.mailbox = _
        rw [hframe]
      · change _ = World.mk _ _ _ (_ :: r.2.mailbox)
        rw [hframe]

variable [PyText]

omit [PyText] in
lemma findActiveCustomer_run (email : String) (w : World) :
    (∃ c ∈ w.db.customers.rows, c.email = email ∧ c.isActive = true ∧
      (findActiveCustomer email).run w = .ok (some c, w)) ∨
    (findActiveCustomer email).run w = .ok (none, w) := by
  have huniq : ∀ a ∈ w.db.customers.rows, ∀ b ∈ w.db.customers.rows,
      activeByEmail email a = true → activeByEmail email b = true → a = b := by
    intro a ha b hb hpa hpb
    simp only [activeByEmail, Bool.and_eq_true, decide_eq_true_eq] at hpa hpb
    exact w.db.customers.eq_of_conflicts ha hb (decide_eq_true (hpa.1.trans hpb.1.symm))
  obtain ⟨c, hc, hp, hget⟩ | hnone := Table.get_cases huniq
  · simp only [activeByEmail, Bool.and_eq_true, decide_eq_true_eq] at hp
    refine Or.inl ⟨c, hc, hp.1, hp.2, Tx.run_handling_ok ?_⟩
    rw [Tx.run_bind, Objects.run_get_of_ok hget]
    rfl
  · refine Or.inr ((Tx.run_handling_error ?_).trans rfl)
    rw [Tx.run_bind, Objects.run_get_of_error hnone]

/-- A reset is issued for an active customer with the address, and mailed there. -/
lemma requestPasswordReset_run (email : String) (w : World) :
    (∃ c ∈ w.db.customers.rows, c.email = normalizeEmail email ∧ c.isActive = true ∧
      ∃ w', (requestPasswordReset email).run w = (.ok (), w') ∧
        Issued c.email (nextToken w c.id .passwordReset "" passwordResetTokenTtl) w w') ∨
    ∃ r w', (requestPasswordReset email).run w = (r, w') ∧ Drew w w' := by
  unfold requestPasswordReset
  rw [Program.run_bind, Program.liftM_eq, Program.run_exec]
  obtain ⟨c, hc, hemail, hactive, hrun⟩ | hrun := findActiveCustomer_run (normalizeEmail email) w
  · rw [Tx.exec_ok hrun]
    obtain ⟨w', hissue, hissued⟩ | ⟨e, w', hissue, hdrew⟩ := issueAndMail_run c.id .passwordReset ""
      passwordResetTokenTtl c.email w
    · exact Or.inl ⟨c, hc, hemail, hactive, w', hissue, hissued⟩
    · exact Or.inr ⟨_, w', hissue, hdrew⟩
  · rw [Tx.exec_ok hrun]
    exact Or.inr ⟨_, w, rfl, 0, rfl⟩

/-- An email change is issued unless another customer holds the address, and mailed there. -/
lemma requestEmailChange_run (customer : Customer) (newEmail : String) (w : World) :
    (∃ w', (requestEmailChange customer newEmail).run w = (.ok (), w') ∧
      Issued (normalizeEmail newEmail) (nextToken w customer.id .emailChange
        (normalizeEmail newEmail) emailChangeTokenTtl) w w') ∨
    ∃ e w', (requestEmailChange customer newEmail).run w = (.error e, w') ∧ Drew w w' := by
  unfold requestEmailChange
  have htaken : (emailTakenByOther (normalizeEmail newEmail) customer.id).run w =
      .ok (w.db.customers.rows.any fun c =>
        decide (c.email = normalizeEmail newEmail) && !decide (c.id = customer.id), w) := rfl
  dsimp only
  rw [Program.run_bind, Program.liftM_eq, Program.run_exec, Tx.exec_ok htaken]
  dsimp only
  cases w.db.customers.rows.any fun c =>
      decide (c.email = normalizeEmail newEmail) && !decide (c.id = customer.id) with
  | true => exact Or.inr ⟨_, w, rfl, 0, rfl⟩
  | false =>
      obtain ⟨w', hissue, hissued⟩ | ⟨e, w', hissue, hdrew⟩ := issueAndMail_run customer.id
        .emailChange (normalizeEmail newEmail) emailChangeTokenTtl (normalizeEmail newEmail) w
      · exact Or.inl ⟨w', hissue, hissued⟩
      · exact Or.inr ⟨e, w', hissue, hdrew⟩

/-- The world after a registration. -/
structure Registered (email password : String) (c : Customer) (w w' : World) : Prop where
  customer : c = { id := w.db.customers.next, email := normalizeEmail email }
  free : ∀ c' ∈ w.db.customers.rows, c'.email ≠ c.email
  customers : w'.db.customers.rows = w.db.customers.rows ++ [c]
  methods : w'.db.loginMethods.rows = w.db.loginMethods.rows ++ [{
    id := w.db.loginMethods.next
    customerId := c.id
    provider := .password
    passwordHash := some (makePassword password) }]
  tokens : w'.db.verificationTokens.rows = w.db.verificationTokens.rows ++
    [nextToken w c.id .emailVerification "" emailVerificationTokenTtl]
  mail : w'.mailbox = ⟨c.email, w.entropy⟩ :: w.mailbox
  frame : w' = { w with
    db := { w.db with
      customers := w'.db.customers
      loginMethods := w'.db.loginMethods
      verificationTokens := w'.db.verificationTokens }
    entropy := w.entropy + 1
    mailbox := w'.mailbox }

/-- What is left to do after the block of a registration is to mail its token. -/
lemma registerBlock_ok {email password : String} {c : Customer} {rawToken : RawToken}
    (h : (registerBlock email password).run w = .ok ((c, rawToken), w')) :
    rawToken = w.entropy ∧ w'.mailbox = w.mailbox ∧
      Registered email password c w
        { w' with mailbox := ⟨c.email, w.entropy⟩ :: w'.mailbox } := by
  obtain ⟨c₁, w₁, hcustomer, h₁⟩ := Tx.bind_ok h
  obtain ⟨m, w₂, hmethod, h₂⟩ := Tx.bind_ok h₁
  obtain ⟨⟨rawToken, tokenHash⟩, w₃, hgenerate, h₃⟩ := Tx.bind_ok h₂
  obtain ⟨t, w₄, htoken, hpure⟩ := Tx.bind_ok h₃
  obtain ⟨customers, hinsert, rfl⟩ := Objects.create_ok hcustomer
  obtain ⟨methods, hinsert', rfl⟩ := Objects.create_ok hmethod
  cases hgenerate
  obtain ⟨ht, htokens, hframe⟩ := createVerificationToken_ok htoken
  obtain ⟨hc, hcustomers, -, -, hfree⟩ := Table.insert_spec hinsert
  obtain ⟨hm, hmethods, -⟩ := Table.insert_spec hinsert'
  cases hpure
  have hcustomers' : w'.db.customers = customers := by rw [hframe]; rfl
  have hmethods' : w'.db.loginMethods = methods := by rw [hframe]; rfl
  have hmail : w'.mailbox = w.mailbox := by rw [hframe]; rfl
  refine ⟨rfl, hmail, hc, fun c' hc' => of_decide_eq_false (hfree c' hc'), ?_, ?_, ?_, ?_, ?_⟩
  · change w'.db.customers.rows = _
    rw [hcustomers']
    exact hcustomers
  · change w'.db.loginMethods.rows = _
    rw [hmethods', hmethods, hm]
    rfl
  · change w'.db.verificationTokens.rows = _
    rw [htokens, ht]
    rfl
  · change _ :: w'.mailbox = _
    rw [hmail]
  · change _ = World.mk _ _ _ (_ :: w'.mailbox)
    rw [hframe]
    rfl

/-- A registration creates all its rows and mails its token, or changes nothing. -/
lemma registerCustomer_run (email password : String) (w : World) :
    (∃ c w', (registerCustomer email password).run w = (.ok (c, w.entropy), w') ∧
      Registered email password c w w') ∨
    ∃ e, (registerCustomer email password).run w = (.error e, w) := by
  unfold registerCustomer
  rw [Program.run_bind, Program.liftM_eq, Program.run_exec]
  cases hblock : (registerBlock email password).run w with
  | error e =>
      rw [Tx.exec_error hblock]
      exact Or.inr ⟨e, rfl⟩
  | ok r =>
      obtain ⟨⟨c, rawToken⟩, w'⟩ := r
      obtain ⟨rfl, -, hregistered⟩ := registerBlock_ok hblock
      rw [Tx.exec_ok hblock]
      exact Or.inl ⟨c, _, rfl, hregistered⟩

end Issuing

end BePyEco
