import BePyEco.Accounts.CustomerWrites

/-!
# Canonical emails

The database compares emails as they are written.  Every service that stores an address stores the
normal form of one, also the address that waits in the token of an email change, so in every
interleaving the stored emails are normal forms and no two customers share one up to blanks and
capitals.  A login or a reset request looks for the normal form of what it is given, and acts on
the customer whom it finds and on nobody else.
-/

namespace BePyEco

open Library Program

section Emails

variable [PyText]

/-- The address is its own normal form. -/
def IsCanonical (email : String) : Prop := normalizeEmail email = email

/-- The stored addresses are normal forms: those of the customers, and those that an email change
will write. -/
structure EmailsCanonical (w : World) : Prop where
  customers : ∀ c ∈ w.db.customers.rows, IsCanonical c.email
  tokens : ∀ t ∈ w.db.verificationTokens.rows, t.purpose = .emailChange → IsCanonical t.newEmail

/-- The addresses stay normal forms. -/
def KeepsCanonical (w w' : World) : Prop := EmailsCanonical w → EmailsCanonical w'

instance : Std.Refl KeepsCanonical := ⟨fun _ h => h⟩

instance : IsTrans World KeepsCanonical := ⟨fun _ _ _ h h' hw => h' (h hw)⟩

/-! ## What keeps the addresses -/

section Keeping

variable {w w' : World}

/-- Every address was there before, or is a normal form. -/
lemma keepsCanonical_of_emails
    (hcustomers : ∀ c ∈ w'.db.customers.rows,
      IsCanonical c.email ∨ ∃ c₀ ∈ w.db.customers.rows, c₀.email = c.email)
    (htokens : ∀ t ∈ w'.db.verificationTokens.rows, (t.purpose = .emailChange →
      IsCanonical t.newEmail) ∨ ∃ t₀ ∈ w.db.verificationTokens.rows,
        t₀.purpose = t.purpose ∧ t₀.newEmail = t.newEmail) : KeepsCanonical w w' := by
  intro hw
  refine ⟨fun c hc => ?_, fun t ht hpurpose => ?_⟩
  · obtain hnew | ⟨c₀, hc₀, hemail⟩ := hcustomers c hc
    · exact hnew
    · rw [← hemail]
      exact hw.customers c₀ hc₀
  · obtain hnew | ⟨t₀, ht₀, hsame, haddress⟩ := htokens t ht
    · exact hnew hpurpose
    · rw [← haddress]
      exact hw.tokens t₀ ht₀ (hsame.trans hpurpose)

lemma old_customer {w : World} {rows : List Customer} (h : rows = w.db.customers.rows) :
    ∀ c ∈ rows, IsCanonical c.email ∨ ∃ c₀ ∈ w.db.customers.rows, c₀.email = c.email := by
  intro c hc
  rw [h] at hc
  exact Or.inr ⟨c, hc, rfl⟩

lemma old_token {w : World} {rows : List VerificationToken}
    (h : rows = w.db.verificationTokens.rows) :
    ∀ t ∈ rows, (t.purpose = .emailChange → IsCanonical t.newEmail) ∨
      ∃ t₀ ∈ w.db.verificationTokens.rows, t₀.purpose = t.purpose ∧ t₀.newEmail = t.newEmail := by
  intro t ht
  rw [h] at ht
  exact Or.inr ⟨t, ht, rfl, rfl⟩

lemma keepsCanonical_of_eq (hcustomers : w'.db.customers = w.db.customers)
    (htokens : w'.db.verificationTokens = w.db.verificationTokens) : KeepsCanonical w w' :=
  keepsCanonical_of_emails (old_customer (by rw [hcustomers])) (old_token (by rw [htokens]))

lemma keepsCanonical_of_untouched (h : Untouched w w') : KeepsCanonical w w' :=
  keepsCanonical_of_eq h.customers h.tokens

/-- One more customer. -/
lemma keepsCanonical_of_customer {c : Customer} (hc : IsCanonical c.email)
    (hcustomers : w'.db.customers.rows = w.db.customers.rows ++ [c])
    (htokens : w'.db.verificationTokens = w.db.verificationTokens) : KeepsCanonical w w' := by
  refine keepsCanonical_of_emails (fun c' hc' => ?_) (old_token (by rw [htokens]))
  rw [hcustomers, List.mem_append, List.mem_singleton] at hc'
  obtain hold | rfl := hc'
  · exact Or.inr ⟨c', hold, rfl⟩
  · exact Or.inl hc

/-- One more token. -/
lemma keepsCanonical_of_token {t : VerificationToken}
    (ht : t.purpose = .emailChange → IsCanonical t.newEmail)
    (hcustomers : w'.db.customers = w.db.customers)
    (htokens : w'.db.verificationTokens.rows = w.db.verificationTokens.rows ++ [t]) :
    KeepsCanonical w w' := by
  refine keepsCanonical_of_emails (old_customer (by rw [hcustomers])) fun t' ht' => ?_
  rw [htokens, List.mem_append, List.mem_singleton] at ht'
  obtain hold | rfl := ht'
  · exact Or.inr ⟨t', hold, rfl, rfl⟩
  · exact Or.inl ht

/-- Customers are saved without their emails. -/
lemma keepsCanonical_of_map {p : Customer → Bool} {f : Customer → Customer}
    (hf : ∀ c, (f c).email = c.email)
    (hcustomers : w'.db.customers.rows = w.db.customers.rows.map fun c => if p c then f c else c)
    (htokens : w'.db.verificationTokens = w.db.verificationTokens) : KeepsCanonical w w' := by
  refine keepsCanonical_of_emails (fun c hc => ?_) (old_token (by rw [htokens]))
  rw [hcustomers] at hc
  obtain ⟨c₀, hc₀, rfl⟩ := List.mem_map.1 hc
  refine Or.inr ⟨c₀, hc₀, ?_⟩
  split
  · exact (hf c₀).symm
  · rfl

end Keeping

/-! ## The services -/

section Services

variable {w w' : World}

/-- A consumer writes the address of the token that it has looked up. -/
lemma consumeBlock_keepsCanonical {k : Consumer} {t : VerificationToken} {c r : Customer}
    (hid : c.id = t.customerId) (hpurpose : t.purpose = k.purpose)
    (ht : t.purpose = .emailChange → IsCanonical t.newEmail)
    (h : (consumeBlock k.effect t c).run w = .ok (r, w')) : KeepsCanonical w w' := by
  obtain ⟨hcustomers, -⟩ := @consumeBlock_rows _ _ k 0 t c r hid h
  refine keepsCanonical_of_emails (fun c' hc' => ?_) fun t' ht' => ?_
  · rw [hcustomers] at hc'
    obtain ⟨c₀, hc₀, rfl⟩ := List.mem_map.1 hc'
    cases k with
    | verifyEmail =>
        refine Or.inr ⟨c₀, hc₀, ?_⟩
        simp only [Commit.apply]
        split <;> rfl
    | confirmPasswordReset newPassword => exact Or.inr ⟨c₀, hc₀, rfl⟩
    | confirmEmailChange =>
        simp only [Commit.apply]
        split
        · exact Or.inl (ht hpurpose)
        · exact Or.inr ⟨c₀, hc₀, rfl⟩
  · rw [consumeBlock_ok h] at ht'
    obtain ⟨t₀, ht₀, -, rfl⟩ | ⟨ht₀, -⟩ := Table.mem_update_pk _ ht'
    · exact Or.inr ⟨t₀, ht₀, rfl, rfl⟩
    · exact Or.inr ⟨t', ht₀, rfl, rfl⟩

/-- The token that a consumer looks up was stored with a normal form. -/
lemma consumer_relies (k : Consumer) (rawToken : RawToken) (hw : EmailsCanonical w) :
    (k.service rawToken).Relies KeepsCanonical KeepsCanonical (fun _ _ => True) w := by
  rw [Consumer.service_eq_consumeToken]
  have hlookup : (exec (lookupToken k.purpose rawToken) : Service _).Relies KeepsCanonical
      KeepsCanonical (fun r _ => r.2.id = r.1.customerId ∧ r.1.purpose = k.purpose ∧
        (r.1.purpose = .emailChange → IsCanonical r.1.newEmail)) w := by
    refine relies_exec fun w₁ r w₂ hw₁ hrun => ?_
    obtain ⟨rfl, hmem, hfound⟩ := lookupToken_ok hrun
    simp only [consumable, Bool.and_eq_true, decide_eq_true_eq] at hfound
    exact ⟨refl_of KeepsCanonical _, lookupToken_owner hrun, hfound.1.2,
      (hw₁ hw).tokens r.1 hmem⟩
  refine hlookup.bind fun r w₁ hr => ?_
  obtain ⟨hid, hpurpose, ht⟩ := hr
  have hcheck : (exec (checkTokenExpiry r.1)).Guarantees KeepsCanonical := by
    refine guarantees_exec fun w₂ u w₃ hrun => ?_
    rw [checkTokenExpiry_ok hrun]
    exact refl_of KeepsCanonical w₂
  refine (hcheck.relies w₁).bind fun _ w₂ _ => ?_
  exact relies_exec fun w₃ r w₄ _ hrun =>
    ⟨consumeBlock_keepsCanonical hid hpurpose ht hrun, trivial⟩

variable (hidem : ∀ email : String, IsCanonical (normalizeEmail email))

include hidem

lemma registerCustomer_keepsCanonical (email password : String) :
    (registerCustomer email password).Guarantees KeepsCanonical := by
  refine Program.Guarantees.bind (guarantees_exec fun w r w' h => ?_) fun r => ?_
  · obtain ⟨-, -, hregistered⟩ := registerBlock_ok h
    refine trans_of KeepsCanonical (b := { w with db := { w.db with
      customers := w'.db.customers } }) ?_ ?_
    · refine keepsCanonical_of_customer ?_ hregistered.customers rfl
      rw [hregistered.customer]
      exact hidem email
    · refine keepsCanonical_of_token (fun hpurpose => ?_) rfl hregistered.tokens
      cases hpurpose
  · refine Program.Guarantees.bind (guarantees_exec ?_) fun _ => trivial
    exact Tx.guarantees_modify fun w => keepsCanonical_of_eq rfl rfl

omit hidem in
/-- A token is stored and mailed. -/
lemma issue_keepsCanonical {customerId : Id} {purpose : Purpose} {newEmail recipient : String}
    {ttl : Time} (hemail : purpose = .emailChange → IsCanonical newEmail) :
    (do let rawToken ← issueVerificationToken customerId purpose newEmail ttl
        sendMail recipient rawToken : Service Unit).Guarantees KeepsCanonical := by
  have hgenerate : (exec generateToken).Guarantees KeepsCanonical := by
    refine guarantees_exec fun w r w' h => ?_
    cases h
    exact keepsCanonical_of_eq rfl rfl
  have hissue : (issueVerificationToken customerId purpose newEmail ttl).Guarantees
      KeepsCanonical := by
    refine hgenerate.bind fun r => ?_
    refine Program.Guarantees.bind (guarantees_exec fun w t w' h => ?_) fun _ => trivial
    have hrun : (createVerificationToken customerId purpose r.2 newEmail ttl).run w =
        .ok (t, w') := h
    obtain ⟨now, w₁, hnow, hcreate⟩ := Tx.bind_ok hrun
    cases hnow
    obtain ⟨table, hinsert, rfl⟩ := Objects.create_ok hcreate
    obtain ⟨ht, hrows, -⟩ := Table.insert_spec hinsert
    refine keepsCanonical_of_token (fun hpurpose => ?_) rfl hrows
    rw [ht] at hpurpose ⊢
    exact hemail hpurpose
  refine hissue.bind fun rawToken => guarantees_exec ?_
  exact Tx.guarantees_modify fun w => keepsCanonical_of_eq rfl rfl

omit hidem in
lemma requestPasswordReset_keepsCanonical (email : String) :
    (requestPasswordReset email).Guarantees KeepsCanonical := by
  have hfind : (exec (findActiveCustomer (normalizeEmail email))).Guarantees KeepsCanonical := by
    refine guarantees_exec (Tx.Guarantees.handling ?_ _ (Tx.guarantees_pure _))
    exact (Objects.guarantees_get _).bind fun _ => Tx.guarantees_pure _
  refine hfind.bind fun found => ?_
  cases found with
  | none => trivial
  | some c => exact issue_keepsCanonical fun h => by cases h

lemma requestEmailChange_keepsCanonical (customer : Customer) (newEmail : String) :
    (requestEmailChange customer newEmail).Guarantees KeepsCanonical := by
  have htaken : (exec (emailTakenByOther (normalizeEmail newEmail) customer.id)).Guarantees
      KeepsCanonical := guarantees_exec (Tx.guarantees_read _)
  refine htaken.bind fun taken => ?_
  refine (guarantees_require _ _).bind fun _ => ?_
  exact issue_keepsCanonical fun _ => hidem newEmail

omit hidem in
lemma link_keepsCanonical {profile : GoogleProfile} {c : Customer} :
    (linkExisting profile c).Guarantees KeepsCanonical := by
  intro w r w' h
  obtain ⟨-, hcustomers, htokens, -⟩ := linkExisting_rows h
  refine keepsCanonical_of_emails (fun c' hc' => ?_) (old_token (by rw [htokens]))
  rw [hcustomers] at hc'
  obtain ⟨c₀, hc₀, rfl⟩ := List.mem_map.1 hc'
  refine Or.inr ⟨c₀, hc₀, ?_⟩
  simp only [Commit.apply]
  split <;> rfl

omit hidem in
/-- A profile of the Google client has a normal form as its address. -/
lemma isCanonical_of_verifyIdToken (hidem : ∀ email : String, IsCanonical (normalizeEmail email))
    {clientId : String} {reply : TokeninfoReply} {profile : GoogleProfile}
    (h : verifyIdToken clientId reply = .ok profile) : IsCanonical profile.email := by
  cases reply with
  | unreachable => cases h
  | response status payload =>
      dsimp only [verifyIdToken] at h
      split at h
      · cases h
      · split at h
        · cases h
        · obtain ⟨subjectId, -, hrest⟩ := bind_eq_ok_iff.1 h
          obtain ⟨email, -, hpure⟩ := bind_eq_ok_iff.1 hrest
          cases hpure
          exact hidem email

lemma loginWithGoogle_keepsCanonical (clientId : String) (reply : TokeninfoReply) :
    (loginWithGoogleByStatement clientId reply).Guarantees KeepsCanonical := by
  unfold loginWithGoogleByStatement
  cases hprofile : verifyIdToken clientId reply with
  | error e => trivial
  | ok profile =>
      have hcanonical := isCanonical_of_verifyIdToken hidem hprofile
      have hread : ∀ {α : Type} {x : Statement α}, x.Guarantees Untouched →
          (exec x).Guarantees KeepsCanonical := fun hx =>
        (guarantees_exec hx).mono fun _ _ => keepsCanonical_of_untouched
      have hinsert : (exec (linkInserted profile)).Guarantees KeepsCanonical := by
        refine guarantees_exec fun w r w' h => ?_
        obtain ⟨-, rfl⟩ | ⟨c, -, hemail, -, hcustomers, htokens, -⟩ := linkInserted_rows h
        · exact refl_of KeepsCanonical _
        · refine keepsCanonical_of_customer ?_ hcustomers htokens
          rw [hemail]
          exact hcanonical
      have hblock : (googleBlockByStatement profile).Guarantees KeepsCanonical := by
        refine Program.Guarantees.bind (hread ?_) fun found => ?_
        · refine Tx.Guarantees.handling ?_ _ (Tx.guarantees_pure _)
          refine Tx.Guarantees.bind ?_ fun _ => Tx.guarantees_pure _
          exact (Objects.guarantees_get _).bind fun _ => Objects.guarantees_get _
        cases found with
        | some c => trivial
        | none =>
            refine Program.Guarantees.bind (hread ?_) fun found => ?_
            · refine Tx.Guarantees.handling ?_ _ (Tx.guarantees_pure _)
              exact (Objects.guarantees_get _).bind fun _ => Tx.guarantees_pure _
            cases found with
            | some c => exact guarantees_exec link_keepsCanonical
            | none =>
                refine hinsert.bind fun inserted => ?_
                cases inserted with
                | some c => trivial
                | none =>
                    refine Program.Guarantees.bind (hread ?_) fun c =>
                      guarantees_exec link_keepsCanonical
                    exact Tx.Guarantees.handling (Objects.guarantees_get _) _
                      (Tx.guarantees_raise _)
      refine hblock.bind fun c => ?_
      refine Program.Guarantees.bind ?_ fun _ => trivial
      exact (issueSession_untouched c.id).mono fun _ _ => keepsCanonical_of_untouched

omit hidem in
lemma updateLocalePreference_keepsCanonical (customer : Customer) (locale currency : String) :
    (updateLocalePreference customer locale currency).Guarantees KeepsCanonical := by
  have hvalidate : (validateLocaleAndCurrency locale currency).Guarantees KeepsCanonical := by
    refine Program.Guarantees.bind (guarantees_exec ?_) fun found => ?_
    · exact Tx.Guarantees.bind (Tx.guarantees_read _) fun _ => Tx.guarantees_pure _
    · cases found with
      | none => trivial
      | some country =>
          refine (guarantees_require _ _).bind fun _ => ?_
          exact (guarantees_require _ _).bind fun _ => trivial
  refine hvalidate.bind fun _ => ?_
  refine Program.Guarantees.bind (guarantees_exec fun w u w' h => ?_) fun _ => trivial
  obtain ⟨hrows, htokens, -⟩ := saveCheckedCustomer_rows h
  exact keepsCanonical_of_map (f := setPreference locale currency) (fun _ => rfl) hrows htokens

omit hidem in
lemma disableCustomer_keepsCanonical (actor : StaffInstance) (customerId : Id) (reason : String)
    (request : Option RequestContext) :
    (disableCustomer actor customerId reason request).Guarantees KeepsCanonical := by
  refine disableCustomer_guarantees (fun id w u w' h => ?_) (fun id w n w' h => ?_) fun w t => ?_
  · obtain ⟨hrows, htokens, -⟩ := saveCustomer_rows h
    exact keepsCanonical_of_map (f := (Customer.setIsActive false).apply) (fun _ => rfl) hrows
      htokens
  · cases h
    exact keepsCanonical_of_eq rfl rfl
  · exact keepsCanonical_of_eq rfl rfl

/-- Every statement of a call keeps the addresses, whatever the other calls do in between. -/
theorem WriterCall.keepsCanonical (call : WriterCall) (hw : EmailsCanonical w) :
    call.service.Relies KeepsCanonical KeepsCanonical (fun _ _ => True) w := by
  cases call with
  | registerCustomer email password =>
      exact (registerCustomer_keepsCanonical hidem email password).relies w |>.bind
        fun _ _ _ => trivial
  | loginWithGoogle clientId reply =>
      exact (loginWithGoogle_keepsCanonical hidem clientId reply).relies w |>.bind
        fun _ _ _ => trivial
  | consume k rawToken => exact (consumer_relies k rawToken hw).bind fun _ _ _ => trivial
  | requestPasswordReset email => exact (requestPasswordReset_keepsCanonical email).relies w
  | requestEmailChange customer newEmail =>
      exact (requestEmailChange_keepsCanonical hidem customer newEmail).relies w
  | updateLocalePreference customer locale currency =>
      exact (updateLocalePreference_keepsCanonical customer locale currency).relies w |>.bind
        fun _ _ _ => trivial
  | disableCustomer actor customerId reason request =>
      exact (disableCustomer_keepsCanonical actor customerId reason request).relies w |>.bind
        fun _ _ _ => trivial

end Services

/-! ## Whom a login and a reset request act on -/

/-- What changes are sessions, tokens and mail of the customer. -/
structure ActsOn (c : Customer) (w w' : World) : Prop where
  sessions : ∃ new, w'.db.sessions.rows = w.db.sessions.rows ++ new ∧
    ∀ s ∈ new, s.customerId = c.id
  tokens : ∃ new, w'.db.verificationTokens.rows = w.db.verificationTokens.rows ++ new ∧
    ∀ t ∈ new, t.customerId = c.id
  mail : ∃ new, w'.mailbox = new ++ w.mailbox ∧ ∀ m ∈ new, m.recipient = c.email
  frame : w' = { w with
    db := { w.db with
      sessions := w'.db.sessions
      verificationTokens := w'.db.verificationTokens }
    entropy := w'.entropy
    mailbox := w'.mailbox }

omit [PyText] in
lemma ActsOn.drawn (c : Customer) (w : World) (entropy : ℕ) :
    ActsOn c w { w with entropy := entropy } :=
  ⟨⟨[], (List.append_nil _).symm, fun _ h => by cases h⟩,
    ⟨[], (List.append_nil _).symm, fun _ h => by cases h⟩, ⟨[], rfl, fun _ h => by cases h⟩, rfl⟩

instance (c : Customer) : Std.Refl (ActsOn c) := ⟨fun w => ActsOn.drawn c w w.entropy⟩

/-- The call changes nothing, or it acts on the one customer whose email is the normal form of the
given address. -/
def ActsOnOne {α : Type} (email : String) (w : World) (p : Service α) : Prop :=
  ∀ rest, (∀ m ∈ p.moves (w :: rest), m.2 = m.1) ∨
    ∃ c ∈ w.db.customers.rows, c.email = normalizeEmail email ∧
      (∀ c' ∈ w.db.customers.rows, normalizeEmail c'.email = normalizeEmail email → c' = c) ∧
      ∀ m ∈ p.moves (w :: rest), ActsOn c m.1 m.2

section Acting

variable {w w' : World} {c : Customer}

omit [PyText] in
lemma issueSession_actsOn : (issueSession c.id).Guarantees (ActsOn c) := by
  refine Program.Guarantees.bind (guarantees_exec fun w token w' h => ?_) fun refresh => ?_
  · cases h
    exact ActsOn.drawn c w _
  · refine Program.Guarantees.bind (guarantees_exec fun w session w' h => ?_) fun _ => trivial
    have hrun : (createSession c.id refresh).run w = .ok (session, w') := h
    obtain ⟨now, w₁, hnow, hcreate⟩ := Tx.bind_ok hrun
    cases hnow
    obtain ⟨t, hinsert, rfl⟩ := Objects.create_ok hcreate
    obtain ⟨hsession, hrows, -⟩ := Table.insert_spec hinsert
    refine ⟨⟨[session], hrows, fun s hs => ?_⟩,
      ⟨[], (List.append_nil _).symm, fun _ h => by cases h⟩, ⟨[], rfl, fun _ h => by cases h⟩, rfl⟩
    rw [List.mem_singleton.1 hs, hsession]

omit [PyText] in
lemma issue_actsOn {purpose : Purpose} {newEmail : String} {ttl : Time} :
    (do let rawToken ← issueVerificationToken c.id purpose newEmail ttl
        sendMail c.email rawToken : Service Unit).Guarantees (ActsOn c) := by
  have hgenerate : (exec generateToken).Guarantees (ActsOn c) := by
    refine guarantees_exec fun w r w' h => ?_
    cases h
    exact ActsOn.drawn c w _
  have hissue : (issueVerificationToken c.id purpose newEmail ttl).Guarantees (ActsOn c) := by
    refine hgenerate.bind fun r => ?_
    refine Program.Guarantees.bind (guarantees_exec fun w t w' h => ?_) fun _ => trivial
    have hrun : (createVerificationToken c.id purpose r.2 newEmail ttl).run w = .ok (t, w') := h
    obtain ⟨now, w₁, hnow, hcreate⟩ := Tx.bind_ok hrun
    cases hnow
    obtain ⟨table, hinsert, rfl⟩ := Objects.create_ok hcreate
    obtain ⟨ht, hrows, -⟩ := Table.insert_spec hinsert
    refine ⟨⟨[], (List.append_nil _).symm, fun _ h => by cases h⟩, ⟨[t], hrows, fun t' ht' => ?_⟩,
      ⟨[], rfl, fun _ h => by cases h⟩, rfl⟩
    rw [List.mem_singleton.1 ht', ht]
  refine hissue.bind fun rawToken => guarantees_exec fun w u w' h => ?_
  cases h
  refine ⟨⟨[], (List.append_nil _).symm, fun _ h => by cases h⟩,
    ⟨[], (List.append_nil _).symm, fun _ h => by cases h⟩, ⟨[_], rfl, fun m hm => ?_⟩, rfl⟩
  rw [List.mem_singleton.1 hm]

omit [PyText] in
lemma getActive_ok {email : String}
    (h : (Objects.get (activeByEmail email) : Statement Customer).run w = .ok (c, w')) :
    w' = w ∧ c ∈ w.db.customers.rows ∧ c.email = email := by
  obtain ⟨hw', hrow⟩ := Objects.get_ok h
  have hfound : activeByEmail email c = true := Table.holds_of_get hrow
  simp only [activeByEmail, Bool.and_eq_true, decide_eq_true_eq] at hfound
  exact ⟨hw', Table.mem_of_get hrow, hfound.1⟩

/-- No two customers share an email up to blanks and capitals. -/
lemma EmailsCanonical.unique (h : EmailsCanonical w) {c' : Customer}
    (hc : c ∈ w.db.customers.rows) (hc' : c' ∈ w.db.customers.rows)
    (hemail : normalizeEmail c.email = normalizeEmail c'.email) : c = c' := by
  have hsame : c.email = c'.email := by
    rw [← h.customers c hc, ← h.customers c' hc', hemail]
  exact w.db.customers.eq_of_conflicts hc hc' (decide_eq_true hsame)

/-- A call that reads a customer by the address first, and then acts on that customer. -/
lemma actsOnOne_of_read {α β : Type} {email : String} {x : Statement β} {k : β → Service α}
    (hw : EmailsCanonical w)
    (hx : ∀ a w', x.run w = .ok (a, w') → w' = w ∧ ((∀ stores, (k a).moves stores = []) ∨
      ∃ c ∈ w.db.customers.rows, c.email = normalizeEmail email ∧ (k a).Guarantees (ActsOn c))) :
    ActsOnOne email w (exec x >>= k) := by
  intro rest
  rw [moves_exec_bind]
  cases hrun : x.run w with
  | error e =>
      rw [Tx.exec_error hrun]
      refine Or.inl fun m hm => ?_
      rw [List.mem_singleton.1 hm]
  | ok r =>
      obtain ⟨a, w'⟩ := r
      rw [Tx.exec_ok hrun]
      obtain ⟨rfl, hnothing | ⟨c, hc, hemail, hk⟩⟩ := hx a w' hrun
      · refine Or.inl fun m hm => ?_
        dsimp only at hm
        rw [hnothing rest, List.mem_singleton] at hm
        rw [hm]
      · refine Or.inr ⟨c, hc, hemail, fun c' hc' hsame => ?_, fun m hm => ?_⟩
        · refine hw.unique hc' hc (hsame.trans ?_)
          rw [hw.customers c hc, hemail]
        · obtain rfl | hm := List.mem_cons.1 hm
          · exact refl_of (ActsOn c) w'
          · exact hk.moves rest m hm

lemma loginCustomer_actsOnOne (hw : EmailsCanonical w) (email password : String) :
    ActsOnOne email w (loginCustomer email password) := by
  refine actsOnOne_of_read hw fun c w' h => ?_
  obtain hget | ⟨-, hraise⟩ := Tx.handling_ok h
  · obtain ⟨rfl, hc, hemail⟩ := getActive_ok hget
    refine ⟨rfl, Or.inr ⟨c, hc, hemail, ?_⟩⟩
    have hmethod : (exec (getPasswordMethod c.id)).Guarantees (ActsOn c) :=
      guarantees_exec (Tx.Guarantees.handling (Objects.guarantees_get _) _ (Tx.guarantees_raise _))
    refine hmethod.bind fun m => ?_
    refine (guarantees_require _ _).bind fun _ => ?_
    exact issueSession_actsOn.bind fun _ => trivial
  · cases hraise

lemma requestPasswordReset_actsOnOne (hw : EmailsCanonical w) (email : String) :
    ActsOnOne email w (requestPasswordReset email) := by
  refine actsOnOne_of_read hw fun found w' h => ?_
  obtain hget | ⟨-, hnone⟩ := Tx.handling_ok h
  · obtain ⟨c, w₁, hrun, hpure⟩ := Tx.bind_ok hget
    cases hpure
    obtain ⟨rfl, hc, hemail⟩ := getActive_ok hrun
    exact ⟨rfl, Or.inr ⟨c, hc, hemail, issue_actsOn⟩⟩
  · cases hnone
    exact ⟨rfl, Or.inl fun stores => moves_done _ _⟩

/-- Whoever is logged in is the customer with the address. -/
lemma loginCustomer_outcome {email password : String} {rest : List World}
    {r : Customer × AccessToken × RefreshToken}
    (h : (loginCustomer email password).outcome (w :: rest) = some (.ok r)) :
    r.1 ∈ w.db.customers.rows ∧ r.1.email = normalizeEmail email := by
  unfold loginCustomer at h
  obtain ⟨c, rest₁, hget, h⟩ := outcome_bind_ok h
  obtain ⟨m, rest₂, -, h⟩ := outcome_bind_ok h
  obtain ⟨u, rest₃, -, h⟩ := outcome_bind_ok h
  obtain ⟨tokens, rest₄, -, h⟩ := outcome_bind_ok h
  rw [pure_eq, outcome_done] at h
  cases h
  rw [liftM_eq, outcome_exec] at hget
  have hfound := Option.some.inj hget
  cases hrun : (getActiveCustomer (normalizeEmail email)).run w with
  | error e =>
      rw [Tx.exec_error hrun] at hfound
      cases hfound
  | ok r =>
      obtain ⟨c', w'⟩ := r
      rw [Tx.exec_ok hrun] at hfound
      cases hfound
      obtain hget | ⟨-, hraise⟩ := Tx.handling_ok hrun
      · exact (getActive_ok hget).2
      · cases hraise

end Acting

/-! ## Runs -/

/-- Account calls, one statement at a time, with anything else in between that leaves customers and
tokens alone. -/
def addressSystem : System (Service Unit) World :=
  programSystem (Same fun w => (w.db.customers, w.db.verificationTokens))

/-- No call has executed a statement yet. -/
def addressPool {ι : Type} (w : World) (calls : ι → WriterCall) : Pool ι (Service Unit) World where
  store := w
  pc i := (calls i).service

lemma emailsCanonical_of_run {ι : Type} [DecidableEq ι] {w : World} {calls : ι → WriterCall}
    {P : Pool ι (Service Unit) World}
    (hidem : ∀ email : String, IsCanonical (normalizeEmail email)) (hstart : EmailsCanonical w)
    (hrun : addressSystem.Run (fun _ _ => True) (addressPool w calls) P) :
    EmailsCanonical P.store := by
  have henv : ∀ s s', Same (fun w : World => (w.db.customers, w.db.verificationTokens)) s s' →
      KeepsCanonical s s' := fun s s' h =>
    keepsCanonical_of_eq (congrArg Prod.fst h) (congrArg Prod.snd h)
  exact hrun.holds_of_relies (fun _ _ h => h) henv
    (fun i => (calls i).keepsCanonical hidem hstart) hstart (fun _ _ hs h => h hs)
    fun s s' hs h => henv s s' h hs

/-- In every interleaving the stored emails are normal forms, no two customers share one up to
blanks and capitals, and a login or a reset request acts on nobody but the one customer whose email
is the normal form of what it is given. -/
theorem emails_canonical {ι : Type} [DecidableEq ι] {w : World} {calls : ι → WriterCall}
    {P : Pool ι (Service Unit) World}
    (hidem : ∀ email : String, normalizeEmail (normalizeEmail email) = normalizeEmail email)
    (hstart : EmailsCanonical w)
    (hrun : addressSystem.Run (fun _ _ => True) (addressPool w calls) P) :
    (∀ c ∈ P.store.db.customers.rows, normalizeEmail c.email = c.email) ∧
    (∀ c ∈ P.store.db.customers.rows, ∀ c' ∈ P.store.db.customers.rows,
      normalizeEmail c.email = normalizeEmail c'.email → c = c') ∧
    ∀ email password, ActsOnOne email P.store (requestPasswordReset email) ∧
      ActsOnOne email P.store (loginCustomer email password) ∧
      ∀ rest r, (loginCustomer email password).outcome (P.store :: rest) = some (.ok r) →
        r.1 ∈ P.store.db.customers.rows ∧ r.1.email = normalizeEmail email := by
  have hcanonical := emailsCanonical_of_run hidem hstart hrun
  refine ⟨hcanonical.customers, fun c hc c' hc' => hcanonical.unique hc hc',
    fun email password => ?_⟩
  exact ⟨requestPasswordReset_actsOnOne hcanonical email,
    loginCustomer_actsOnOne hcanonical email password, fun _ _ => loginCustomer_outcome⟩

end Emails

/-! ### A registration and an email change -/

section Example

attribute [local instance] plainText

/-- A customer registers and asks for another address. -/
def changeWhileRegistering : Fin 2 → WriterCall
  | 0 => .registerCustomer "a@example.com" "teapot-on-fire"
  | 1 => .requestEmailChange { id := 0, email := "a@example.com" } "b@example.com"

/-- The change is requested while the registration is not finished. -/
theorem emails_canonical_changeWhileRegistering :
    ∃ P, addressSystem.Run (fun _ _ => True) (addressPool {} changeWhileRegistering) P ∧
      P.store.db.customers.rows.map Customer.email = ["a@example.com"] ∧
      P.store.db.verificationTokens.rows.map VerificationToken.newEmail = ["", "b@example.com"] ∧
      ∀ c ∈ P.store.db.customers.rows, normalizeEmail c.email = c.email := by
  have h : (addressSystem.execute (fun _ _ => true) (addressPool {} changeWhileRegistering)
      [0, 1, 1, 1, 0]).map (fun P =>
        decide (P.store.db.customers.rows.map Customer.email = ["a@example.com"] ∧
          P.store.db.verificationTokens.rows.map VerificationToken.newEmail =
            ["", "b@example.com"])) = some true := by decide
  obtain ⟨P, hrun, hp⟩ := System.exists_run_of_execute (fun _ _ _ => trivial) h
  obtain ⟨hcustomers, htokens⟩ := of_decide_eq_true hp
  have hstart : EmailsCanonical {} := ⟨fun c hc => (by cases hc), fun t ht => (by cases ht)⟩
  exact ⟨P, hrun, hcustomers, htokens, (emails_canonical (fun _ => rfl) hstart hrun).1⟩

end Example

end BePyEco
