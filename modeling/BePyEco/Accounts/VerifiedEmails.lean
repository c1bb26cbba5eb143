import BePyEco.Accounts.LostUpdates

/-!
# A verified email is a proven email

An email is proven when a token that was mailed to it was presented for the customer, or when
Google has vouched for it.  A verification token does not record its address, a login may verify a
customer that it loaded under another address, and all of them save through instances of their
own; still no interleaving leaves a customer verified whose current email is not proven
(`verified_proven_of_run`).

The history is the log: `Commit.issued` keeps the address that a token is for, and the mail goes
there and nowhere else (`MailedOnlyTo`).
-/

namespace BePyEco

open Library

/-! ## Proven emails -/

/-- A token for the address was presented to `verify_email` or `confirm_email_change` for the
customer, or a Google profile with the address, verified, was linked to it. -/
def ProvenEmail (log : List Commit) (customerId : Id) (email : String) : Prop :=
  (∃ k rawToken t now, .consumed k rawToken t now ∈ log ∧
    (k = .verifyEmail ∨ k = .confirmEmailChange) ∧ t.customerId = customerId ∧
      .issued rawToken email ∈ log) ∨
  ∃ profile verifies now, .linked profile customerId verifies now ∈ log ∧
    profile.emailVerified = true ∧ profile.email = email

lemma ProvenEmail.mono {log log' : List Commit} {customerId : Id} {email : String}
    (h : ProvenEmail log customerId email) (hlog : ∀ entry ∈ log, entry ∈ log') :
    ProvenEmail log' customerId email := by
  obtain ⟨k, rawToken, t, now, hconsumed, hk, hid, hissued⟩ |
    ⟨profile, verifies, now, hlinked, hverified, hemail⟩ := h
  · exact Or.inl ⟨k, rawToken, t, now, hlog _ hconsumed, hk, hid, hlog _ hissued⟩
  · exact Or.inr ⟨profile, verifies, now, hlog _ hlinked, hverified, hemail⟩

/-! ## Tokens and their addresses -/

/-- Mail and log agree on where tokens go: every mail is of an issued token and goes to its
address, an email change goes to the new email, and a raw token is issued once. -/
structure TokensAddressed (s : RecordedWorld) : Prop where
  mails : ∀ m ∈ s.store.mailbox, .issued m.token m.recipient ∈ s.log
  stored : ∀ rawToken address, .issued rawToken address ∈ s.log →
    ∃ t ∈ s.store.db.verificationTokens.rows, t.tokenHash = sha256 rawToken
  unique : ∀ rawToken address address', .issued rawToken address ∈ s.log →
    .issued rawToken address' ∈ s.log → address = address'
  changes : ∀ t ∈ s.store.db.verificationTokens.rows, t.purpose = .emailChange →
    .issued t.tokenHash.preimage t.newEmail ∈ s.log
  consumed : ∀ rawToken t now, .consumed .confirmEmailChange rawToken t now ∈ s.log →
    .issued rawToken t.newEmail ∈ s.log

section Addressed

variable {s s' : RecordedWorld}

/-- A step that issues no token. -/
lemma TokensAddressed.keep {newer : List Commit} (h : TokensAddressed s)
    (hlog : s'.log = newer ++ s.log)
    (hissued : ∀ rawToken address, .issued rawToken address ∉ newer)
    (hconsumed : ∀ rawToken t now, .consumed .confirmEmailChange rawToken t now ∈ newer →
      .issued rawToken t.newEmail ∈ s.log)
    (hmails : ∀ m ∈ s'.store.mailbox, m ∈ s.store.mailbox ∨ .issued m.token m.recipient ∈ s.log)
    (htokens : ∀ t ∈ s'.store.db.verificationTokens.rows,
      ∃ t₀ ∈ s.store.db.verificationTokens.rows, t₀.Later t)
    (hkept : KeepsTokens s.store s'.store) : TokensAddressed s' := by
  have hold : ∀ entry ∈ s.log, entry ∈ s'.log := by
    intro entry hentry
    rw [hlog]
    exact List.mem_append_right _ hentry
  have hback : ∀ rawToken address, .issued rawToken address ∈ s'.log →
      .issued rawToken address ∈ s.log := by
    intro rawToken address hmem
    rw [hlog, List.mem_append] at hmem
    exact hmem.resolve_left (hissued rawToken address)
  refine ⟨fun m hm => ?_, fun rawToken address hmem => ?_,
    fun rawToken address address' hmem hmem' => ?_, fun t ht hpurpose => ?_,
    fun rawToken t now hmem => hold _ ?_⟩
  · obtain hm | hm := hmails m hm
    · exact hold _ (h.mails m hm)
    · exact hold _ hm
  · obtain ⟨t, ht, hhash⟩ := h.stored rawToken address (hback _ _ hmem)
    obtain ⟨t', ht', hlater⟩ := hkept t ht
    exact ⟨t', ht', (VerificationToken.Later.tokenHash_eq hlater).trans hhash⟩
  · exact h.unique rawToken address address' (hback _ _ hmem) (hback _ _ hmem')
  · obtain ⟨t₀, ht₀, rfl | ⟨at', rfl⟩⟩ := htokens t ht
    · exact hold _ (h.changes _ ht₀ hpurpose)
    · exact hold _ (h.changes t₀ ht₀ hpurpose)
  · rw [hlog, List.mem_append] at hmem
    obtain hmem | hmem := hmem
    · exact hconsumed rawToken t now hmem
    · exact h.consumed rawToken t now hmem

/-- The entry issues no token and consumes none. -/
def Commit.isTokenless : Commit → Bool
  | issued _ _ => false
  | consumed _ _ _ _ => false
  | _ => true

/-- A step that has nothing to do with tokens and mail. -/
lemma TokensAddressed.same {newer : List Commit} (h : TokensAddressed s)
    (hlog : s'.log = newer ++ s.log) (hnewer : ∀ entry ∈ newer, entry.isTokenless = true)
    (htokens : s'.store.db.verificationTokens = s.store.db.verificationTokens)
    (hmail : s'.store.mailbox = s.store.mailbox) : TokensAddressed s' := by
  refine h.keep hlog (fun rawToken address hmem => ?_) (fun rawToken t now hmem => ?_)
    (fun m hm => ?_) (fun t ht => ?_) (keepsTokens_of_eq htokens)
  · have hfalse := hnewer _ hmem
    cases hfalse
  · have hfalse := hnewer _ hmem
    cases hfalse
  · rw [hmail] at hm
    exact Or.inl hm
  · rw [htokens] at ht
    exact ⟨t, ht, Or.inl rfl⟩

/-- A step that issues a token. -/
lemma TokensAddressed.issue {rawToken : RawToken} {address : String} {t : VerificationToken}
    (h : TokensAddressed s) (hhash : t.tokenHash = sha256 rawToken)
    (haddress : t.purpose = .emailChange → t.newEmail = address)
    (htokens : s'.store.db.verificationTokens.rows = s.store.db.verificationTokens.rows ++ [t])
    (hmail : s'.store.mailbox = s.store.mailbox)
    (hlog : s'.log = .issued rawToken address :: s.log) : TokensAddressed s' := by
  obtain ⟨hentry, hold⟩ := Recorded.mem_of_cons hlog
  have hcases : ∀ rawToken' address', .issued rawToken' address' ∈ s'.log →
      (rawToken' = rawToken ∧ address' = address) ∨ .issued rawToken' address' ∈ s.log := by
    intro rawToken' address' hmem
    rw [hlog] at hmem
    obtain heq | hmem := List.mem_cons.1 hmem
    · cases heq
      exact Or.inl ⟨rfl, rfl⟩
    · exact Or.inr hmem
  have hfresh : ∀ address', ¬ .issued rawToken address' ∈ s.log := by
    intro address' hmem
    obtain ⟨t', ht', hhash'⟩ := h.stored rawToken address' hmem
    have hmem' : t' ∈ s'.store.db.verificationTokens.rows := by
      rw [htokens]
      exact List.mem_append_left _ ht'
    have hmem : t ∈ s'.store.db.verificationTokens.rows := by
      rw [htokens]
      exact List.mem_append_right _ List.mem_cons_self
    have heq : t' = t := s'.store.db.verificationTokens.eq_of_conflicts hmem' hmem
      (decide_eq_true (hhash'.trans hhash.symm))
    rw [heq] at ht'
    exact s'.store.db.verificationTokens.not_mem_of_append htokens ht'
  refine ⟨fun m hm => ?_, fun rawToken' address' hmem => ?_,
    fun rawToken' address₁ address₂ hmem₁ hmem₂ => ?_, fun t' ht' hpurpose => ?_,
    fun rawToken' t' now hmem => ?_⟩
  · rw [hmail] at hm
    exact hold _ (h.mails m hm)
  · rw [htokens]
    obtain ⟨rfl, -⟩ | hmem := hcases rawToken' address' hmem
    · exact ⟨t, List.mem_append_right _ List.mem_cons_self, hhash⟩
    · obtain ⟨t', ht', hhash'⟩ := h.stored rawToken' address' hmem
      exact ⟨t', List.mem_append_left _ ht', hhash'⟩
  · obtain ⟨rfl, rfl⟩ | hmem₁ := hcases rawToken' address₁ hmem₁
    · obtain ⟨-, rfl⟩ | hmem₂ := hcases rawToken' address₂ hmem₂
      · rfl
      · exact absurd hmem₂ (hfresh address₂)
    · obtain ⟨rfl, -⟩ | hmem₂ := hcases rawToken' address₂ hmem₂
      · exact absurd hmem₁ (hfresh address₁)
      · exact h.unique rawToken' address₁ address₂ hmem₁ hmem₂
  · rw [htokens, List.mem_append, List.mem_singleton] at ht'
    obtain ht' | rfl := ht'
    · exact hold _ (h.changes t' ht' hpurpose)
    · rw [hhash, haddress hpurpose]
      exact hentry
  · rw [hlog] at hmem
    obtain heq | hmem := List.mem_cons.1 hmem
    · cases heq
    · exact hold _ (h.consumed rawToken' t' now hmem)

/-- Only `consumed_at` differs between the versions of a token. -/
lemma VerificationToken.Later.columns {t t' : VerificationToken} (h : t.Later t') :
    t'.purpose = t.purpose ∧ t'.customerId = t.customerId ∧ t'.newEmail = t.newEmail ∧
      t'.tokenHash = t.tokenHash := by
  obtain rfl | ⟨at', rfl⟩ := h
  · exact ⟨rfl, rfl, rfl, rfl⟩
  · exact ⟨rfl, rfl, rfl, rfl⟩

/-- Tokens of a table in which one was marked, and the tokens before. -/
lemma later_of_mem_marked {w w' : World} {t t' : VerificationToken} {now : Time}
    (h : w'.db.verificationTokens = w.db.verificationTokens.update
      (fun t' => Model.pk t' == t.id) (VerificationToken.setConsumedAt now))
    (ht' : t' ∈ w'.db.verificationTokens.rows) :
    ∃ t₀ ∈ w.db.verificationTokens.rows, t₀.Later t' := by
  rw [h] at ht'
  obtain ⟨t₀, ht₀, rfl⟩ := (Table.mem_update _).1 ht'
  refine ⟨t₀, ht₀, ?_⟩
  unfold Assignment.on
  split
  · exact Or.inr ⟨now, rfl⟩
  · exact Or.inl rfl

lemma TokensAddressed.move (h : TokensAddressed s) (hmove : Moves s s') :
    TokensAddressed s' := by
  have hfollows := hmove.follows
  cases hmove with
  | silent huntouched hlog =>
      have hlog' : s'.log = [] ++ s.log := hlog
      exact h.same hlog' (by simp) huntouched.tokens huntouched.mail
  | mailed hissued hcustomers htokens hmail hlog =>
      have hlog' : s'.log = [] ++ s.log := hlog
      refine h.keep hlog' (by simp) (by simp) (fun m hm => ?_) (fun t ht => ?_) hfollows.tokens
      · rw [hmail] at hm
        obtain rfl | hm := List.mem_cons.1 hm
        · exact Or.inr hissued
        · exact Or.inl hm
      · rw [htokens] at ht
        exact ⟨t, ht, Or.inl rfl⟩
  | registered hnot ht hcustomers htokens hmail hlog =>
      refine h.issue ht.2.2 (fun hpurpose => ?_) htokens hmail hlog
      rw [ht.1] at hpurpose
      cases hpurpose
  | issued ht hpurpose haddress hcustomers htokens hmail hlog =>
      exact h.issue ht haddress htokens hmail hlog
  | @consumed k rawToken t now hstored ht hcustomers htokens hmail hlog =>
      have hlog' : s'.log = [.consumed k rawToken t now] ++ s.log := hlog
      refine h.keep hlog' (by simp) (fun rawToken' t' now' hmem => ?_) (fun m hm => ?_)
        (fun t' ht' => later_of_mem_marked htokens ht') hfollows.tokens
      · -- the new email is that of the row of the token
        cases List.mem_singleton.1 hmem
        obtain ⟨t₁, ht₁, hlater⟩ := hstored
        obtain ⟨hpurpose, -, hnew, hhash⟩ := VerificationToken.Later.columns hlater
        have hissued := h.changes t₁ ht₁ (hpurpose.trans ht.2)
        rw [hnew, hhash, ht.1] at hissued
        exact hissued
      · rw [hmail] at hm
        exact Or.inl hm
  | @linkedExisting profile s₀ c now hverified hc hemail hfollows' hcustomers htokens hmail hlog =>
      have hlog' : s'.log = [.linked profile c.id (!c.isEmailVerified) now] ++ s.log := hlog
      exact h.same hlog' (by simp [Commit.isTokenless]) htokens hmail
  | @linkedNew profile c now hemail hverified hcustomers htokens hmail hlog =>
      have hlog' : s'.log = [.linked profile c.id false now] ++ s.log := hlog
      exact h.same hlog' (by simp [Commit.isTokenless]) htokens hmail
  | @edited entry hentry hcustomers htokens hmail hlog =>
      have hlog' : s'.log = [entry] ++ s.log := hlog
      refine h.same hlog' (fun entry' hmem => ?_) htokens hmail
      rw [List.mem_singleton.1 hmem]
      cases entry <;> first | rfl | cases hentry

end Addressed

/-! ## The invariant -/

/-- The email of every verified customer is proven; a verification token is for the email of its
customer, as long as that one is not proven. -/
structure EmailsProven (s : RecordedWorld) : Prop where
  addressed : TokensAddressed s
  verified : ∀ c ∈ s.store.db.customers.rows, c.isEmailVerified = true →
    ProvenEmail s.log c.id c.email
  owned : ∀ t ∈ s.store.db.verificationTokens.rows, t.purpose = .emailVerification →
    ∃ c ∈ s.store.db.customers.rows, c.id = t.customerId
  verifications : ∀ t ∈ s.store.db.verificationTokens.rows, t.purpose = .emailVerification →
    ∀ c ∈ s.store.db.customers.rows, c.id = t.customerId →
      ProvenEmail s.log c.id c.email ∨ .issued t.tokenHash.preimage c.email ∈ s.log

section Proven

variable {s s' : RecordedWorld} {c c' : Customer}

/-- What a customer has become: its email is as it was, and is verified only if it was or is
proven; or it has a new email, which is proven. -/
def Settled (s' : RecordedWorld) (c c' : Customer) : Prop :=
  c'.id = c.id ∧
    ((c'.email = c.email ∧ (c'.isEmailVerified = true → c.isEmailVerified = true ∨
      ProvenEmail s'.log c'.id c'.email)) ∨ ProvenEmail s'.log c'.id c'.email)

/-- A step that adds no verification token. -/
lemma EmailsProven.keep (h : EmailsProven s) (haddressed : TokensAddressed s')
    (hlog : ∀ entry ∈ s.log, entry ∈ s'.log)
    (hcustomers : ∀ c ∈ s.store.db.customers.rows, ∃ c' ∈ s'.store.db.customers.rows,
      Settled s' c c')
    (hnew : ∀ c' ∈ s'.store.db.customers.rows,
      (∃ c ∈ s.store.db.customers.rows, c.id = c'.id) ∨
        (c'.isEmailVerified = true → ProvenEmail s'.log c'.id c'.email))
    (htokens : ∀ t ∈ s'.store.db.verificationTokens.rows, t.purpose = .emailVerification →
      ∃ t₀ ∈ s.store.db.verificationTokens.rows, t₀.Later t) : EmailsProven s' := by
  have hsettled : ∀ c ∈ s.store.db.customers.rows, ∀ c' ∈ s'.store.db.customers.rows,
      c'.id = c.id → Settled s' c c' := by
    intro c hc c' hc' hid
    obtain ⟨c₁, hc₁, hsettled⟩ := hcustomers c hc
    have heq : c' = c₁ := s'.store.db.customers.eq_of_pk hc' hc₁ (hid.trans hsettled.1.symm)
    rw [heq]
    exact hsettled
  refine ⟨haddressed, fun c' hc' hverified => ?_, fun t ht hpurpose => ?_,
    fun t ht hpurpose c' hc' hid => ?_⟩
  · obtain ⟨c, hc, hid⟩ | hproven := hnew c' hc'
    · obtain ⟨-, ⟨hemail, hold⟩ | hproven⟩ := hsettled c hc c' hc' hid.symm
      · obtain hwas | hproven := hold hverified
        · rw [← hid, hemail]
          exact (h.verified c hc hwas).mono hlog
        · exact hproven
      · exact hproven
    · exact hproven hverified
  · obtain ⟨t₀, ht₀, hlater⟩ := htokens t ht hpurpose
    obtain ⟨hpurpose₀, howner, -, -⟩ := hlater.columns
    obtain ⟨c, hc, hid⟩ := h.owned t₀ ht₀ (hpurpose₀.symm.trans hpurpose)
    obtain ⟨c', hc', hsettled'⟩ := hcustomers c hc
    exact ⟨c', hc', (hsettled'.1.trans hid).trans howner.symm⟩
  · obtain ⟨t₀, ht₀, hlater⟩ := htokens t ht hpurpose
    obtain ⟨hpurpose₀, howner, -, hhash⟩ := hlater.columns
    obtain ⟨c, hc, hid₀⟩ := h.owned t₀ ht₀ (hpurpose₀.symm.trans hpurpose)
    have hid' : c'.id = c.id := (hid.trans howner).trans hid₀.symm
    obtain ⟨-, ⟨hemail, -⟩ | hproven⟩ := hsettled c hc c' hc' hid'
    · rw [hid', hemail, hhash]
      obtain hproven | hissued := h.verifications t₀ ht₀ (hpurpose₀.symm.trans hpurpose) c hc hid₀
      · exact Or.inl (hproven.mono hlog)
      · exact Or.inr (hlog _ hissued)
    · exact Or.inl hproven

lemma settled_self (c : Customer) : Settled s' c c := ⟨rfl, Or.inl ⟨rfl, Or.inl⟩⟩

/-- A step that leaves the customers and the verification tokens alone. -/
lemma EmailsProven.same (h : EmailsProven s) (haddressed : TokensAddressed s')
    (hlog : ∀ entry ∈ s.log, entry ∈ s'.log)
    (hcustomers : s'.store.db.customers = s.store.db.customers)
    (htokens : ∀ t ∈ s'.store.db.verificationTokens.rows, t.purpose = .emailVerification →
      ∃ t₀ ∈ s.store.db.verificationTokens.rows, t₀.Later t) : EmailsProven s' := by
  refine h.keep haddressed hlog (fun c hc => ?_) (fun c' hc' => ?_) htokens
  · rw [hcustomers]
    exact ⟨c, hc, settled_self c⟩
  · rw [hcustomers] at hc'
    exact Or.inl ⟨c', hc', rfl⟩

/-- A commit that settles every customer. -/
lemma EmailsProven.commit {entry : Commit} (h : EmailsProven s) (haddressed : TokensAddressed s')
    (hlog : s'.log = entry :: s.log)
    (hcustomers : s'.store.db.customers.rows = s.store.db.customers.rows.map entry.apply)
    (hsettled : ∀ c ∈ s.store.db.customers.rows, Settled s' c (entry.apply c))
    (htokens : ∀ t ∈ s'.store.db.verificationTokens.rows, t.purpose = .emailVerification →
      ∃ t₀ ∈ s.store.db.verificationTokens.rows, t₀.Later t) : EmailsProven s' := by
  refine h.keep haddressed (Recorded.mem_of_cons hlog).2 (fun c hc => ?_) (fun c' hc' => ?_)
    htokens
  · rw [hcustomers]
    exact ⟨entry.apply c, List.mem_map_of_mem hc, hsettled c hc⟩
  · rw [hcustomers] at hc'
    obtain ⟨c, hc, rfl⟩ := List.mem_map.1 hc'
    exact Or.inl ⟨c, hc, (entry.apply_id c).symm⟩

/-- A preference, or a disabled account, has nothing to do with the email. -/
lemma Commit.apply_of_isEdit {entry : Commit} (h : entry.isEdit = true) (c : Customer) :
    (entry.apply c).email = c.email ∧
      (entry.apply c).isEmailVerified = c.isEmailVerified := by
  cases entry with
  | preferred customerId locale currency =>
      simp only [Commit.apply]
      split
      · exact ⟨rfl, rfl⟩
      · exact ⟨rfl, rfl⟩
  | disabled customerId =>
      simp only [Commit.apply]
      split
      · exact ⟨rfl, rfl⟩
      · exact ⟨rfl, rfl⟩
  | _ => cases h

/-- What the success of a consumer makes of a customer. -/
lemma settled_of_consumed {k : Consumer} {rawToken : RawToken} {t : VerificationToken} {now : Time}
    (h : EmailsProven s) (hstored : s.store.db.verificationTokens.HasLater t)
    (ht : t.tokenHash = sha256 rawToken ∧ t.purpose = k.purpose)
    (hlog : s'.log = .consumed k rawToken t now :: s.log)
    (hc : c ∈ s.store.db.customers.rows) :
    Settled s' c ((Commit.consumed k rawToken t now).apply c) := by
  obtain ⟨t₁, ht₁, hlater⟩ := hstored
  obtain ⟨hpurpose, howner, hnew, hhash⟩ := hlater.columns
  obtain ⟨hentry, hold⟩ := Recorded.mem_of_cons hlog
  by_cases hid : c.id = t.customerId
  · cases k with
    | verifyEmail =>
        have happly : (Commit.consumed .verifyEmail rawToken t now).apply c =
            { c with emailVerifiedAt := some now } := by simp [Commit.apply, hid]
        rw [happly]
        refine ⟨rfl, Or.inr ?_⟩
        dsimp only
        obtain hproven | hissued := h.verifications t₁ ht₁ (hpurpose.trans ht.2) c hc
          (hid.trans howner.symm)
        · exact hproven.mono hold
        · rw [hhash, ht.1] at hissued
          exact Or.inl ⟨.verifyEmail, rawToken, t, now, hentry, Or.inl rfl, hid.symm,
            hold _ hissued⟩
    | confirmPasswordReset newPassword => exact settled_self c
    | confirmEmailChange =>
        have happly : (Commit.consumed .confirmEmailChange rawToken t now).apply c =
            setEmail t.newEmail now c := by simp [Commit.apply, hid]
        have hissued := h.addressed.changes t₁ ht₁ (hpurpose.trans ht.2)
        rw [hnew, hhash, ht.1] at hissued
        rw [happly]
        refine ⟨rfl, Or.inr ?_⟩
        exact Or.inl ⟨.confirmEmailChange, rawToken, t, now, hentry, Or.inr rfl, hid.symm,
          hold _ hissued⟩
  · have happly : (Commit.consumed k rawToken t now).apply c = c := by
      cases k with
      | confirmPasswordReset newPassword => rfl
      | _ => simp [Commit.apply, hid]
    rw [happly]
    exact settled_self c

/-- A customer has the email it had, or that of the last email change. -/
lemma lastEmail_cases (log : List Commit) (c : Customer) : lastEmail log c = c.email ∨
    ∃ rawToken t now, .consumed .confirmEmailChange rawToken t now ∈ log ∧
      t.customerId = c.id ∧ t.newEmail = lastEmail log c := by
  unfold lastEmail
  cases hfound : log.findSome? (Commit.emailFor c.id) with
  | none => exact Or.inl rfl
  | some email =>
      obtain ⟨entry, hentry, hemail⟩ := List.exists_of_findSome?_eq_some hfound
      refine Or.inr ?_
      unfold Commit.emailFor at hemail
      split at hemail
      · next rawToken t now =>
          split at hemail
          · next hid =>
              cases hemail
              exact ⟨rawToken, t, now, hentry, hid, rfl⟩
          · cases hemail
      · cases hemail

/-- What a linked Google identity makes of a customer that was loaded earlier. -/
lemma settled_of_linked {profile : GoogleProfile} {s₀ : RecordedWorld} {c₀ : Customer}
    {verifies : Bool} {now : Time} (h : TokensAddressed s)
    (hverified : profile.emailVerified = true)
    (hc₀ : c₀ ∈ s₀.store.db.customers.rows) (hemail : c₀.email = profile.email)
    (hfollows : Follows s₀ s) (hlog : s'.log = .linked profile c₀.id verifies now :: s.log)
    (hc : c ∈ s.store.db.customers.rows) :
    Settled s' c ((Commit.linked profile c₀.id verifies now).apply c) := by
  obtain ⟨hentry, hold⟩ := Recorded.mem_of_cons hlog
  by_cases hid : c.id = c₀.id
  · refine ⟨Commit.apply_id _ c, Or.inr ?_⟩
    have happly : ((Commit.linked profile c₀.id verifies now).apply c).email = c.email :=
      Commit.apply_email _ c
    rw [Commit.apply_id, happly]
    -- the row may have another email than the instance, but only one that was confirmed since
    obtain ⟨newer, hnewer, hrows⟩ := hfollows.customers
    have heq : c = replay Commit.apply newer c₀ := s.store.db.customers.eq_of_pk hc (hrows c₀ hc₀)
      (hid.trans (replay_id newer c₀).symm)
    have hlast : c.email = lastEmail newer c₀ := by rw [heq, replay_email]
    obtain hsame | ⟨rawToken, t, now', hchange, howner, hnew⟩ := lastEmail_cases newer c₀
    · refine Or.inr ⟨profile, verifies, now, ?_, hverified, ?_⟩
      · rw [hid]
        exact hentry
      · rw [hlast, hsame, hemail]
    · have hconsumed : .consumed .confirmEmailChange rawToken t now' ∈ s.log := by
        rw [hnewer]
        exact List.mem_append_left _ hchange
      refine Or.inl ⟨.confirmEmailChange, rawToken, t, now', hold _ hconsumed, Or.inr rfl,
        howner.trans hid.symm, ?_⟩
      rw [hlast, ← hnew]
      exact hold _ (h.consumed rawToken t now' hconsumed)
  · have happly : (Commit.linked profile c₀.id verifies now).apply c = c := by
      simp [Commit.apply, hid]
    rw [happly]
    exact settled_self c

/-- A registration: the verification token is for the email of the new customer. -/
lemma EmailsProven.register {rawToken : RawToken} {t : VerificationToken} (h : EmailsProven s)
    (haddressed : TokensAddressed s') (hnot : c.isEmailVerified = false)
    (ht : t.purpose = .emailVerification ∧ t.customerId = c.id ∧ t.tokenHash = sha256 rawToken)
    (hcustomers : s'.store.db.customers.rows = s.store.db.customers.rows ++ [c])
    (htokens : s'.store.db.verificationTokens.rows = s.store.db.verificationTokens.rows ++ [t])
    (hlog : s'.log = .issued rawToken c.email :: s.log) : EmailsProven s' := by
  obtain ⟨hentry, hold⟩ := Recorded.mem_of_cons hlog
  have hkept : ∀ c ∈ s.store.db.customers.rows, c ∈ s'.store.db.customers.rows := by
    intro c hc
    rw [hcustomers]
    exact List.mem_append_left _ hc
  have hinserted : c ∈ s'.store.db.customers.rows := by
    rw [hcustomers]
    exact List.mem_append_right _ List.mem_cons_self
  refine ⟨haddressed, fun c' hc' hverified => ?_, fun t' ht' hpurpose => ?_,
    fun t' ht' hpurpose c' hc' hid => ?_⟩
  · rw [hcustomers, List.mem_append, List.mem_singleton] at hc'
    obtain hc' | rfl := hc'
    · exact (h.verified c' hc' hverified).mono hold
    · rw [hnot] at hverified
      cases hverified
  · rw [htokens, List.mem_append, List.mem_singleton] at ht'
    obtain ht' | rfl := ht'
    · obtain ⟨c₁, hc₁, hid⟩ := h.owned t' ht' hpurpose
      exact ⟨c₁, hkept c₁ hc₁, hid⟩
    · exact ⟨c, hinserted, ht.2.1.symm⟩
  · rw [htokens, List.mem_append, List.mem_singleton] at ht'
    obtain ht' | rfl := ht'
    · obtain ⟨c₁, hc₁, hid₁⟩ := h.owned t' ht' hpurpose
      have heq : c' = c₁ := s'.store.db.customers.eq_of_pk hc' (hkept c₁ hc₁)
        (hid.trans hid₁.symm)
      rw [heq]
      obtain hproven | hissued := h.verifications t' ht' hpurpose c₁ hc₁ hid₁
      · exact Or.inl (hproven.mono hold)
      · exact Or.inr (hold _ hissued)
    · have heq : c' = c := s'.store.db.customers.eq_of_pk hc' hinserted (hid.trans ht.2.1)
      rw [heq, ht.2.2]
      exact Or.inr hentry

lemma EmailsProven.move (h : EmailsProven s) (hmove : Moves s s') : EmailsProven s' := by
  have haddressed := h.addressed.move hmove
  have hold : ∀ entry ∈ s.log, entry ∈ s'.log := fun entry hentry => hmove.follows.mem_log hentry
  cases hmove with
  | silent huntouched hlog =>
      refine h.same haddressed hold huntouched.customers fun t ht _ => ?_
      rw [huntouched.tokens] at ht
      exact ⟨t, ht, Or.inl rfl⟩
  | mailed hissued hcustomers htokens hmail hlog =>
      refine h.same haddressed hold hcustomers fun t ht _ => ?_
      rw [htokens] at ht
      exact ⟨t, ht, Or.inl rfl⟩
  | registered hnot ht hcustomers htokens hmail hlog =>
      exact h.register haddressed hnot ht hcustomers htokens hlog
  | issued ht hpurpose haddress hcustomers htokens hmail hlog =>
      refine h.same haddressed hold hcustomers fun t' ht' hpurpose' => ?_
      rw [htokens, List.mem_append, List.mem_singleton] at ht'
      obtain ht' | rfl := ht'
      · exact ⟨t', ht', Or.inl rfl⟩
      · exact absurd hpurpose' hpurpose
  | consumed hstored ht hcustomers htokens hmail hlog =>
      refine h.commit haddressed hlog hcustomers (fun c hc => ?_) fun t' ht' _ => ?_
      · exact settled_of_consumed h hstored ht hlog hc
      · exact later_of_mem_marked htokens ht'
  | linkedExisting hverified hc hemail hfollows hcustomers htokens hmail hlog =>
      refine h.commit haddressed hlog hcustomers (fun c' hc' => ?_) fun t ht _ => ?_
      · exact settled_of_linked h.addressed hverified hc hemail hfollows hlog hc'
      · rw [htokens] at ht
        exact ⟨t, ht, Or.inl rfl⟩
  | @linkedNew profile c now hemail hverified hcustomers htokens hmail hlog =>
      refine h.keep haddressed hold (fun c₁ hc₁ => ?_) (fun c' hc' => ?_) fun t ht _ => ?_
      · rw [hcustomers]
        exact ⟨c₁, List.mem_append_left _ hc₁, settled_self c₁⟩
      · rw [hcustomers, List.mem_append, List.mem_singleton] at hc'
        obtain hc' | rfl := hc'
        · exact Or.inl ⟨c', hc', rfl⟩
        · exact Or.inr fun hc' => Or.inr ⟨profile, false, now, (Recorded.mem_of_cons hlog).1,
            hverified hc', hemail.symm⟩
      · rw [htokens] at ht
        exact ⟨t, ht, Or.inl rfl⟩
  | edited hentry hcustomers htokens hmail hlog =>
      refine h.commit haddressed hlog hcustomers (fun c hc => ?_) fun t ht _ => ?_
      · obtain ⟨hemail, hverified⟩ := Commit.apply_of_isEdit hentry c
        refine ⟨Commit.apply_id _ c, Or.inl ⟨hemail, fun hnow => Or.inl ?_⟩⟩
        rw [← hverified]
        exact hnow
      · rw [htokens] at ht
        exact ⟨t, ht, Or.inl rfl⟩

end Proven

/-! ## What accounts for the log -/

/-- The call that an entry comes from, or the mail of the token. -/
def Commit.AccountedFor [PyText] {ι : Type} (calls : ι → WriterCall) : Commit → RecordedWorld → Prop
  | issued rawToken address, s => ⟨address, rawToken⟩ ∈ s.store.mailbox
  | consumed k rawToken _ _, _ => ∃ i, calls i = .consume k rawToken
  | linked profile _ _ _, _ => ∃ i clientId reply, calls i = .loginWithGoogle clientId reply ∧
    verifyIdToken clientId reply = .ok profile
  | _, _ => True

/-- No mail is taken back. -/
lemma Moves.keeps_mail {s s' : RecordedWorld} (h : Moves s s') {m : Mail}
    (hm : m ∈ s.store.mailbox) : m ∈ s'.store.mailbox := by
  cases h with
  | silent huntouched hlog => rwa [huntouched.mail]
  | mailed hissued hcustomers htokens hmail hlog =>
      rw [hmail]
      exact List.mem_cons_of_mem _ hm
  | registered hnot ht hcustomers htokens hmail hlog => rwa [hmail]
  | issued ht hpurpose haddress hcustomers htokens hmail hlog => rwa [hmail]
  | consumed hstored ht hcustomers htokens hmail hlog => rwa [hmail]
  | linkedExisting hverified hc hemail hfollows hcustomers htokens hmail hlog => rwa [hmail]
  | linkedNew hemail hverified hcustomers htokens hmail hlog => rwa [hmail]
  | edited hentry hcustomers htokens hmail hlog => rwa [hmail]

section Accounts

open Program

variable [PyText] {ι : Type} {calls : ι → WriterCall}

lemma Commit.AccountedFor.move {entry : Commit} {s s' : RecordedWorld}
    (h : entry.AccountedFor calls s) (hmove : Moves s s') : entry.AccountedFor calls s' := by
  cases entry with
  | issued rawToken address => exact hmove.keeps_mail h
  | _ => exact h

lemma sendMail_next (rawToken : RawToken) (address : String) :
    ((exec (sendMail address rawToken)).silently : RecordingService Unit).Next
      ((Commit.issued rawToken address).AccountedFor calls) :=
  fun _ => List.mem_cons_self

lemma recordIssue_delivers (customerId : Id) (purpose : Purpose) (newEmail : String) (ttl : Time)
    (recipient : String) :
    (recordIssue customerId purpose newEmail ttl recipient).Delivers
      (Commit.AccountedFor calls) := by
  refine (delivers_silently _).bind fun ⟨rawToken, tokenHash⟩ => ?_
  refine delivers_recording_bind (fun t w entry hentry => Or.inr ?_) fun _ => delivers_silently _
  rw [List.mem_singleton.1 hentry]
  exact sendMail_next rawToken recipient

lemma recordGoogleBlock_delivers {i : ι} {clientId : String} {reply : TokeninfoReply}
    {profile : GoogleProfile} (hcall : calls i = .loginWithGoogle clientId reply)
    (hprofile : verifyIdToken clientId reply = .ok profile) :
    (recordGoogleBlock profile).Delivers (Commit.AccountedFor calls) := by
  have hlinked : ∀ customerId verifies now s,
      (Commit.linked profile customerId verifies now).AccountedFor calls s :=
    fun _ _ _ _ => ⟨i, clientId, reply, hcall, hprofile⟩
  have hlink : ∀ c : Customer, (recording (linkExisting profile c) fun _ w =>
      [.linked profile c.id (!c.isEmailVerified) w.now] : RecordingService Customer).Delivers
      (Commit.AccountedFor calls) := by
    refine fun c => delivers_recording fun r w entry hentry s => ?_
    rw [List.mem_singleton.1 hentry]
    exact hlinked _ _ _ s
  refine (delivers_silently _).bind fun found => ?_
  cases found with
  | some c => trivial
  | none =>
      refine (delivers_silently _).bind fun found => ?_
      cases found with
      | some c => exact hlink c
      | none =>
          refine Delivers.bind (delivers_recording fun r w entry hentry s => ?_) fun r => ?_
          · cases r with
            | none => cases hentry
            | some c =>
                rw [List.mem_singleton.1 hentry]
                exact hlinked _ _ _ s
          · cases r with
            | some c => trivial
            | none => exact (delivers_silently _).bind hlink

/-- The entries of a call come from it, and the mail for a token is sent in the statement after the
one that stores it. -/
lemma WriterCall.delivers (i : ι) :
    (calls i).recorded.Delivers (Commit.AccountedFor calls) := by
  cases hcall : calls i with
  | registerCustomer email password =>
      refine Delivers.bind ?_ fun _ => delivers_done _
      refine delivers_recording_bind (fun r w entry hentry => Or.inr ?_) fun r => ?_
      · rw [List.mem_singleton.1 hentry]
        exact Next.bind (sendMail_next r.2 r.1.email)
      · exact (delivers_silently _).bind fun _ => delivers_done _
  | loginWithGoogle clientId reply =>
      unfold WriterCall.recorded recordLoginWithGoogle
      dsimp only
      cases hprofile : verifyIdToken clientId reply with
      | error e => trivial
      | ok profile =>
          refine Delivers.bind ?_ fun _ => delivers_done _
          refine (recordGoogleBlock_delivers hcall hprofile).bind fun c => ?_
          exact (delivers_silently _).bind fun _ => delivers_done _
  | consume k rawToken =>
      refine Delivers.bind ?_ fun _ => delivers_done _
      refine (delivers_silently _).bind fun r => (delivers_silently _).bind fun _ => ?_
      refine delivers_recording fun r w entry hentry s => ?_
      rw [List.mem_singleton.1 hentry]
      exact ⟨i, hcall⟩
  | requestPasswordReset email =>
      refine (delivers_silently _).bind fun found => ?_
      cases found with
      | none => trivial
      | some c => exact recordIssue_delivers _ _ _ _ _
  | requestEmailChange customer newEmail =>
      refine (delivers_silently _).bind fun _ => ?_
      exact (delivers_require _ _).bind fun _ => recordIssue_delivers _ _ _ _ _
  | updateLocalePreference customer locale currency =>
      refine Delivers.bind ?_ fun _ => delivers_done _
      refine (delivers_silently _).bind fun _ => ?_
      refine Delivers.bind (delivers_recording fun r w entry hentry s => ?_) fun _ =>
        delivers_done _
      rw [List.mem_singleton.1 hentry]
      trivial
  | disableCustomer actor customerId reason request =>
      refine Delivers.bind ?_ fun _ => delivers_done _
      refine (delivers_require _ _).bind fun _ => ?_
      refine (delivers_silently _).bind fun ⟨confirmed, actor⟩ => ?_
      refine (delivers_require _ _).bind fun _ => (delivers_require _ _).bind fun _ => ?_
      refine (delivers_silently _).bind fun c => ?_
      refine Delivers.bind (delivers_recording fun r w entry hentry s => ?_) fun _ => ?_
      · rw [List.mem_singleton.1 hentry]
        trivial
      · refine (delivers_silently _).bind fun _ => ?_
        exact (delivers_silently _).bind fun _ => delivers_done _

end Accounts

/-! ## Runs -/

section Runs

variable [PyText] {ι : Type} [DecidableEq ι] {w : World} {calls : ι → WriterCall}
  {P : AccountPool ι}

/-- The mail with the token went to the address, unless sending it is the next statement of one of
the calls; no mail with the token went anywhere else. -/
structure MailedOnlyTo (P : AccountPool ι) (rawToken : RawToken) (address : String) : Prop where
  sent : ⟨address, rawToken⟩ ∈ P.store.store.mailbox ∨
    ∃ i, (P.pc i).Next fun s => ⟨address, rawToken⟩ ∈ s.store.mailbox
  only : ∀ m ∈ P.store.store.mailbox, m.token = rawToken → m.recipient = address

lemma accountedFor_of_run (h : AccountRun (accountPool w calls) P) {entry : Commit}
    (hentry : entry ∈ P.store.log) : entry.AccountedFor calls P.store ∨
      ∃ i, (P.pc i).Next (entry.AccountedFor calls) := by
  have hdelivered := h.delivers_of_relies (fun _ _ h => h.follows)
    (fun _ _ h => (moves_of_env h).follows) (fun i => (calls i).relies _)
    (fun i => WriterCall.delivers i) rfl (fun _ _ h _ hentry => hentry.move h)
    fun _ _ h => ⟨h.2, fun _ hentry => hentry.move (moves_of_env h)⟩
  exact hdelivered.2 entry hentry

lemma emailsProven_of_run (hcustomers : ∀ c ∈ w.db.customers.rows, c.emailVerifiedAt = none)
    (htokens : w.db.verificationTokens.rows = []) (hmail : w.mailbox = [])
    (h : AccountRun (accountPool w calls) P) : EmailsProven P.store := by
  have hstart : EmailsProven { store := w } := by
    refine ⟨⟨?_, ?_, ?_, ?_, ?_⟩, fun c hc hverified => ?_, ?_, ?_⟩
    · simp [hmail]
    · simp
    · simp
    · simp [htokens]
    · simp
    · simp [Customer.isEmailVerified, hcustomers c hc] at hverified
    · simp [htokens]
    · simp [htokens]
  exact holds_of_run hstart (fun _ _ hs hmove => hs.move hmove) h

/-- The token of an entry went to its address and nowhere else. -/
lemma mailedOnlyTo_of_run {rawToken : RawToken} {address : String}
    (h : AccountRun (accountPool w calls) P) (haddressed : TokensAddressed P.store)
    (hissued : .issued rawToken address ∈ P.store.log) : MailedOnlyTo P rawToken address where
  sent := accountedFor_of_run h hissued
  only := by
    rintro ⟨recipient, token⟩ hm rfl
    exact haddressed.unique _ _ _ (haddressed.mails _ hm) hissued

/-- Whatever the interleaving, the current email of a verified customer is one that a token was
mailed to, and to no other, which was then presented for this customer; or one that a verified
Google profile has, which was presented to `login_with_google`. -/
theorem verified_proven_of_run
    (hcustomers : ∀ c ∈ w.db.customers.rows, c.emailVerifiedAt = none)
    (htokens : w.db.verificationTokens.rows = []) (hmail : w.mailbox = [])
    (h : AccountRun (accountPool w calls) P) :
    ∀ c ∈ P.store.store.db.customers.rows, c.emailVerifiedAt ≠ none →
      (∃ i k rawToken t now, calls i = .consume k rawToken ∧
        (k = .verifyEmail ∨ k = .confirmEmailChange) ∧
        .consumed k rawToken t now ∈ P.store.log ∧ t.customerId = c.id ∧
        MailedOnlyTo P rawToken c.email) ∨
      ∃ i clientId reply profile verifies now, calls i = .loginWithGoogle clientId reply ∧
        verifyIdToken clientId reply = .ok profile ∧
        .linked profile c.id verifies now ∈ P.store.log ∧
        profile.emailVerified = true ∧ profile.email = c.email := by
  intro c hc hverified
  have hproven := emailsProven_of_run hcustomers htokens hmail h
  obtain ⟨k, rawToken, t, now, hconsumed, hk, hid, hissued⟩ |
    ⟨profile, verifies, now, hlinked, hprofile, hemail⟩ :=
      hproven.verified c hc (Option.isSome_iff_ne_none.2 hverified)
  · have hcall : ∃ i, calls i = .consume k rawToken := by
      obtain hcall | ⟨i, hnext⟩ := accountedFor_of_run h hconsumed
      · exact hcall
      · exact (hnext.exists P.store).choose_spec
    obtain ⟨i, hcall⟩ := hcall
    exact Or.inl ⟨i, k, rawToken, t, now, hcall, hk, hconsumed, hid,
      mailedOnlyTo_of_run h hproven.addressed hissued⟩
  · have hcall : ∃ i clientId reply, calls i = .loginWithGoogle clientId reply ∧
        verifyIdToken clientId reply = .ok profile := by
      obtain hcall | ⟨i, hnext⟩ := accountedFor_of_run h hlinked
      · exact hcall
      · exact (hnext.exists P.store).choose_spec
    obtain ⟨i, clientId, reply, hcall, hreply⟩ := hcall
    exact Or.inr ⟨i, clientId, reply, profile, verifies, now, hcall, hreply, hlinked, hprofile,
      hemail⟩

end Runs

section Example

attribute [local instance] plainText

/-- The registration of a customer, an email change, and the two tokens that are mailed. -/
def registerAndChange : Fin 4 → WriterCall
  | 0 => .registerCustomer "a@example.com" "teapot-on-fire"
  | 1 => .requestEmailChange { id := 0, email := "a@example.com" } "b@example.com"
  | 2 => .consume .confirmEmailChange 1
  | 3 => .consume .verifyEmail 0

/-- The verification of the first address commits after the change to the second one, which is
verified by its own token. -/
theorem verified_proven_registerAndChange : ∃ P : AccountPool (Fin 4),
    P.store.store.db.customers.rows = [{
      id := 0
      email := "b@example.com"
      emailVerifiedAt := some 0 }] ∧
    ∀ c ∈ P.store.store.db.customers.rows, c.emailVerifiedAt ≠ none →
      (∃ i k rawToken t now, registerAndChange i = .consume k rawToken ∧
        (k = .verifyEmail ∨ k = .confirmEmailChange) ∧
        .consumed k rawToken t now ∈ P.store.log ∧ t.customerId = c.id ∧
        MailedOnlyTo P rawToken c.email) ∨
      ∃ i clientId reply profile verifies now,
        registerAndChange i = .loginWithGoogle clientId reply ∧
        verifyIdToken clientId reply = .ok profile ∧
        .linked profile c.id verifies now ∈ P.store.log ∧
        profile.emailVerified = true ∧ profile.email = c.email := by
  have h : (accountSystem.execute (fun _ _ => true) (accountPool {} registerAndChange)
      [0, 0, 1, 1, 1, 1, 3, 2, 2, 2, 3, 3]).map
      (fun P => decide (P.store.store.db.customers.rows = [{
        id := 0
        email := "b@example.com"
        emailVerifiedAt := some 0 }])) = some true := by decide
  obtain ⟨P, hrun, hrows⟩ := System.exists_run_of_execute (fun _ _ _ => trivial) h
  exact ⟨P, of_decide_eq_true hrows,
    verified_proven_of_run (fun c hc => by cases hc) rfl rfl hrun⟩

end Example

end BePyEco
