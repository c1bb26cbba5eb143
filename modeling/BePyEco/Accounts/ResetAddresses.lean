import BePyEco.Accounts.ExactTokens

/-!
# Where password resets were mailed to

A reset token is mailed to the address that its customer has at the request, and does not record
it; a confirmed email change does not look at the tokens that are outstanding.

As long as no email change moves a customer who has an outstanding reset token, every confirmed
reset presents a token that was mailed to the current address of its customer
(`resetsProveAddress_of_trace`).
-/

namespace BePyEco

open Library Library.Program

/-- A call has mailed the raw token to the address. -/
def MailedTo (log : List CustomerEvent) (address : String) (rawToken : RawToken) : Prop :=
  ∃ e ∈ log, e.after.mailbox = ⟨address, rawToken⟩ :: e.before.mailbox

/-- Every successful confirmation of a reset presents a token that was mailed to the email that its
customer has at that moment. -/
def ResetsProveAddress (log : List CustomerEvent) : Prop :=
  ∀ log₁ e log₀ rawToken newPassword customer, log = log₁ ++ e :: log₀ →
    e.call = .confirmPasswordReset rawToken newPassword → e.result = .ok (some customer) →
    ∃ c ∈ e.before.db.customers.rows, c.id = customer.id ∧ MailedTo log₀ c.email rawToken

/-- The customer has a reset token that is neither consumed nor expired. -/
def HasOutstandingReset (w : World) (customerId : Id) : Prop :=
  ∃ t ∈ w.db.verificationTokens.rows, t.customerId = customerId ∧ t.purpose = .passwordReset ∧
    t.consumedAt = none ∧ w.now ≤ t.expiresAt

/-- The call does not move a customer who has an outstanding reset token to another email. -/
def MovesNoReset (w : World) : CustomerCall → Prop
  | .confirmEmailChange rawToken => ∀ t, Consumer.confirmEmailChange.Accepts rawToken w t →
    ∀ c ∈ w.db.customers.rows, c.id = t.customerId → c.email ≠ t.newEmail →
      ¬ HasOutstandingReset w c.id
  | _ => True

/-! ## The invariant -/

/-- Every outstanding reset token was mailed to the current email of its customer. -/
def ResetsMailed (log : List CustomerEvent) (w : World) : Prop :=
  ∀ t ∈ w.db.verificationTokens.rows, t.purpose = .passwordReset → t.consumedAt = none →
    w.now ≤ t.expiresAt →
      ∃ c ∈ w.db.customers.rows, c.id = t.customerId ∧ MailedTo log c.email t.tokenHash.preimage

section Invariant

variable {log : List CustomerEvent} {e : CustomerEvent}

lemma MailedTo.older {address : String} {rawToken : RawToken} (h : MailedTo log address rawToken)
    (e : CustomerEvent) : MailedTo (e :: log) address rawToken := by
  obtain ⟨e', he', hmail⟩ := h
  exact ⟨e', List.mem_cons_of_mem e he', hmail⟩

/-- Every customer has the email that it had. -/
def KeepsEmails (w w' : World) : Prop :=
  ∀ c ∈ w.db.customers.rows, ∃ c' ∈ w'.db.customers.rows, c'.id = c.id ∧ c'.email = c.email

/-- A token after an event was there before, possibly unconsumed, or is no reset, or is a reset
that the event has mailed to the email of its customer. -/
def ResetsFrom (e : CustomerEvent) : Prop :=
  ∀ t ∈ e.after.db.verificationTokens.rows, t.purpose = .passwordReset → t.consumedAt = none →
    t ∈ e.before.db.verificationTokens.rows ∨
      ∃ c ∈ e.after.db.customers.rows, c.id = t.customerId ∧
        e.after.mailbox = ⟨c.email, t.tokenHash.preimage⟩ :: e.before.mailbox

/-- An event that moves no customer. -/
lemma ResetsMailed.keep (h : ResetsMailed log e.before) (htokens : ResetsFrom e)
    (hemails : KeepsEmails e.before e.after) (hnow : e.after.now = e.before.now) :
    ResetsMailed (e :: log) e.after := by
  intro t ht hpurpose hnone halive
  rw [hnow] at halive
  obtain hold | ⟨c, hc, hid, hmail⟩ := htokens t ht hpurpose hnone
  · obtain ⟨c, hc, hid, hmailed⟩ := h t hold hpurpose hnone halive
    obtain ⟨c', hc', hid', hemail⟩ := hemails c hc
    refine ⟨c', hc', hid'.trans hid, ?_⟩
    rw [hemail]
    exact hmailed.older e
  · exact ⟨c, hc, hid, e, List.mem_cons_self, hmail⟩

lemma keepsEmails_of_rewritten {w w' : World} {p : Customer → Bool} {f : Customer → Customer}
    (h : w'.db.customers.rows = w.db.customers.rewritten p f)
    (hf : ∀ c, (f c).id = c.id ∧ (f c).email = c.email) : KeepsEmails w w' := by
  intro c hc
  refine ⟨if p c then f c else c, ?_, ?_⟩
  · rw [h]
    exact (Table.mem_rewritten _).2 ⟨c, hc, rfl⟩
  · split
    · exact hf c
    · exact ⟨rfl, rfl⟩

lemma keepsEmails_of_subset {w w' : World}
    (h : ∀ c ∈ w.db.customers.rows, c ∈ w'.db.customers.rows) : KeepsEmails w w' :=
  fun c hc => ⟨c, h c hc, rfl, rfl⟩

lemma resetsFrom_of_eq (h : e.after.db.verificationTokens = e.before.db.verificationTokens) :
    ResetsFrom e := by
  intro t ht _ _
  rw [h] at ht
  exact Or.inl ht

/-- A token that is not consumed after a success was there before. -/
lemma mem_of_completes {k : Consumer} {t t' : VerificationToken} {w w' : World}
    (h : k.Completes t w w') (ht' : t' ∈ w'.db.verificationTokens.rows)
    (hnone : t'.consumedAt = none) : t' ∈ w.db.verificationTokens.rows := by
  rw [h.tokens] at ht'
  obtain ⟨s, hs, rfl⟩ := (Table.mem_rewritten _).1 ht'
  by_cases hid : (s.id == t.id) = true
  · rw [if_pos hid] at hnone
    cases hnone
  · rw [if_neg hid]
    exact hs

/-- An event that moves a customer, but none who has an outstanding reset token. -/
lemma ResetsMailed.move {t : VerificationToken} (h : ResetsMailed log e.before)
    (hcompletes : Consumer.confirmEmailChange.Completes t e.before e.after)
    (hmoves : ∀ c ∈ e.before.db.customers.rows, c.id = t.customerId → c.email ≠ t.newEmail →
      ¬ HasOutstandingReset e.before c.id) : ResetsMailed (e :: log) e.after := by
  intro t' ht' hpurpose hnone halive
  have hnow : e.after.now = e.before.now := by rw [hcompletes.frame]
  rw [hnow] at halive
  have hold := mem_of_completes hcompletes ht' hnone
  obtain ⟨c, hc, hid, hmailed⟩ := h t' hold hpurpose hnone halive
  have hrows := hcompletes.changes.1
  by_cases howner : c.id = t.customerId
  · have hemail : c.email = t.newEmail := by
      by_contra hne
      exact hmoves c hc howner hne ⟨t', hold, hid.symm, hpurpose, hnone, halive⟩
    refine ⟨{ c with email := t.newEmail, emailVerifiedAt := some e.before.now }, ?_, hid, ?_⟩
    · rw [hrows]
      exact (Table.mem_rewritten _).2 ⟨c, hc, if_pos (beq_iff_eq.2 howner)⟩
    · rw [← hemail]
      exact hmailed.older e
  · refine ⟨c, ?_, hid, hmailed.older e⟩
    rw [hrows]
    exact (Table.mem_rewritten _).2 ⟨c, hc, if_neg fun hbeq => howner (beq_iff_eq.1 hbeq)⟩

/-- The tokens and the one that an event has added. -/
lemma resetsFrom_of_append {t : VerificationToken}
    (h : e.after.db.verificationTokens.rows = e.before.db.verificationTokens.rows ++ [t])
    (ht : t.purpose = .passwordReset → ∃ c ∈ e.after.db.customers.rows, c.id = t.customerId ∧
      e.after.mailbox = ⟨c.email, t.tokenHash.preimage⟩ :: e.before.mailbox) : ResetsFrom e := by
  intro t' ht' hpurpose _
  rw [h, List.mem_append, List.mem_singleton] at ht'
  obtain hold | rfl := ht'
  · exact Or.inl hold
  · exact Or.inr (ht hpurpose)

lemma Linked.keepsEmails {profile : GoogleProfile} {customerId : Id} {w w' : World}
    (h : Linked profile customerId w w') : KeepsEmails w w' := by
  obtain ⟨c, -, hexisting⟩ | ⟨-, hnew⟩ := h.customer
  · obtain ⟨-, hsame⟩ | ⟨-, hrows⟩ := hexisting.customers
    · exact keepsEmails_of_subset fun c hc => by rwa [hsame]
    · exact keepsEmails_of_rewritten hrows fun _ => ⟨rfl, rfl⟩
  · exact keepsEmails_of_subset fun c hc => by simp [hnew.customers, hc]

/-- One call that moves no customer with an outstanding reset token. -/
lemma ResetsMailed.step [PyText] (h : ResetsMailed log e.before)
    (hstep : CustomerStep e.before e.call e.result e.after)
    (hmoves : MovesNoReset e.before e.call) :
    ResetsMailed (e :: log) e.after := by
  obtain ⟨call, w, r, w'⟩ := e
  dsimp only at hstep
  cases hstep with
  | unmoved hunmoved hraised =>
      refine h.keep (resetsFrom_of_eq hunmoved.tokens) (keepsEmails_of_subset fun c hc => ?_)
        hunmoved.clock
      simpa [hunmoved.customers] using hc
  | @registered email password c _ hregistered =>
      refine h.keep (resetsFrom_of_append hregistered.tokens nofun)
        (keepsEmails_of_subset fun c hc => ?_) (by rw [hregistered.frame])
      simp only [hregistered.customers, List.mem_append, hc, true_or]
  | @resetRequested email c _ hc hissued =>
      have hcustomers : w'.db.customers = w.db.customers := by rw [hissued.frame]
      have hnew : c ∈ w'.db.customers.rows := by rwa [hcustomers]
      refine h.keep (resetsFrom_of_append hissued.rows fun _ => ⟨c, hnew, rfl, hissued.mail⟩)
        (keepsEmails_of_subset fun c hc => ?_) (by rw [hissued.frame])
      simpa [hcustomers] using hc
  | @changeRequested customer newEmail _ hissued =>
      have hcustomers : w'.db.customers = w.db.customers := by rw [hissued.frame]
      refine h.keep (resetsFrom_of_append hissued.rows nofun)
        (keepsEmails_of_subset fun c hc => ?_) (by rw [hissued.frame])
      simpa [hcustomers] using hc
  | @consumed k rawToken t c _ haccepts hid hcompletes =>
      have hfrom : ResetsFrom ⟨.ofConsumer rawToken k, w, .ok (some c), w'⟩ :=
        fun t' ht' _ hnone => Or.inl (mem_of_completes hcompletes ht' hnone)
      have hnow : w'.now = w.now := by rw [hcompletes.frame]
      cases k with
      | verifyEmail =>
          exact h.keep hfrom (keepsEmails_of_rewritten hcompletes.changes.1 fun _ => ⟨rfl, rfl⟩)
            hnow
      | confirmPasswordReset newPassword =>
          refine h.keep hfrom (keepsEmails_of_subset fun c hc => ?_) hnow
          simpa [hcompletes.changes.1] using hc
      | confirmEmailChange => exact h.move hcompletes (hmoves t haccepts)
  | @linked clientId reply profile customerId w₁ _ _ hprofile hlinked hrest =>
      have htokens : w₁.db.verificationTokens = w.db.verificationTokens := by rw [hlinked.frame]
      have hnow : w₁.now = w.now := by rw [hlinked.frame]
      refine h.keep (resetsFrom_of_eq (hrest.tokens.trans htokens)) (fun c hc => ?_)
        (hrest.clock.trans hnow)
      obtain ⟨c', hc', hsame⟩ := hlinked.keepsEmails c hc
      refine ⟨c', ?_, hsame⟩
      simpa [hrest.customers] using hc'

end Invariant

/-! ## Traces -/

section Traces

variable [PyText] {w₀ w : World} {log : List CustomerEvent}

/-- The calls use instances of stored customers and move none who has an outstanding reset
token. -/
def ResetsSettled (log : List CustomerEvent) (w : World) (call : CustomerCall) : Prop :=
  UseStored log w call ∧ MovesNoReset w call

lemma resetsMailed_of_trace (hstart : w₀.db.verificationTokens.rows = [])
    (h : CustomerTrace ResetsSettled w₀ log w) : ResetsMailed log w := by
  induction h with
  | refl => simp [ResetsMailed, hstart]
  | call c hearlier hok ih =>
      have htraced := tokensTraced_of_trace hstart (hearlier.mono fun _ _ _ hok => hok.1)
      exact ih.step (customerStep htraced.owned c) hok.2
  | env _ hmove ih =>
      obtain ⟨t, rfl⟩ := hmove
      intro t' ht' hpurpose hnone halive
      exact ih t' ht' hpurpose hnone (le_trans (Nat.le_add_right _ t) halive)

/-- In a run that moves no customer with an outstanding reset token, every confirmed reset presents
a token that was mailed to the current email of its customer. -/
theorem resetsProveAddress_of_trace (hstart : w₀.db.verificationTokens.rows = [])
    (h : CustomerTrace ResetsSettled w₀ log w) : ResetsProveAddress log := by
  intro log₁ e log₀ rawToken newPassword customer hlog hcall hresult
  obtain ⟨hearlier, -, he⟩ := h.earlier hlog
  have hmailed := resetsMailed_of_trace hstart hearlier
  have htraced : TokensTraced log₀ e.before :=
    tokensTraced_of_trace hstart (hearlier.mono fun _ _ _ hok => hok.1)
  have hpresents : e.call.presents = some (.confirmPasswordReset newPassword, rawToken) := by
    rw [hcall]
    rfl
  have hexact := htraced.consumesExactly he hpresents
  obtain ⟨t, c, husable, hc, hid, -⟩ := hexact.completes _ hresult
  cases hc
  -- what was usable is stored, alive and unconsumed
  have haccepts := htraced.usable_iff_accepts.1 husable
  obtain ⟨hhash, hpurpose, hnone⟩ := consumable_iff.1 haccepts.consumable
  obtain ⟨c', hc', hid', hmail⟩ := hmailed t haccepts.stored hpurpose hnone haccepts.alive
  refine ⟨c', hc', hid'.trans hid.symm, ?_⟩
  rwa [hhash] at hmail

end Traces

section Example

attribute [local instance] plainText

/-- The reset of a run without an email change presents a token mailed to the current address. -/
theorem resetsProveAddress_resetRun : ResetsProveAddress resetRun.1 := by
  have htrace : CustomerTrace ResetsSettled {} resetRun.1 resetRun.2 :=
    Trace.execute_of_allowed .refl
      ⟨⟨trivial, trivial⟩, ⟨trivial, trivial⟩, ⟨trivial, trivial⟩, trivial⟩
  exact resetsProveAddress_of_trace rfl htrace

/-- A registered customer whose email is not verified. -/
def registrant : Customer := { id := 0, email := "a@example.com" }

/-- The customer moves from one address to another between a reset request and its confirmation. -/
def movedRun : List CustomerEvent × World :=
  Trace.execute CustomerCall.service [.registerCustomer "a@example.com" "old",
    .requestPasswordReset "a@example.com", .requestEmailChange registrant "b@example.com",
    .confirmEmailChange 2, .confirmPasswordReset 1 "new"] ([], {})

/-- The token that was mailed to the old address still sets the password. -/
theorem not_resetsProveAddress :
    CustomerTrace UseStored {} movedRun.1 movedRun.2 ∧ ¬ ResetsProveAddress movedRun.1 := by
  constructor
  · refine Trace.execute_of_allowed .refl ⟨trivial, trivial, ?_, trivial, trivial, trivial⟩
    exact ⟨registrant, by decide, rfl⟩
  · intro hproves
    have hmoved : ∀ e ∈ movedRun.1.head?, ∀ c ∈ e.before.db.customers.rows,
        c.email = "b@example.com" := by decide
    have hmails : ∀ e ∈ movedRun.1.tail,
        e.after.mailbox ≠ ⟨"b@example.com", 1⟩ :: e.before.mailbox := by decide
    obtain ⟨c, hc, -, e, he, hmail⟩ := hproves [] _ movedRun.1.tail 1 "new" _ rfl rfl rfl
    rw [hmoved _ rfl c hc] at hmail
    exact hmails e he hmail

end Example

end BePyEco
