import BePyEco.Accounts.Customers
import BePyEco.Library.Copies
import BePyEco.Library.Ticket

/-!
# Consuming a verification token under interleaving

The three consumers look a token up, with the filter `consumed_at IS NULL`, before the
transaction that sets `consumed_at`, and the transaction does not look again.  A token is
therefore a ticket of `Library.Ticket`: a call holds it from its lookup to its transaction.

`LookupsUnshared` is the discipline that no lookup finds a token that another call holds.  Under
it at most one call succeeds with a raw token (`consumedOnce_of_lookupsUnshared`), in every
interleaving of any number of calls of the three consumers with anything else that loses no token
and makes none unconsumed.
-/

namespace BePyEco

open Library

/-! ## Versions of a token -/

/-- `t'` is the row `t`, possibly consumed since. -/
def VerificationToken.Later (t t' : VerificationToken) : Prop :=
  t' = t ∨ ∃ at', t' = { t with consumedAt := some at' }

namespace VerificationToken.Later

variable {a b c : VerificationToken}

lemma trans (hab : a.Later b) (hbc : b.Later c) : a.Later c := by
  rcases hab with rfl | ⟨t, rfl⟩
  · exact hbc
  · rcases hbc with rfl | ⟨u, rfl⟩
    · exact Or.inr ⟨t, rfl⟩
    · exact Or.inr ⟨u, rfl⟩

lemma id_eq (h : a.Later b) : b.id = a.id := by
  rcases h with rfl | ⟨t, rfl⟩ <;> rfl

lemma tokenHash_eq (h : a.Later b) : b.tokenHash = a.tokenHash := by
  rcases h with rfl | ⟨t, rfl⟩ <;> rfl

/-- A consumed token stays consumed. -/
lemma consumed (h : a.Later b) (ha : a.consumedAt ≠ none) : b.consumedAt ≠ none := by
  rcases h with rfl | ⟨t, rfl⟩
  · exact ha
  · simp

end VerificationToken.Later

instance : Evolving VerificationToken where
  Later := VerificationToken.Later
  refl _ := Or.inl rfl
  trans := VerificationToken.Later.trans
  pk_eq := VerificationToken.Later.id_eq

/-- No token is lost, and none becomes unconsumed. -/
def KeepsTokens (w w' : World) : Prop := w.db.verificationTokens.Keeps w'.db.verificationTokens

instance : Std.Refl KeepsTokens where
  refl w := Table.Keeps.refl w.db.verificationTokens

instance : IsTrans World KeepsTokens where
  trans _ _ _ := Table.Keeps.trans

lemma keepsTokens_of_eq {w w' : World}
    (h : w'.db.verificationTokens = w.db.verificationTokens) : KeepsTokens w w' := by
  unfold KeepsTokens
  rw [h]
  exact Table.Keeps.refl _

/-! ## Control points -/

/-- A consumer, with the argument that its effect takes. -/
inductive Consumer
  | verifyEmail
  | confirmPasswordReset (newPassword : String)
  | confirmEmailChange
  deriving DecidableEq, Repr

namespace Consumer

def purpose : Consumer → Purpose
  | verifyEmail => .emailVerification
  | confirmPasswordReset _ => .passwordReset
  | confirmEmailChange => .emailChange

def effect : Consumer → VerificationToken → Customer → Statement Customer
  | verifyEmail => markEmailVerified
  | confirmPasswordReset newPassword => resetPassword newPassword
  | confirmEmailChange => changeEmail

/-- The service of a consumer. -/
def service : Consumer → RawToken → Service Customer
  | verifyEmail, rawToken => BePyEco.verifyEmail rawToken
  | confirmPasswordReset newPassword, rawToken =>
    BePyEco.confirmPasswordReset rawToken newPassword
  | confirmEmailChange, rawToken => BePyEco.confirmEmailChange rawToken

lemma service_eq_consumeToken (k : Consumer) (rawToken : RawToken) :
    k.service rawToken = consumeToken k.purpose k.effect rawToken := by
  cases k <;> rfl

end Consumer

/-- Where a call of a consumer stands; `check` and `block` keep what the lookup returned. -/
inductive TokenPc
  | lookup (k : Consumer) (rawToken : RawToken)
  | check (k : Consumer) (rawToken : RawToken) (token : VerificationToken) (customer : Customer)
  | block (k : Consumer) (rawToken : RawToken) (token : VerificationToken) (customer : Customer)
  | succeeded (k : Consumer) (rawToken : RawToken) (token : VerificationToken)
      (result : Customer)
  | failed (e : Raised ApiError)

namespace TokenPc

/-- What is left of a call. -/
def program : TokenPc → Service Customer
  | lookup k rawToken => consumeToken k.purpose k.effect rawToken
  | check k _ token customer => do
    checkTokenExpiry token
    consumeBlock k.effect token customer
  | block k _ token customer => consumeBlock k.effect token customer
  | succeeded _ _ _ result => return result
  | failed e => .done (.error e)

/-- Execute the next statement of a call. -/
def next : TokenPc → World → Option (TokenPc × World)
  | lookup k rawToken, w =>
    Control.advance (lookupToken k.purpose rawToken) (fun r => check k rawToken r.1 r.2) failed w
  | check k rawToken token customer, w =>
    Control.advance (checkTokenExpiry token) (fun _ => block k rawToken token customer) failed w
  | block k rawToken token customer, w =>
    Control.advance (consumeBlock k.effect token customer) (succeeded k rawToken token) failed w
  | succeeded _ _ _ _, _ => none
  | failed _, _ => none

end TokenPc

/-- The control points follow the consumers. -/
def tokenControl : Control World ApiError Customer TokenPc where
  program := TokenPc.program
  next := TokenPc.next
  sound c w := by
    cases c with
    | lookup k rawToken =>
        exact Control.step_eq_advance TokenPc.program _ rfl (fun _ => rfl) (fun _ => rfl) w
    | check k rawToken token customer =>
        exact Control.step_eq_advance TokenPc.program _ rfl (fun _ => rfl) (fun _ => rfl) w
    | block k rawToken token customer =>
        exact Control.step_eq_advance_last TokenPc.program rfl (fun _ => rfl) (fun _ => rfl) w
    | succeeded k rawToken token result => rfl
    | failed e => rfl

/-- Any number of consumer calls, with other calls and changes from outside that lose no token
and make none unconsumed. -/
def tokenSystem : System (TokenPc ⊕ Service Unit) World := tokenControl.system KeepsTokens

/-- A pool of consumer calls. -/
abbrev TokenPool (ι : Type) := Pool ι (TokenPc ⊕ Service Unit) World

/-- No call has executed a statement yet. -/
def TokenCall.NotStarted : TokenPc ⊕ Service Unit → Prop
  | .inl (.lookup _ _) => True
  | .inl _ => False
  | .inr rest => rest.Guarantees KeepsTokens

/-! ## What one step does -/

lemma lookupToken_ok {purpose : Purpose} {rawToken : RawToken} {w w' : World}
    {r : VerificationToken × Customer} (h : (lookupToken purpose rawToken).run w = .ok (r, w')) :
    w' = w ∧ r.1 ∈ w.db.verificationTokens.rows ∧ consumable purpose rawToken r.1 = true := by
  obtain hget | ⟨-, hraise⟩ := Tx.handling_ok h
  · obtain ⟨token, w₁, htoken, hrest⟩ := Tx.bind_ok hget
    obtain ⟨rfl, hrow⟩ := Objects.get_ok htoken
    obtain ⟨customer, w₂, hcustomer, hpure⟩ := Tx.bind_ok hrest
    obtain ⟨rfl, -⟩ := Objects.get_ok hcustomer
    cases hpure
    exact ⟨rfl, Table.mem_of_get hrow, Table.holds_of_get hrow⟩
  · cases hraise

lemma checkTokenExpiry_ok {token : VerificationToken} {w w' : World} {u : Unit}
    (h : (checkTokenExpiry token).run w = .ok (u, w')) : w' = w := by
  obtain ⟨now, w₁, hnow, hrest⟩ := Tx.bind_ok h
  cases hnow
  cases hexpired : !decide (token.expiresAt < w.now) with
  | true =>
      rw [hexpired] at hrest
      cases hrest
      rfl
  | false =>
      rw [hexpired] at hrest
      cases hrest

/-- The effect of a consumer does not touch the tokens. -/
lemma Consumer.effect_guarantees (k : Consumer) (token : VerificationToken)
    (customer : Customer) :
    (k.effect token customer).Guarantees (Same fun w => w.db.verificationTokens) := by
  cases k with
  | verifyEmail =>
      refine Tx.Guarantees.bind (Tx.guarantees_read _) fun _ => ?_
      refine Tx.Guarantees.bind ?_ fun _ => Tx.guarantees_pure _
      exact Objects.guarantees_save fun _ => rfl
  | confirmPasswordReset newPassword =>
      refine Tx.Guarantees.bind ?_ fun _ => Tx.guarantees_pure _
      refine Tx.Guarantees.handling ?_ _ ?_
      · refine Tx.Guarantees.bind (Objects.guarantees_get _) fun _ => ?_
        exact Objects.guarantees_save fun _ => rfl
      · refine Tx.Guarantees.bind ?_ fun _ => Tx.guarantees_pure _
        exact Objects.guarantees_create fun _ _ => rfl
  | confirmEmailChange =>
      refine Tx.Guarantees.bind (Tx.guarantees_read _) fun _ => ?_
      refine Tx.Guarantees.bind ?_ fun _ => Tx.guarantees_pure _
      refine Tx.Guarantees.handling ?_ _ (Tx.guarantees_raise _)
      exact Objects.guarantees_saveChecked fun _ _ => rfl

/-- The tokens after a transaction block: the token is marked, and nothing else is touched. -/
lemma consumeBlock_ok {k : Consumer} {token : VerificationToken} {customer result : Customer}
    {w w' : World} (h : (consumeBlock k.effect token customer).run w = .ok (result, w')) :
    w'.db.verificationTokens = w.db.verificationTokens.update
      (fun t => Model.pk t == token.id) (VerificationToken.setConsumedAt w.now) := by
  obtain ⟨now, w₁, hnow, hrest⟩ := Tx.bind_ok h
  cases hnow
  obtain ⟨u, w₂, hsave, heffect⟩ := Tx.bind_ok hrest
  have hsame : w'.db.verificationTokens = w₂.db.verificationTokens :=
    k.effect_guarantees token customer _ _ _ heffect
  rw [hsame, Objects.save_ok hsave]
  rfl

/-- The steps of a call, with what each reads and changes. -/
inductive TokenStep : TokenPc → World → TokenPc → World → Prop
  | fail (c : TokenPc) (e : Raised ApiError) (w : World) : TokenStep c w (.failed e) w
  | lookup (k : Consumer) {rawToken : RawToken} {token : VerificationToken} (customer : Customer)
      {w : World} (hmem : token ∈ w.db.verificationTokens.rows)
      (hfound : consumable k.purpose rawToken token = true) :
      TokenStep (.lookup k rawToken) w (.check k rawToken token customer) w
  | check (k : Consumer) (rawToken : RawToken) (token : VerificationToken) (customer : Customer)
      (w : World) :
      TokenStep (.check k rawToken token customer) w (.block k rawToken token customer) w
  | block (k : Consumer) (rawToken : RawToken) (token : VerificationToken) (customer : Customer)
      {w w' : World} (result : Customer)
      (h : w'.db.verificationTokens = w.db.verificationTokens.update
        (fun t => Model.pk t == token.id) (VerificationToken.setConsumedAt w.now)) :
      TokenStep (.block k rawToken token customer) w (.succeeded k rawToken token result) w'

lemma tokenStep_of_next {c c' : TokenPc} {w w' : World} (h : c.next w = some (c', w')) :
    TokenStep c w c' w' := by
  cases c with
  | lookup k rawToken =>
      rw [TokenPc.next] at h
      obtain ⟨r, hrun, rfl⟩ | ⟨e, -, rfl, rfl⟩ := Control.advance_cases h
      · obtain ⟨rfl, hmem, hfound⟩ := lookupToken_ok hrun
        exact .lookup k r.2 hmem hfound
      · exact .fail _ e w'
  | check k rawToken token customer =>
      rw [TokenPc.next] at h
      obtain ⟨u, hrun, rfl⟩ | ⟨e, -, rfl, rfl⟩ := Control.advance_cases h
      · rw [checkTokenExpiry_ok hrun]
        exact .check k rawToken token customer w
      · exact .fail _ e w'
  | block k rawToken token customer =>
      rw [TokenPc.next] at h
      obtain ⟨result, hrun, rfl⟩ | ⟨e, -, rfl, rfl⟩ := Control.advance_cases h
      · exact .block k rawToken token customer result (consumeBlock_ok hrun)
      · exact .fail _ e w'
  | succeeded k rawToken token result => cases h
  | failed e => cases h

/-- The two kinds of steps of the system. -/
lemma tokenSystem_next {call call' : TokenPc ⊕ Service Unit} {w w' : World}
    (h : tokenSystem.next call w = some (call', w')) :
    (∃ c c', call = .inl c ∧ call' = .inl c' ∧ TokenStep c w c' w') ∨
      (∃ rest rest', call = .inr rest ∧ call' = .inr rest' ∧ rest.step w = some (rest', w')) := by
  obtain ⟨c, c', rfl, rfl, hnext⟩ | hother := Control.system_next h
  · exact Or.inl ⟨c, c', rfl, rfl, tokenStep_of_next hnext⟩
  · exact Or.inr hother

/-! ## Sound copies -/

/-- The copy of a call is a copy of a stored token with the digest of the raw token. -/
def TokenCall.Sound (w : World) : TokenPc ⊕ Service Unit → Prop
  | .inl (.check _ rawToken token _) =>
    w.db.verificationTokens.HasLater token ∧ token.tokenHash = sha256 rawToken
  | .inl (.block _ rawToken token _) =>
    w.db.verificationTokens.HasLater token ∧ token.tokenHash = sha256 rawToken
  | .inl (.succeeded _ rawToken token _) =>
    w.db.verificationTokens.HasLater token ∧ token.tokenHash = sha256 rawToken
  | .inl _ => True
  | .inr rest => rest.Guarantees KeepsTokens

lemma TokenCall.Sound.mono {w w' : World} {call : TokenPc ⊕ Service Unit}
    (hcall : TokenCall.Sound w call) (h : KeepsTokens w w') :
    TokenCall.Sound w' call := by
  cases call with
  | inl c =>
      cases c with
      | check k rawToken token customer => exact ⟨Table.Keeps.hasLater h hcall.1, hcall.2⟩
      | block k rawToken token customer => exact ⟨Table.Keeps.hasLater h hcall.1, hcall.2⟩
      | succeeded k rawToken token result => exact ⟨Table.Keeps.hasLater h hcall.1, hcall.2⟩
      | _ => trivial
  | inr rest => exact hcall

/-- A step loses no token, and the control point it reaches is sound. -/
lemma TokenStep.sound {c c' : TokenPc} {w w' : World} (h : TokenStep c w c' w')
    (hc : TokenCall.Sound w (.inl c)) : KeepsTokens w w' ∧ TokenCall.Sound w' (.inl c') := by
  cases h with
  | fail c e w => exact ⟨refl_of KeepsTokens w, trivial⟩
  | lookup k customer hmem hfound =>
      simp only [consumable, Bool.and_eq_true, decide_eq_true_eq] at hfound
      exact ⟨refl_of KeepsTokens _, Table.hasLater_of_mem hmem, hfound.1.1⟩
  | check k rawToken token customer w => exact ⟨refl_of KeepsTokens _, hc⟩
  | block k rawToken token customer result htokens =>
      have hkeeps : KeepsTokens w w' := by
        unfold KeepsTokens
        rw [htokens]
        exact Table.Keeps.of_update fun t => Or.inr ⟨w.now, rfl⟩
      exact ⟨hkeeps, Table.Keeps.hasLater hkeeps hc.1, hc.2⟩

lemma TokenCall.Sound.next {call call' : TokenPc ⊕ Service Unit} {w w' : World}
    (hcall : TokenCall.Sound w call) (h : tokenSystem.next call w = some (call', w')) :
    KeepsTokens w w' ∧ TokenCall.Sound w' call' := by
  obtain ⟨c, c', rfl, rfl, hstep⟩ | ⟨rest, rest', rfl, rfl, hstep⟩ := tokenSystem_next h
  · exact hstep.sound hcall
  · exact Program.Guarantees.step hcall hstep

lemma TokenCall.NotStarted.sound {call : TokenPc ⊕ Service Unit} (h : TokenCall.NotStarted call)
    (w : World) : TokenCall.Sound w call := by
  cases call with
  | inl c =>
      cases c with
      | lookup k rawToken => trivial
      | _ => cases h
  | inr rest => exact h

lemma tokens_relyGuarantee : tokenSystem.RelyGuarantee KeepsTokens TokenCall.Sound where
  stable hcall hkeeps := hcall.mono hkeeps
  guarantee hcall hnext := hcall.next hnext
  rely henv := henv

variable {ι : Type}

/-- Along every run, every call is sound. -/
theorem TokenCall.sound_of_run [DecidableEq ι] {ok : TokenPool ι → ι → Prop}
    {P₀ P : TokenPool ι} (hstart : ∀ i, TokenCall.NotStarted (P₀.pc i))
    (hrun : tokenSystem.Run ok P₀ P) : ∀ i, TokenCall.Sound P.store (P.pc i) :=
  tokens_relyGuarantee.knows (fun i => (hstart i).sound P₀.store) hrun

/-! ## Tokens as tickets -/

/-- The call has looked the token up and has not executed its transaction yet. -/
def holdsToken (tokenId : Id) : TokenPc ⊕ Service Unit → Bool
  | .inl (.check _ _ token _) => decide (token.id = tokenId)
  | .inl (.block _ _ token _) => decide (token.id = tokenId)
  | _ => false

/-- The discipline: a lookup does not find a token that another call holds. -/
def LookupsUnshared (P : TokenPool ι) (i : ι) : Prop :=
  ∀ k rawToken, P.pc i = .inl (.lookup k rawToken) → ∀ token ∈ P.store.db.verificationTokens.rows,
    consumable k.purpose rawToken token = true → ∀ j, holdsToken token.id (P.pc j) = false

/-- The phase of a call in the ticket protocol. -/
def TokenCall.phase : TokenPc ⊕ Service Unit → Ticket.Phase Id
  | .inl (.lookup _ _) => .idle
  | .inl (.check _ _ token _) => .holding token.id
  | .inl (.block _ _ token _) => .holding token.id
  | .inl (.succeeded _ _ token _) => .spent token.id
  | .inl (.failed _) => .gone
  | .inr _ => .gone

lemma holdsToken_of_phase {call : TokenPc ⊕ Service Unit} {tokenId : Id}
    (h : TokenCall.phase call = .holding tokenId) : holdsToken tokenId call = true := by
  cases call with
  | inl c =>
      cases c with
      | check k rawToken token customer =>
          cases h
          exact decide_eq_true rfl
      | block k rawToken token customer =>
          cases h
          exact decide_eq_true rfl
      | _ => cases h
  | inr rest => cases h

/-- The row of a token is consumed. -/
def IsConsumed (w : World) (tokenId : Id) : Prop :=
  ∃ t ∈ w.db.verificationTokens.rows, t.id = tokenId ∧ t.consumedAt ≠ none

lemma IsConsumed.mono {w w' : World} (h : KeepsTokens w w') {tokenId : Id}
    (hconsumed : IsConsumed w tokenId) : IsConsumed w' tokenId := by
  obtain ⟨t, hmem, hid, ht⟩ := hconsumed
  obtain ⟨t', hmem', hlater⟩ := h t hmem
  exact ⟨t', hmem', (VerificationToken.Later.id_eq hlater).trans hid,
    VerificationToken.Later.consumed hlater ht⟩

lemma not_isConsumed {w : World} {t : VerificationToken}
    (hmem : t ∈ w.db.verificationTokens.rows) (ht : t.consumedAt = none) :
    ¬ IsConsumed w t.id := by
  rintro ⟨r, hr, hid, hconsumed⟩
  have heq : r = t := w.db.verificationTokens.eq_of_pk hr hmem hid
  rw [heq] at hconsumed
  exact hconsumed ht

/-- Under the discipline the tokens are an implementation of the ticket protocol. -/
theorem tokens_implement_tickets [DecidableEq ι] :
    Ticket.Implements tokenSystem (LookupsUnshared : TokenPool ι → ι → Prop)
      (fun P => ∀ i, TokenCall.Sound P.store (P.pc i)) TokenCall.phase IsConsumed where
  call P i call' w' hsound hok hnext := by
    have hkeeps := ((hsound i).next hnext).1
    have hmono : ∀ k, IsConsumed P.store k → IsConsumed w' k := fun _ hk => hk.mono hkeeps
    obtain ⟨c, c', hpc, rfl, hstep⟩ | ⟨rest, rest', hpc, rfl, hstep⟩ := tokenSystem_next hnext
    · have hphase : (TokenCall.phase ∘ P.pc) i = TokenCall.phase (.inl c) := by
        rw [Function.comp_apply, hpc]
      have hc := hsound i
      rw [hpc] at hc
      cases hstep with
      | fail c e w => exact .leave i
      | @lookup k rawToken token customer w hmem hfound =>
          -- the only place where a ticket is taken, and where the discipline is needed
          have hunused : token.consumedAt = none := by
            simp only [consumable, Bool.and_eq_true, decide_eq_true_eq] at hfound
            exact hfound.2
          refine .take i token.id hphase (not_isConsumed hmem hunused) fun j hj => ?_
          have hheld := holdsToken_of_phase hj
          rw [hok k rawToken hpc token hmem hfound j] at hheld
          cases hheld
      | check k rawToken token customer w => exact .stay hphase hmono
      | block k rawToken token customer result htokens =>
          refine .spend i token.id hphase hmono ?_
          obtain ⟨t, ht, hlater⟩ := hc.1
          have hid : t.id = token.id := VerificationToken.Later.id_eq hlater
          refine ⟨(VerificationToken.setConsumedAt P.store.now).apply t, ?_, hid,
            by simp [VerificationToken.setConsumedAt]⟩
          rw [htokens]
          exact (Table.mem_update _).2 ⟨t, ht, Assignment.on_pos _ (beq_iff_eq.2 hid)⟩
    · refine .stay ?_ hmono
      rw [Function.comp_apply, hpc]
      rfl
  env P w' _ henv := fun _ hk => hk.mono henv

/-! ## One success for each raw token -/

/-- At most one call has succeeded with each raw token, whatever the consumers and their
arguments. -/
def ConsumedOnce (P : TokenPool ι) : Prop :=
  ∀ i j k k' rawToken t t' result result', P.pc i = .inl (.succeeded k rawToken t result) →
    P.pc j = .inl (.succeeded k' rawToken t' result') → i = j

/-- Two copies of tokens with one digest are copies of the same token. -/
lemma VerificationToken.id_eq_of_copies {w : World} {t t' : VerificationToken}
    (ht : w.db.verificationTokens.HasLater t) (ht' : w.db.verificationTokens.HasLater t')
    (h : t.tokenHash = t'.tokenHash) : t.id = t'.id := by
  obtain ⟨r, hr, hlater⟩ := ht
  obtain ⟨r', hr', hlater'⟩ := ht'
  have hhash : r.tokenHash = r'.tokenHash := by
    rw [VerificationToken.Later.tokenHash_eq hlater, VerificationToken.Later.tokenHash_eq hlater',
      h]
  have heq : r = r' := w.db.verificationTokens.eq_of_conflicts hr hr' (decide_eq_true hhash)
  rw [← VerificationToken.Later.id_eq hlater, ← VerificationToken.Later.id_eq hlater', heq]

/-- In every interleaving of consumers in which no lookup finds a token that another call has
looked up and not consumed yet, at most one call succeeds with each raw token. -/
theorem consumedOnce_of_lookupsUnshared [DecidableEq ι] {P₀ P : TokenPool ι}
    (hstart : ∀ i, TokenCall.NotStarted (P₀.pc i)) (hrun : tokenSystem.Run LookupsUnshared P₀ P) :
    ConsumedOnce P := by
  have hphase : ∀ i, TokenCall.phase (P₀.pc i) = .idle ∨ TokenCall.phase (P₀.pc i) = .gone := by
    intro i
    have hi := hstart i
    cases hcall : P₀.pc i with
    | inl c =>
        rw [hcall] at hi
        cases c with
        | lookup k rawToken => exact Or.inl rfl
        | _ => cases hi
    | inr rest => exact Or.inr rfl
  have hexcl := tokens_implement_tickets.exclusive
    (fun P hrun => TokenCall.sound_of_run hstart hrun) hphase hrun
  have hsound := TokenCall.sound_of_run hstart hrun
  intro i j k k' rawToken t t' result result' hi hj
  have hti := hsound i
  have htj := hsound j
  rw [hi] at hti
  rw [hj] at htj
  have hid : t.id = t'.id :=
    VerificationToken.id_eq_of_copies hti.1 htj.1 (hti.2.trans htj.2.symm)
  refine hexcl.one_spender i j t.id ?_ ?_
  · rw [Function.comp_apply, hi]
    rfl
  · rw [Function.comp_apply, hj, hid]
    rfl

/-- The call succeeded with the raw token. -/
def consumedWith (rawToken : RawToken) : TokenPc ⊕ Service Unit → Bool
  | .inl (.succeeded _ rawToken' _ _) => decide (rawToken' = rawToken)
  | _ => false

lemma exists_succeeded {rawToken : RawToken} {call : TokenPc ⊕ Service Unit}
    (h : consumedWith rawToken call = true) :
    ∃ k token result, call = .inl (.succeeded k rawToken token result) := by
  cases call with
  | inl c =>
      cases c with
      | succeeded k rawToken' token result =>
          rw [← of_decide_eq_true h]
          exact ⟨k, token, result, rfl⟩
      | _ => cases h
  | inr rest => cases h

/-- A new customer asks for a password reset. -/
def firstReset : Service RawToken := do
  let customer ← insertCustomer "a@example.com"
  issueVerificationToken customer.id .passwordReset "" passwordResetTokenTtl

/-- Two password resets with the mailed token, to two passwords. -/
def twoResets : TokenPool (Fin 2) where
  store := (firstReset.run {}).2
  pc i := .inl (.lookup (.confirmPasswordReset (if i.val = 0 then "first" else "second")) 0)

lemma notStarted_twoResets (i : Fin 2) : TokenCall.NotStarted (twoResets.pc i) := trivial

/-- The check of a step that `LookupsUnshared` asks for, on a pool of two calls. -/
def checkTokenLookup (P : TokenPool (Fin 2)) (i : Fin 2) : Bool :=
  match P.pc i with
  | .inl (.lookup k rawToken) => decide (∀ token ∈ P.store.db.verificationTokens.rows,
      consumable k.purpose rawToken token = true → ∀ j, holdsToken token.id (P.pc j) = false)
  | _ => true

lemma lookupsUnshared_of_check {P : TokenPool (Fin 2)} {i : Fin 2}
    (h : checkTokenLookup P i = true) : LookupsUnshared P i := by
  intro k rawToken hpc
  rw [checkTokenLookup, hpc] at h
  exact of_decide_eq_true h

/-- One reset after the other: the first succeeds, the second does not find the token. -/
theorem consumedOnce_of_sequential_resets :
    ∃ P, tokenSystem.Run LookupsUnshared twoResets P ∧
      (consumedWith 0 (P.pc 0) && !consumedWith 0 (P.pc 1)) = true ∧ ConsumedOnce P := by
  have h : (tokenSystem.execute checkTokenLookup twoResets [0, 0, 0, 1]).map
      (fun P => consumedWith 0 (P.pc 0) && !consumedWith 0 (P.pc 1)) = some true := by decide
  obtain ⟨P, hrun, hp⟩ := System.exists_run_of_execute (fun _ _ => lookupsUnshared_of_check) h
  exact ⟨P, hrun, hp, consumedOnce_of_lookupsUnshared notStarted_twoResets hrun⟩

/-- Two password resets that interleave both succeed with one token. -/
theorem not_consumedOnce :
    ¬ ∀ P₀ P : TokenPool (Fin 2), (∀ i, TokenCall.NotStarted (P₀.pc i)) →
      tokenSystem.Run (fun _ _ => True) P₀ P → ConsumedOnce P := by
  intro hclaim
  have h : (tokenSystem.execute (fun _ _ => true) twoResets [0, 1, 0, 1, 0, 1]).map
      (fun P => consumedWith 0 (P.pc 0) && consumedWith 0 (P.pc 1)) = some true := by decide
  obtain ⟨P, hrun, hp⟩ := System.exists_run_of_execute (fun _ _ _ => trivial) h
  obtain ⟨hfirst, hsecond⟩ := Bool.and_eq_true_iff.1 hp
  obtain ⟨k, token, result, h₀⟩ := exists_succeeded hfirst
  obtain ⟨k', token', result', h₁⟩ := exists_succeeded hsecond
  have heq : (0 : Fin 2) = 1 :=
    hclaim twoResets P notStarted_twoResets hrun 0 1 _ _ _ _ _ _ _ h₀ h₁
  exact absurd heq (by decide)

end BePyEco
