import BePyEco.Accounts.CustomerCalls

/-!
# The token mechanism, exactly

Registration, password reset and email change share one table of tokens.  Along every trace of
their calls a consumer succeeds exactly when its raw token was issued by a request of the same
purpose, was not consumed by an earlier success, has not expired and, for an email change, no other
customer holds the new email (`exact_of_trace`).

The log of the trace is the only record of what was issued and consumed; `TokensTraced` ties the
stored rows to it.
-/

namespace BePyEco

open Library Library.Program

/-! ## Issued and consumed -/

/-- The event is a request that stored the token and mailed its raw value. -/
structure Issues (e : CustomerEvent) (rawToken : RawToken) (t : VerificationToken) : Prop where
  call : e.call.requests = some t.purpose
  stored : e.after.db.verificationTokens.rows = e.before.db.verificationTokens.rows ++ [t]
  hash : t.tokenHash = sha256 rawToken
  mailed : ∃ recipient, e.after.mailbox = ⟨recipient, rawToken⟩ :: e.before.mailbox

/-- An earlier call of a consumer has succeeded with the raw token. -/
def Consumed (log : List CustomerEvent) (rawToken : RawToken) : Prop :=
  ∃ e ∈ log, ∃ k r, e.call.presents = some (k, rawToken) ∧ e.result = .ok r

/-- What a consumer needs, in terms of the calls so far: `t` is the token that was issued. -/
structure Usable (log : List CustomerEvent) (w : World) (k : Consumer) (rawToken : RawToken)
    (t : VerificationToken) : Prop where
  issued : ∃ e ∈ log, Issues e rawToken t
  purpose : t.purpose = k.purpose
  unconsumed : ¬ Consumed log rawToken
  alive : w.now ≤ t.expiresAt
  free : k = .confirmEmailChange → EmailFree w t

/-- A call of a consumer after the calls of `log`: it succeeds exactly for a usable token, it then
consumes this token and sets the columns of its customer, and otherwise it changes nothing and
leaves every token usable. -/
structure ConsumesExactly (log : List CustomerEvent) (e : CustomerEvent) (k : Consumer)
    (rawToken : RawToken) : Prop where
  succeeds_iff : (∃ r, e.result = .ok r) ↔ ∃ t, Usable log e.before k rawToken t
  completes : ∀ r, e.result = .ok r → ∃ t c, Usable log e.before k rawToken t ∧ r = some c ∧
    c.id = t.customerId ∧ k.Completes t e.before e.after
  unchanged : ∀ raised, e.result = .error raised → e.after = e.before ∧
    ∀ k' rawToken' t, Usable log e.before k' rawToken' t →
      Usable (e :: log) e.after k' rawToken' t

/-! ## The invariant -/

/-- The rows of the tokens against the calls so far: every row was issued, and is consumed when its
raw token is; no issued token is lost; raw tokens to come are not in use. -/
structure TokensTraced (log : List CustomerEvent) (w : World) : Prop where
  stored : ∀ t ∈ w.db.verificationTokens.rows, ∃ e ∈ log, ∃ rawToken t₀,
    Issues e rawToken t₀ ∧ t₀.Later t ∧ (t.consumedAt = none ↔ ¬ Consumed log rawToken)
  kept : ∀ e ∈ log, ∀ rawToken t₀, Issues e rawToken t₀ →
    ∃ t ∈ w.db.verificationTokens.rows, t₀.Later t
  drawn : ∀ t ∈ w.db.verificationTokens.rows, t.tokenHash.preimage < w.entropy
  known : ∀ rawToken, Consumed log rawToken →
    ∃ t ∈ w.db.verificationTokens.rows, t.tokenHash = sha256 rawToken
  owned : TokenCustomersStored w

section Invariant

variable {log : List CustomerEvent} {w w' : World} {e : CustomerEvent} {k : Consumer}
  {rawToken : RawToken} {t : VerificationToken}

lemma VerificationToken.Later.eq_of_unconsumed {t' : VerificationToken} (h : t.Later t')
    (hnone : t'.consumedAt = none) : t' = t := by
  obtain rfl | ⟨at', rfl⟩ := h
  · rfl
  · cases hnone

/-- What the log says of a token is what its row says. -/
lemma TokensTraced.usable_iff_accepts (h : TokensTraced log w) :
    Usable log w k rawToken t ↔ k.Accepts rawToken w t := by
  constructor
  · intro husable
    obtain ⟨e, he, hissues⟩ := husable.issued
    obtain ⟨t', ht', hlater⟩ := h.kept e he rawToken t hissues
    obtain ⟨e', he', rawToken', t₀, hissues', hlater', hconsumed⟩ := h.stored t' ht'
    have hhash : rawToken' = rawToken := by
      apply sha256_injective
      rw [← hissues'.hash, ← hlater'.tokenHash_eq, hlater.tokenHash_eq, hissues.hash]
    rw [hhash] at hconsumed
    have hnone := hconsumed.2 husable.unconsumed
    rw [hlater.eq_of_unconsumed hnone] at ht' hnone
    exact ⟨ht', consumable_iff.2 ⟨hissues.hash, husable.purpose, hnone⟩, husable.alive,
      husable.free⟩
  · intro haccepts
    obtain ⟨hhash, hpurpose, hnone⟩ := consumable_iff.1 haccepts.consumable
    obtain ⟨e, he, rawToken', t₀, hissues, hlater, hconsumed⟩ := h.stored t haccepts.stored
    have heq : rawToken' = rawToken := by
      apply sha256_injective
      rw [← hissues.hash, ← hlater.tokenHash_eq, hhash]
    have htoken := hlater.eq_of_unconsumed hnone
    rw [heq] at hissues hconsumed
    rw [← htoken] at hissues
    exact ⟨⟨e, he, hissues⟩, hpurpose, hconsumed.1 hnone, haccepts.alive, haccepts.free⟩

/-- An event that is no success of a consumer consumes nothing. -/
lemma consumed_cons_iff (h : e.call.presents ≠ none → ∃ raised, e.result = .error raised) :
    Consumed (e :: log) rawToken ↔ Consumed log rawToken := by
  constructor
  · rintro ⟨e', he', k, r, hcall, hresult⟩
    obtain rfl | he' := List.mem_cons.1 he'
    · have hne : e'.call.presents ≠ none := by
        rw [hcall]
        exact Option.some_ne_none _
      obtain ⟨raised, herror⟩ := h hne
      rw [herror] at hresult
      cases hresult
    · exact ⟨e', he', k, r, hcall, hresult⟩
  · rintro ⟨e', he', hrest⟩
    exact ⟨e', List.mem_cons_of_mem e he', hrest⟩

/-- No customer is lost. -/
def KeepsCustomers (w w' : World) : Prop :=
  ∀ c ∈ w.db.customers.rows, ∃ c' ∈ w'.db.customers.rows, c'.id = c.id

lemma keepsCustomers_of_rewritten {p : Customer → Bool} {f : Customer → Customer}
    (h : w'.db.customers.rows = w.db.customers.rewritten p f) (hid : ∀ c, (f c).id = c.id) :
    KeepsCustomers w w' := by
  intro c hc
  refine ⟨if p c then f c else c, ?_, ?_⟩
  · rw [h]
    exact (Table.mem_rewritten _).2 ⟨c, hc, rfl⟩
  · split
    · exact hid c
    · rfl

lemma keepsCustomers_of_eq (h : w'.db.customers = w.db.customers) : KeepsCustomers w w' := by
  intro c hc
  rw [← h] at hc
  exact ⟨c, hc, rfl⟩

lemma keepsCustomers_of_append {c : Customer}
    (h : w'.db.customers.rows = w.db.customers.rows ++ [c]) : KeepsCustomers w w' := by
  intro c' hc'
  refine ⟨c', ?_, rfl⟩
  rw [h]
  exact List.mem_append_left _ hc'

/-- An event that leaves the tokens alone. -/
lemma TokensTraced.untouched (h : TokensTraced log e.before)
    (htokens : e.after.db.verificationTokens = e.before.db.verificationTokens)
    (hcustomers : KeepsCustomers e.before e.after) (hentropy : e.before.entropy ≤ e.after.entropy)
    (hraised : e.call.presents ≠ none → ∃ raised, e.result = .error raised) :
    TokensTraced (e :: log) e.after := by
  have hissues : ∀ rawToken t, ¬ Issues e rawToken t := by
    intro rawToken t hissues
    have hlength := congrArg List.length hissues.stored
    rw [htokens, List.length_append, List.length_singleton] at hlength
    omega
  refine ⟨fun t ht => ?_, fun e' he' rawToken t₀ hissued => ?_, fun t ht => ?_,
    fun rawToken hconsumed => ?_, fun t ht => ?_⟩
  · rw [htokens] at ht
    obtain ⟨e', he', rawToken, t₀, hissued, hlater, hconsumed⟩ := h.stored t ht
    refine ⟨e', List.mem_cons_of_mem e he', rawToken, t₀, hissued, hlater, ?_⟩
    rw [consumed_cons_iff hraised]
    exact hconsumed
  · rw [htokens]
    obtain rfl | he' := List.mem_cons.1 he'
    · exact absurd hissued (hissues rawToken t₀)
    · exact h.kept e' he' rawToken t₀ hissued
  · rw [htokens] at ht
    exact lt_of_lt_of_le (h.drawn t ht) hentropy
  · rw [htokens]
    exact h.known rawToken ((consumed_cons_iff hraised).1 hconsumed)
  · rw [htokens] at ht
    obtain ⟨c, hc, hid⟩ := h.owned t ht
    obtain ⟨c', hc', hid'⟩ := hcustomers c hc
    exact ⟨c', hc', hid'.trans hid⟩

/-- An event that issues a token. -/
lemma TokensTraced.issue (h : TokensTraced log e.before) (hissues : Issues e e.before.entropy t)
    (hnone : t.consumedAt = none) (hcall : e.call.presents = none)
    (hcustomers : KeepsCustomers e.before e.after)
    (howner : ∃ c ∈ e.after.db.customers.rows, c.id = t.customerId)
    (hentropy : e.after.entropy = e.before.entropy + 1) : TokensTraced (e :: log) e.after := by
  have hraised : e.call.presents ≠ none → ∃ raised, e.result = .error raised :=
    fun hne => absurd hcall hne
  have hmem : ∀ t', t' ∈ e.after.db.verificationTokens.rows ↔
      t' ∈ e.before.db.verificationTokens.rows ∨ t' = t := by
    intro t'
    rw [hissues.stored, List.mem_append, List.mem_singleton]
  refine ⟨fun t' ht' => ?_, fun e' he' rawToken t₀ hissued => ?_, fun t' ht' => ?_,
    fun rawToken hconsumed => ?_, fun t' ht' => ?_⟩
  · obtain ht' | rfl := (hmem t').1 ht'
    · obtain ⟨e', he', rawToken, t₀, hissued, hlater, hconsumed⟩ := h.stored t' ht'
      refine ⟨e', List.mem_cons_of_mem e he', rawToken, t₀, hissued, hlater, ?_⟩
      rw [consumed_cons_iff hraised]
      exact hconsumed
    · refine ⟨e, List.mem_cons_self .., e.before.entropy, t', hissues, Or.inl rfl, ?_⟩
      refine iff_of_true hnone fun hconsumed => ?_
      -- a consumed raw token was drawn before
      obtain ⟨t₁, ht₁, hhash⟩ := h.known _ ((consumed_cons_iff hraised).1 hconsumed)
      have hlt := h.drawn t₁ ht₁
      rw [hhash] at hlt
      exact absurd hlt (lt_irrefl e.before.entropy)
  · obtain rfl | he' := List.mem_cons.1 he'
    · have hrows := List.append_cancel_left (hissued.stored.symm.trans hissues.stored)
      have htoken : t₀ = t := List.singleton_inj.1 hrows
      exact ⟨t, (hmem t).2 (Or.inr rfl), Or.inl htoken.symm⟩
    · obtain ⟨t', ht', hlater⟩ := h.kept e' he' rawToken t₀ hissued
      exact ⟨t', (hmem t').2 (Or.inl ht'), hlater⟩
  · rw [hentropy]
    obtain ht' | rfl := (hmem t').1 ht'
    · exact Nat.lt_succ_of_lt (h.drawn t' ht')
    · rw [hissues.hash]
      exact Nat.lt_succ_self e.before.entropy
  · obtain ⟨t', ht', hhash⟩ := h.known rawToken ((consumed_cons_iff hraised).1 hconsumed)
    exact ⟨t', (hmem t').2 (Or.inl ht'), hhash⟩
  · obtain ht' | rfl := (hmem t').1 ht'
    · obtain ⟨c, hc, hid⟩ := h.owned t' ht'
      obtain ⟨c', hc', hid'⟩ := hcustomers c hc
      exact ⟨c', hc', hid'.trans hid⟩
    · exact howner

/-- A token of a table in which one token was marked consumed. -/
lemma mem_marked {at' : Time} {t' : VerificationToken}
    (h : t' ∈ w.db.verificationTokens.rewritten (fun s => s.id == t.id)
      fun s => { s with consumedAt := some at' })
    (ht : t ∈ w.db.verificationTokens.rows) :
    t' = { t with consumedAt := some at' } ∨
      (t' ∈ w.db.verificationTokens.rows ∧ t'.id ≠ t.id) := by
  obtain ⟨s, hs, rfl⟩ := (Table.mem_rewritten _).1 h
  by_cases hid : s.id = t.id
  · have heq : s = t := w.db.verificationTokens.eq_of_pk hs ht hid
    rw [heq, if_pos (beq_self_eq_true t.id)]
    exact Or.inl rfl
  · have hbeq : ¬ (s.id == t.id) = true := fun h => hid (beq_iff_eq.1 h)
    rw [if_neg hbeq]
    exact Or.inr ⟨hs, hid⟩

/-- The other way: every token is still there, in a later version. -/
lemma later_of_marked {at' : Time} {t' : VerificationToken}
    (ht' : t' ∈ w.db.verificationTokens.rows) :
    ∃ t'' ∈ w.db.verificationTokens.rewritten (fun s => s.id == t.id)
      (fun s => { s with consumedAt := some at' }), t'.Later t'' := by
  refine ⟨_, (Table.mem_rewritten _).2 ⟨t', ht', rfl⟩, ?_⟩
  split
  · exact Or.inr ⟨at', rfl⟩
  · exact Or.inl rfl

lemma Consumer.Completes.keepsCustomers (h : k.Completes t w w') : KeepsCustomers w w' := by
  have hchanges := h.changes
  cases k with
  | verifyEmail => exact keepsCustomers_of_rewritten hchanges.1 fun _ => rfl
  | confirmPasswordReset newPassword => exact keepsCustomers_of_eq hchanges.1
  | confirmEmailChange => exact keepsCustomers_of_rewritten hchanges.1 fun _ => rfl

lemma Linked.keepsCustomers {profile : GoogleProfile} {customerId : Id}
    (h : Linked profile customerId w w') : KeepsCustomers w w' := by
  obtain ⟨c, -, hexisting⟩ | ⟨-, hnew⟩ := h.customer
  · obtain ⟨-, hsame⟩ | ⟨-, hrows⟩ := hexisting.customers
    · exact keepsCustomers_of_eq hsame
    · exact keepsCustomers_of_rewritten hrows fun _ => rfl
  · exact keepsCustomers_of_append hnew.customers

/-- A success consumes the token that it presents, and no other. -/
lemma consumed_cons_iff_of_ok {r : Option Customer} {rawToken' : RawToken}
    (hcall : e.call.presents = some (k, rawToken)) (hresult : e.result = .ok r) :
    Consumed (e :: log) rawToken' ↔ rawToken' = rawToken ∨ Consumed log rawToken' := by
  constructor
  · rintro ⟨e', he', k', r', hcall', hresult'⟩
    obtain rfl | he' := List.mem_cons.1 he'
    · rw [hcall] at hcall'
      cases hcall'
      exact Or.inl rfl
    · exact Or.inr ⟨e', he', k', r', hcall', hresult'⟩
  · rintro (rfl | ⟨e', he', hrest⟩)
    · exact ⟨e, List.mem_cons_self .., k, r, hcall, hresult⟩
    · exact ⟨e', List.mem_cons_of_mem e he', hrest⟩

/-- An event that consumes a token. -/
lemma TokensTraced.consume {r : Option Customer} (h : TokensTraced log e.before)
    (hcall : e.call.presents = some (k, rawToken)) (hrequests : e.call.requests = none)
    (hresult : e.result = .ok r) (haccepts : k.Accepts rawToken e.before t)
    (hcompletes : k.Completes t e.before e.after) : TokensTraced (e :: log) e.after := by
  have hissues : ∀ rawToken t, ¬ Issues e rawToken t := by
    intro rawToken t hissues
    have hsome := hissues.call
    rw [hrequests] at hsome
    cases hsome
  have hhash := (consumable_iff.1 haccepts.consumable).1
  have hframe := hcompletes.frame
  refine ⟨fun t' ht' => ?_, fun e' he' rawToken' t₀ hissued => ?_, fun t' ht' => ?_,
    fun rawToken' hconsumed => ?_, fun t' ht' => ?_⟩
  · rw [hcompletes.tokens] at ht'
    obtain rfl | ⟨hmem, hne⟩ := mem_marked ht' haccepts.stored
    · obtain ⟨e', he', rawToken', t₀, hissued, hlater, -⟩ := h.stored t haccepts.stored
      refine ⟨e', List.mem_cons_of_mem e he', rawToken', t₀, hissued,
        hlater.trans (Or.inr ⟨_, rfl⟩), iff_of_false (Option.some_ne_none _) ?_⟩
      have heq : rawToken' = rawToken := by
        apply sha256_injective
        rw [← hissued.hash, ← hlater.tokenHash_eq, hhash]
      rw [not_not, consumed_cons_iff_of_ok hcall hresult]
      exact Or.inl heq
    · obtain ⟨e', he', rawToken', t₀, hissued, hlater, hconsumed⟩ := h.stored t' hmem
      refine ⟨e', List.mem_cons_of_mem e he', rawToken', t₀, hissued, hlater, ?_⟩
      have hother : rawToken' ≠ rawToken := by
        rintro rfl
        have heq : t' = t := by
          refine e.before.db.verificationTokens.eq_of_conflicts hmem haccepts.stored ?_
          refine decide_eq_true ?_
          rw [hlater.tokenHash_eq, hissued.hash, hhash]
        exact hne (by rw [heq])
      rw [consumed_cons_iff_of_ok hcall hresult, or_iff_right hother]
      exact hconsumed
  · obtain rfl | he' := List.mem_cons.1 he'
    · exact absurd hissued (hissues rawToken' t₀)
    · obtain ⟨t', ht', hlater⟩ := h.kept e' he' rawToken' t₀ hissued
      rw [hcompletes.tokens]
      obtain ⟨t'', ht'', hlater'⟩ := later_of_marked ht'
      exact ⟨t'', ht'', hlater.trans hlater'⟩
  · rw [hframe]
    rw [hcompletes.tokens] at ht'
    obtain rfl | ⟨hmem, -⟩ := mem_marked ht' haccepts.stored
    · exact h.drawn t haccepts.stored
    · exact h.drawn t' hmem
  · rw [hcompletes.tokens]
    have hold : ∃ t' ∈ e.before.db.verificationTokens.rows, t'.tokenHash = sha256 rawToken' := by
      obtain rfl | hconsumed := (consumed_cons_iff_of_ok hcall hresult).1 hconsumed
      · exact ⟨t, haccepts.stored, hhash⟩
      · exact h.known rawToken' hconsumed
    obtain ⟨t', ht', hhash'⟩ := hold
    obtain ⟨t'', ht'', hlater⟩ := later_of_marked ht'
    exact ⟨t'', ht'', by rw [hlater.tokenHash_eq, hhash']⟩
  · rw [hcompletes.tokens] at ht'
    have hold : ∃ c ∈ e.before.db.customers.rows, c.id = t'.customerId := by
      obtain rfl | ⟨hmem, -⟩ := mem_marked ht' haccepts.stored
      · exact h.owned t haccepts.stored
      · exact h.owned t' hmem
    obtain ⟨c, hc, hid⟩ := hold
    obtain ⟨c', hc', hid'⟩ := hcompletes.keepsCustomers c hc
    exact ⟨c', hc', hid'.trans hid⟩

end Invariant

/-! ## Traces -/

section Traces

variable [PyText] {w₀ w : World} {log log₀ log₁ : List CustomerEvent} {k : Consumer}
  {rawToken : RawToken}

/-- The calls use instances of stored customers. -/
def UseStored (_ : List CustomerEvent) (w : World) (call : CustomerCall) : Prop := call.OfStored w

/-- One call: the step lemma of the invariant. -/
lemma TokensTraced.step {e : CustomerEvent} (h : TokensTraced log e.before)
    (hstep : CustomerStep e.before e.call e.result e.after) (hstored : e.call.OfStored e.before) :
    TokensTraced (e :: log) e.after := by
  obtain ⟨call, w, r, w'⟩ := e
  dsimp only at hstep
  cases hstep with
  | unmoved hunmoved hraised =>
      exact h.untouched hunmoved.tokens (keepsCustomers_of_eq hunmoved.customers)
        hunmoved.entropy fun hne => hraised (CustomerCall.mayReturnIdle_eq_false hne)
  | @registered email password c _ hregistered =>
      refine h.issue ⟨rfl, hregistered.tokens, rfl, c.email, hregistered.mail⟩ rfl rfl
        (keepsCustomers_of_append hregistered.customers) ⟨c, ?_, rfl⟩ ?_
      · simp [hregistered.customers]
      · rw [hregistered.frame]
  | @resetRequested email c _ hc hissued =>
      have hcustomers : w'.db.customers = w.db.customers := by rw [hissued.frame]
      refine h.issue ⟨rfl, hissued.rows, rfl, c.email, hissued.mail⟩ rfl rfl
        (keepsCustomers_of_eq hcustomers) ⟨c, ?_, rfl⟩ ?_
      · simpa [hcustomers] using hc
      · rw [hissued.frame]
  | @changeRequested customer newEmail _ hissued =>
      have hcustomers : w'.db.customers = w.db.customers := by rw [hissued.frame]
      refine h.issue ⟨rfl, hissued.rows, rfl, normalizeEmail newEmail, hissued.mail⟩ rfl rfl
        (keepsCustomers_of_eq hcustomers) ?_ ?_
      · dsimp only
        rw [hcustomers]
        exact hstored
      · rw [hissued.frame]
  | @consumed k rawToken t c _ haccepts hid hcompletes =>
      exact h.consume (CustomerCall.presents_ofConsumer k rawToken)
        (CustomerCall.requests_ofConsumer k rawToken) rfl haccepts hcompletes
  | @linked clientId reply profile customerId w₁ _ _ hprofile hlinked hrest =>
      have htokens : w₁.db.verificationTokens = w.db.verificationTokens := by rw [hlinked.frame]
      have hentropy : w₁.entropy = w.entropy := by rw [hlinked.frame]
      refine h.untouched (hrest.tokens.trans htokens) ?_ ?_ fun hne => absurd rfl hne
      · intro c hc
        obtain ⟨c', hc', hid⟩ := hlinked.keepsCustomers c hc
        rw [← hrest.customers] at hc'
        exact ⟨c', hc', hid⟩
      · rw [← hentropy]
        exact hrest.entropy

/-- The invariant holds along every trace that begins without tokens. -/
lemma tokensTraced_of_trace (hstart : w₀.db.verificationTokens.rows = [])
    (h : CustomerTrace UseStored w₀ log w) : TokensTraced log w := by
  refine Trace.invariant (I := TokensTraced) ?_
    (fun log w call hw hok => hw.step (customerStep hw.owned call) hok) ?_ h
  · refine ⟨?_, fun e he => absurd he List.not_mem_nil, ?_, ?_, ?_⟩
    · simp [hstart]
    · simp [hstart]
    · rintro rawToken ⟨e, he, -⟩
      cases he
    · simp [TokenCustomersStored, hstart]
  · rintro log w w' hw ⟨t, rfl⟩
    exact ⟨hw.stored, hw.kept, hw.drawn, hw.known, hw.owned⟩

/-- A consumer is exact and atomic where the invariant holds. -/
lemma TokensTraced.consumesExactly {e : CustomerEvent} (htraced : TokensTraced log₀ e.before)
    (he : e = event CustomerCall.service e.call e.before)
    (hcall : e.call.presents = some (k, rawToken)) : ConsumesExactly log₀ e k rawToken := by
  have hservice : e.call.service =
      (k.service rawToken >>= fun customer => return some customer) := by
    rw [CustomerCall.eq_ofConsumer hcall, CustomerCall.service_ofConsumer]
  have hresult : e.result = (e.call.service.run e.before).1 := congrArg Event.result he
  have hafter : e.after = (e.call.service.run e.before).2 := congrArg Event.after he
  rw [hservice, Program.run_bind] at hresult hafter
  obtain ⟨t, c, w', haccepts, hrun, hid, hcompletes⟩ | ⟨hnot, raised, hrun⟩ :=
    k.run_cases rawToken htraced.owned
  · have husable := htraced.usable_iff_accepts.2 haccepts
    rw [hrun] at hresult hafter
    have hok : e.result = .ok (some c) := hresult
    have hw' : e.after = w' := hafter
    refine ⟨iff_of_true ⟨some c, hok⟩ ⟨t, husable⟩, fun r hr => ⟨t, c, husable, ?_, hid, ?_⟩,
      fun raised hraised => ?_⟩
    · rw [hok] at hr
      cases hr
      rfl
    · rw [hw']
      exact hcompletes
    · rw [hok] at hraised
      cases hraised
  · rw [hrun] at hresult hafter
    have herror : e.result = .error raised := hresult
    have hsame : e.after = e.before := hafter
    refine ⟨iff_of_false ?_ ?_, fun r hr => ?_, fun _ _ => ⟨hsame, ?_⟩⟩
    · rintro ⟨r, hr⟩
      rw [herror] at hr
      cases hr
    · rintro ⟨t, husable⟩
      exact hnot t (htraced.usable_iff_accepts.1 husable)
    · rw [herror] at hr
      cases hr
    · intro k' rawToken' t husable
      obtain ⟨e', he', hissues⟩ := husable.issued
      refine ⟨⟨e', List.mem_cons_of_mem e he', hissues⟩, husable.purpose, ?_, ?_, ?_⟩
      · rw [consumed_cons_iff fun _ => ⟨raised, herror⟩]
        exact husable.unconsumed
      · rw [hsame]
        exact husable.alive
      · rw [hsame]
        exact husable.free

/-- The consumers are exact and atomic along every trace. -/
theorem exact_of_trace {e : CustomerEvent} (hstart : w₀.db.verificationTokens.rows = [])
    (h : CustomerTrace UseStored w₀ log w) (hlog : log = log₁ ++ e :: log₀)
    (hcall : e.call.presents = some (k, rawToken)) : ConsumesExactly log₀ e k rawToken := by
  obtain ⟨hearlier, -, he⟩ := h.earlier hlog
  exact (tokensTraced_of_trace hstart hearlier).consumesExactly he hcall

end Traces

section Example

attribute [local instance] plainText

/-- Register, ask for a reset, and confirm it. -/
def resetRun : List CustomerEvent × World :=
  Trace.execute CustomerCall.service [.registerCustomer "a@example.com" "old",
    .requestPasswordReset "a@example.com", .confirmPasswordReset 1 "new"] ([], {})

/-- The confirmation of a reset is exact, and succeeds. -/
theorem exact_after_reset : ∃ e log₀, resetRun.1 = e :: log₀ ∧ (∃ r, e.result = .ok r) ∧
    ConsumesExactly log₀ e (.confirmPasswordReset "new") 1 := by
  have htrace : CustomerTrace UseStored {} resetRun.1 resetRun.2 :=
    Trace.execute_of_allowed .refl ⟨trivial, trivial, trivial, trivial⟩
  exact ⟨_, _, rfl, ⟨_, rfl⟩, exact_of_trace rfl htrace (show resetRun.1 = [] ++ _ from rfl) rfl⟩

end Example

end BePyEco
