import BePyEco.Accounts.GoogleLogin
import BePyEco.Accounts.RecordedCalls
import BePyEco.Accounts.TokenFlows

/-!
# What interleaved calls write to customers

`Moves` says once what a statement of an account call can do, and `WriterCall.relies` that none
of them does anything else, whatever the others do in between.

A customer is at all times what the committed writes make of its row, one after the other
(`Follows`): no write is lost.
-/

namespace BePyEco

open Library

/-! ## Moves -/

/-- Every customer is what the commits since have made of its row, and no token is lost. -/
structure Follows (s s' : RecordedWorld) : Prop where
  customers : Replays (fun w => w.db.customers.rows) Commit.apply s s'
  tokens : KeepsTokens s.store s'.store

instance : Std.Refl Follows := ⟨fun s => ⟨refl_of _ s, refl_of _ s.store⟩⟩

instance : IsTrans RecordedWorld Follows where
  trans _ _ _ h h' := ⟨trans_of _ h.customers h'.customers, trans_of _ h.tokens h'.tokens⟩

/-- What is in the log stays there. -/
lemma Follows.mem_log {s s' : RecordedWorld} (h : Follows s s') {entry : Commit}
    (hentry : entry ∈ s.log) : entry ∈ s'.log := by
  obtain ⟨newer, hlog, -⟩ := h.customers
  rw [hlog]
  exact List.mem_append_right newer hentry

/-- Customers, tokens and mail are as before. -/
structure Untouched (w w' : World) : Prop where
  customers : w'.db.customers = w.db.customers
  tokens : w'.db.verificationTokens = w.db.verificationTokens
  mail : w'.mailbox = w.mailbox

instance : Std.Refl Untouched := ⟨fun _ => ⟨rfl, rfl, rfl⟩⟩

instance : IsTrans World Untouched where
  trans _ _ _ h h' := ⟨h'.customers.trans h.customers, h'.tokens.trans h.tokens,
    h'.mail.trans h.mail⟩

/-- The entry is the save of a locale preference, or of `is_active`. -/
def Commit.isEdit : Commit → Bool
  | preferred _ _ _ => true
  | disabled _ => true
  | _ => false

/-- What one statement of an account call does. -/
inductive Moves (s s' : RecordedWorld) : Prop
  | silent (h : Untouched s.store s'.store) (hlog : s'.log = s.log)
  | mailed {rawToken : RawToken} {address : String} (hissued : .issued rawToken address ∈ s.log)
      (hcustomers : s'.store.db.customers = s.store.db.customers)
      (htokens : s'.store.db.verificationTokens = s.store.db.verificationTokens)
      (hmail : s'.store.mailbox = ⟨address, rawToken⟩ :: s.store.mailbox) (hlog : s'.log = s.log)
  | registered {rawToken : RawToken} {c : Customer} {t : VerificationToken}
      (hnot : c.isEmailVerified = false)
      (ht : t.purpose = .emailVerification ∧ t.customerId = c.id ∧ t.tokenHash = sha256 rawToken)
      (hcustomers : s'.store.db.customers.rows = s.store.db.customers.rows ++ [c])
      (htokens : s'.store.db.verificationTokens.rows = s.store.db.verificationTokens.rows ++ [t])
      (hmail : s'.store.mailbox = s.store.mailbox)
      (hlog : s'.log = .issued rawToken c.email :: s.log)
  | issued {rawToken : RawToken} {address : String} {t : VerificationToken}
      (ht : t.tokenHash = sha256 rawToken) (hpurpose : t.purpose ≠ .emailVerification)
      (haddress : t.purpose = .emailChange → t.newEmail = address)
      (hcustomers : s'.store.db.customers = s.store.db.customers)
      (htokens : s'.store.db.verificationTokens.rows = s.store.db.verificationTokens.rows ++ [t])
      (hmail : s'.store.mailbox = s.store.mailbox)
      (hlog : s'.log = .issued rawToken address :: s.log)
  | consumed {k : Consumer} {rawToken : RawToken} {t : VerificationToken} {now : Time}
      (hstored : s.store.db.verificationTokens.HasLater t)
      (ht : t.tokenHash = sha256 rawToken ∧ t.purpose = k.purpose)
      (hcustomers : s'.store.db.customers.rows =
        s.store.db.customers.rows.map (Commit.consumed k rawToken t now).apply)
      (htokens : s'.store.db.verificationTokens = s.store.db.verificationTokens.update
        (fun t' => Model.pk t' == t.id) (VerificationToken.setConsumedAt now))
      (hmail : s'.store.mailbox = s.store.mailbox)
      (hlog : s'.log = .consumed k rawToken t now :: s.log)
  | linkedExisting {profile : GoogleProfile} {s₀ : RecordedWorld} {c : Customer} {now : Time}
      (hverified : profile.emailVerified = true) (hc : c ∈ s₀.store.db.customers.rows)
      (hemail : c.email = profile.email) (hfollows : Follows s₀ s)
      (hcustomers : s'.store.db.customers.rows = s.store.db.customers.rows.map
        (Commit.linked profile c.id (!c.isEmailVerified) now).apply)
      (htokens : s'.store.db.verificationTokens = s.store.db.verificationTokens)
      (hmail : s'.store.mailbox = s.store.mailbox)
      (hlog : s'.log = .linked profile c.id (!c.isEmailVerified) now :: s.log)
  | linkedNew {profile : GoogleProfile} {c : Customer} {now : Time}
      (hemail : c.email = profile.email)
      (hverified : c.isEmailVerified = true → profile.emailVerified = true)
      (hcustomers : s'.store.db.customers.rows = s.store.db.customers.rows ++ [c])
      (htokens : s'.store.db.verificationTokens = s.store.db.verificationTokens)
      (hmail : s'.store.mailbox = s.store.mailbox)
      (hlog : s'.log = .linked profile c.id false now :: s.log)
  | edited {entry : Commit} (hentry : entry.isEdit = true)
      (hcustomers : s'.store.db.customers.rows = s.store.db.customers.rows.map entry.apply)
      (htokens : s'.store.db.verificationTokens = s.store.db.verificationTokens)
      (hmail : s'.store.mailbox = s.store.mailbox) (hlog : s'.log = entry :: s.log)

instance : Std.Refl Moves := ⟨fun s => .silent (refl_of _ s.store) rfl⟩

section Moves

variable {s s' : RecordedWorld}

lemma replays_of_map {entry : Commit}
    (hcustomers : s'.store.db.customers.rows = s.store.db.customers.rows.map entry.apply)
    (hlog : s'.log = entry :: s.log) :
    Replays (fun w : World => w.db.customers.rows) Commit.apply s s' := by
  refine ⟨[entry], hlog, fun c hc => ?_⟩
  dsimp only
  rw [hcustomers]
  exact List.mem_map_of_mem hc

/-- An entry that leaves every customer alone, while one may be added. -/
lemma replays_of_subset {newer : List Commit}
    (hcustomers : ∀ c ∈ s.store.db.customers.rows, c ∈ s'.store.db.customers.rows)
    (hlog : s'.log = newer ++ s.log) (hnewer : ∀ c, replay Commit.apply newer c = c) :
    Replays (fun w : World => w.db.customers.rows) Commit.apply s s' := by
  refine ⟨newer, hlog, fun c hc => ?_⟩
  rw [hnewer]
  exact hcustomers c hc

lemma Moves.follows (h : Moves s s') : Follows s s' := by
  cases h with
  | silent huntouched hlog =>
      have hlog' : s'.log = [] ++ s.log := hlog
      refine ⟨replays_of_subset (fun c hc => ?_) hlog' fun _ => rfl,
        keepsTokens_of_eq huntouched.tokens⟩
      rwa [huntouched.customers]
  | mailed hissued hcustomers htokens hmail hlog =>
      have hlog' : s'.log = [] ++ s.log := hlog
      refine ⟨replays_of_subset (fun c hc => ?_) hlog' fun _ => rfl, keepsTokens_of_eq htokens⟩
      rwa [hcustomers]
  | @registered rawToken c t hnot ht hcustomers htokens hmail hlog =>
      have hreplay : ∀ c', replay Commit.apply [.issued rawToken c.email] c' = c' := fun _ => rfl
      refine ⟨replays_of_subset (fun c' hc' => ?_) hlog hreplay, fun t' ht' => ?_⟩
      · rw [hcustomers]
        exact List.mem_append_left _ hc'
      · refine Table.hasLater_of_mem ?_
        rw [htokens]
        exact List.mem_append_left _ ht'
  | @issued rawToken address t ht hpurpose haddress hcustomers htokens hmail hlog =>
      have hreplay : ∀ c', replay Commit.apply [.issued rawToken address] c' = c' := fun _ => rfl
      refine ⟨replays_of_subset (fun c' hc' => ?_) hlog hreplay, fun t' ht' => ?_⟩
      · rwa [hcustomers]
      · refine Table.hasLater_of_mem ?_
        rw [htokens]
        exact List.mem_append_left _ ht'
  | @consumed k rawToken t now hstored ht hcustomers htokens hmail hlog =>
      refine ⟨replays_of_map hcustomers hlog, ?_⟩
      unfold KeepsTokens
      rw [htokens]
      exact Table.Keeps.of_update fun t' => Or.inr ⟨now, rfl⟩
  | linkedExisting hverified hc hemail hfollows hcustomers htokens hmail hlog =>
      exact ⟨replays_of_map hcustomers hlog, keepsTokens_of_eq htokens⟩
  | @linkedNew profile c now hemail hverified hcustomers htokens hmail hlog =>
      have hreplay : ∀ c', replay Commit.apply [.linked profile c.id false now] c' = c' :=
        fun _ => rfl
      refine ⟨replays_of_subset (fun c' hc' => ?_) hlog hreplay, keepsTokens_of_eq htokens⟩
      rw [hcustomers]
      exact List.mem_append_left _ hc'
  | edited hentry hcustomers htokens hmail hlog =>
      exact ⟨replays_of_map hcustomers hlog, keepsTokens_of_eq htokens⟩

/-- What happens outside of the calls. -/
lemma moves_of_env (h : recordedEnv Untouched s s') : Moves s s' := .silent h.1 h.2

end Moves

/-! ## Statements -/

section Statements

variable {w w' : World}

lemma lookupToken_customer {purpose : Purpose} {rawToken : RawToken}
    {r : VerificationToken × Customer} (h : (lookupToken purpose rawToken).run w = .ok (r, w')) :
    r.2.id = r.1.customerId ∧ r.2 ∈ w.db.customers.rows := by
  obtain hget | ⟨-, hraise⟩ := Tx.handling_ok h
  · obtain ⟨token, w₁, htoken, hrest⟩ := Tx.bind_ok hget
    obtain ⟨customer, w₂, hcustomer, hpure⟩ := Tx.bind_ok hrest
    obtain ⟨rfl, htoken⟩ := Objects.get_ok htoken
    obtain ⟨rfl, hrow⟩ := Objects.get_ok hcustomer
    cases hpure
    have howner : customerOf token.customerId customer = true := Table.holds_of_get hrow
    exact ⟨of_decide_eq_true howner, Table.mem_of_get hrow⟩
  · cases hraise

lemma lookupToken_owner {purpose : Purpose} {rawToken : RawToken}
    {r : VerificationToken × Customer} (h : (lookupToken purpose rawToken).run w = .ok (r, w')) :
    r.2.id = r.1.customerId := (lookupToken_customer h).1

/-- A saved customer, as the commit makes it. -/
lemma saveCustomer_rows {customerId : Id} {a : Assignment Customer}
    (h : (Objects.save customerId a : Statement Unit).run w = .ok ((), w')) :
    w'.db.customers.rows = w.db.customers.rows.map
      (fun c => if c.id == customerId then a.apply c else c) ∧
    w'.db.verificationTokens = w.db.verificationTokens ∧ w'.mailbox = w.mailbox := by
  rw [Objects.save_ok h]
  exact ⟨rfl, rfl, rfl⟩

lemma saveCheckedCustomer_rows {customerId : Id} {f : Customer → Customer}
    {hpk : ∀ c, Model.pk (f c) = Model.pk c}
    (h : (Objects.saveChecked customerId f hpk : Statement Unit).run w = .ok ((), w')) :
    w'.db.customers.rows = w.db.customers.rows.map
      (fun c => if c.id == customerId then f c else c) ∧
    w'.db.verificationTokens = w.db.verificationTokens ∧ w'.mailbox = w.mailbox := by
  obtain ⟨t, hrewrite, rfl⟩ := Objects.saveChecked_ok h
  exact ⟨(Table.rewrite_spec hrewrite).1, rfl, rfl⟩

/-- The effect of a consumer on the customer of the token. -/
lemma effect_rows {k : Consumer} {rawToken : RawToken} {t : VerificationToken}
    {c r : Customer} (hid : c.id = t.customerId) (h : (k.effect t c).run w = .ok (r, w')) :
    w'.db.customers.rows = w.db.customers.rows.map (Commit.consumed k rawToken t w.now).apply ∧
      w'.mailbox = w.mailbox := by
  cases k with
  | verifyEmail =>
      obtain ⟨now, w₁, hnow, hrest⟩ := Tx.bind_ok h
      cases hnow
      obtain ⟨u, w₂, hsave, hpure⟩ := Tx.bind_ok hrest
      cases hpure
      obtain ⟨hrows, -, hmail⟩ := saveCustomer_rows hsave
      rw [hid] at hrows
      exact ⟨hrows, hmail⟩
  | confirmPasswordReset newPassword =>
      obtain ⟨u, w₁, hset, hpure⟩ := Tx.bind_ok h
      cases hpure
      obtain ⟨w₂, hrun, -, hframe⟩ := setPassword_run c.id newPassword w
      rw [hrun] at hset
      cases hset
      refine ⟨?_, by rw [hframe]⟩
      rw [hframe]
      exact (List.map_id _).symm
  | confirmEmailChange =>
      obtain ⟨now, w₁, hnow, hrest⟩ := Tx.bind_ok h
      cases hnow
      obtain ⟨u, w₂, hhandled, hpure⟩ := Tx.bind_ok hrest
      cases hpure
      obtain hsave | ⟨-, hraise⟩ := Tx.handling_ok hhandled
      · obtain ⟨hrows, -, hmail⟩ := saveCheckedCustomer_rows hsave
        rw [hid] at hrows
        exact ⟨hrows, hmail⟩
      · cases hraise

/-- The transaction of a consumer, as the commit records it. -/
lemma consumeBlock_rows {k : Consumer} {rawToken : RawToken} {t : VerificationToken}
    {c r : Customer} (hid : c.id = t.customerId)
    (h : (consumeBlock k.effect t c).run w = .ok (r, w')) :
    w'.db.customers.rows = w.db.customers.rows.map (Commit.consumed k rawToken t w.now).apply ∧
      w'.mailbox = w.mailbox := by
  obtain ⟨now, w₁, hnow, hrest⟩ := Tx.bind_ok h
  cases hnow
  obtain ⟨u, w₂, hsave, heffect⟩ := Tx.bind_ok hrest
  rw [Objects.save_ok hsave] at heffect
  let marked : World := Stored.put (w.db.verificationTokens.update (fun t' => Model.pk t' == t.id)
    (VerificationToken.setConsumedAt w.now)) w
  exact @effect_rows marked w' k rawToken t c r hid heffect

lemma getByEmail_ok {email : String} {c : Customer}
    (h : (Objects.get (byEmail email) : Statement Customer).run w = .ok (c, w')) :
    c ∈ w'.db.customers.rows ∧ c.email = email := by
  obtain ⟨rfl, hrow⟩ := Objects.get_ok h
  have hemail : byEmail email c = true := Table.holds_of_get hrow
  exact ⟨Table.mem_of_get hrow, of_decide_eq_true hemail⟩

/-- What the transaction of a Google login commits for a customer it has loaded. -/
lemma linkExisting_rows {profile : GoogleProfile} {c r : Customer}
    (h : (linkExisting profile c).run w = .ok (r, w')) :
    profile.emailVerified = true ∧
      w'.db.customers.rows = w.db.customers.rows.map
        (Commit.linked profile c.id (!c.isEmailVerified) w.now).apply ∧
      w'.db.verificationTokens = w.db.verificationTokens ∧ w'.mailbox = w.mailbox := by
  obtain ⟨u, w₁, hrequire, hrest⟩ := Tx.bind_ok h
  obtain ⟨c', w₂, hverify, hrest⟩ := Tx.bind_ok hrest
  obtain ⟨m, w₃, hcreate, hpure⟩ := Tx.bind_ok hrest
  cases hpure
  obtain ⟨rfl, hverified⟩ := Tx.require_ok hrequire
  obtain ⟨-, -, -, hframe⟩ := createGoogleMethod_ok hcreate
  have hcustomers : w'.db.customers = w₂.db.customers := by rw [hframe]
  have htokens : w'.db.verificationTokens = w₂.db.verificationTokens := by rw [hframe]
  have hmail : w'.mailbox = w₂.mailbox := by rw [hframe]
  rw [hcustomers, htokens, hmail]
  obtain ⟨-, ⟨rfl, hdone⟩ | ⟨-, hnot, hrows, hframe₂⟩⟩ := verifyLinkedEmail_ok hverify
  · rw [hdone rfl hverified]
    exact ⟨hverified, (List.map_id _).symm, rfl, rfl⟩
  · rw [hnot]
    refine ⟨hverified, hrows, ?_, ?_⟩
    · rw [hframe₂]
    · rw [hframe₂]

/-- What it commits for a customer it inserts. -/
lemma linkInserted_rows {profile : GoogleProfile} {r : Option Customer}
    (h : (linkInserted profile).run w = .ok (r, w')) :
    (r = none ∧ w' = w) ∨ ∃ c, r = some c ∧ c.email = profile.email ∧
      (c.isEmailVerified = true → profile.emailVerified = true) ∧
      w'.db.customers.rows = w.db.customers.rows ++ [c] ∧
      w'.db.verificationTokens = w.db.verificationTokens ∧ w'.mailbox = w.mailbox := by
  obtain ⟨inserted, w₁, hinsert, hrest⟩ := Tx.bind_ok h
  obtain hcreated | ⟨-, hconflict⟩ := Tx.handling_ok hinsert
  · obtain ⟨now, w₂, hnow, hrest₁⟩ := Tx.bind_ok hcreated
    cases hnow
    obtain ⟨c, w₃, hcreate, hpure⟩ := Tx.bind_ok hrest₁
    cases hpure
    obtain ⟨m, w₄, hmethod, hpure⟩ := Tx.bind_ok hrest
    cases hpure
    obtain ⟨t, hrow, rfl⟩ := Objects.create_ok hcreate
    obtain ⟨rfl, hrows, -⟩ := Table.insert_spec hrow
    obtain ⟨-, -, -, hframe⟩ := createGoogleMethod_ok hmethod
    refine Or.inr ⟨_, rfl, rfl, ?_, ?_, ?_, ?_⟩
    · cases profile.emailVerified with
      | true => exact fun _ => rfl
      | false => exact fun h => h
    · rw [hframe]
      exact hrows
    · rw [hframe]
      rfl
    · rw [hframe]
      rfl
  · cases hconflict
    cases hrest
    exact Or.inl ⟨rfl, rfl⟩

end Statements

/-! ## Calls -/

section Relies

open Program

variable {s : RecordedWorld}

/-- A part of a service that only reads, or writes to other tables. -/
lemma relies_untouched {α : Type} {p : Service α} (hp : p.Guarantees Untouched)
    (s : RecordedWorld) :
    (p.silently : RecordingService α).Relies Follows Moves (fun _ _ => True) s :=
  relies_silently hp (fun _ _ h => .silent h rfl) s

/-- What a call of a consumer knows of the token and the customer that it has looked up. -/
structure LookedUp (k : Consumer) (rawToken : RawToken) (t : VerificationToken) (c : Customer)
    (s : RecordedWorld) : Prop where
  stored : s.store.db.verificationTokens.HasLater t
  token : t.tokenHash = sha256 rawToken ∧ t.purpose = k.purpose
  owner : c.id = t.customerId

lemma LookedUp.mono {k : Consumer} {rawToken : RawToken} {t : VerificationToken} {c : Customer}
    {s s' : RecordedWorld} (h : LookedUp k rawToken t c s) (hfollows : Follows s s') :
    LookedUp k rawToken t c s' :=
  ⟨Table.Keeps.hasLater hfollows.tokens h.stored, h.token, h.owner⟩

lemma recordConsume_relies (k : Consumer) (rawToken : RawToken) (s : RecordedWorld) :
    (recordConsume k rawToken).Relies Follows Moves (fun _ _ => True) s := by
  have hlookup : ((exec (lookupToken k.purpose rawToken)).silently : RecordingService _).Relies
      Follows Moves (fun r s => LookedUp k rawToken r.1 r.2 s) s := by
    refine relies_silently_exec fun s₁ r w _ hrun => ?_
    obtain ⟨rfl, hmem, hfound⟩ := lookupToken_ok hrun
    simp only [consumable, Bool.and_eq_true, decide_eq_true_eq] at hfound
    exact ⟨refl_of Moves s₁, Table.hasLater_of_mem hmem, hfound.1, lookupToken_owner hrun⟩
  refine hlookup.bind fun r s₁ hlooked => ?_
  obtain ⟨t, c⟩ := r
  have hcheck : ((exec (checkTokenExpiry t)).silently : RecordingService _).Relies
      Follows Moves (fun _ s => LookedUp k rawToken t c s) s₁ := by
    refine relies_silently_exec fun s₂ u w hfollows hrun => ?_
    rw [checkTokenExpiry_ok hrun]
    exact ⟨refl_of Moves s₂, hlooked.mono hfollows⟩
  refine hcheck.bind fun _ s₂ hchecked => ?_
  refine relies_recording fun s₃ r w hfollows hrun => ⟨?_, trivial⟩
  have hknown := hchecked.mono hfollows
  obtain ⟨hrows, hmail⟩ := @consumeBlock_rows _ _ k rawToken t c r hknown.owner hrun
  exact .consumed hknown.stored hknown.token hrows (consumeBlock_ok hrun) hmail rfl

/-- A token that was issued is mailed. -/
lemma mail_relies {rawToken : RawToken} {address : String}
    (h : .issued rawToken address ∈ s.log) :
    ((exec (sendMail address rawToken)).silently : RecordingService Unit).Relies Follows Moves
      (fun _ _ => True) s := by
  refine relies_silently_exec fun s₁ u w hfollows hrun => ⟨?_, trivial⟩
  cases hrun
  exact .mailed (hfollows.mem_log h) rfl rfl rfl rfl

lemma recordIssue_relies {customerId : Id} {purpose : Purpose} {newEmail recipient : String}
    {ttl : Time} (hpurpose : purpose ≠ .emailVerification)
    (haddress : purpose = .emailChange → newEmail = recipient) (s : RecordedWorld) :
    (recordIssue customerId purpose newEmail ttl recipient).Relies Follows Moves
      (fun _ _ => True) s := by
  have hgenerate : ((exec generateToken).silently : RecordingService _).Relies Follows Moves
      (fun r _ => r.2 = sha256 r.1) s := by
    refine relies_silently_exec fun s₁ r w _ hrun => ?_
    cases hrun
    exact ⟨.silent ⟨rfl, rfl, rfl⟩ rfl, rfl⟩
  refine hgenerate.bind fun ⟨rawToken, tokenHash⟩ s₁ hhash => ?_
  dsimp only at hhash
  rw [hhash]
  have hcreate : (recording (createVerificationToken customerId purpose (sha256 rawToken) newEmail
      ttl) fun _ _ => [.issued rawToken recipient] : RecordingService _).Relies Follows Moves
      (fun _ s => .issued rawToken recipient ∈ s.log) s₁ := by
    refine relies_recording fun s₂ t w _ hrun => ⟨?_, List.mem_cons_self⟩
    obtain ⟨ht, hrows, hframe⟩ := createVerificationToken_ok hrun
    refine .issued (by rw [ht]) (by rw [ht]; exact hpurpose) (by rw [ht]; exact haddress) ?_ hrows
      ?_ rfl
    · rw [hframe]
    · rw [hframe]
  exact hcreate.bind fun _ s₂ hissued => mail_relies hissued

lemma recordLinkGoogle_relies (profile : GoogleProfile) (s : RecordedWorld) :
    (recordLinkGoogle profile).Relies Follows Moves (fun _ _ => True) s := by
  have hlink : ∀ (c : Customer) (s₀ : RecordedWorld), c ∈ s₀.store.db.customers.rows →
      c.email = profile.email → (recording (linkExisting profile c) fun _ w =>
        [.linked profile c.id (!c.isEmailVerified) w.now] : RecordingService _).Relies Follows Moves
          (fun _ _ => True) s₀ := by
    intro c s₀ hc hemail
    refine relies_recording fun s₁ r w hfollows hrun => ⟨?_, trivial⟩
    obtain ⟨hverified, hrows, htokens, hmail⟩ := linkExisting_rows hrun
    exact .linkedExisting hverified hc hemail hfollows hrows htokens hmail rfl
  have hfind : ((exec (findCustomer profile.email)).silently : RecordingService _).Relies
      Follows Moves (fun r s => ∀ c ∈ r, c ∈ s.store.db.customers.rows ∧ c.email = profile.email)
        s := by
    refine relies_silently_exec fun s₁ r w _ hrun => ?_
    obtain ⟨c, hget, hfind⟩ | ⟨-, hfind⟩ := findCustomer_run profile.email s₁.store
    · rw [hfind] at hrun
      cases hrun
      refine ⟨refl_of Moves s₁, fun c' hc' => ?_⟩
      cases hc'
      exact getByEmail_ok hget
    · rw [hfind] at hrun
      cases hrun
      refine ⟨refl_of Moves s₁, fun c' hc' => ?_⟩
      cases hc'
  refine hfind.bind fun found s₁ hfound => ?_
  cases found with
  | some c => exact hlink c s₁ (hfound c rfl).1 (hfound c rfl).2
  | none =>
      refine Relies.bind ?_ fun inserted s₂ (_ : True) => ?_
      · refine relies_recording fun s₂ r w hfollows hrun => ⟨?_, trivial⟩
        obtain ⟨rfl, rfl⟩ | ⟨c, rfl, hemail, hverified, hrows, htokens, hmail⟩ :=
          linkInserted_rows hrun
        · exact refl_of Moves s₂
        · exact .linkedNew hemail hverified hrows htokens hmail rfl
      · cases inserted with
        | some c => trivial
        | none =>
            have hagain : ((exec (getCustomerAgain profile.email)).silently :
                RecordingService _).Relies Follows Moves
                (fun c s => c ∈ s.store.db.customers.rows ∧ c.email = profile.email) s₂ := by
              refine relies_silently_exec fun s₃ c w _ hrun => ?_
              obtain hget | ⟨-, hraise⟩ := Tx.handling_ok hrun
              · obtain ⟨rfl, -⟩ := Objects.get_ok hget
                exact ⟨refl_of Moves s₃, getByEmail_ok hget⟩
              · cases hraise
            exact hagain.bind fun c s₃ hc => hlink c s₃ hc.1 hc.2

lemma recordGoogleBlock_relies (profile : GoogleProfile) (s : RecordedWorld) :
    (recordGoogleBlock profile).Relies Follows Moves (fun _ _ => True) s := by
  have hfind : (exec (findGoogleCustomer profile.subjectId)).Guarantees Untouched := by
    refine guarantees_exec (Tx.Guarantees.handling ?_ _ (Tx.guarantees_pure _))
    refine Tx.Guarantees.bind ?_ fun _ => Tx.guarantees_pure _
    exact (Objects.guarantees_get _).bind fun _ => Objects.guarantees_get _
  refine (relies_untouched hfind s).bind fun found s₁ _ => ?_
  cases found with
  | some c => trivial
  | none => exact recordLinkGoogle_relies profile s₁

lemma issueSession_untouched (customerId : Id) :
    (issueSession customerId).Guarantees Untouched := by
  refine Program.Guarantees.bind (guarantees_exec ?_) fun refresh => ?_
  · intro w token w' h
    cases h
    exact ⟨rfl, rfl, rfl⟩
  · refine Program.Guarantees.bind (guarantees_exec ?_) fun _ => trivial
    intro w session w' h
    obtain ⟨t, -, rfl⟩ := Objects.create_ok h
    exact ⟨rfl, rfl, rfl⟩

lemma recordLocalePreference_relies (customer : Customer) (locale currency : String)
    (s : RecordedWorld) : (recordLocalePreference customer locale currency).Relies Follows Moves
      (fun _ _ => True) s := by
  have hvalidate : (validateLocaleAndCurrency locale currency).Guarantees Untouched := by
    refine Program.Guarantees.bind (guarantees_exec ?_) fun found => ?_
    · exact Tx.Guarantees.bind (Tx.guarantees_read _) fun _ => Tx.guarantees_pure _
    · cases found with
      | none => trivial
      | some country =>
          refine (guarantees_require _ _).bind fun _ => ?_
          exact (guarantees_require _ _).bind fun _ => trivial
  refine (relies_untouched hvalidate s).bind fun _ s₁ _ => ?_
  have hsave : (recording (savePreference customer.id locale currency) fun _ _ =>
      [.preferred customer.id locale currency] : RecordingService Unit).Relies Follows Moves
      (fun _ _ => True) s₁ := by
    refine relies_recording fun s₂ u w _ hrun => ⟨?_, trivial⟩
    obtain ⟨hrows, htokens, hmail⟩ := saveCheckedCustomer_rows hrun
    exact @Moves.edited _ _ (.preferred customer.id locale currency) rfl hrows htokens hmail rfl
  exact hsave.bind fun _ _ _ => trivial

variable [PyText]

lemma recordRegister_relies (email password : String) (s : RecordedWorld) :
    (recordRegister email password).Relies Follows Moves (fun _ _ => True) s := by
  have hblock : (recording (registerBlock email password) fun r _ => [.issued r.2 r.1.email] :
      RecordingService _).Relies Follows Moves
      (fun r s => .issued r.2 r.1.email ∈ s.log) s := by
    refine relies_recording fun s₁ r w _ hrun => ⟨?_, List.mem_cons_self⟩
    obtain ⟨c, rawToken⟩ := r
    obtain ⟨rfl, hmail, hregistered⟩ := registerBlock_ok hrun
    refine .registered ?_ ⟨rfl, rfl, rfl⟩ hregistered.customers hregistered.tokens hmail rfl
    rw [hregistered.customer]
    rfl
  refine hblock.bind fun ⟨c, rawToken⟩ s₁ hissued => ?_
  exact (mail_relies hissued).bind fun _ _ _ => trivial

lemma recordPasswordReset_relies (email : String) (s : RecordedWorld) :
    (recordPasswordReset email).Relies Follows Moves (fun _ _ => True) s := by
  have hfind : (exec (findActiveCustomer (normalizeEmail email))).Guarantees Untouched := by
    refine guarantees_exec (Tx.Guarantees.handling ?_ _ (Tx.guarantees_pure _))
    exact (Objects.guarantees_get _).bind fun _ => Tx.guarantees_pure _
  refine (relies_untouched hfind s).bind fun found s₁ _ => ?_
  cases found with
  | none => trivial
  | some c =>
      refine recordIssue_relies ?_ ?_ s₁
      · decide
      · nofun

lemma recordEmailChange_relies (customer : Customer) (newEmail : String) (s : RecordedWorld) :
    (recordEmailChange customer newEmail).Relies Follows Moves (fun _ _ => True) s := by
  have htaken : (exec (emailTakenByOther (normalizeEmail newEmail) customer.id)).Guarantees
      Untouched := guarantees_exec (Tx.guarantees_read _)
  refine (relies_untouched htaken s).bind fun taken s₁ _ => ?_
  have hrequire : (require (!taken) .emailAlreadyTaken : RecordingService Unit).Relies
      Follows Moves (fun _ _ => True) s₁ := relies_require fun _ => trivial
  refine hrequire.bind fun _ s₂ _ => recordIssue_relies ?_ (fun _ => rfl) s₂
  decide

lemma recordDisable_relies (actor : StaffInstance) (customerId : Id) (reason : String)
    (request : Option RequestContext) (s : RecordedWorld) :
    (recordDisable actor customerId reason request).Relies Follows Moves (fun _ _ => True) s := by
  have hrequire : ∀ (b : Bool) (e : ApiError) (s : RecordedWorld),
      (require b e : RecordingService Unit).Relies Follows Moves (fun _ _ => True) s :=
    fun b e s => relies_require fun _ => trivial
  refine (hrequire _ _ s).bind fun _ s₁ _ => ?_
  have hmfa : (hasConfirmedMfa actor).Guarantees Untouched := hasConfirmedMfa_guarantees actor
  refine (relies_untouched hmfa s₁).bind fun ⟨confirmed, actor⟩ s₂ _ => ?_
  refine (hrequire _ _ s₂).bind fun _ s₃ _ => ?_
  refine (hrequire _ _ s₃).bind fun _ s₄ _ => ?_
  have hget : (exec (getCustomer customerId)).Guarantees Untouched :=
    guarantees_exec (getCustomer_guarantees customerId)
  refine (relies_untouched hget s₄).bind fun c s₅ _ => ?_
  have hsave : (recording (saveInactive c.id) fun _ _ => [.disabled c.id] :
      RecordingService Unit).Relies Follows Moves (fun _ _ => True) s₅ := by
    refine relies_recording fun s₆ u w _ hrun => ⟨?_, trivial⟩
    obtain ⟨hrows, htokens, hmail⟩ := saveCustomer_rows hrun
    exact @Moves.edited _ _ (.disabled c.id) rfl hrows htokens hmail rfl
  refine hsave.bind fun _ s₆ _ => ?_
  have hrevoke : (revokeAllSessions c.id).Guarantees Untouched := by
    refine revokeAllSessions_guarantees ?_
    intro w n w' h
    cases h
    exact ⟨rfl, rfl, rfl⟩
  refine (relies_untouched hrevoke s₆).bind fun _ s₇ _ => ?_
  refine (relies_untouched ?_ s₇).bind fun _ _ _ => trivial
  exact guarantees_exec (writeAuditLog_guarantees fun _ _ => ⟨rfl, rfl, rfl⟩)

/-- Every statement of an account call is one of the moves, whatever the others do in between. -/
theorem WriterCall.relies (call : WriterCall) (s : RecordedWorld) :
    call.recorded.Relies Follows Moves (fun _ _ => True) s := by
  cases call with
  | registerCustomer email password =>
      exact (recordRegister_relies email password s).bind fun _ _ _ => trivial
  | loginWithGoogle clientId reply =>
      unfold WriterCall.recorded recordLoginWithGoogle
      dsimp only
      cases verifyIdToken clientId reply with
      | error e => trivial
      | ok profile =>
          rw [ofExcept_ok, done_ok_bind, bind_assoc]
          refine (recordGoogleBlock_relies profile s).bind fun c s₁ _ => ?_
          rw [bind_assoc]
          exact (relies_untouched (issueSession_untouched c.id) s₁).bind fun _ _ _ => trivial
  | consume k rawToken => exact (recordConsume_relies k rawToken s).bind fun _ _ _ => trivial
  | requestPasswordReset email => exact recordPasswordReset_relies email s
  | requestEmailChange customer newEmail => exact recordEmailChange_relies customer newEmail s
  | updateLocalePreference customer locale currency =>
      exact (recordLocalePreference_relies customer locale currency s).bind fun _ _ _ => trivial
  | disableCustomer actor customerId reason request =>
      exact (recordDisable_relies actor customerId reason request s).bind fun _ _ _ => trivial

end Relies

/-! ## Runs -/

/-- Account calls, one statement at a time, with anything else in between that leaves customers,
tokens and mail alone, such as time passing. -/
def accountSystem : System (RecordingService Unit) RecordedWorld :=
  programSystem (recordedEnv Untouched)

/-- A pool of account calls. -/
abbrev AccountPool (ι : Type) := Pool ι (RecordingService Unit) RecordedWorld

section Runs

variable [PyText] {ι : Type} [DecidableEq ι] {w : World} {calls : ι → WriterCall}
  {P P' : AccountPool ι}

/-- No call has executed a statement yet. -/
def accountPool (w : World) (calls : ι → WriterCall) : AccountPool ι where
  store := { store := w }
  pc i := (calls i).recorded

/-- Runs of the account calls. -/
abbrev AccountRun (P P' : AccountPool ι) : Prop := accountSystem.Run (fun _ _ => True) P P'

/-- Every interleaving of the services is one of their recordings. -/
theorem exists_accountRun {Q : Pool ι (Service Unit) World}
    (h : (programSystem Untouched).Run (fun _ _ => True)
      { store := w, pc := fun i => (calls i).service } Q) :
    ∃ P, AccountRun (accountPool w calls) P ∧ P.store.store = Q.store := by
  have hrecords : ∀ i, ((accountPool w calls).pc i).Records (calls i).service :=
    fun i => (calls i).records
  obtain ⟨P, hrun, hstore, -⟩ := exists_recorded_run rfl hrecords h
  exact ⟨P, hrun, hstore⟩

omit [PyText] in
lemma accounts_relyGuarantee : accountSystem.RelyGuarantee Follows
    fun s p => p.Relies Follows Moves (fun _ _ => True) s :=
  programs_relyGuarantee (fun _ _ h => h.follows) fun _ _ h => (moves_of_env h).follows

lemma relies_of_run (h : AccountRun (accountPool w calls) P) (i : ι) :
    (P.pc i).Relies Follows Moves (fun _ _ => True) P.store :=
  accounts_relyGuarantee.knows (fun i => (calls i).relies _) h i

/-- Along a run, every customer is what the commits make of it. -/
theorem follows_of_run (h : AccountRun (accountPool w calls) P) (h' : AccountRun P P') :
    Follows P.store P'.store :=
  accounts_relyGuarantee.related (relies_of_run h) h'

/-- What every move keeps holds in every store of a run. -/
theorem holds_of_run {I : RecordedWorld → Prop} (hstart : I { store := w })
    (hmove : ∀ s s', I s → Moves s s' → I s') (h : AccountRun (accountPool w calls) P) :
    I P.store :=
  h.holds_of_relies (fun _ _ h => h.follows) (fun _ _ h => (moves_of_env h).follows)
    (fun i => (calls i).relies _) hstart hmove fun s s' hs h => hmove s s' hs (moves_of_env h)

end Runs

end BePyEco
