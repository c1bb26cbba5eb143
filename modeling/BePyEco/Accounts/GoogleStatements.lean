import BePyEco.Accounts.Customers

/-!
# Google login, statement by statement

The transaction of `login_with_google` reads before it writes, and others may commit in between:
each of its reads sees what was committed when it is made, and its writes become visible together,
at its commit.  `loginWithGoogleByStatement` is the service with each read as a statement of its
own; alone it is `loginWithGoogle` (`run_loginWithGoogleByStatement`).

A customer with the address may be inserted between the read that does not find it and the insert;
`get_or_create` then reads again.
-/

namespace BePyEco

open Library

/-! ## Reads -/

/-- The customer of a known Google identity, `none` when there is not. -/
def findGoogleCustomer (subjectId : String) : Statement (Option Customer) :=
  (do let customer ← getGoogleCustomer subjectId
      return some customer : Statement (Option Customer)).handling .doesNotExist (pure none)

/-- The first read of `get_or_create`. -/
def findCustomer (email : String) : Statement (Option Customer) :=
  (do let customer ← Objects.get (byEmail email)
      return some customer : Statement (Option Customer)).handling .doesNotExist (pure none)

/-- The read of `get_or_create` after its insert has met a conflict. -/
def getCustomerAgain (email : String) : Statement Customer :=
  (Objects.get (byEmail email)).handling .doesNotExist (Tx.raise (.db .integrityError))

/-! ## Writes -/

/-- What the transaction commits when `get_or_create` has returned a customer who was there. -/
def linkExisting (profile : GoogleProfile) (customer : Customer) : Statement Customer := do
  Tx.require profile.emailVerified .googleEmailNotVerified
  let customer ← verifyLinkedEmail customer false profile.emailVerified
  let _ ← createGoogleMethod customer.id profile.subjectId
  return customer

/-- The insert of `get_or_create`, `none` when it meets a conflict. -/
def insertGoogleCustomer (profile : GoogleProfile) : Statement (Option Customer) :=
  (do let now ← timezoneNow
      let customer ← Objects.create fun id => ({
        id := id
        email := profile.email
        emailVerifiedAt := if profile.emailVerified then some now else none } : Customer)
      return some customer : Statement (Option Customer)).handling .integrityError (pure none)

/-- What the transaction commits when `get_or_create` has found nobody. -/
def linkInserted (profile : GoogleProfile) : Statement (Option Customer) := do
  match ← insertGoogleCustomer profile with
  | none => return none
  | some customer =>
    let _ ← createGoogleMethod customer.id profile.subjectId
    return some customer

/-- The first login with a Google identity. -/
def linkGoogleByStatement (profile : GoogleProfile) : Service Customer := do
  match ← findCustomer profile.email with
  | some customer => linkExisting profile customer
  | none =>
    match ← linkInserted profile with
    | some customer => return customer
    | none =>
      let customer ← getCustomerAgain profile.email
      linkExisting profile customer

def googleBlockByStatement (profile : GoogleProfile) : Service Customer := do
  match ← findGoogleCustomer profile.subjectId with
  | some customer => return customer
  | none => linkGoogleByStatement profile

def loginWithGoogleByStatement [PyText] (clientId : String) (reply : TokeninfoReply) :
    Service (Customer × AccessToken × RefreshToken) := do
  let profile ← Program.ofExcept (verifyIdToken clientId reply)
  let customer ← googleBlockByStatement profile
  let tokens ← issueSession customer.id
  return (customer, tokens)

/-! ## Alone -/

section Alone

variable {profile : GoogleProfile} {w : World}

/-- The two reads of a customer by email, and what they find. -/
lemma findCustomer_run (email : String) (w : World) :
    (∃ c, (Objects.get (byEmail email) : Statement Customer).run w = .ok (c, w) ∧
      (findCustomer email).run w = .ok (some c, w)) ∨
    ((∀ c ∈ w.db.customers.rows, byEmail email c = false) ∧
      (findCustomer email).run w = .ok (none, w)) := by
  have huniq : ∀ a ∈ w.db.customers.rows, ∀ b ∈ w.db.customers.rows,
      byEmail email a = true → byEmail email b = true → a = b := by
    intro a ha b hb hpa hpb
    refine w.db.customers.eq_of_conflicts ha hb (decide_eq_true ?_)
    exact (of_decide_eq_true hpa).trans (of_decide_eq_true hpb).symm
  obtain ⟨c, -, -, hget⟩ | hnone := Table.get_cases huniq
  · have hrun : (Objects.get (byEmail email) : Statement Customer).run w = .ok (c, w) :=
      Objects.run_get_of_ok hget
    refine Or.inl ⟨c, hrun, Tx.run_handling_ok ?_⟩
    rw [Tx.run_bind, hrun]
    rfl
  · refine Or.inr ⟨Table.get_eq_doesNotExist_iff.1 hnone, ?_⟩
    refine (Tx.run_handling_error ?_).trans rfl
    rw [Tx.run_bind, Objects.run_get_of_error hnone]

/-- The insert of a customer whose email nobody has is not refused for a conflict. -/
lemma insert_ne_integrityError {mk : ℕ → Customer} {hpk : ∀ i, Model.pk (mk i) = i}
    (hnone : ∀ c ∈ w.db.customers.rows, c.email ≠ (mk w.db.customers.next).email) :
    (Objects.create mk hpk : Statement Customer).run w ≠ .error (.db .integrityError) := by
  intro hrun
  have hfree : ∀ c ∈ w.db.customers.rows, Model.conflicts c (mk w.db.customers.next) = false :=
    fun c hc => decide_eq_false (hnone c hc)
  by_cases hfits : Model.fits (mk w.db.customers.next) = true
  · obtain ⟨t, hcreate, -⟩ := @Objects.run_create_of_free World ApiError Customer _ _ mk hpk w
      hfits hfree
    rw [hcreate] at hrun
    cases hrun
  · rw [Bool.not_eq_true] at hfits
    have hcreate := @Objects.run_create_of_too_wide World ApiError Customer _ _ mk hpk w hfits
    rw [hcreate] at hrun
    cases hrun

/-- Alone, nobody inserts a customer between the read and the insert. -/
lemma linkInserted_run (hnone : ∀ c ∈ w.db.customers.rows, byEmail profile.email c = false) :
    (linkInserted profile).run w =
      match (linkGoogle profile).run w with
      | .ok (c, w') => .ok (some c, w')
      | .error e => .error e := by
  let mk : ℕ → Customer := fun id => {
    id := id
    email := profile.email
    emailVerifiedAt := if profile.emailVerified then some w.now else none }
  have hpk : ∀ i, Model.pk (mk i) = i := fun _ => rfl
  have hget : (do let customer ← Objects.get (byEmail profile.email)
                  return (customer, false) : Statement (Customer × Bool)).run w =
      .error (.db .doesNotExist) := by
    rw [Tx.run_bind, Objects.run_get_of_error (Table.get_eq_doesNotExist_iff.2 hnone)]
  have hnot : (Objects.create mk hpk : Statement Customer).run w ≠ .error (.db .integrityError) :=
    insert_ne_integrityError fun c hc => of_decide_eq_false (hnone c hc)
  cases hcreate : (Objects.create mk hpk : Statement Customer).run w with
  | ok r =>
      have hsome : (insertGoogleCustomer profile).run w = .ok (some r.1, r.2) := by
        refine Tx.run_handling_ok ?_
        rw [Tx.run_bind, run_timezoneNow]
        dsimp only
        rw [Tx.run_bind, hcreate]
        rfl
      have hcreated : (getOrCreateCustomer profile.email profile.emailVerified).run w =
          .ok ((r.1, true), r.2) := by
        refine (Tx.run_handling_error hget).trans ?_
        rw [Tx.run_bind, run_timezoneNow]
        dsimp only
        rw [Tx.run_bind, hcreate]
        rfl
      unfold linkInserted linkGoogle
      rw [Tx.run_bind, hsome, Tx.run_bind, hcreated]
      change ((createGoogleMethod r.1.id profile.subjectId >>= fun _ => pure (some r.1) :
        Statement (Option Customer)).run r.2) = match (createGoogleMethod r.1.id profile.subjectId
          >>= fun _ => pure r.1 : Statement Customer).run r.2 with
        | .ok (c, w') => .ok (some c, w')
        | .error e => .error e
      rw [Tx.run_bind, Tx.run_bind]
      cases (createGoogleMethod r.1.id profile.subjectId).run r.2 with
      | ok m => rfl
      | error e => rfl
  | error e =>
      rw [hcreate] at hnot
      have hne : e ≠ .db .integrityError := fun heq => hnot (congrArg Except.error heq)
      have herror : (insertGoogleCustomer profile).run w = .error e := by
        refine Tx.run_handling_of_ne ?_ hne
        rw [Tx.run_bind, run_timezoneNow]
        dsimp only
        rw [Tx.run_bind, hcreate]
      have hfailed : (getOrCreateCustomer profile.email profile.emailVerified).run w =
          .error e := by
        refine (Tx.run_handling_error hget).trans ?_
        rw [Tx.run_bind, run_timezoneNow]
        dsimp only
        rw [Tx.run_bind, hcreate]
      unfold linkInserted linkGoogle
      rw [Tx.run_bind, herror, Tx.run_bind, hfailed]

lemma run_linkGoogleByStatement (profile : GoogleProfile) (w : World) :
    (linkGoogleByStatement profile).run w = (linkGoogle profile).exec w := by
  unfold linkGoogleByStatement
  rw [Program.run_bind, Program.liftM_eq, Program.run_exec]
  obtain ⟨c, hget, hfind⟩ | ⟨hnone, hfind⟩ := findCustomer_run profile.email w
  · -- the customer was there
    have hgot : (getOrCreateCustomer profile.email profile.emailVerified).run w =
        .ok ((c, false), w) := by
      refine Tx.run_handling_ok ?_
      rw [Tx.run_bind, hget]
      rfl
    have hlink : (linkGoogle profile).run w = (linkExisting profile c).run w := by
      unfold linkGoogle
      rw [Tx.run_bind, hgot]
      rfl
    rw [Tx.exec_ok hfind, Tx.exec, hlink]
    rfl
  · rw [Tx.exec_ok hfind]
    dsimp only
    rw [Program.run_bind, Program.liftM_eq, Program.run_exec]
    have hinserted := linkInserted_run hnone
    cases hlink : (linkGoogle profile).run w with
    | ok r =>
        rw [hlink] at hinserted
        rw [Tx.exec_ok hinserted, Tx.exec_ok hlink]
        rfl
    | error e =>
        rw [hlink] at hinserted
        rw [Tx.exec_error hinserted, Tx.exec_error hlink]

lemma run_googleBlockByStatement (profile : GoogleProfile) (w : World) :
    (googleBlockByStatement profile).run w = (googleBlock profile).exec w := by
  unfold googleBlockByStatement
  rw [Program.run_bind, Program.liftM_eq, Program.run_exec]
  cases hget : (getGoogleCustomer profile.subjectId).run w with
  | ok r =>
      have hfind : (findGoogleCustomer profile.subjectId).run w = .ok (some r.1, r.2) := by
        refine Tx.run_handling_ok ?_
        rw [Tx.run_bind, hget]
        rfl
      have hblock : (googleBlock profile).run w = .ok (r.1, r.2) := Tx.run_handling_ok hget
      rw [Tx.exec_ok hfind, Tx.exec_ok hblock]
      rfl
  | error e =>
      have hread : (do let customer ← getGoogleCustomer profile.subjectId
                       return some customer : Statement (Option Customer)).run w = .error e := by
        rw [Tx.run_bind, hget]
      by_cases he : e = .db .doesNotExist
      · rw [he] at hget hread
        have hfind : (findGoogleCustomer profile.subjectId).run w = .ok (none, w) :=
          (Tx.run_handling_error hread).trans rfl
        have hblock : (googleBlock profile).run w = (linkGoogle profile).run w :=
          Tx.run_handling_error hget
        rw [Tx.exec_ok hfind, Tx.exec, hblock]
        exact run_linkGoogleByStatement profile w
      · have hfind : (findGoogleCustomer profile.subjectId).run w = .error e :=
          Tx.run_handling_of_ne hread he
        have hblock : (googleBlock profile).run w = .error e := Tx.run_handling_of_ne hget he
        rw [Tx.exec_error hfind, Tx.exec_error hblock]

/-- Alone, the service by statement is the service. -/
theorem run_loginWithGoogleByStatement [PyText] (clientId : String) (reply : TokeninfoReply)
    (w : World) :
    (loginWithGoogleByStatement clientId reply).run w =
      (loginWithGoogle clientId reply).run w := by
  unfold loginWithGoogleByStatement loginWithGoogle
  cases verifyIdToken clientId reply with
  | error e => rfl
  | ok profile =>
      rw [Program.ofExcept_ok, Program.done_ok_bind, Program.done_ok_bind, Program.run_bind,
        Program.run_bind, run_googleBlockByStatement, Program.liftM_eq, Program.run_exec]

end Alone

end BePyEco
