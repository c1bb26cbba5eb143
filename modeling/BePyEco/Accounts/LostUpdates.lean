import BePyEco.Accounts.CustomerWrites

/-!
# No lost update on a customer

The services save instances that they have loaded before other calls committed, but each saves
only its own columns.  Between any two states of a run, whatever the interleaving, a customer has
become what the committed writes make of it (`noLostUpdate_of_run`): a disabled one stays disabled,
the email is that of the last email change, locale and currency are those of the last preference,
and a verified email stays verified.
-/

namespace BePyEco

open Library

/-! ## The columns -/

namespace Commit

/-- The email that the commit gives the customer. -/
def emailFor (customerId : Id) : Commit → Option String
  | consumed .confirmEmailChange _ t _ =>
    if t.customerId = customerId then some t.newEmail else none
  | _ => none

/-- The locale and currency that the commit gives the customer. -/
def preferenceFor (customerId : Id) : Commit → Option (String × String)
  | preferred id locale currency => if id = customerId then some (locale, currency) else none
  | _ => none

/-- The commit disables the customer. -/
def disables (customerId : Id) : Commit → Bool
  | disabled id => decide (id = customerId)
  | _ => false

section Columns

variable (entry : Commit) (c : Customer)

@[simp] lemma apply_id : (entry.apply c).id = c.id := by
  cases entry with
  | consumed k rawToken t now => cases k <;> grind [apply, setEmail]
  | _ => grind [apply, setPreference]

lemma apply_isActive : (entry.apply c).isActive = (c.isActive && !entry.disables c.id) := by
  cases entry with
  | consumed k rawToken t now => cases k <;> grind [apply, setEmail, disables]
  | _ => grind [apply, setPreference, disables]

lemma apply_email : (entry.apply c).email = (entry.emailFor c.id).getD c.email := by
  cases entry with
  | consumed k rawToken t now => cases k <;> grind [apply, setEmail, emailFor]
  | _ => grind [apply, setPreference, emailFor]

lemma apply_preference : ((entry.apply c).preferredLocale, (entry.apply c).preferredCurrency) =
    (entry.preferenceFor c.id).getD (c.preferredLocale, c.preferredCurrency) := by
  cases entry with
  | consumed k rawToken t now => cases k <;> grind [apply, setEmail, preferenceFor]
  | _ => grind [apply, setPreference, preferenceFor]

lemma apply_verified (h : c.isEmailVerified = true) : (entry.apply c).isEmailVerified = true := by
  cases entry with
  | consumed k rawToken t now =>
      cases k <;> grind [apply, setEmail, Customer.isEmailVerified]
  | _ => grind [apply, setPreference, Customer.isEmailVerified]

end Columns

end Commit

/-! ## Replayed -/

/-- The last email that the log gives the customer, or the one that it had. -/
def lastEmail (log : List Commit) (c : Customer) : String :=
  (log.findSome? (Commit.emailFor c.id)).getD c.email

/-- The last locale and currency that the log gives the customer, or those that it had. -/
def lastPreference (log : List Commit) (c : Customer) : String × String :=
  (log.findSome? (Commit.preferenceFor c.id)).getD (c.preferredLocale, c.preferredCurrency)

section Replay

variable (log : List Commit) (c : Customer)

lemma replay_id : (replay Commit.apply log c).id = c.id := by
  induction log with
  | nil => rfl
  | cons entry log ih => exact (entry.apply_id _).trans ih

lemma replay_isActive (h : c.isActive = false ∨ .disabled c.id ∈ log) :
    (replay Commit.apply log c).isActive = false := by
  induction log with
  | nil =>
      have hinactive : c.isActive = false := by simpa using h
      exact hinactive
  | cons entry log ih =>
      have hhead : (replay Commit.apply (entry :: log) c).isActive =
          ((replay Commit.apply log c).isActive &&
            !entry.disables (replay Commit.apply log c).id) := entry.apply_isActive _
      rw [hhead, replay_id, Bool.and_eq_false_iff]
      obtain hinactive | hdisabled := h
      · exact Or.inl (ih (Or.inl hinactive))
      · obtain rfl | hdisabled := List.mem_cons.1 hdisabled
        · simp [Commit.disables]
        · exact Or.inl (ih (Or.inr hdisabled))

lemma replay_email : (replay Commit.apply log c).email = lastEmail log c := by
  induction log with
  | nil => rfl
  | cons entry log ih =>
      have hhead : (replay Commit.apply (entry :: log) c).email =
          (entry.emailFor (replay Commit.apply log c).id).getD
            (replay Commit.apply log c).email := entry.apply_email _
      rw [hhead, replay_id, ih, lastEmail, lastEmail, List.findSome?_cons]
      cases entry.emailFor c.id with
      | some email => rfl
      | none => rfl

lemma replay_preference :
    ((replay Commit.apply log c).preferredLocale, (replay Commit.apply log c).preferredCurrency) =
      lastPreference log c := by
  induction log with
  | nil => rfl
  | cons entry log ih =>
      have hhead := entry.apply_preference (replay Commit.apply log c)
      rw [replay_id, ih] at hhead
      refine hhead.trans ?_
      rw [lastPreference, lastPreference, List.findSome?_cons]
      cases entry.preferenceFor c.id with
      | some preference => rfl
      | none => rfl

lemma replay_verified (h : c.isEmailVerified = true) :
    (replay Commit.apply log c).isEmailVerified = true := by
  induction log with
  | nil => exact h
  | cons entry log ih => exact entry.apply_verified _ ih

end Replay

/-! ## Runs -/

/-- What a customer `c` has become in `c'` while the calls committed `newer`. -/
structure NoLostUpdate (newer : List Commit) (c c' : Customer) : Prop where
  id : c'.id = c.id
  disabled : c.isActive = false ∨ .disabled c.id ∈ newer → c'.isActive = false
  email : c'.email = lastEmail newer c
  preference : (c'.preferredLocale, c'.preferredCurrency) = lastPreference newer c
  verified : c.emailVerifiedAt ≠ none → c'.emailVerifiedAt ≠ none

lemma noLostUpdate_replay (newer : List Commit) (c : Customer) :
    NoLostUpdate newer c (replay Commit.apply newer c) where
  id := replay_id newer c
  disabled := replay_isActive newer c
  email := replay_email newer c
  preference := replay_preference newer c
  verified h := by
    have hverified := replay_verified newer c (Option.isSome_iff_ne_none.2 h)
    exact Option.isSome_iff_ne_none.1 hverified

section Runs

variable [PyText] {ι : Type} [DecidableEq ι] {w : World} {calls : ι → WriterCall}
  {P P' : AccountPool ι}

/-- Between any two states of a run, no write to a customer is lost. -/
theorem noLostUpdate_of_run (h : AccountRun (accountPool w calls) P) (h' : AccountRun P P') :
    ∃ newer, P'.store.log = newer ++ P.store.log ∧ ∀ c ∈ P.store.store.db.customers.rows,
      ∃ c' ∈ P'.store.store.db.customers.rows, NoLostUpdate newer c c' := by
  obtain ⟨newer, hlog, hrows⟩ := (follows_of_run h h').customers
  exact ⟨newer, hlog, fun c hc => ⟨_, hrows c hc, noLostUpdate_replay newer c⟩⟩

end Runs

section Example

attribute [local instance] plainText

/-- A customer who has asked for an email change, in a country. -/
def prepareChange : Service Unit := do
  let (customer, _) ← registerCustomer "a@example.com" "teapot-on-fire"
  requestEmailChange customer "b@example.com"
  let _ ← (Objects.create fun id => {
    id := id
    uuid := 0
    code := "VN"
    defaultLocale := "vi"
    allowedLocales := ["vi"]
    allowedCurrencies := ["VND"] } : Statement SupportedCountry)

/-- The email change, and a preference that is saved with an instance from before. -/
def changeAndPrefer : Fin 2 → WriterCall
  | 0 => .consume .confirmEmailChange 1
  | 1 => .updateLocalePreference { id := 0, email := "a@example.com" } "vi" "VND"

/-- Both writes are kept, although each call has loaded the row before the other has saved it. -/
theorem noLostUpdate_of_change_and_preference : ∃ P : AccountPool (Fin 2),
    P.store.store.db.customers.rows = [{
      id := 0
      email := "b@example.com"
      emailVerifiedAt := some 0
      preferredLocale := "vi"
      preferredCurrency := "VND" }] ∧
    ∃ newer, P.store.log = newer ++ [] ∧ ∀ c ∈ (prepareChange.run {}).2.db.customers.rows,
      ∃ c' ∈ P.store.store.db.customers.rows, NoLostUpdate newer c c' := by
  have h : (accountSystem.execute (fun _ _ => true) (accountPool (prepareChange.run {}).2
      changeAndPrefer) [1, 0, 0, 1, 0]).map
      (fun P => decide (P.store.store.db.customers.rows = [{
        id := 0
        email := "b@example.com"
        emailVerifiedAt := some 0
        preferredLocale := "vi"
        preferredCurrency := "VND" }])) = some true := by decide
  obtain ⟨P, hrun, hrows⟩ := System.exists_run_of_execute (fun _ _ _ => trivial) h
  exact ⟨P, of_decide_eq_true hrows, noLostUpdate_of_run .refl hrun⟩

end Example

end BePyEco
