import BePyEco.Api.Ownership

/-!
# Where the tokens are mailed

Whoever holds a verification token may verify an address, replace a password or move an account to
another address, and a raw token leaves the application in a mail only.  `AddressedFor` says for
whom a mail with a token is: the customer of the token, at an address that is theirs, or the address
that the signed-in customer wants to move to.

`mail_addressed` says that every mail that a run sends is addressed like this, in any interleaving.
-/

namespace BePyEco

open Library

section Mails

variable [Libraries] {ι : Type} {work : ι → Work} {visited : Set World} {db : Database}

/-- The mail is a reply to a request, and goes to the mailbox that the token is about. -/
inductive AddressedFor (work : ι → Work) (visited : Set World) (m : Mail)
    (t : VerificationToken) : Prop
  | registered {i : ι} {request : HttpRequest} (hwork : work i = .http .register request)
      (hpurpose : t.purpose = .emailVerification) (hnew : NewCustomer visited t.customerId)
      (haddress : HasAddress visited t.customerId m.recipient) : AddressedFor work visited m t
  | forgotten {i : ι} {request : HttpRequest} {email : String}
      (hwork : work i = .http .requestPasswordReset request)
      (hpurpose : t.purpose = .passwordReset)
      (hemail : requestPasswordResetSerializer request.data = .ok email)
      (howner : AddressOf visited email t.customerId)
      (haddress : HasAddress visited t.customerId m.recipient) : AddressedFor work visited m t
  | moving {i : ι} {request : HttpRequest} {customer : Customer} {email : String}
      (hwork : work i = .http .requestEmailChange request) (hpurpose : t.purpose = .emailChange)
      (hsigned : SignedIn request visited (.customer customer))
      (howner : t.customerId = customer.id)
      (hemail : requestEmailChangeSerializer request.data = .ok email)
      (haddress : m.recipient = normalizeEmail email ∧ t.newEmail = m.recipient) :
      AddressedFor work visited m t

/-- A stored token is the one that the mail carries, and the mail is addressed for it. -/
structure CarriesOwn (work : ι → Work) (visited : Set World) (db : Database) (m : Mail)
    (t : VerificationToken) : Prop where
  stored : t ∈ db.verificationTokens.rows
  carried : ∀ t' ∈ db.verificationTokens.rows, t'.tokenHash = sha256 m.token ↔ t' = t
  addressed : AddressedFor work visited m t

/-- A token that was found stored is still stored, and the mail carries no other one. -/
lemma carriesOwn_of_found {m : Mail} {p : VerificationToken → Prop}
    (hkept : ∀ w ∈ visited, Permanent w.db db) (hcarries : Carries visited p m)
    (hp : ∀ t t' : VerificationToken, t'.customerId = t.customerId → t'.purpose = t.purpose →
      t'.newEmail = t.newEmail → p t → AddressedFor work visited m t') :
    ∃ t, CarriesOwn work visited db m t := by
  obtain ⟨w, hw, t, ht, hhash, hpt⟩ := hcarries
  obtain ⟨t', ht', hkeeps⟩ := (hkept w hw).verificationTokens t ht
  have howner : t'.customerId = t.customerId := congrArg (fun k => k.2.1) hkeeps.1
  have hpurpose : t'.purpose = t.purpose := congrArg (fun k => k.2.2.1) hkeeps.1
  have hnewEmail : t'.newEmail = t.newEmail := congrArg (fun k => k.2.2.2.2.1) hkeeps.1
  have hhash' : t'.tokenHash = sha256 m.token :=
    (congrArg (fun k => k.2.2.2.1) hkeeps.1).trans hhash
  refine ⟨t', ht', fun u hu => ⟨fun hcarried => ?_, fun heq => heq ▸ hhash'⟩,
    hp t t' howner hpurpose hnewEmail hpt⟩
  exact db.verificationTokens.eq_of_conflicts hu ht' (decide_eq_true (hcarried.trans hhash'.symm))

/-- A mail that a piece of work may send, read at a database that has kept what was found. -/
lemma carriesOwn_of_mail {i : ι} {found : Set World} {m : Mail}
    (hmail : ((work i).policy found).mails m) (hsub : found ⊆ visited)
    (hkept : ∀ w ∈ visited, Permanent w.db db) : ∃ t, CarriesOwn work visited db m t := by
  cases hwork : work i with
  | http endpoint request =>
      rw [hwork] at hmail
      cases endpoint
      case register =>
        obtain ⟨customerId, hnew, haddress, hcarries⟩ := hmail
        refine carriesOwn_of_found hkept (hcarries.mono hsub) ?_
        rintro t t' howner hkept - ⟨hpurpose, rfl⟩
        rw [← howner] at hnew haddress
        obtain ⟨w, hw, hnext⟩ := hnew
        exact .registered hwork (hkept.trans hpurpose) ⟨w, hsub hw, hnext⟩ (haddress.mono hsub)
      case requestPasswordReset =>
        obtain ⟨email, customerId, hemail, howner, haddress, hcarries⟩ := hmail
        refine carriesOwn_of_found hkept (hcarries.mono hsub) ?_
        rintro t t' hsame hkept - ⟨hpurpose, rfl⟩
        rw [← hsame] at howner haddress
        exact .forgotten hwork (hkept.trans hpurpose) hemail (howner.mono hsub)
          (haddress.mono hsub)
      case requestEmailChange =>
        obtain ⟨⟨customer, hsigned⟩, email, hemail, hrecipient, hcarries⟩ := hmail
        refine carriesOwn_of_found hkept (hcarries.mono hsub) ?_
        rintro t t' hsame hkept hkeeps ⟨hpurpose, howner, haddress⟩
        exact .moving hwork (hkept.trans hpurpose) (hsigned.mono hsub) (hsame.trans howner) hemail
          ⟨hrecipient, hkeeps.trans haddress⟩
      all_goals first | exact hmail.elim | exact hmail.elim fun _ h => h.elim
  | internal call =>
      rw [hwork] at hmail
      cases call <;> exact hmail.elim
  | createMasterAdmin email password =>
      rw [hwork] at hmail
      exact hmail.elim
  | seedSupportedCountries uuid =>
      rw [hwork] at hmail
      exact hmail.elim

/-- In any interleaving of any work, every mail that is sent carries one stored token, and goes to
the mailbox that this token is about. -/
theorem mail_addressed [DecidableEq ι] {w : World} {P : Pool ι (Service (Option Answer)) World}
    (h : ApiVisits (apiPool w work) visited P) {m : Mail} (hm : m ∈ P.store.mailbox) :
    m ∈ w.mailbox ∨ ∃ t, CarriesOwn work visited P.store.db m t := by
  obtain ⟨sent, hsent, hmay⟩ := (run_allows_start h).mails
  rw [hsent, List.mem_append] at hm
  obtain hm | hm := hm
  · obtain ⟨source, hmail⟩ := hmay m hm
    cases source with
    | none => exact hmail.elim
    | some s =>
        obtain ⟨i, found, hsub⟩ := s
        exact Or.inr (carriesOwn_of_mail hmail hsub fun _ => permanent_of_visited .refl h)
  · exact Or.inl hm

end Mails

section Example

attribute [local instance] plainLibraries

/-- The mail to the customer who has registered. -/
lemma mail_addressed_newcomer : ∃ visited,
    ApiVisits (apiPool openingWorld errands) visited errandsDone ∧
      ∃ m ∈ errandsDone.store.mailbox, m.recipient = "c@example.com" ∧
        ∃ t, CarriesOwn errands visited errandsDone.store.db m t := by
  have hmail : ∃ m ∈ errandsDone.store.mailbox, m.recipient = "c@example.com" ∧
      m ∉ openingWorld.mailbox := by decide
  obtain ⟨m, hm, hrecipient, hnew⟩ := hmail
  obtain ⟨visited, h⟩ := (rootEnrolled_run.trans errandsDone_run).visits
  exact ⟨visited, h, m, hm, hrecipient, (mail_addressed h hm).resolve_left hnew⟩

end Example

end BePyEco
