import BePyEco.Api.Answers
import BePyEco.Api.Permanence

/-!
# Revocation holds across requests

Whatever a request looks up, it looks up after it has begun.  What was settled by then is settled in
every database that it finds, so no answer rests on an account that was disabled, on a session that
was revoked or on a token that was consumed before the request began, whatever else is under way
(`revocations_hold`).
-/

namespace BePyEco

open Library

section Late

variable [Libraries] {ι : Type} [DecidableEq ι] {w : World} {work : ι → Work}
  {P Q : Pool ι (Service (Option Answer)) World} {visited : Set World}

/-- The response to a request that has not begun yet is earned by what is found from here on. -/
lemma answer_earned_since (h : ApiVisits P visited Q) {i : ι} {endpoint : Endpoint}
    {request : HttpRequest} {response : Response}
    (hlate : P.pc i = (Work.http endpoint request).program)
    (hdone : Q.pc i = .done (.ok (some (.response response)))) :
    ∃ found ⊆ visited, endpoint.Earned request found response := by
  have hearns : ∀ j, (P.pc j).Earns Program.anyMove (fun answer found =>
      j = i → (Work.http endpoint request).ResultEarned answer found) ∅ := by
    intro j
    by_cases hj : j = i
    · rw [hj, hlate]
      exact (Work.program_answers _).imp fun _ _ _ hearned _ => hearned
    · exact (Program.earns_anyMove _ ∅).imp fun _ _ _ _ heq => absurd heq hj
  obtain ⟨found, hfound, hearned⟩ := h.earned_result hearns hdone
  exact ⟨found, hfound, hearned rfl endpoint request (.response response) rfl rfl⟩

/-- The evidence of a request rests on nothing that is settled in the database. -/
structure RestsOnNothingSettled (db : Database) (request : HttpRequest) (found : Set World) :
    Prop where
  signedIn : ∀ customer, SignedIn request found (.customer customer) →
    ∀ c ∈ db.customers.rows, c.id = customer.id → c.isActive = true
  address : ∀ email customerId, AddressOf found email customerId →
    ∀ c ∈ db.customers.rows, c.id = customerId → c.isActive = true
  session : ∀ session, Refreshes request found session →
    ∀ s ∈ db.sessions.rows, s.id = session.id → s.revokedAt = none
  token : ∀ purpose token, Presents request found purpose token →
    ∀ t ∈ db.verificationTokens.rows, t.id = token.id → t.consumedAt = none

lemma restsOnNothingSettled {db : Database} {request : HttpRequest} {found : Set World}
    (hkept : ∀ w ∈ found, Permanent db w.db) : RestsOnNothingSettled db request found := by
  have hactive : ∀ w ∈ found, ∀ customer ∈ w.db.customers.rows, customer.isActive = true →
      ∀ c ∈ db.customers.rows, c.id = customer.id → c.isActive = true := by
    intro w hw customer hcustomer hactive c hc hid
    obtain ⟨c', hc', hkeeps⟩ := (hkept w hw).customers c hc
    obtain rfl := w.db.customers.eq_of_pk hc' hcustomer (hkeeps.1.trans hid)
    by_contra hdisabled
    have hstill := hkeeps.2 (fun c => c.isActive = false) (by simp) (by simpa using hdisabled)
    rw [hactive] at hstill
    cases hstill
  refine ⟨?_, ?_, ?_, ?_⟩
  · intro customer hsigned
    obtain ⟨w, hw, hcaller⟩ := hsigned.caller
    exact hactive w hw customer hcaller.active.1 hcaller.active.2
  · rintro email customerId ⟨w, hw, customer, hcustomer, hlookup, rfl⟩
    rw [activeByEmail, Bool.and_eq_true] at hlookup
    exact hactive w hw customer hcustomer hlookup.2
  · intro session hrefreshes s hs hid
    obtain ⟨w₁, hw₁, hlive⟩ := hrefreshes.active
    obtain ⟨text, refresh, -, -, -, w, hw, hstored, -⟩ := hrefreshes.stored
    obtain ⟨s', hs', hkeeps⟩ := (hkept w hw).sessions s hs
    have hid' : s'.id = s.id := congrArg Prod.fst hkeeps.1
    obtain rfl := w.db.sessions.eq_of_pk hs' hstored (hid'.trans hid)
    by_contra hrevoked
    exact hkeeps.2 (fun s => s.revokedAt ≠ none) (by simp) hrevoked (Session.isActive_iff.1 hlive).1
  · intro purpose token hpresents t ht hid
    obtain ⟨raw, -, w, hw, hstored, hconsumable⟩ := hpresents.stored
    obtain ⟨t', ht', hkeeps⟩ := (hkept w hw).verificationTokens t ht
    have hid' : t'.id = t.id := congrArg Prod.fst hkeeps.1
    obtain rfl := w.db.verificationTokens.eq_of_pk ht' hstored (hid'.trans hid)
    simp only [consumable, Bool.and_eq_true, decide_eq_true_eq] at hconsumable
    by_contra hconsumed
    exact hkeeps.2 (fun t => t.consumedAt ≠ none) (by simp) hconsumed hconsumable.2

/-- In any interleaving of any work, the response to a request that begins at some point of the run
rests on no account that is disabled there, no session that is revoked there and no token that is
consumed there. -/
theorem revocations_hold (h : ApiRun (apiPool w work) P) (h' : ApiVisits P visited Q) {i : ι}
    {endpoint : Endpoint} {request : HttpRequest} {response : Response}
    (hlate : P.pc i = (Work.http endpoint request).program)
    (hdone : Q.pc i = .done (.ok (some (.response response)))) :
    ∃ found ⊆ visited, endpoint.Earned request found response ∧
      RestsOnNothingSettled P.store.db request found := by
  obtain ⟨found, hfound, hearned⟩ := answer_earned_since h' hlate hdone
  exact ⟨found, hfound, hearned, restsOnNothingSettled fun w' hw' =>
    permanent_to_visited h h' (hfound hw')⟩

end Late

section Example

attribute [local instance] plainLibraries

/-- The second customer asks for the profile, when the first one has been disabled. -/
def bySecondCustomer : HttpRequest where
  authorization := .signed { userId := 1, actorType := some .customer, exp := 900 }
  data := .null
  context := { remoteAddr := none, id := 2 }

def profileRequest : Pool Unit (Service (Option Answer)) World :=
  apiPool errandsDone.store fun _ => .http .me bySecondCustomer

def profileAnswered : Pool Unit (Service (Option Answer)) World :=
  (programSystem Surroundings).replay (fun _ _ => true)
    profileRequest [(), ()] (by decide)

lemma revocations_hold_secondCustomer :
    (∃ c ∈ errandsDone.store.db.customers.rows, c.isActive = false) ∧
      ∃ visited, ApiVisits profileRequest visited profileAnswered ∧ ∃ response, ∃ found ⊆ visited,
        Endpoint.me.Earned bySecondCustomer found response ∧
          RestsOnNothingSettled errandsDone.store.db bySecondCustomer found := by
  have hrun : ApiRun profileRequest profileAnswered := System.run_replay (fun _ _ _ => trivial) _
  have hdone : ∃ response, profileAnswered.pc () = .done (.ok (some (.response response))) :=
    ⟨_, rfl⟩
  obtain ⟨response, hdone⟩ := hdone
  obtain ⟨visited, hvisits⟩ := hrun.visits
  exact ⟨by decide, visited, hvisits, response, revocations_hold .refl hvisits rfl hdone⟩

end Example

end BePyEco
