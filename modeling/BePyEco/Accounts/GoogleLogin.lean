import BePyEco.Accounts.Customers

/-!
# The transaction block of a Google login

`googleBlock_ok` says what the block did when it returned: it found the customer of a known Google
identity, or it linked the identity to a customer that it found or created.
-/

namespace BePyEco

open Library

/-- The Google identity is linked to the customer. -/
def IsLinkedTo (w : World) (subjectId : String) (customerId : Id) : Prop :=
  ∃ m ∈ w.db.loginMethods.rows, googleMethod subjectId m = true ∧ m.customerId = customerId

/-- The customer that `get_or_create` creates. -/
def newGoogleCustomer (w : World) (email : String) (emailVerified : Bool) : Customer where
  id := w.db.customers.next
  email := email
  emailVerifiedAt := if emailVerified then some w.now else none

/-- The customer was stored under the address of the profile, which Google has verified; the block
verifies the email of a customer who had not. -/
structure LinkedExisting (profile : GoogleProfile) (c : Customer) (w w' : World) : Prop where
  stored : c ∈ w.db.customers.rows
  email : c.email = profile.email
  verified : profile.emailVerified = true
  customers :
    (c.isEmailVerified = true ∧ w'.db.customers = w.db.customers) ∨
    (c.isEmailVerified = false ∧ w'.db.customers.rows = w.db.customers.rewritten
      (fun c' => c'.id == c.id) fun c' => { c' with emailVerifiedAt := some w.now })

/-- The customer was created. -/
structure LinkedNew (profile : GoogleProfile) (w w' : World) : Prop where
  free : ∀ c ∈ w.db.customers.rows, c.email ≠ profile.email
  customers : w'.db.customers.rows = w.db.customers.rows ++
    [newGoogleCustomer w profile.email profile.emailVerified]

/-- The world after the first login with a Google identity. -/
structure Linked (profile : GoogleProfile) (customerId : Id) (w w' : World) : Prop where
  fits : profile.subjectId.length ≤ 255
  unlinked : ∀ m ∈ w.db.loginMethods.rows,
    googleMethod profile.subjectId m = false ∧ loginMethodOf customerId .google m = false
  customer : (∃ c, c.id = customerId ∧ LinkedExisting profile c w w') ∨
    (customerId = w.db.customers.next ∧ LinkedNew profile w w')
  methods : w'.db.loginMethods.rows = w.db.loginMethods.rows ++ [{
    id := w.db.loginMethods.next
    customerId := customerId
    provider := .google
    providerSubjectId := profile.subjectId }]
  frame : w' = { w with db := { w.db with
    customers := w'.db.customers
    loginMethods := w'.db.loginMethods } }

section Block

variable {profile : GoogleProfile} {w w' : World} {c : Customer}

/-- The customer of `get_or_create` was there, or was created. -/
lemma getOrCreateCustomer_ok {email : String} {emailVerified created : Bool}
    (h : (getOrCreateCustomer email emailVerified).run w = .ok ((c, created), w')) :
    (created = false ∧ w' = w ∧ c ∈ w.db.customers.rows ∧ c.email = email) ∨
      (created = true ∧ c = newGoogleCustomer w email emailVerified ∧
        (∀ c' ∈ w.db.customers.rows, c'.email ≠ email) ∧
        w'.db.customers.rows = w.db.customers.rows ++ [c] ∧
        w' = { w with db := { w.db with customers := w'.db.customers } }) := by
  obtain hget | ⟨-, hcreate⟩ := Tx.handling_ok h
  · obtain ⟨c', w₁, hrun, hpure⟩ := Tx.bind_ok hget
    obtain ⟨rfl, hrow⟩ := Objects.get_ok hrun
    cases hpure
    have hemail : c.email = email := by simpa [byEmail] using Table.holds_of_get hrow
    exact Or.inl ⟨rfl, rfl, Table.mem_of_get hrow, hemail⟩
  · obtain ⟨now, w₁, hnow, hrest⟩ := Tx.bind_ok hcreate
    cases hnow
    obtain ⟨c', w₂, hrun, hpure⟩ := Tx.bind_ok hrest
    obtain ⟨t, hinsert, rfl⟩ := Objects.create_ok hrun
    cases hpure
    obtain ⟨hrow, hrows, -, -, hfree⟩ := Table.insert_spec hinsert
    refine Or.inr ⟨rfl, hrow, fun c' hc' => ?_, hrows, rfl⟩
    have hne : c'.email ≠ c.email := of_decide_eq_false (hfree c' hc')
    rw [hrow] at hne
    exact hne

/-- The email of a customer who was there and had not verified it gets verified. -/
lemma verifyLinkedEmail_ok {c' : Customer} {created emailVerified : Bool}
    (h : (verifyLinkedEmail c created emailVerified).run w = .ok (c', w')) :
    c'.id = c.id ∧
      ((w' = w ∧ (created = false → emailVerified = true → c.isEmailVerified = true)) ∨
        (created = false ∧ c.isEmailVerified = false ∧
          w'.db.customers.rows = w.db.customers.rewritten (fun c' => c'.id == c.id)
            (fun c' => { c' with emailVerifiedAt := some w.now }) ∧
          w' = { w with db := { w.db with customers := w'.db.customers } })) := by
  unfold verifyLinkedEmail at h
  split at h
  · rename_i hcond
    simp only [Bool.and_eq_true, Bool.not_eq_true'] at hcond
    obtain ⟨now, w₁, hnow, hrest⟩ := Tx.bind_ok h
    cases hnow
    obtain ⟨u, w₂, hsave, hpure⟩ := Tx.bind_ok hrest
    cases hpure
    rw [Objects.save_ok hsave]
    exact ⟨rfl, Or.inr ⟨hcond.1.1, hcond.2, rfl, rfl⟩⟩
  · rename_i hcond
    cases h
    refine ⟨rfl, Or.inl ⟨rfl, fun hcreated hverified => ?_⟩⟩
    rw [hcreated, hverified] at hcond
    simpa using hcond

/-- What the constraints of the login methods leave of a new Google method. -/
lemma createGoogleMethod_ok {customerId : Id} {subjectId : String} {method : LoginMethod}
    (h : (createGoogleMethod customerId subjectId).run w = .ok (method, w')) :
    subjectId.length ≤ 255 ∧
      (∀ m ∈ w.db.loginMethods.rows,
        googleMethod subjectId m = false ∧ loginMethodOf customerId .google m = false) ∧
      w'.db.loginMethods.rows = w.db.loginMethods.rows ++ [{
        id := w.db.loginMethods.next
        customerId := customerId
        provider := .google
        providerSubjectId := subjectId }] ∧
      w' = { w with db := { w.db with loginMethods := w'.db.loginMethods } } := by
  obtain ⟨t, hinsert, rfl⟩ := Objects.create_ok h
  obtain ⟨rfl, hrows, -, hfits, hfree⟩ := Table.insert_spec hinsert
  refine ⟨of_decide_eq_true hfits, fun m hm => ?_, hrows, rfl⟩
  have hconflict := hfree m hm
  simp only [Model.conflicts, Bool.or_eq_false_iff] at hconflict
  simpa [googleMethod, loginMethodOf, and_comm] using hconflict.symm

/-- The customer whom the block links, before the login method is created. -/
lemma linkGoogle_ok (h : (linkGoogle profile).run w = .ok (c, w')) :
    Linked profile c.id w w' := by
  obtain ⟨⟨c₀, created⟩, w₁, hget, hrest⟩ := Tx.bind_ok h
  obtain ⟨u, w₂, hrequire, hrest⟩ := Tx.bind_ok hrest
  obtain ⟨c₁, w₃, hverify, hrest⟩ := Tx.bind_ok hrest
  obtain ⟨method, w₄, hcreate, hpure⟩ := Tx.bind_ok hrest
  cases hpure
  obtain ⟨rfl, hallowed⟩ := Tx.require_ok hrequire
  obtain ⟨hid, hverified⟩ := verifyLinkedEmail_ok hverify
  obtain ⟨hfits, hunlinked, hmethods, hframe⟩ := createGoogleMethod_ok hcreate
  have hcustomers : w'.db.customers = w₃.db.customers := by rw [hframe]
  obtain ⟨rfl, rfl, hmem, hemail⟩ | ⟨rfl, hnew, hfree, hrows, hframe₁⟩ :=
    getOrCreateCustomer_ok hget
  · -- the customer was there
    have hprofile : profile.emailVerified = true := by simpa using hallowed
    obtain ⟨rfl, hdone⟩ | ⟨-, hnot, hrewritten, hframe₃⟩ := hverified
    · refine ⟨hfits, hunlinked, Or.inl ⟨c₀, hid.symm, hmem, hemail, hprofile, ?_⟩, hmethods, ?_⟩
      · exact Or.inl ⟨hdone rfl hprofile, hcustomers⟩
      · rw [hcustomers]
        exact hframe
    · have hmethods₃ : w₃.db.loginMethods = w₂.db.loginMethods := by rw [hframe₃]
      rw [hmethods₃] at hunlinked hmethods
      refine ⟨hfits, hunlinked, Or.inl ⟨c₀, hid.symm, hmem, hemail, hprofile, ?_⟩, hmethods, ?_⟩
      · rw [hcustomers]
        exact Or.inr ⟨hnot, hrewritten⟩
      · rw [hcustomers, hframe, hframe₃]
  · -- the customer was created
    obtain ⟨rfl, -⟩ | ⟨hfalse, -⟩ := hverified
    · have hmethods₃ : w₃.db.loginMethods = w.db.loginMethods := by rw [hframe₁]
      rw [hmethods₃] at hunlinked hmethods
      refine ⟨hfits, hunlinked, Or.inr ⟨?_, hfree, ?_⟩, hmethods, ?_⟩
      · rw [hid, hnew]
        rfl
      · rw [hcustomers, hrows, hnew]
      · rw [hcustomers, hframe, hframe₁]
    · cases hfalse

/-- The block finds the customer of a known identity, or links the identity. -/
lemma googleBlock_ok (h : (googleBlock profile).run w = .ok (c, w')) :
    (w' = w ∧ c ∈ w.db.customers.rows ∧ IsLinkedTo w profile.subjectId c.id) ∨
      Linked profile c.id w w' := by
  obtain hknown | ⟨-, hlink⟩ := Tx.handling_ok h
  · obtain ⟨m, w₁, hmethod, hcustomer⟩ := Tx.bind_ok hknown
    obtain ⟨rfl, hm⟩ := Objects.get_ok hmethod
    obtain ⟨rfl, hrow⟩ := Objects.get_ok hcustomer
    have howner : c.id = m.customerId := by simpa [customerOf] using Table.holds_of_get hrow
    exact Or.inl ⟨rfl, Table.mem_of_get hrow, m, Table.mem_of_get hm, Table.holds_of_get hm,
      howner.symm⟩
  · exact Or.inr (linkGoogle_ok hlink)

end Block

end BePyEco
