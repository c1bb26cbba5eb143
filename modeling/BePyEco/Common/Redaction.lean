import BePyEco.Common.Auth

/-!
# What redaction hides

`_redact` replaces the values under the redacted keys of an object and does not look below its other
keys.  The entry of an object therefore hides what it should exactly when no redacted key lies below
another key (`redacts_iff`).  Everything else is stored as it was passed.
-/

namespace BePyEco

open Library

/-- A value that is not `value`. -/
def otherValue (value : Json) : Json := if value = .null then .bool true else .null

lemma otherValue_ne (value : Json) : otherValue value ≠ value := by
  unfold otherValue
  split
  · rename_i h
    rw [h]
    simp
  · rename_i h
    exact fun heq => h heq.symm

section Redaction

variable [PyText]

/-- `key.lower() in REDACTED_KEYS`. -/
def secretKey (key : String) : Bool := redactedKeys.contains (PyText.lower key)

namespace Json

mutual

/-- Two documents differ in values under redacted keys at most, at any depth. -/
def SameElsewhere : Json → Json → Prop
  | .arr items, .arr items' => SameElsewhereItems items items'
  | .obj fields, .obj fields' => SameElsewhereFields fields fields'
  | document, document' => document = document'

def SameElsewhereItems : List Json → List Json → Prop
  | [], [] => True
  | x :: xs, y :: ys => SameElsewhere x y ∧ SameElsewhereItems xs ys
  | [], _ :: _ => False
  | _ :: _, [] => False

def SameElsewhereFields : List (String × Json) → List (String × Json) → Prop
  | [], [] => True
  | (k, x) :: xs, (l, y) :: ys =>
      k = l ∧ (secretKey k = true ∨ SameElsewhere x y) ∧ SameElsewhereFields xs ys
  | [], _ :: _ => False
  | _ :: _, [] => False

end

mutual

/-- A document without redacted keys. -/
def NoSecrets : Json → Prop
  | .arr items => NoSecretsItems items
  | .obj fields => NoSecretsFields fields
  | _ => True

def NoSecretsItems : List Json → Prop
  | [] => True
  | x :: xs => NoSecrets x ∧ NoSecretsItems xs

def NoSecretsFields : List (String × Json) → Prop
  | [] => True
  | (k, x) :: xs => secretKey k = false ∧ NoSecrets x ∧ NoSecretsFields xs

end

end Json

open Json

/-- The redacted keys of an object are at its top or below another redacted key. -/
def SecretsOnTop (data : List (String × Json)) : Prop :=
  ∀ field ∈ data, secretKey field.1 = true ∨ field.2.NoSecrets

/-- The other arguments of `write_audit_log`. -/
structure AuditContext where
  actorType : ActorType
  actorId : Id
  action : String
  resourceType : String
  resourceId : Id
  reason : String
  ipAddress : Option String
  requestId : Option Id

def AuditContext.write (c : AuditContext) (before after : List (String × Json)) :
    Statement AuditLogEntry :=
  writeAuditLog c.actorType c.actorId c.action c.resourceType c.resourceId before after c.reason
    c.ipAddress c.requestId

/-- Nothing under a redacted key, at any depth, shows in the entry, and the rest is stored as it
was passed. -/
structure Redacts (before after : List (String × Json)) : Prop where
  hides : ∀ before' after', SameElsewhereFields before before' → SameElsewhereFields after after' →
    ∀ (c : AuditContext) (w : World), (c.write before' after').run w = (c.write before after).run w
  keeps : ∀ (c : AuditContext) (w : World) entry w',
    (c.write before after).run w = .ok (entry, w') →
      (Json.obj before).SameElsewhere entry.before ∧ (Json.obj after).SameElsewhere entry.after

/-! ## Documents that differ under redacted keys -/

mutual

theorem sameElsewhere_refl : ∀ document : Json, document.SameElsewhere document
  | .arr items => sameElsewhereItems_refl items
  | .obj fields => sameElsewhereFields_refl fields
  | .null | .bool _ | .int _ | .float _ | .str _ => rfl

theorem sameElsewhereItems_refl : ∀ items : List Json, SameElsewhereItems items items
  | [] => trivial
  | x :: xs => ⟨sameElsewhere_refl x, sameElsewhereItems_refl xs⟩

theorem sameElsewhereFields_refl : ∀ fields : List (String × Json),
    SameElsewhereFields fields fields
  | [] => trivial
  | (_, x) :: xs => ⟨rfl, Or.inr (sameElsewhere_refl x), sameElsewhereFields_refl xs⟩

end

mutual

/-- Without redacted keys, documents that differ under them at most are equal. -/
theorem eq_of_sameElsewhere : ∀ {a b : Json}, a.NoSecrets → a.SameElsewhere b → a = b
  | .arr _, .arr _, hnone, h => congrArg Json.arr (eq_of_sameElsewhereItems hnone h)
  | .obj _, .obj _, hnone, h => congrArg Json.obj (eq_of_sameElsewhereFields hnone h)
  | .arr _, .null, _, h | .arr _, .bool _, _, h | .arr _, .int _, _, h | .arr _, .float _, _, h
  | .arr _, .str _, _, h | .arr _, .obj _, _, h | .obj _, .null, _, h | .obj _, .bool _, _, h
  | .obj _, .int _, _, h | .obj _, .float _, _, h | .obj _, .str _, _, h | .obj _, .arr _, _, h
  | .null, _, _, h | .bool _, _, _, h | .int _, _, _, h | .float _, _, _, h
  | .str _, _, _, h => h

theorem eq_of_sameElsewhereItems : ∀ {xs ys : List Json}, NoSecretsItems xs →
    SameElsewhereItems xs ys → xs = ys
  | [], [], _, _ => rfl
  | _ :: _, _ :: _, hnone, h =>
      congrArg₂ List.cons (eq_of_sameElsewhere hnone.1 h.1) (eq_of_sameElsewhereItems hnone.2 h.2)

theorem eq_of_sameElsewhereFields : ∀ {xs ys : List (String × Json)}, NoSecretsFields xs →
    SameElsewhereFields xs ys → xs = ys
  | [], [], _, _ => rfl
  | (k, x) :: xs, (l, y) :: ys, ⟨hkey, hvalue, hrest⟩, ⟨hname, hsame, hsameRest⟩ => by
      have hxy : x = y := by
        rcases hsame with hsecret | hsame
        · rw [hkey] at hsecret
          cases hsecret
        · exact eq_of_sameElsewhere hvalue hsame
      rw [hname, hxy, eq_of_sameElsewhereFields hrest hsameRest]

end

mutual

/-- A document with a redacted key can be changed under it. -/
theorem exists_variant : ∀ a : Json, ¬ a.NoSecrets → ∃ b, b ≠ a ∧ a.SameElsewhere b
  | .arr items, h => by
      obtain ⟨items', hne, hsame⟩ := exists_variantItems items h
      exact ⟨.arr items', fun heq => hne (Json.arr.inj heq), hsame⟩
  | .obj fields, h => by
      obtain ⟨fields', hne, hsame⟩ := exists_variantFields fields h
      exact ⟨.obj fields', fun heq => hne (Json.obj.inj heq), hsame⟩
  | .null, h | .bool _, h | .int _, h | .float _, h | .str _, h => absurd trivial h

theorem exists_variantItems : ∀ xs : List Json, ¬ NoSecretsItems xs →
    ∃ ys, ys ≠ xs ∧ SameElsewhereItems xs ys
  | [], h => absurd trivial h
  | x :: xs, h => by
      by_cases hx : x.NoSecrets
      · obtain ⟨ys, hne, hsame⟩ := exists_variantItems xs fun hxs => h ⟨hx, hxs⟩
        exact ⟨x :: ys, fun heq => hne (List.cons.inj heq).2, sameElsewhere_refl x, hsame⟩
      · obtain ⟨y, hne, hsame⟩ := exists_variant x hx
        exact ⟨y :: xs, fun heq => hne (List.cons.inj heq).1, hsame, sameElsewhereItems_refl xs⟩

theorem exists_variantFields : ∀ xs : List (String × Json), ¬ NoSecretsFields xs →
    ∃ ys, ys ≠ xs ∧ SameElsewhereFields xs ys
  | [], h => absurd trivial h
  | (k, x) :: xs, h => by
      by_cases hkey : secretKey k = true
      · refine ⟨(k, otherValue x) :: xs, fun heq => ?_, rfl, Or.inl hkey,
          sameElsewhereFields_refl xs⟩
        exact otherValue_ne x (Prod.mk.inj (List.cons.inj heq).1).2
      · by_cases hx : x.NoSecrets
        · have hxs : ¬ NoSecretsFields xs :=
            fun hxs => h ⟨Bool.eq_false_iff.2 hkey, hx, hxs⟩
          obtain ⟨ys, hne, hsame⟩ := exists_variantFields xs hxs
          exact ⟨(k, x) :: ys, fun heq => hne (List.cons.inj heq).2, rfl,
            Or.inr (sameElsewhere_refl x), hsame⟩
        · obtain ⟨y, hne, hsame⟩ := exists_variant x hx
          refine ⟨(k, y) :: xs, fun heq => ?_, rfl, Or.inr hsame, sameElsewhereFields_refl xs⟩
          exact hne (Prod.mk.inj (List.cons.inj heq).1).2

end

/-! ## Redaction -/

lemma redact_cons (key : String) (value : Json) (rest : List (String × Json)) :
    redact ((key, value) :: rest) =
      (key, if secretKey key then redactedPlaceholder else value) :: redact rest := rfl

/-- Redaction changes values under redacted keys only. -/
lemma sameElsewhereFields_redact (data : List (String × Json)) :
    SameElsewhereFields data (redact data) := by
  induction data with
  | nil => trivial
  | cons field rest ih =>
      obtain ⟨key, value⟩ := field
      rw [redact_cons]
      refine ⟨rfl, ?_, ih⟩
      by_cases hkey : secretKey key = true
      · exact Or.inl hkey
      · rw [if_neg hkey]
        exact Or.inr (sameElsewhere_refl value)

/-- An object is redacted to the same as all its variants exactly when its redacted keys are on
top. -/
lemma redact_eq_iff (data : List (String × Json)) :
    (∀ data', SameElsewhereFields data data' → redact data' = redact data) ↔
      SecretsOnTop data := by
  induction data with
  | nil =>
      refine iff_of_true (fun data' h => ?_) (by simp [SecretsOnTop])
      cases data' with
      | nil => rfl
      | cons field rest => exact h.elim
  | cons field rest ih =>
      obtain ⟨key, value⟩ := field
      have hcons : SecretsOnTop ((key, value) :: rest) ↔
          (secretKey key = true ∨ value.NoSecrets) ∧ SecretsOnTop rest := List.forall_mem_cons
      rw [hcons, ← ih]
      constructor
      · intro h
        constructor
        · by_contra hnot
          push Not at hnot
          obtain ⟨value', hne, hsame⟩ := exists_variant value hnot.2
          have hredact := h ((key, value') :: rest)
            ⟨rfl, Or.inr hsame, sameElsewhereFields_refl rest⟩
          rw [redact_cons, redact_cons, if_neg hnot.1, if_neg hnot.1] at hredact
          exact hne (Prod.mk.inj (List.cons.inj hredact).1).2
        · intro rest' hsame
          have hredact := h ((key, value) :: rest')
            ⟨rfl, Or.inr (sameElsewhere_refl value), hsame⟩
          rw [redact_cons, redact_cons] at hredact
          exact (List.cons.inj hredact).2
      · rintro ⟨hkey, hrest⟩ data' h
        cases data' with
        | nil => exact h.elim
        | cons field' rest' =>
            obtain ⟨key', value'⟩ := field'
            obtain ⟨rfl, hvalue, hsame⟩ := h
            rw [redact_cons, redact_cons, hrest rest' hsame]
            by_cases hsecret : secretKey key = true
            · rw [if_pos hsecret, if_pos hsecret]
            · have hnone := hkey.resolve_left hsecret
              rw [eq_of_sameElsewhere hnone (hvalue.resolve_left hsecret)]

/-! ## Entries -/

/-- Equal entries are redacted to the same. -/
lemma redact_eq_of_write_eq {before after before' after' : List (String × Json)}
    (h : ∀ (c : AuditContext) (w : World),
      (c.write before' after').run w = (c.write before after).run w) :
    redact before' = redact before ∧ redact after' = redact after := by
  let c : AuditContext := ⟨.staff, 0, "", "", 0, "", none, none⟩
  obtain ⟨entry, w', hrun, -⟩ := @writeAuditLog_run _ {} .staff 0 "" "" 0 before after "" none none
    (by decide) (by decide) (by decide)
  have hwrite : (c.write before after).run {} = .ok (entry, w') := hrun
  obtain ⟨hbefore, hafter⟩ := writeAuditLog_values hwrite
  obtain ⟨hbefore', hafter'⟩ := writeAuditLog_values ((h c {}).trans hwrite)
  exact ⟨Json.obj.inj (hbefore'.symm.trans hbefore), Json.obj.inj (hafter'.symm.trans hafter)⟩

/-- The entry for two objects hides all the values under redacted keys, at any depth, and keeps the
rest, exactly when no redacted key of the objects lies below a key that is not redacted. -/
theorem redacts_iff (before after : List (String × Json)) :
    Redacts before after ↔ SecretsOnTop before ∧ SecretsOnTop after := by
  rw [← redact_eq_iff, ← redact_eq_iff]
  constructor
  · intro h
    constructor
    · intro before' hsame
      exact (redact_eq_of_write_eq (h.hides before' after hsame (sameElsewhereFields_refl after))).1
    · intro after' hsame
      exact (redact_eq_of_write_eq
        (h.hides before after' (sameElsewhereFields_refl before) hsame)).2
  · rintro ⟨hbefore, hafter⟩
    constructor
    · intro before' after' hsame hsame' c w
      unfold AuditContext.write writeAuditLog
      rw [hbefore before' hsame, hafter after' hsame']
    · intro c w entry w' hrun
      obtain ⟨hentry, hentry'⟩ := writeAuditLog_values hrun
      rw [hentry, hentry']
      exact ⟨sameElsewhereFields_redact before, sameElsewhereFields_redact after⟩

end Redaction

/-! ### A password below another key -/

section Example

attribute [local instance] plainText

/-- A customer with the password that was set. -/
def nestedPassword (password : String) : List (String × Json) :=
  [("customer", .obj [("password", .str password)])]

/-- The password is in the entry. -/
theorem not_redacts_nestedPassword : ¬ Redacts [] (nestedPassword "first") := by
  intro h
  have hsame : Json.SameElsewhereFields (nestedPassword "first") (nestedPassword "second") :=
    ⟨rfl, Or.inr ⟨rfl, Or.inl (by decide), trivial⟩, trivial⟩
  have hredact := (redact_eq_of_write_eq (h.hides [] _ trivial hsame)).2
  exact absurd hredact (by decide)

end Example

end BePyEco
