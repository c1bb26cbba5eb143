import Mathlib.Logic.Function.Basic
import Mathlib.Logic.Relation
import Mathlib.Order.Lattice
import Mathlib.Tactic.Common

/-!
# Maps whose entries expire

The abstract store behind an idempotency key: a map from keys to responses, each kept with the
fingerprint of the request it answers and an instant up to which it lives.  A look at a key with
a fingerprint comes to one of three answers.  A key without a live entry is *fresh*; a live entry
is *replayed* for its own fingerprint and is a *conflict* for any other.

`Step` is what may happen to such a map as time goes by: an entry is stored at a fresh key, or a
dead entry is dropped.  `Run.live` is what makes it a memory: a live entry stays until it dies.
-/

namespace BePyEco.Library.ExpiringMap

/-- A response, the fingerprint of its request, and the last instant of its life. -/
structure Entry (F R T : Type) where
  fingerprint : F
  response : R
  expiresAt : T

/-- A map at an instant. -/
structure State (K F R T : Type) where
  contents : K → Option (Entry F R T)
  now : T

/-- What a look comes to. -/
inductive Answer (R : Type)
  | fresh
  | replay (r : R)
  | conflict
  deriving DecidableEq, Repr

variable {K F R T : Type} [LinearOrder T]

/-- The key has the entry, and the entry lives. -/
def State.LiveAt (s : State K F R T) (k : K) (e : Entry F R T) : Prop :=
  s.contents k = some e ∧ s.now ≤ e.expiresAt

/-- The key has no live entry. -/
def State.FreshAt (s : State K F R T) (k : K) : Prop := ∀ e, ¬ s.LiveAt k e

/-- Look a key up with a fingerprint. -/
def State.look [DecidableEq F] (s : State K F R T) (k : K) (f : F) : Answer R :=
  match s.contents k with
  | none => .fresh
  | some e =>
    if e.expiresAt < s.now then .fresh
    else if e.fingerprint = f then .replay e.response else .conflict

section Look

variable [DecidableEq F] {s : State K F R T} {k : K} {f : F}

lemma look_of_live {e : Entry F R T} (h : s.LiveAt k e) :
    s.look k f = if e.fingerprint = f then .replay e.response else .conflict := by
  unfold State.look
  rw [h.1]
  dsimp only
  rw [if_neg (not_lt.2 h.2)]

lemma look_eq_fresh_iff : s.look k f = .fresh ↔ s.FreshAt k := by
  constructor
  · intro h e hlive
    rw [look_of_live hlive] at h
    split at h
    · cases h
    · cases h
  · intro h
    unfold State.look
    cases he : s.contents k with
    | none => rfl
    | some e =>
        have hdead : e.expiresAt < s.now := not_le.1 fun hle => h e ⟨he, hle⟩
        dsimp only
        rw [if_pos hdead]

end Look

variable [DecidableEq K]

/-- What may happen to a map whose entries live for `life`. -/
inductive Step (life : T → T) (s : State K F R T) : State K F R T → Prop
  /-- Time passes. -/
  | pass {t : T} (h : s.now ≤ t) : Step life s { s with now := t }
  /-- The dead entry of a key is dropped. -/
  | drop (k : K) (hfresh : s.FreshAt k) :
    Step life s { s with contents := Function.update s.contents k none }
  /-- A response is stored at a fresh key. -/
  | store (k : K) (f : F) (r : R) (hfresh : s.FreshAt k) :
    Step life s { s with contents := Function.update s.contents k (some ⟨f, r, life s.now⟩) }

/-- What happens to a map in the course of time. -/
def Run (life : T → T) : State K F R T → State K F R T → Prop :=
  Relation.ReflTransGen (Step life)

variable {life : T → T} {s s' : State K F R T} {k : K} {e : Entry F R T}

instance : Std.Refl (Run life : State K F R T → State K F R T → Prop) := ⟨fun _ => .refl⟩

instance : IsTrans (State K F R T) (Run life) := ⟨fun _ _ _ => Relation.ReflTransGen.trans⟩

lemma Step.now_le (h : Step life s s') : s.now ≤ s'.now := by
  cases h with
  | pass h => exact h
  | drop k hfresh => exact le_refl _
  | store k f r hfresh => exact le_refl _

/-- A live entry is at another key than one that is dropped or stored. -/
lemma Step.live (h : Step life s s') (hlive : s.LiveAt k e) (hnow : s'.now ≤ e.expiresAt) :
    s'.LiveAt k e := by
  have hne : ∀ k', s.FreshAt k' → k ≠ k' := by
    rintro _ hfresh rfl
    exact hfresh e hlive
  cases h with
  | pass h => exact ⟨hlive.1, hnow⟩
  | drop k' hfresh =>
      exact ⟨(Function.update_of_ne (hne k' hfresh) _ _).trans hlive.1, hnow⟩
  | store k' f r hfresh =>
      exact ⟨(Function.update_of_ne (hne k' hfresh) _ _).trans hlive.1, hnow⟩

lemma Run.now_le (h : Run life s s') : s.now ≤ s'.now := by
  induction h with
  | refl => exact le_refl _
  | tail _ hstep ih => exact le_trans ih hstep.now_le

/-- A live entry stays until it dies. -/
theorem Run.live (h : Run life s s') (hlive : s.LiveAt k e) (hnow : s'.now ≤ e.expiresAt) :
    s'.LiveAt k e := by
  induction h with
  | refl => exact hlive
  | tail _ hstep ih => exact hstep.live (ih (le_trans hstep.now_le hnow)) hnow

end BePyEco.Library.ExpiringMap
