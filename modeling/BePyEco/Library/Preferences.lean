import Mathlib.Data.List.Basic
import Mathlib.Order.BoundedOrder.Lattice
import Mathlib.Tactic.Common

/-!
# Preferences

A list of offers names options with weights; an option that is named twice counts with its highest
weight, one that is not named with the lowest.  A negotiation returns the preferred one of the
allowed options, or a default when no allowed option has weight (`Negotiated`).  To return the
allowed option that is named first is right exactly when none of those that follow outweighs it
(`negotiated_firstAllowed_iff`).
-/

namespace BePyEco.Library

variable {κ ω : Type} [DecidableEq κ]

/-! ## What is named first -/

/-- The place where an option is named first. -/
def place (offers : List (κ × ω)) (k : κ) : ℕ := offers.findIdx fun offer => decide (offer.1 = k)

/-- The option that the offers name first of the allowed ones. -/
def firstAllowed (offers : List (κ × ω)) (allowed : List κ) : Option κ :=
  (offers.map Prod.fst).find? fun k => decide (k ∈ allowed)

section First

variable {offers before after : List (κ × ω)} {allowed : List κ} {k : κ} {weight : ω}

lemma place_append (h : ∀ offer ∈ before, offer.1 ≠ k) :
    place (before ++ after) k = before.length + place after k := by
  induction before with
  | nil => simp
  | cons offer before ih =>
      have hne : offer.1 ≠ k := h offer List.mem_cons_self
      have hrest := ih fun o ho => h o (List.mem_cons_of_mem offer ho)
      unfold place at hrest ⊢
      rw [List.cons_append, List.findIdx_cons, decide_eq_false hne, List.length_cons,
        Nat.add_right_comm, ← hrest]
      rfl

lemma place_cons_self : place ((k, weight) :: after) k = 0 := by
  simp [place, List.findIdx_cons]

lemma firstAllowed_eq_none_iff :
    firstAllowed offers allowed = none ↔ ∀ offer ∈ offers, offer.1 ∉ allowed := by
  simp [firstAllowed]

lemma firstAllowed_append (hk : k ∈ allowed) (h : ∀ offer ∈ before, offer.1 ∉ allowed) :
    firstAllowed (before ++ (k, weight) :: after) allowed = some k := by
  have hbefore := firstAllowed_eq_none_iff.2 h
  unfold firstAllowed at hbefore ⊢
  rw [List.map_append, List.find?_append, hbefore]
  simp [hk]

lemma exists_of_firstAllowed (h : firstAllowed offers allowed = some k) :
    k ∈ allowed ∧ ∃ before weight after, offers = before ++ (k, weight) :: after ∧
      ∀ offer ∈ before, offer.1 ∉ allowed := by
  induction offers with
  | nil => cases h
  | cons offer offers ih =>
      unfold firstAllowed at h ih
      rw [List.map_cons, List.find?_cons] at h
      by_cases hoffer : offer.1 ∈ allowed
      · rw [decide_eq_true hoffer] at h
        cases h
        exact ⟨hoffer, [], offer.2, offers, rfl, by simp⟩
      · rw [decide_eq_false hoffer] at h
        obtain ⟨hk, before, weight, after, rfl, hbefore⟩ := ih h
        refine ⟨hk, offer :: before, weight, after, rfl, fun o ho => ?_⟩
        obtain rfl | ho := List.mem_cons.1 ho
        · exact hoffer
        · exact hbefore o ho

end First

/-! ## The rule -/

variable [LinearOrder ω] [OrderBot ω]

/-- The highest weight that the offers give an option. -/
def highest (offers : List (κ × ω)) (k : κ) : ω :=
  ((offers.filter fun offer => decide (offer.1 = k)).map Prod.snd).foldr max ⊥

/-- An allowed option has weight, as much as any other, and of these it is named first. -/
structure Preferred (offers : List (κ × ω)) (allowed : List κ) (k : κ) : Prop where
  mem : k ∈ allowed
  pos : ⊥ < highest offers k
  maximal : ∀ k' ∈ allowed, highest offers k' ≤ highest offers k
  earliest : ∀ k' ∈ allowed, highest offers k' = highest offers k → place offers k ≤ place offers k'

/-- No allowed option has weight. -/
def NoneWeighs (offers : List (κ × ω)) (allowed : List κ) : Prop :=
  ∀ k ∈ allowed, highest offers k = ⊥

/-- The result of a negotiation. -/
def Negotiated (offers : List (κ × ω)) (allowed : List κ) (default k : κ) : Prop :=
  Preferred offers allowed k ∨ NoneWeighs offers allowed ∧ k = default

/-- The allowed option that is named first has as much weight as any other; where none has weight,
it is the default. -/
def FirstIsBest (offers : List (κ × ω)) (allowed : List κ) (default : κ) : Prop :=
  ∀ before k weight after, offers = before ++ (k, weight) :: after → k ∈ allowed →
    (∀ offer ∈ before, offer.1 ∉ allowed) →
      (⊥ < highest offers k ∧ ∀ offer ∈ after, offer.1 ∈ allowed → offer.2 ≤ highest offers k) ∨
      ((weight = ⊥ ∧ ∀ offer ∈ after, offer.1 ∈ allowed → offer.2 = ⊥) ∧ k = default)

/-! ## Weights -/

variable {offers before after : List (κ × ω)} {allowed : List κ} {default k : κ} {weight : ω}

@[simp] lemma highest_nil : highest ([] : List (κ × ω)) k = ⊥ := rfl

lemma highest_cons (offer : κ × ω) :
    highest (offer :: offers) k =
      if offer.1 = k then max offer.2 (highest offers k) else highest offers k := by
  unfold highest
  rw [List.filter_cons]
  by_cases h : offer.1 = k
  · simp [h]
  · simp [h]

lemma highest_le_iff :
    highest offers k ≤ weight ↔ ∀ offer ∈ offers, offer.1 = k → offer.2 ≤ weight := by
  induction offers with
  | nil => simp
  | cons offer offers ih =>
      rw [highest_cons, List.forall_mem_cons]
      split
      · rename_i h
        simp [h, ih]
      · rename_i h
        simp [h, ih]

/-- What is not named has no weight. -/
lemma highest_of_not_named (h : ∀ offer ∈ offers, offer.1 ≠ k) : highest offers k = ⊥ := by
  rw [← le_bot_iff, highest_le_iff]
  exact fun offer hoffer heq => absurd heq (h offer hoffer)

lemma le_highest {offer : κ × ω} (h : offer ∈ offers) : offer.2 ≤ highest offers offer.1 :=
  highest_le_iff.1 le_rfl offer h rfl

/-! ## The option that is named first -/

/-- It is the result of the negotiation when none of the allowed options after it outweighs it. -/
lemma preferred_iff
    (hoffers : offers = before ++ (k, weight) :: after) (hk : k ∈ allowed)
    (hbefore : ∀ offer ∈ before, offer.1 ∉ allowed) :
    Preferred offers allowed k ↔
      ⊥ < highest offers k ∧ ∀ offer ∈ after, offer.1 ∈ allowed → offer.2 ≤ highest offers k := by
  have hafter : ∀ offer ∈ after, offer ∈ offers := fun offer ho => by simp [hoffers, ho]
  constructor
  · intro h
    exact ⟨h.pos, fun offer ho hallowed =>
      (le_highest (hafter offer ho)).trans (h.maximal offer.1 hallowed)⟩
  · rintro ⟨hpos, hmax⟩
    refine ⟨hk, hpos, fun k' hk' => highest_le_iff.2 fun offer ho hname => ?_, fun k' hk' _ => ?_⟩
    · have hallowed : offer.1 ∈ allowed := hname ▸ hk'
      rw [hoffers, List.mem_append, List.mem_cons] at ho
      obtain ho | rfl | ho := ho
      · exact absurd hallowed (hbefore offer ho)
      · exact le_highest (by simp [hoffers])
      · exact hmax offer ho hallowed
    · have hne : ∀ k' ∈ allowed, ∀ offer ∈ before, offer.1 ≠ k' :=
        fun k' hk' offer ho heq => hbefore offer ho (heq ▸ hk')
      rw [hoffers, place_append (hne k hk), place_append (hne k' hk'), place_cons_self]
      exact Nat.le_add_right _ _

lemma noneWeighs_iff
    (hoffers : offers = before ++ (k, weight) :: after) (hk : k ∈ allowed)
    (hbefore : ∀ offer ∈ before, offer.1 ∉ allowed) :
    NoneWeighs offers allowed ↔
      weight = ⊥ ∧ ∀ offer ∈ after, offer.1 ∈ allowed → offer.2 = ⊥ := by
  have hmem : ∀ offer : κ × ω, offer ∈ offers ↔
      offer ∈ before ∨ offer = (k, weight) ∨ offer ∈ after := by
    simp [hoffers]
  constructor
  · intro h
    have hbot : ∀ offer ∈ offers, offer.1 ∈ allowed → offer.2 = ⊥ := fun offer ho hallowed =>
      le_bot_iff.1 ((le_highest ho).trans_eq (h offer.1 hallowed))
    exact ⟨hbot (k, weight) ((hmem _).2 (Or.inr (Or.inl rfl))) hk,
      fun offer ho => hbot offer ((hmem _).2 (Or.inr (Or.inr ho)))⟩
  · rintro ⟨hweight, hafter⟩ k' hk'
    rw [← le_bot_iff, highest_le_iff]
    intro offer ho hname
    have hallowed : offer.1 ∈ allowed := hname ▸ hk'
    obtain ho | rfl | ho := (hmem offer).1 ho
    · exact absurd hallowed (hbefore offer ho)
    · exact hweight.le
    · exact (hafter offer ho hallowed).le

/-- To return the allowed option that is named first is right exactly when it is the best. -/
theorem negotiated_firstAllowed_iff :
    Negotiated offers allowed default ((firstAllowed offers allowed).getD default) ↔
      FirstIsBest offers allowed default := by
  cases hfirst : firstAllowed offers allowed with
  | none =>
      have hnone := firstAllowed_eq_none_iff.1 hfirst
      constructor
      · rintro - before k weight after rfl hk
        exact absurd hk (hnone (k, weight) (by simp))
      · refine fun _ => Or.inr ⟨fun k hk => highest_of_not_named fun offer ho heq => ?_, rfl⟩
        exact hnone offer ho (heq ▸ hk)
  | some k =>
      obtain ⟨hk, before, weight, after, hoffers, hbefore⟩ := exists_of_firstAllowed hfirst
      rw [Option.getD_some, Negotiated]
      constructor
      · intro h before' k' weight' after' hoffers' hk' hbefore'
        have hsame : some k' = some k := by
          rw [← hfirst, hoffers']
          exact (firstAllowed_append hk' hbefore').symm
        cases hsame
        rw [preferred_iff hoffers' hk hbefore', noneWeighs_iff hoffers' hk hbefore'] at h
        exact h
      · intro h
        rw [preferred_iff hoffers hk hbefore, noneWeighs_iff hoffers hk hbefore]
        exact h before k weight after hoffers hk hbefore

/-- Offers in the order of their weights. -/
lemma firstIsBest_of_sorted (hpos : ∀ offer ∈ offers, ⊥ < offer.2)
    (hsorted : offers.Pairwise fun offer later => later.2 ≤ offer.2) :
    FirstIsBest offers allowed default := by
  rintro before k weight after rfl - -
  have hmem : (k, weight) ∈ before ++ (k, weight) :: after := by simp
  have hweight : weight ≤ highest (before ++ (k, weight) :: after) k := le_highest hmem
  refine Or.inl ⟨(hpos _ hmem).trans_le hweight, fun offer ho _ => ?_⟩
  have hlater := (List.pairwise_cons.1 (List.pairwise_append.1 hsorted).2.1).1 offer ho
  exact hlater.trans hweight

end BePyEco.Library
