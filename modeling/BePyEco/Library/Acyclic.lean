import Mathlib.Logic.Relation
import Mathlib.Tactic.Common

/-!
# Acyclic relations

A relation is acyclic when no element reaches itself.  `redirect r a target` gives one element new
successors and leaves all others theirs; it keeps an acyclic relation acyclic exactly when no new
successor reaches the element (`acyclic_redirect_iff`).
-/

namespace BePyEco.Library

open Relation

variable {α : Type} {r r' : α → α → Prop} {a b c : α} {target : α → Prop}

/-- No element reaches itself. -/
def Acyclic (r : α → α → Prop) : Prop := ∀ a, ¬ TransGen r a a

lemma acyclic_of_forall_not (h : ∀ a b, ¬ r a b) : Acyclic r := by
  intro a hcycle
  obtain ⟨b, hab, -⟩ := TransGen.head'_iff.1 hcycle
  exact h a b hab

/-- Fewer edges close no cycle. -/
lemma Acyclic.mono (h : Acyclic r) (hle : ∀ a b, r' a b → r a b) : Acyclic r' :=
  fun a hcycle => h a (TransGen.mono hle a a hcycle)

/-- What is reached from a closed set lies in it. -/
lemma mem_of_reaches {s : α → Prop} (hclosed : ∀ a b, s a → r a b → s b) (ha : s a)
    (h : ReflTransGen r a b) : s b := by
  induction h with
  | refl => exact ha
  | tail _ hedge ih => exact hclosed _ _ ih hedge

/-! ## New successors for one element -/

/-- The edges of `a` go to the elements in `target`, all others are as before. -/
def redirect (r : α → α → Prop) (a : α) (target : α → Prop) (x y : α) : Prop :=
  (x = a ∧ target y) ∨ (x ≠ a ∧ r x y)

lemma redirect_of_ne (h : b ≠ a) : redirect r a target b c ↔ r b c := by
  simp [redirect, h]

/-- Whether `a` is reached does not depend on its own edges. -/
lemma reaches_redirect_iff : ReflTransGen (redirect r a target) b a ↔ ReflTransGen r b a := by
  constructor
  · intro h
    induction h using ReflTransGen.head_induction_on with
    | refl => exact .refl
    | @head x y hedge _ ih =>
        by_cases hx : x = a
        · rw [hx]
        · exact ih.head ((redirect_of_ne hx).1 hedge)
  · intro h
    induction h using ReflTransGen.head_induction_on with
    | refl => exact .refl
    | @head x y hedge _ ih =>
        by_cases hx : x = a
        · rw [hx]
        · exact ih.head ((redirect_of_ne hx).2 hedge)

/-- A path that was not there before goes through `a`. -/
lemma transGen_redirect_cases (h : TransGen (redirect r a target) b c) :
    TransGen r b c ∨ ∃ x, target x ∧ ReflTransGen (redirect r a target) b a ∧
      ReflTransGen (redirect r a target) x c := by
  induction h with
  | @single c hedge =>
      by_cases hb : b = a
      · rw [hb] at hedge ⊢
        obtain ⟨-, hto⟩ | ⟨hne, -⟩ := hedge
        · exact Or.inr ⟨c, hto, .refl, .refl⟩
        · exact absurd rfl hne
      · exact Or.inl (.single ((redirect_of_ne hb).1 hedge))
  | @tail x c hpath hedge ih =>
      obtain hold | ⟨y, hto, hreach, hrest⟩ := ih
      · by_cases hx : x = a
        · rw [hx] at hedge hpath
          obtain ⟨-, hto⟩ | ⟨hne, -⟩ := hedge
          · exact Or.inr ⟨c, hto, hpath.to_reflTransGen, .refl⟩
          · exact absurd rfl hne
        · exact Or.inl (hold.tail ((redirect_of_ne hx).1 hedge))
      · exact Or.inr ⟨y, hto, hreach, hrest.tail hedge⟩

/-- New successors of `a` close a cycle exactly when one of them reaches `a`. -/
theorem acyclic_redirect_iff (h : Acyclic r) :
    Acyclic (redirect r a target) ↔ ∀ b, target b → ¬ ReflTransGen r b a := by
  constructor
  · intro hacyclic b hto hreach
    exact hacyclic a (.head' (Or.inl ⟨rfl, hto⟩) (reaches_redirect_iff.2 hreach))
  · intro hto x hcycle
    obtain hold | ⟨y, hy, hreach, hback⟩ := transGen_redirect_cases hcycle
    · exact h x hold
    · exact hto y hy (reaches_redirect_iff.1 (hback.trans hreach))

end BePyEco.Library
