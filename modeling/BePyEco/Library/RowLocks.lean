import BePyEco.Library.Interleaving

/-!
# Row locks

A call that has locked a row holds it until its transaction ends, and a statement that needs the
row of another call waits.  `Locking` is this discipline: a step keeps the locks, takes a free one,
or gives its own back.  Along every run of such a system no two calls hold the same lock
(`Locking.exclusive_of_run`).
-/

namespace BePyEco.Library

variable {ι Pc σ κ : Type}

/-- `holds c` is the lock of a control point, and `locked s` are the locks that are taken. -/
structure Locking (S : System Pc σ) (holds : Pc → Option κ) (locked : σ → κ → Prop) : Prop where
  step {c c' : Pc} {s s' : σ} (h : S.next c s = some (c', s')) :
    (holds c' = holds c ∧ ∀ k, locked s' k ↔ locked s k) ∨
    (∃ k, holds c = none ∧ holds c' = some k ∧ ¬ locked s k ∧
      ∀ j, locked s' j ↔ j = k ∨ locked s j) ∨
    (∃ k, holds c = some k ∧ holds c' = none ∧ ∀ j, locked s' j ↔ locked s j ∧ j ≠ k)
  env {s s' : σ} (h : S.env s s') : ∀ k, locked s' k ↔ locked s k

/-- The lock that a call holds is taken, and no other call holds it. -/
def Exclusive (holds : Pc → Option κ) (locked : σ → κ → Prop) (P : Pool ι Pc σ) : Prop :=
  ∀ i k, holds (P.pc i) = some k → locked P.store k ∧ ∀ j, holds (P.pc j) = some k → j = i

/-- At the start no call holds a lock. -/
lemma exclusive_of_none {holds : Pc → Option κ} {locked : σ → κ → Prop} {P : Pool ι Pc σ}
    (h : ∀ i, holds (P.pc i) = none) : Exclusive holds locked P := by
  intro i k hk
  rw [h i] at hk
  cases hk

namespace Locking

variable [DecidableEq ι] {S : System Pc σ} {holds : Pc → Option κ} {locked : σ → κ → Prop}
  {P₀ P : Pool ι Pc σ}

/-- A step keeps the locks exclusive. -/
lemma exclusive_advance (hS : Locking S holds locked) (hP : Exclusive holds locked P) {i : ι}
    {c : Pc} {s : σ} (hnext : S.next (P.pc i) P.store = some (c, s)) :
    Exclusive holds locked (P.advance i c s) := by
  have hold : ∀ {j k}, j ≠ i → holds ((P.advance i c s).pc j) = some k →
      holds (P.pc j) = some k := by
    intro j k hne hk
    rw [Pool.pc_advance_of_ne hne] at hk
    exact hk
  intro j k hk
  rw [Pool.store_advance]
  obtain ⟨hkeep, hlocked⟩ | ⟨l, -, hnew, hfree, hlocked⟩ | ⟨l, hheld, hnew, hlocked⟩ :=
    hS.step hnext
  · have hsame : ∀ j, holds ((P.advance i c s).pc j) = holds (P.pc j) := by
      intro j
      obtain ⟨rfl, hpc⟩ | ⟨-, hpc⟩ := P.pc_advance_cases i j c s
      · rw [hpc, hkeep]
      · rw [hpc]
    simp only [hsame] at hk ⊢
    rw [hlocked k]
    exact hP j k hk
  · -- the lock that is taken was free, so no other call holds it
    have hothers : ∀ j, j ≠ i → holds ((P.advance i c s).pc j) ≠ some l := by
      intro j hne hj
      exact hfree (hP j l (hold hne hj)).1
    rw [hlocked k]
    by_cases hji : j = i
    · rw [hji, P.pc_advance_self, hnew] at hk
      cases hk
      refine ⟨Or.inl rfl, fun j' hj' => ?_⟩
      by_contra hne
      exact hothers j' (fun h => hne (h.trans hji.symm)) hj'
    · obtain ⟨hmem, honly⟩ := hP j k (hold hji hk)
      refine ⟨Or.inr hmem, fun j' hj' => ?_⟩
      by_cases hji' : j' = i
      · rw [hji', P.pc_advance_self, hnew] at hj'
        cases hj'
        exact absurd hmem hfree
      · exact honly j' (hold hji' hj')
  · by_cases hji : j = i
    · rw [hji, P.pc_advance_self, hnew] at hk
      cases hk
    · obtain ⟨hmem, honly⟩ := hP j k (hold hji hk)
      have hkl : k ≠ l := fun h => hji (honly i (h ▸ hheld)).symm
      refine ⟨(hlocked k).2 ⟨hmem, hkl⟩, fun j' hj' => ?_⟩
      by_cases hji' : j' = i
      · rw [hji', P.pc_advance_self, hnew] at hj'
        cases hj'
      · exact honly j' (hold hji' hj')

/-- Along every run no two calls hold the same lock. -/
theorem exclusive_of_run (hS : Locking S holds locked) {ok : Pool ι Pc σ → ι → Prop}
    (hstart : Exclusive holds locked P₀) (hrun : S.Run ok P₀ P) : Exclusive holds locked P := by
  induction hrun with
  | refl => exact hstart
  | call _ _ hnext ih => exact hS.exclusive_advance ih hnext
  | env _ henv ih =>
      intro i k hk
      obtain ⟨hmem, honly⟩ := ih i k hk
      exact ⟨(hS.env henv k).2 hmem, honly⟩

end Locking

end BePyEco.Library
