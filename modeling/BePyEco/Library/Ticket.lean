import BePyEco.Library.Interleaving

/-!
# Single-use tickets taken by check and act

The abstract protocol behind every "check that it is unused, then use it" guard.  A participant
looks at a ticket and, having found it unused, *holds* it; later it *spends* the ticket, which
marks it used, or leaves.  Looking and spending are two steps, so nothing by itself keeps two
participants from holding one ticket.

`Step` is the protocol under the discipline that a ticket is never looked at with success while
somebody holds it.  `Exclusive` is the invariant of that discipline: a ticket has at most one
holder, a ticket that was spent has no holder, and at most one participant has spent a given
ticket.  `Implements` is the obligation a concrete interleaving has to meet to be an instance,
and `Implements.exclusive` transports the invariant to it.
-/

namespace BePyEco.Library.Ticket

/-- Where a participant stands. -/
inductive Phase (K : Type)
  /-- It has not looked yet. -/
  | idle
  /-- It has found ticket `k` unused and not used it yet. -/
  | holding (k : K)
  /-- It has used ticket `k`. -/
  | spent (k : K)
  /-- It has given up, or never takes a ticket. -/
  | gone
  deriving DecidableEq

variable {ι K : Type}

/-- One step of the disciplined protocol, from phases and used marks to phases and used marks.
Tickets may become used at any time; they never become unused. -/
inductive Step [DecidableEq ι] (phase : ι → Phase K) (used : K → Prop) :
    (ι → Phase K) → (K → Prop) → Prop
  | take (i : ι) (k : K) (hidle : phase i = .idle) (hunused : ¬ used k)
      (hfree : ∀ j, phase j ≠ .holding k) :
      Step phase used (Function.update phase i (.holding k)) used
  | spend (i : ι) (k : K) {used' : K → Prop} (hhold : phase i = .holding k)
      (hmono : ∀ k, used k → used' k) (hused : used' k) :
      Step phase used (Function.update phase i (.spent k)) used'
  | leave (i : ι) : Step phase used (Function.update phase i .gone) used
  | other {used' : K → Prop} (hmono : ∀ k, used k → used' k) : Step phase used phase used'

/-- A participant whose phase does not change makes a step of the protocol when no ticket
becomes unused. -/
lemma Step.stay [DecidableEq ι] {phase : ι → Phase K} {used used' : K → Prop} {i : ι}
    {p : Phase K} (hp : phase i = p) (hmono : ∀ k, used k → used' k) :
    Step phase used (Function.update phase i p) used' := by
  rw [← hp, Function.update_eq_self]
  exact .other hmono

/-- The invariant of the disciplined protocol. -/
structure Exclusive (phase : ι → Phase K) (used : K → Prop) : Prop where
  one_holder : ∀ i j k, phase i = .holding k → phase j = .holding k → i = j
  spent_used : ∀ i k, phase i = .spent k → used k
  no_late_holder : ∀ i j k, phase i = .holding k → phase j ≠ .spent k
  one_spender : ∀ i j k, phase i = .spent k → phase j = .spent k → i = j

/-- Before anybody has looked, the invariant holds. -/
lemma Exclusive.of_start {phase : ι → Phase K} (used : K → Prop)
    (h : ∀ i, phase i = .idle ∨ phase i = .gone) : Exclusive phase used where
  one_holder i j k hi _ := by rcases h i with h | h <;> rw [h] at hi <;> cases hi
  spent_used i k hi := by rcases h i with h | h <;> rw [h] at hi <;> cases hi
  no_late_holder i j k hi := by rcases h i with h | h <;> rw [h] at hi <;> cases hi
  one_spender i j k hi _ := by rcases h i with h | h <;> rw [h] at hi <;> cases hi

variable {phase : ι → Phase K} {used used' : K → Prop}

lemma Exclusive.mono (h : Exclusive phase used) (hmono : ∀ k, used k → used' k) :
    Exclusive phase used' where
  one_holder := h.one_holder
  spent_used i k hi := hmono k (h.spent_used i k hi)
  no_late_holder := h.no_late_holder
  one_spender := h.one_spender

variable [DecidableEq ι]

/-- A phase after an update is the new one of the participant that moved, or an old one. -/
private lemma cases_of_update {i a : ι} {p q : Phase K} (h : Function.update phase i p a = q) :
    (a = i ∧ p = q) ∨ (a ≠ i ∧ phase a = q) := by
  by_cases hai : a = i
  · rw [hai, Function.update_self] at h
    exact Or.inl ⟨hai, h⟩
  · rw [Function.update_of_ne hai] at h
    exact Or.inr ⟨hai, h⟩

/-- A phase other than the one just entered is an old one. -/
private lemma of_update_ne {i a : ι} {p q : Phase K} (hpq : p ≠ q)
    (h : Function.update phase i p a = q) : a ≠ i ∧ phase a = q := by
  rcases cases_of_update h with ⟨-, hp⟩ | h
  · exact absurd hp hpq
  · exact h

/-- Taking an unused ticket nobody holds.  That it was not spent before is where `spent_used`
is needed. -/
lemma Exclusive.take (h : Exclusive phase used) (i : ι) {k : K} (hunused : ¬ used k)
    (hfree : ∀ j, phase j ≠ .holding k) :
    Exclusive (Function.update phase i (.holding k)) used where
  one_holder a b l ha hb := by
    rcases cases_of_update ha with ⟨hai, hl⟩ | ⟨-, ha⟩
    · cases hl
      rcases cases_of_update hb with ⟨hbi, -⟩ | ⟨-, hb⟩
      · rw [hai, hbi]
      · exact absurd hb (hfree b)
    · rcases cases_of_update hb with ⟨-, hl⟩ | ⟨-, hb⟩
      · cases hl
        exact absurd ha (hfree a)
      · exact h.one_holder a b l ha hb
  spent_used a l ha := h.spent_used a l (of_update_ne (by simp) ha).2
  no_late_holder a b l ha hb := by
    have hb := (of_update_ne (by simp) hb).2
    rcases cases_of_update ha with ⟨-, hl⟩ | ⟨-, ha⟩
    · cases hl
      exact hunused (h.spent_used b k hb)
    · exact h.no_late_holder a b l ha hb
  one_spender a b l ha hb :=
    h.one_spender a b l (of_update_ne (by simp) ha).2 (of_update_ne (by simp) hb).2

/-- Spending a held ticket.  The holder was the only one, and nobody had spent it. -/
lemma Exclusive.spend (h : Exclusive phase used) {i : ι} {k : K} (hhold : phase i = .holding k)
    (hmono : ∀ k, used k → used' k) (hused : used' k) :
    Exclusive (Function.update phase i (.spent k)) used' where
  one_holder a b l ha hb :=
    h.one_holder a b l (of_update_ne (by simp) ha).2 (of_update_ne (by simp) hb).2
  spent_used a l ha := by
    rcases cases_of_update ha with ⟨-, hl⟩ | ⟨-, ha⟩
    · cases hl
      exact hused
    · exact hmono l (h.spent_used a l ha)
  no_late_holder a b l ha hb := by
    obtain ⟨hai, ha⟩ := of_update_ne (by simp) ha
    rcases cases_of_update hb with ⟨-, hl⟩ | ⟨-, hb⟩
    · cases hl
      exact hai (h.one_holder a i k ha hhold)
    · exact h.no_late_holder a b l ha hb
  one_spender a b l ha hb := by
    rcases cases_of_update ha with ⟨hai, hl⟩ | ⟨-, ha⟩
    · cases hl
      rcases cases_of_update hb with ⟨hbi, -⟩ | ⟨-, hb⟩
      · rw [hai, hbi]
      · exact absurd hb (h.no_late_holder i b k hhold)
    · rcases cases_of_update hb with ⟨-, hl⟩ | ⟨-, hb⟩
      · cases hl
        exact absurd ha (h.no_late_holder i a k hhold)
      · exact h.one_spender a b l ha hb

lemma Exclusive.leave (h : Exclusive phase used) (i : ι) :
    Exclusive (Function.update phase i .gone) used where
  one_holder a b l ha hb :=
    h.one_holder a b l (of_update_ne (by simp) ha).2 (of_update_ne (by simp) hb).2
  spent_used a l ha := h.spent_used a l (of_update_ne (by simp) ha).2
  no_late_holder a b l ha hb :=
    h.no_late_holder a b l (of_update_ne (by simp) ha).2 (of_update_ne (by simp) hb).2
  one_spender a b l ha hb :=
    h.one_spender a b l (of_update_ne (by simp) ha).2 (of_update_ne (by simp) hb).2

/-- Every step of the disciplined protocol keeps the invariant. -/
theorem Exclusive.step {phase' : ι → Phase K} (h : Exclusive phase used)
    (hstep : Step phase used phase' used') : Exclusive phase' used' := by
  cases hstep with
  | take i k _ hunused hfree => exact h.take i hunused hfree
  | spend i k hhold hmono hused => exact h.spend hhold hmono hused
  | leave i => exact h.leave i
  | other hmono => exact h.mono hmono

/-! ## Concrete interleavings -/

variable {Pc σ : Type}

/-- An interleaved system whose disciplined steps are steps of the protocol, seen through the
phase of a control point and the used marks of a store.  `inv` is an invariant of the system
that the simulation may rely on. -/
structure Implements (S : System Pc σ) (ok : Pool ι Pc σ → ι → Prop)
    (inv : Pool ι Pc σ → Prop) (phase : Pc → Phase K) (used : σ → K → Prop) : Prop where
  call : ∀ P i c s, inv P → ok P i → S.next (P.pc i) P.store = some (c, s) →
    Step (phase ∘ P.pc) (used P.store) (Function.update (phase ∘ P.pc) i (phase c)) (used s)
  env : ∀ (P : Pool ι Pc σ) s, inv P → S.env P.store s →
    ∀ k, used P.store k → used s k

/-- The invariant of the protocol, along every run of an implementation. -/
theorem Implements.exclusive {S : System Pc σ} {ok : Pool ι Pc σ → ι → Prop}
    {inv : Pool ι Pc σ → Prop} {phase : Pc → Phase K} {used : σ → K → Prop}
    (h : Implements S ok inv phase used) {P₀ P : Pool ι Pc σ}
    (hinv : ∀ P, S.Run ok P₀ P → inv P)
    (hstart : ∀ i, phase (P₀.pc i) = .idle ∨ phase (P₀.pc i) = .gone)
    (hrun : S.Run ok P₀ P) : Exclusive (phase ∘ P.pc) (used P.store) := by
  induction hrun with
  | refl => exact Exclusive.of_start _ hstart
  | @call P i c s hrun hok hnext ih =>
      have hstep := h.call P i c s (hinv P hrun) hok hnext
      have hpc : phase ∘ (P.advance i c s).pc = Function.update (phase ∘ P.pc) i (phase c) :=
        Function.comp_update phase P.pc i c
      rw [hpc]
      exact ih.step hstep
  | @env P s hrun henv ih => exact ih.mono (h.env P s (hinv P hrun) henv)

end BePyEco.Library.Ticket
