import BePyEco.Library.Program
import Mathlib.Logic.Function.Basic

/-!
# Interleaved calls

A `Pool` is a store shared by a family of calls, each at a control point of its own, together
with the history of the control points executed so far, newest first.  A `System` says what a
control point does to the store and what may happen to the store from outside between two
statements.

`System.Run S ok P₀ P` says that `P` is reached from `P₀` by any interleaving in which every
call step satisfies `ok`; the unrestricted runs are those with `ok` always true.  The index
type of the calls is arbitrary, so a run may involve any number of calls, and a call that has
not executed a statement yet is one that has not started.

`System.RelyGuarantee` is the rule for what a call knows about the store: it is kept by whatever
the other calls and the surroundings guarantee.

`System.execute` replays a schedule, so that a concrete run can be computed.
-/

namespace BePyEco.Library

/-- A shared store and the control points of the calls on it. -/
structure Pool (ι Pc σ : Type) where
  store : σ
  pc : ι → Pc
  history : List (ι × Pc) := []

/-- What control points do, and what the surroundings may do to the store. -/
structure System (Pc σ : Type) where
  next : Pc → σ → Option (Pc × σ)
  env : σ → σ → Prop

variable {ι Pc σ : Type} [DecidableEq ι]

/-- Call `i` has executed its statement: it is at `c` now and the store is `s`. -/
def Pool.advance (P : Pool ι Pc σ) (i : ι) (c : Pc) (s : σ) : Pool ι Pc σ where
  store := s
  pc := Function.update P.pc i c
  history := (i, P.pc i) :: P.history

@[simp] lemma Pool.store_advance (P : Pool ι Pc σ) (i : ι) (c : Pc) (s : σ) :
    (P.advance i c s).store = s := rfl

@[simp] lemma Pool.history_advance (P : Pool ι Pc σ) (i : ι) (c : Pc) (s : σ) :
    (P.advance i c s).history = (i, P.pc i) :: P.history := rfl

@[simp] lemma Pool.pc_advance_self (P : Pool ι Pc σ) (i : ι) (c : Pc) (s : σ) :
    (P.advance i c s).pc i = c := by
  simp [Pool.advance]

lemma Pool.pc_advance_of_ne {P : Pool ι Pc σ} {i j : ι} (h : j ≠ i) (c : Pc) (s : σ) :
    (P.advance i c s).pc j = P.pc j := by
  simp [Pool.advance, h]

/-- After a step a call is either the one that moved or where it was. -/
lemma Pool.pc_advance_cases (P : Pool ι Pc σ) (i j : ι) (c : Pc) (s : σ) :
    (j = i ∧ (P.advance i c s).pc j = c) ∨ (j ≠ i ∧ (P.advance i c s).pc j = P.pc j) := by
  by_cases h : j = i
  · refine Or.inl ⟨h, ?_⟩
    rw [h]
    exact P.pc_advance_self i c s
  · exact Or.inr ⟨h, Pool.pc_advance_of_ne h c s⟩

/-- The system of the calls a control describes together with any other calls, which are given
by what is left of them. -/
def Control.system {ε α : Type} (C : Control σ ε α Pc) (env : σ → σ → Prop) :
    System (Pc ⊕ Program σ ε Unit) σ where
  next
    | .inl c, s => (C.next c s).map fun x => (.inl x.1, x.2)
    | .inr p, s => (p.step s).map fun x => (.inr x.1, x.2)
  env := env

/-- A call that the control describes takes a step of the control, any other call a statement. -/
lemma Control.system_next {ε α : Type} {C : Control σ ε α Pc} {env : σ → σ → Prop}
    {call call' : Pc ⊕ Program σ ε Unit} {s s' : σ}
    (h : (C.system env).next call s = some (call', s')) :
    (∃ c c', call = .inl c ∧ call' = .inl c' ∧ C.next c s = some (c', s')) ∨
      (∃ p p', call = .inr p ∧ call' = .inr p' ∧ p.step s = some (p', s')) := by
  cases call with
  | inl c =>
      obtain ⟨⟨c', s₁⟩, hnext, heq⟩ := Option.map_eq_some_iff.1 h
      cases heq
      exact Or.inl ⟨c, c', rfl, rfl, hnext⟩
  | inr p =>
      obtain ⟨⟨p', s₁⟩, hnext, heq⟩ := Option.map_eq_some_iff.1 h
      cases heq
      exact Or.inr ⟨p, p', rfl, rfl, hnext⟩

namespace System

variable (S : System Pc σ)

/-- The pools reached from `P₀` by interleavings whose call steps all satisfy `ok`. -/
inductive Run (ok : Pool ι Pc σ → ι → Prop) (P₀ : Pool ι Pc σ) : Pool ι Pc σ → Prop
  | refl : Run ok P₀ P₀
  | call {P : Pool ι Pc σ} {i : ι} {c : Pc} {s : σ} (hrun : Run ok P₀ P) (hok : ok P i)
      (hnext : S.next (P.pc i) P.store = some (c, s)) : Run ok P₀ (P.advance i c s)
  | env {P : Pool ι Pc σ} {s : σ} (hrun : Run ok P₀ P) (henv : S.env P.store s) :
      Run ok P₀ { P with store := s }

variable {S} {ok ok' : Pool ι Pc σ → ι → Prop} {P₀ P₁ P₂ : Pool ι Pc σ}

/-- What every step preserves holds in every state of a run that starts with it. -/
theorem Run.invariant {inv : Pool ι Pc σ → Prop} (hinit : inv P₀)
    (hcall : ∀ P i c s, inv P → ok P i → S.next (P.pc i) P.store = some (c, s) →
      inv (P.advance i c s))
    (henv : ∀ P s, inv P → S.env P.store s → inv { P with store := s })
    (h : S.Run ok P₀ P₁) : inv P₁ := by
  induction h with
  | refl => exact hinit
  | call _ hok hnext ih => exact hcall _ _ _ _ ih hok hnext
  | env _ hs ih => exact henv _ _ ih hs

/-- What control points know about the store, when all that happens to the store is in `R`. -/
structure RelyGuarantee (S : System Pc σ) (R : σ → σ → Prop) (Knows : σ → Pc → Prop) : Prop where
  stable : ∀ {c s s'}, Knows s c → R s s' → Knows s' c
  guarantee : ∀ {c c' s s'}, Knows s c → S.next c s = some (c', s') → R s s' ∧ Knows s' c'
  rely : ∀ {s s'}, S.env s s' → R s s'

/-- Along every run, what the control points of the calls know is right. -/
theorem RelyGuarantee.knows {R : σ → σ → Prop} {Knows : σ → Pc → Prop}
    (hrg : S.RelyGuarantee R Knows) (hstart : ∀ i, Knows P₀.store (P₀.pc i))
    (h : S.Run ok P₀ P₁) : ∀ i, Knows P₁.store (P₁.pc i) := by
  induction h with
  | refl => exact hstart
  | @call P i c s _ _ hnext ih =>
      obtain ⟨hR, hc⟩ := hrg.guarantee (ih i) hnext
      intro j
      obtain ⟨-, hpc⟩ | ⟨-, hpc⟩ := P.pc_advance_cases i j c s
      · rw [hpc]
        exact hc
      · rw [hpc]
        exact hrg.stable (ih j) hR
  | env _ henv ih => exact fun i => hrg.stable (ih i) (hrg.rely henv)

/-- Along every run, the store moves along the relation. -/
theorem RelyGuarantee.related {R : σ → σ → Prop} [Std.Refl R] [IsTrans σ R]
    {Knows : σ → Pc → Prop} (hrg : S.RelyGuarantee R Knows)
    (hstart : ∀ i, Knows P₀.store (P₀.pc i)) (h : S.Run ok P₀ P₁) : R P₀.store P₁.store := by
  induction h with
  | refl => exact refl_of R P₀.store
  | @call P i c s hrun _ hnext ih =>
      exact trans_of R ih (hrg.guarantee (hrg.knows hstart hrun i) hnext).1
  | env _ henv ih => exact trans_of R ih (hrg.rely henv)

lemma Run.trans (h₁ : S.Run ok P₀ P₁) (h₂ : S.Run ok P₁ P₂) : S.Run ok P₀ P₂ := by
  induction h₂ with
  | refl => exact h₁
  | call _ hok hnext ih => exact ih.call hok hnext
  | env _ hs ih => exact ih.env hs

lemma Run.mono (hmono : ∀ P i, ok P i → ok' P i) (h : S.Run ok P₀ P₁) : S.Run ok' P₀ P₁ := by
  induction h with
  | refl => exact .refl
  | call _ hok hnext ih => exact ih.call (hmono _ _ hok) hnext
  | env _ hs ih => exact ih.env hs

end System

/-- What is left of a call that the control does not describe guarantees what the call does. -/
lemma Control.guarantees_of_run {ε α : Type} {C : Control σ ε α Pc} {env R : σ → σ → Prop}
    {ok : Pool ι (Pc ⊕ Program σ ε Unit) σ → ι → Prop}
    {P₀ P : Pool ι (Pc ⊕ Program σ ε Unit) σ} (h : (C.system env).Run ok P₀ P) {i : ι}
    {p : Program σ ε Unit} (hpc : P₀.pc i = .inr p) (hp : p.Guarantees R) :
    ∃ p', P.pc i = .inr p' ∧ p'.Guarantees R := by
  induction h with
  | refl => exact ⟨p, hpc, hp⟩
  | @call P j call' s _ _ hnext ih =>
      obtain ⟨p', hi, hp'⟩ := ih
      obtain ⟨rfl, hpc'⟩ | ⟨-, hpc'⟩ := P.pc_advance_cases j i call' s
      · obtain ⟨c, c', hc, -, -⟩ | ⟨q, q', hq, rfl, hstep⟩ := system_next hnext
        · cases hi.symm.trans hc
        · cases hi.symm.trans hq
          exact ⟨q', hpc', (hp'.step hstep).2⟩
      · exact ⟨p', hpc'.trans hi, hp'⟩
  | env _ _ ih => exact ih

/-- When all of them guarantee it at the start, all of them do along the run. -/
lemma Control.guarantees_of_pc {ε α : Type} {C : Control σ ε α Pc} {env R : σ → σ → Prop}
    {ok : Pool ι (Pc ⊕ Program σ ε Unit) σ → ι → Prop}
    {P₀ P : Pool ι (Pc ⊕ Program σ ε Unit) σ}
    (hstart : ∀ i p, P₀.pc i = .inr p → p.Guarantees R) (h : (C.system env).Run ok P₀ P) {i : ι}
    {p : Program σ ε Unit} (hpc : P.pc i = .inr p) : p.Guarantees R := by
  induction h generalizing i p with
  | refl => exact hstart i p hpc
  | @call P j call' s _ _ hnext ih =>
      obtain ⟨rfl, hcall⟩ | ⟨-, hcall⟩ := P.pc_advance_cases j i call' s
      · rw [hcall] at hpc
        obtain ⟨c, c', -, rfl, -⟩ | ⟨q, q', hq, rfl, hstep⟩ := system_next hnext
        · cases hpc
        · cases hpc
          exact ((ih hq).step hstep).2
      · rw [hcall] at hpc
        exact ih hpc
  | env _ _ ih => exact ih hpc

namespace System

variable {S : System Pc σ} {ok ok' : Pool ι Pc σ → ι → Prop} {P₀ P₁ P₂ : Pool ι Pc σ}

/-! ## Dead ends -/

/-- Control points that no step leaves, and that a step leads to exactly when it is not `ok`.  `I`
is an invariant of the pools. -/
structure DeadEnds (S : System Pc σ) (I : Pool ι Pc σ → Prop) (ok : Pool ι Pc σ → ι → Prop)
    (Dead : Pc → Prop) : Prop where
  call : ∀ {P i c s}, I P → S.next (P.pc i) P.store = some (c, s) → I (P.advance i c s)
  env : ∀ {P s}, I P → S.env P.store s → I { P with store := s }
  stuck : ∀ {c s}, Dead c → S.next c s = none
  leads : ∀ {P i c s}, I P → S.next (P.pc i) P.store = some (c, s) → (Dead c ↔ ¬ ok P i)

section Dead

variable {I : Pool ι Pc σ → Prop} {Dead : Pc → Prop}

lemma DeadEnds.invariant (hd : S.DeadEnds I ok Dead) (hstart : I P₀) (h : S.Run ok' P₀ P₁) :
    I P₁ :=
  h.invariant hstart (fun _ _ _ _ hI _ hnext => hd.call hI hnext) fun _ _ hI henv => hd.env hI henv

/-- A run whose steps are all `ok` leads no call to a dead end. -/
lemma DeadEnds.not_dead_of_ok (hd : S.DeadEnds I ok Dead) (hstart : I P₀)
    (halive : ∀ i, ¬ Dead (P₀.pc i)) (h : S.Run ok P₀ P₁) : ∀ i, ¬ Dead (P₁.pc i) := by
  induction h with
  | refl => exact halive
  | @call P i c s hrun hok hnext ih =>
      intro j
      obtain ⟨-, hpc⟩ | ⟨-, hpc⟩ := P.pc_advance_cases i j c s
      · rw [hpc]
        exact fun hdead => (hd.leads (hd.invariant hstart hrun) hnext).1 hdead hok
      · rw [hpc]
        exact ih j
  | env _ _ ih => exact ih

/-- After a run no call is at a dead end, if and only if none was before it and every step of the
run is `ok`. -/
theorem DeadEnds.forall_not_dead_iff (hd : S.DeadEnds I ok Dead) (hstart : I P₀)
    (h : S.Run ok' P₀ P₁) :
    (∀ i, ¬ Dead (P₁.pc i)) ↔ (∀ i, ¬ Dead (P₀.pc i)) ∧ S.Run ok P₀ P₁ := by
  refine ⟨fun halive => ?_, fun hrun => hd.not_dead_of_ok hstart hrun.1 hrun.2⟩
  induction h with
  | refl => exact ⟨halive, .refl⟩
  | @call P i c s hrun _ hnext ih =>
      have hbefore : ∀ j, ¬ Dead (P.pc j) := by
        intro j hdead
        obtain ⟨rfl, -⟩ | ⟨-, hpc⟩ := P.pc_advance_cases i j c s
        · rw [hd.stuck hdead] at hnext
          cases hnext
        · rw [← hpc] at hdead
          exact halive j hdead
      obtain ⟨hfirst, hok⟩ := ih hbefore
      refine ⟨hfirst, hok.call ?_ hnext⟩
      have halive' := halive i
      rw [P.pc_advance_self i c s] at halive'
      by_contra hnot
      exact halive' ((hd.leads (hd.invariant hstart hrun) hnext).2 hnot)
  | env _ henv ih =>
      obtain ⟨hfirst, hok⟩ := ih halive
      exact ⟨hfirst, hok.env henv⟩

end Dead

/-! ## Replaying a schedule -/

/-- Let the calls of a schedule execute one statement each, in order, as long as a check on the
next step holds. -/
def execute (S : System Pc σ) (check : Pool ι Pc σ → ι → Bool) :
    Pool ι Pc σ → List ι → Option (Pool ι Pc σ)
  | P, [] => some P
  | P, i :: rest =>
    if check P i then
      match S.next (P.pc i) P.store with
      | some (c, s) => S.execute check (P.advance i c s) rest
      | none => none
    else none

/-- A schedule that can be replayed is a run. -/
theorem run_of_execute {check : Pool ι Pc σ → ι → Bool}
    (hcheck : ∀ P i, check P i = true → ok P i) {is : List ι}
    (h : S.execute check P₀ is = some P₁) : S.Run ok P₀ P₁ := by
  induction is generalizing P₀ with
  | nil =>
      cases h
      exact .refl
  | cons i rest ih =>
      rw [execute] at h
      split at h
      · rename_i hi
        split at h
        · rename_i c s hnext
          exact (Run.refl.call (hcheck P₀ i hi) hnext).trans (ih h)
        · cases h
      · cases h

/-- A property of the pool a schedule ends in is a property of a reachable pool. -/
theorem exists_run_of_execute {check : Pool ι Pc σ → ι → Bool}
    (hcheck : ∀ P i, check P i = true → ok P i) {is : List ι} {p : Pool ι Pc σ → Bool}
    (h : (S.execute check P₀ is).map p = some true) :
    ∃ P, S.Run ok P₀ P ∧ p P = true := by
  cases hP : S.execute check P₀ is with
  | none =>
      rw [hP] at h
      cases h
  | some P =>
      rw [hP] at h
      exact ⟨P, run_of_execute hcheck hP, by simpa using h⟩

/-- The pool a schedule that can be replayed ends in. -/
def replay (S : System Pc σ) (check : Pool ι Pc σ → ι → Bool) (P₀ : Pool ι Pc σ) (is : List ι)
    (h : (S.execute check P₀ is).isSome = true) : Pool ι Pc σ :=
  (S.execute check P₀ is).get h

lemma run_replay {check : Pool ι Pc σ → ι → Bool} (hcheck : ∀ P i, check P i = true → ok P i)
    {is : List ι} (h : (S.execute check P₀ is).isSome = true) :
    S.Run ok P₀ (S.replay check P₀ is h) :=
  run_of_execute hcheck (Option.some_get h).symm

end System

end BePyEco.Library
