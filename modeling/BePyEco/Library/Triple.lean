import BePyEco.Library.Program

/-!
# Triples for whole runs

`Program.Triple P p Q E` says that a run of `p` alone, from a store with `P`, ends with `Q a` when
`p` returns `a` and with `E` when it raises.  The exceptional postcondition matters here because
the statements before an exception stay committed.

The rules follow the shape of a program: `Triple.bind`, `Triple.exec` for a statement,
`Triple.require` for a check, and `Triple.of_guarantees` for a part that only moves the store
along a relation under which the precondition is stable.

`Sequence` is a finite sequence of complete runs, with other changes in between, and
`Sequence.invariant` its induction principle: one triple for each call.
-/

namespace BePyEco.Library.Program

variable {σ ε α β : Type}

/-- What a whole run of `p` from a store with `P` ends with. -/
def Triple (P : σ → Prop) (p : Program σ ε α) (Q : α → σ → Prop) (E : σ → Prop) : Prop :=
  ∀ s, P s → match p.run s with
    | (.ok a, s') => Q a s'
    | (.error _, s') => E s'

namespace Triple

variable {P P' : σ → Prop} {Q Q' : α → σ → Prop} {E E' : σ → Prop} {p : Program σ ε α}

lemma ok (h : Triple P p Q E) {s s' : σ} {a : α} (hs : P s) (hrun : p.run s = (.ok a, s')) :
    Q a s' := by
  have hpost := h s hs
  rw [hrun] at hpost
  exact hpost

lemma error (h : Triple P p Q E) {s s' : σ} {e : Raised ε} (hs : P s)
    (hrun : p.run s = (.error e, s')) : E s' := by
  have hpost := h s hs
  rw [hrun] at hpost
  exact hpost

/-- What the program leaves behind whether it returns or raises. -/
lemma always {I : σ → Prop} (h : Triple P p (fun _ => I) I) {s : σ} (hs : P s) :
    I (p.run s).2 := by
  rcases hrun : p.run s with ⟨r, s'⟩
  cases r with
  | ok a => exact h.ok hs hrun
  | error e => exact h.error hs hrun

/-- The rule of consequence. -/
lemma mono (h : Triple P p Q E) (hpre : ∀ s, P' s → P s) (hpost : ∀ a s, Q a s → Q' a s)
    (herror : ∀ s, E s → E' s) : Triple P' p Q' E' := by
  intro s hs
  rcases hrun : p.run s with ⟨r, s'⟩
  cases r with
  | ok a => exact hpost a s' (h.ok (hpre s hs) hrun)
  | error e => exact herror s' (h.error (hpre s hs) hrun)

lemma done_ok {a : α} (h : ∀ s, P s → Q a s) : Triple P (done (.ok a) : Program σ ε α) Q E :=
  fun s hs => h s hs

lemma done_error {e : Raised ε} (h : ∀ s, P s → E s) :
    Triple P (done (.error e) : Program σ ε α) Q E :=
  fun s hs => h s hs

lemma raise {e : ε} (h : ∀ s, P s → E s) : Triple P (raise e : Program σ ε α) Q E :=
  done_error h

/-- A statement that raises leaves the store as it was. -/
lemma exec {x : Tx σ ε α} (h : ∀ s a s', P s → x.run s = .ok (a, s') → Q a s')
    (herror : ∀ s e, P s → x.run s = .error e → E s) : Triple P (exec x) Q E := by
  intro s hs
  rw [run_exec]
  cases hx : x.run s with
  | ok r =>
      rw [Tx.exec_ok hx]
      exact h s r.1 r.2 hs hx
  | error e =>
      rw [Tx.exec_error hx]
      exact herror s e hs hx

lemma bind {R : β → σ → Prop} {q : Program σ ε β} {k : β → Program σ ε α} (hq : Triple P q R E)
    (hk : ∀ b, Triple (R b) (k b) Q E) : Triple P (q >>= k) Q E := by
  intro s hs
  rw [run_bind]
  rcases hrun : q.run s with ⟨r, s'⟩
  cases r with
  | ok b => exact hk b s' (hq.ok hs hrun)
  | error e => exact hq.error hs hrun

/-- A check on values at hand; what comes after it may rely on it. -/
lemma require {c : Bool} {e : ε} (h : ∀ s, P s → E s) :
    Triple P (require c e : Program σ ε Unit) (fun _ s => P s ∧ c = true) E := by
  cases c with
  | true => exact done_ok fun s hs => ⟨hs, rfl⟩
  | false => exact done_error h

/-- A part that moves the store along a relation under which `P` is stable keeps `P`. -/
lemma of_guarantees {R : σ → σ → Prop} [Std.Refl R] [IsTrans σ R] (hp : p.Guarantees R)
    (hstable : ∀ s s', R s s' → P s → P s') : Triple P p (fun _ => P) P := by
  intro s hs
  have hrun : P (p.run s).2 := hstable _ _ (hp.run s) hs
  rcases h : p.run s with ⟨r, s'⟩
  rw [h] at hrun
  cases r with
  | ok a => exact hrun
  | error e => exact hrun

end Triple

/-! ## Sequences of complete calls -/

/-- The stores reached from `s₀` by complete calls that each satisfy `ok` in the store where they
begin, with changes `env` in between. -/
inductive Sequence {Call : Type} (service : Call → Program σ ε α) (ok : σ → Call → Prop)
    (env : σ → σ → Prop) (s₀ : σ) : σ → Prop
  | refl : Sequence service ok env s₀ s₀
  | call {s : σ} (c : Call) (h : Sequence service ok env s₀ s) (hok : ok s c) :
      Sequence service ok env s₀ ((service c).run s).2
  | env {s s' : σ} (h : Sequence service ok env s₀ s) (henv : env s s') :
      Sequence service ok env s₀ s'

namespace Sequence

variable {Call : Type} {service : Call → Program σ ε α} {ok : σ → Call → Prop}
  {env : σ → σ → Prop} {s₀ s : σ}

/-- What every call keeps, whether it returns or raises, holds along a sequence. -/
theorem invariant {I : σ → Prop} (hstart : I s₀)
    (hcall : ∀ c, Triple (fun s => I s ∧ ok s c) (service c) (fun _ => I) I)
    (henv : ∀ s s', env s s' → I s → I s') (h : Sequence service ok env s₀ s) : I s := by
  induction h with
  | refl => exact hstart
  | @call s c _ hok ih => exact (hcall c).always ⟨ih, hok⟩
  | env _ hmove ih => exact henv _ _ hmove ih

/-- Run the calls of a list in order. -/
def replay (service : Call → Program σ ε α) : List Call → σ → σ
  | [], s => s
  | c :: rest, s => replay service rest ((service c).run s).2

/-- Every call of a list satisfies `ok` where it begins. -/
def Allowed (service : Call → Program σ ε α) (ok : σ → Call → Prop) : List Call → σ → Prop
  | [], _ => True
  | c :: rest, s => ok s c ∧ Allowed service ok rest ((service c).run s).2

/-- A list of calls that are allowed is a sequence. -/
lemma replay_of_allowed {calls : List Call} (h : Sequence service ok env s₀ s)
    (hallowed : Allowed service ok calls s) :
    Sequence service ok env s₀ (replay service calls s) := by
  induction calls generalizing s with
  | nil => exact h
  | cons c rest ih => exact ih (h.call c hallowed.1) hallowed.2

end Sequence

end BePyEco.Library.Program
