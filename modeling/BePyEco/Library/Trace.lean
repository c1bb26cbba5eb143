import BePyEco.Library.Triple

/-!
# Traces of complete calls

A `Trace` is a finite sequence of complete runs that remembers them: its log holds, newest first,
each call with the store it began in, what it returned or raised, and the store it left.  Some
other change of the store may happen between two calls.

`Trace.invariant` is the induction principle for a property of the log and the store.
`Trace.earlier` goes back to where an event of the log began, so that a fact about every reachable
store is a fact about every call of a trace.  `Trace.execute` runs a list of calls, so that a
concrete trace can be computed.
-/

namespace BePyEco.Library.Program

/-- A complete call. -/
structure Event (Call σ ε α : Type) where
  call : Call
  before : σ
  result : Except (Raised ε) α
  after : σ

variable {Call σ ε α : Type}

/-- The run of a call. -/
def event (service : Call → Program σ ε α) (c : Call) (s : σ) : Event Call σ ε α where
  call := c
  before := s
  result := ((service c).run s).1
  after := ((service c).run s).2

/-- The logs and stores reached from `s₀` by complete calls that each satisfy `ok` where they
begin, with changes `env` in between. -/
inductive Trace (service : Call → Program σ ε α)
    (ok : List (Event Call σ ε α) → σ → Call → Prop) (env : σ → σ → Prop) (s₀ : σ) :
    List (Event Call σ ε α) → σ → Prop
  | refl : Trace service ok env s₀ [] s₀
  | call {log : List (Event Call σ ε α)} {s : σ} (c : Call) (h : Trace service ok env s₀ log s)
      (hok : ok log s c) :
      Trace service ok env s₀ (event service c s :: log) (event service c s).after
  | env {log : List (Event Call σ ε α)} {s s' : σ} (h : Trace service ok env s₀ log s)
      (henv : env s s') : Trace service ok env s₀ log s'

namespace Trace

variable {service : Call → Program σ ε α} {ok ok' : List (Event Call σ ε α) → σ → Call → Prop}
  {env : σ → σ → Prop} {s₀ s : σ} {log : List (Event Call σ ε α)}

/-- What every call and every other change keeps holds along a trace. -/
theorem invariant {I : List (Event Call σ ε α) → σ → Prop} (hstart : I [] s₀)
    (hcall : ∀ log s c, I log s → ok log s c →
      I (event service c s :: log) (event service c s).after)
    (henv : ∀ log s s', I log s → env s s' → I log s')
    (h : Trace service ok env s₀ log s) : I log s := by
  induction h with
  | refl => exact hstart
  | call c _ hok ih => exact hcall _ _ c ih hok
  | env _ hmove ih => exact henv _ _ _ ih hmove

/-- Every event of a log began in a store that a trace with the older events reaches. -/
lemma earlier {log₁ log₀ : List (Event Call σ ε α)} {e : Event Call σ ε α}
    (h : Trace service ok env s₀ log s) (hlog : log = log₁ ++ e :: log₀) :
    Trace service ok env s₀ log₀ e.before ∧ ok log₀ e.before e.call ∧
      e = event service e.call e.before := by
  induction h generalizing log₁ with
  | refl =>
      have hlength := congrArg List.length hlog
      simp at hlength
  | @call log s c h hok ih =>
      cases log₁ with
      | nil =>
          rw [List.nil_append, List.cons.injEq] at hlog
          obtain ⟨rfl, rfl⟩ := hlog
          exact ⟨h, hok, rfl⟩
      | cons e' log₁ =>
          rw [List.cons_append, List.cons.injEq] at hlog
          exact ih hlog.2
  | env _ _ ih => exact ih hlog

/-- The same for an event that is a member of the log. -/
lemma of_mem {e : Event Call σ ε α} (h : Trace service ok env s₀ log s) (he : e ∈ log) :
    ∃ log₀, Trace service ok env s₀ log₀ e.before ∧ ok log₀ e.before e.call ∧
      e = event service e.call e.before := by
  obtain ⟨log₁, log₀, hlog⟩ := List.append_of_mem he
  exact ⟨log₀, h.earlier hlog⟩

/-- What an event left behind is related to every later store. -/
lemma related {R : σ → σ → Prop} [Std.Refl R] [IsTrans σ R]
    (hcall : ∀ log s c, ok log s c → R s (event service c s).after)
    (henv : ∀ s s', env s s' → R s s') (h : Trace service ok env s₀ log s) :
    R s₀ s ∧ ∀ e ∈ log, R e.after s := by
  induction h with
  | refl => exact ⟨refl_of R s₀, fun e he => by cases he⟩
  | @call log s c _ hok ih =>
      have hmove := hcall log s c hok
      refine ⟨trans_of R ih.1 hmove, fun e he => ?_⟩
      obtain rfl | he := List.mem_cons.1 he
      · exact refl_of R _
      · exact trans_of R (ih.2 e he) hmove
  | env _ hmove ih =>
      exact ⟨trans_of R ih.1 (henv _ _ hmove),
        fun e he => trans_of R (ih.2 e he) (henv _ _ hmove)⟩

/-- What the events after an event keep, and the other changes keep, is as the event left it. -/
lemma same_since {τ : Type} {f : σ → τ} (henv : ∀ s s', env s s' → f s' = f s)
    (h : Trace service ok env s₀ log s) {between log₀ : List (Event Call σ ε α)}
    {e : Event Call σ ε α} (hlog : log = between ++ e :: log₀)
    (hkeep : ∀ m ∈ between, f m.after = f m.before) : f s = f e.after := by
  induction h generalizing between with
  | refl =>
      have hlength := congrArg List.length hlog
      simp at hlength
  | @call log s c h hok ih =>
      cases between with
      | nil =>
          rw [List.nil_append, List.cons.injEq] at hlog
          rw [hlog.1]
      | cons m between =>
          rw [List.cons_append, List.cons.injEq] at hlog
          obtain ⟨rfl, hlog⟩ := hlog
          have hlast : f (event service c s).after = f s := hkeep _ List.mem_cons_self
          rw [hlast]
          exact ih hlog fun m hm => hkeep m (List.mem_cons_of_mem _ hm)
  | env _ hmove ih => rw [henv _ _ hmove, ih hlog hkeep]

lemma mono (hmono : ∀ log s c, ok log s c → ok' log s c) (h : Trace service ok env s₀ log s) :
    Trace service ok' env s₀ log s := by
  induction h with
  | refl => exact .refl
  | call c _ hok ih => exact ih.call c (hmono _ _ c hok)
  | env _ hmove ih => exact ih.env hmove

/-! ## Running a list of calls -/

/-- Run the calls of a list in order. -/
def execute (service : Call → Program σ ε α) :
    List Call → List (Event Call σ ε α) × σ → List (Event Call σ ε α) × σ
  | [], r => r
  | c :: rest, r => execute service rest (event service c r.2 :: r.1, (event service c r.2).after)

/-- Every call of a list satisfies `ok` where it begins. -/
def Allowed (service : Call → Program σ ε α) (ok : List (Event Call σ ε α) → σ → Call → Prop) :
    List Call → List (Event Call σ ε α) × σ → Prop
  | [], _ => True
  | c :: rest, r => ok r.1 r.2 c ∧
    Allowed service ok rest (event service c r.2 :: r.1, (event service c r.2).after)

/-- A list of calls that are allowed is a trace. -/
lemma execute_of_allowed {calls : List Call} {r : List (Event Call σ ε α) × σ}
    (h : Trace service ok env s₀ r.1 r.2) (hallowed : Allowed service ok calls r) :
    Trace service ok env s₀ (execute service calls r).1 (execute service calls r).2 := by
  induction calls generalizing r with
  | nil => exact h
  | cons c rest ih => exact ih (h.call c hallowed.1) hallowed.2

end Trace

end BePyEco.Library.Program
