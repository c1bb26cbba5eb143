import BePyEco.Library.Transaction

/-!
# Programs of autocommitted statements

A `Program` is a call seen from the database: a tree of statements, each committed on its own,
whose continuation depends on the store the statement found.  One program has three readings.

* `Program.run` executes it alone, to the end.
* `Program.runFault n` executes it alone and makes its `n`-th statement fail from outside; the
  statements before it stay committed.
* `Program.step` executes its first statement only, which is what an interleaving needs.

`Control` presents the residuals of a program by named control points, so that "this call has
read the row and has not written it yet" can be said and decided; its field `sound` ties every
control point to the program it stands for.

`Program.Guarantees R` says that every statement of a program moves the store along `R`; it is
the frame rule of this development.
-/

namespace BePyEco.Library

/-- A call as a tree of autocommitted statements. -/
inductive Program (σ ε α : Type)
  /-- The call is over. -/
  | done (r : Except (Raised ε) α)
  /-- Execute a statement, then go on depending on the store it found. -/
  | stmt (exec : σ → σ) (next : σ → Program σ ε α)

namespace Program

variable {σ ε α β γ : Type}

/-- Sequencing: an exception ends the program. -/
def bind : Program σ ε α → (α → Program σ ε β) → Program σ ε β
  | done (.ok a), k => k a
  | done (.error e), _ => done (.error e)
  | stmt exec next, k => stmt exec fun s => (next s).bind k

instance : Monad (Program σ ε) where
  pure a := done (.ok a)
  bind := bind

/-- A transaction as one statement. -/
def exec (x : Tx σ ε α) : Program σ ε α :=
  stmt (fun s => (x.exec s).2) fun s => done (x.exec s).1

instance : MonadLift (Tx σ ε) (Program σ ε) := ⟨exec⟩

/-- Raise an exception of the application. -/
def raise (e : ε) : Program σ ε α := done (.error (.app e))

/-- Raise an exception of the application unless a check on values at hand holds. -/
def require (c : Bool) (e : ε) : Program σ ε Unit :=
  if c then pure () else raise e

/-- Raise the exception of a computation that failed. -/
def ofExcept (r : Except ε α) : Program σ ε α :=
  done (r.mapError Raised.app)

@[simp] lemma pure_eq (a : α) : (pure a : Program σ ε α) = done (.ok a) := rfl
@[simp] lemma liftM_eq (x : Tx σ ε α) : (liftM x : Program σ ε α) = exec x := rfl
@[simp] lemma ofExcept_ok (a : α) : (ofExcept (.ok a) : Program σ ε α) = done (.ok a) := rfl
@[simp] lemma ofExcept_error (e : ε) :
    (ofExcept (.error e) : Program σ ε α) = done (.error (.app e)) := rfl
@[simp] lemma require_true (e : ε) : (require true e : Program σ ε Unit) = done (.ok ()) := rfl
@[simp] lemma require_false (e : ε) :
    (require false e : Program σ ε Unit) = done (.error (.app e)) := rfl

@[simp] lemma done_ok_bind (a : α) (k : α → Program σ ε β) :
    (done (.ok a) >>= k : Program σ ε β) = k a := rfl

@[simp] lemma done_error_bind (e : Raised ε) (k : α → Program σ ε β) :
    (done (.error e) >>= k : Program σ ε β) = done (.error e) := rfl

@[simp] lemma raise_bind (e : ε) (k : α → Program σ ε β) :
    (raise e >>= k : Program σ ε β) = raise e := rfl

lemma stmt_bind (x : σ → σ) (next : σ → Program σ ε α) (k : α → Program σ ε β) :
    (stmt x next >>= k : Program σ ε β) = stmt x fun s => next s >>= k := rfl

lemma bind_assoc (p : Program σ ε α) (k : α → Program σ ε β) (l : β → Program σ ε γ) :
    (p >>= k) >>= l = p >>= fun a => k a >>= l := by
  induction p with
  | done r =>
      cases r with
      | ok a => rfl
      | error e => rfl
  | stmt x next ih =>
      rw [stmt_bind, stmt_bind, stmt_bind]
      congr 1
      funext s
      exact ih s

/-! ## Alone, to the end -/

/-- Execute the whole call. -/
def run : Program σ ε α → σ → Except (Raised ε) α × σ
  | done r, s => (r, s)
  | stmt x next, s => (next s).run (x s)

@[simp] lemma run_done (r : Except (Raised ε) α) (s : σ) :
    (done r : Program σ ε α).run s = (r, s) := rfl

@[simp] lemma run_raise (e : ε) (s : σ) :
    (raise e : Program σ ε α).run s = (.error (.app e), s) := rfl

@[simp] lemma run_exec (x : Tx σ ε α) (s : σ) : (exec x).run s = x.exec s := rfl

@[simp] lemma run_bind (p : Program σ ε α) (k : α → Program σ ε β) (s : σ) :
    (p >>= k).run s =
      match p.run s with
      | (.ok a, s') => (k a).run s'
      | (.error e, s') => (.error e, s') := by
  induction p generalizing s with
  | done r =>
      cases r with
      | ok a => rfl
      | error e => rfl
  | stmt x next ih =>
      rw [stmt_bind]
      exact ih s (x s)

/-- Dropping the result changes nothing in the store. -/
lemma run_bind_return (p : Program σ ε α) (f : α → β) (s : σ) :
    ((p >>= fun a => return f a).run s).2 = (p.run s).2 := by
  rw [run_bind]
  rcases p.run s with ⟨r, s'⟩
  cases r with
  | ok a => rfl
  | error e => rfl

/-- From a bind that returned, both halves returned. -/
lemma run_bind_ok {p : Program σ ε α} {k : α → Program σ ε β} {s s' : σ} {b : β}
    (h : (p >>= k).run s = (.ok b, s')) :
    ∃ a s₁, p.run s = (.ok a, s₁) ∧ (k a).run s₁ = (.ok b, s') := by
  rw [run_bind] at h
  rcases hp : p.run s with ⟨r, s₁⟩
  rw [hp] at h
  cases r with
  | ok a => exact ⟨a, s₁, rfl, h⟩
  | error e => cases h

/-- A statement that returned committed. -/
lemma run_exec_ok {x : Tx σ ε α} {s s' : σ} {a : α} (h : (exec x).run s = (.ok a, s')) :
    x.run s = .ok (a, s') := by
  rw [run_exec] at h
  cases hx : x.run s with
  | ok r =>
      rw [Tx.exec_ok hx] at h
      cases h
      rfl
  | error e =>
      rw [Tx.exec_error hx] at h
      cases h

/-- A statement that raised changed nothing. -/
lemma run_exec_error {x : Tx σ ε α} {s s' : σ} {e : Raised ε}
    (h : (exec x).run s = (.error e, s')) : s' = s ∧ x.run s = .error e := by
  rw [run_exec] at h
  cases hx : x.run s with
  | ok r =>
      rw [Tx.exec_ok hx] at h
      cases h
  | error raised =>
      rw [Tx.exec_error hx] at h
      cases h
      exact ⟨rfl, rfl⟩

/-- After a statement that commits, the program goes on with what it returned. -/
lemma run_exec_bind_of_ok {x : Tx σ ε β} {k : β → Program σ ε α} {s s' : σ} {b : β}
    (h : x.run s = .ok (b, s')) : (exec x >>= k).run s = (k b).run s' := by
  rw [run_bind, run_exec, Tx.exec_ok h]

/-- A statement that raises ends the program. -/
lemma run_exec_bind_of_error {x : Tx σ ε β} {k : β → Program σ ε α} {s : σ} {e : Raised ε}
    (h : x.run s = .error e) : (exec x >>= k).run s = (.error e, s) := by
  rw [run_bind, run_exec, Tx.exec_error h]

/-- A check that let the program go on holds. -/
lemma run_require_ok {c : Bool} {e : ε} {s s' : σ} {u : Unit}
    (h : (require c e : Program σ ε Unit).run s = (.ok u, s')) : s' = s ∧ c = true := by
  by_cases hc : c = true
  · rw [hc] at h
    cases h
    exact ⟨rfl, hc⟩
  · rw [Bool.not_eq_true] at hc
    rw [hc] at h
    cases h

/-! ## Alone, with a failing statement -/

/-- Execute the call and let statement number `n` fail: what was committed before it stays.
A call of at most `n` statements is not disturbed. -/
def runFault : ℕ → Program σ ε α → σ → Except (Raised ε) α × σ
  | _, done r, s => (r, s)
  | 0, stmt _ _, s => (.error (.db .operationalError), s)
  | n + 1, stmt x next, s => runFault n (next s) (x s)

@[simp] lemma runFault_done (n : ℕ) (r : Except (Raised ε) α) (s : σ) :
    (done r : Program σ ε α).runFault n s = (r, s) := by
  cases n <;> rfl

@[simp] lemma runFault_raise (n : ℕ) (e : ε) (s : σ) :
    (raise e : Program σ ε α).runFault n s = (.error (.app e), s) :=
  runFault_done n _ s

lemma runFault_exec_bind_zero (x : Tx σ ε α) (k : α → Program σ ε β) (s : σ) :
    (exec x >>= k).runFault 0 s = (.error (.db .operationalError), s) := rfl

lemma runFault_exec_bind_succ (n : ℕ) (x : Tx σ ε α) (k : α → Program σ ε β) (s : σ) :
    (exec x >>= k).runFault (n + 1) s =
      match x.exec s with
      | (.ok a, s') => (k a).runFault n s'
      | (.error e, s') => (.error e, s') := by
  change (done (x.exec s).1 >>= k).runFault n (x.exec s).2 = _
  split
  · rename_i heq
    rw [heq, done_ok_bind]
  · rename_i heq
    rw [heq, done_error_bind, runFault_done]

/-- The fault does not reach what a call makes of its result. -/
lemma runFault_bind_return (f : α → β) (n : ℕ) (p : Program σ ε α) (s : σ) :
    (p >>= fun a => done (.ok (f a))).runFault n s =
      ((p.runFault n s).1.map f, (p.runFault n s).2) := by
  induction p generalizing n s with
  | done r =>
      rw [runFault_done]
      cases r with
      | ok a => exact runFault_done n _ s
      | error e => exact runFault_done n _ s
  | stmt x next ih =>
      rw [stmt_bind]
      cases n with
      | zero => rfl
      | succ n => exact ih s n (x s)

/-- How many statements the call executes. -/
def statements : Program σ ε α → σ → ℕ
  | done _, _ => 0
  | stmt x next, s => (next s).statements (x s) + 1

@[simp] lemma statements_done (r : Except (Raised ε) α) (s : σ) :
    (done r : Program σ ε α).statements s = 0 := rfl

/-- A bind whose first half returns executes the statements of both. -/
lemma statements_bind_of_ok {p : Program σ ε α} {k : α → Program σ ε β} {s s' : σ} {a : α}
    (h : p.run s = (.ok a, s')) :
    (p >>= k).statements s = p.statements s + (k a).statements s' := by
  induction p generalizing s with
  | done r =>
      cases h
      rw [done_ok_bind, statements_done, Nat.zero_add]
  | stmt x next ih =>
      have hrest : (next s >>= k).statements (x s) =
          (next s).statements (x s) + (k a).statements s' := ih s h
      rw [stmt_bind, statements, statements, hrest]
      omega

lemma statements_exec_bind {x : Tx σ ε α} {k : α → Program σ ε β} {s s' : σ} {a : α}
    (h : x.run s = .ok (a, s')) :
    (exec x >>= k).statements s = (k a).statements s' + 1 := by
  have hrun : (exec x).run s = (.ok a, s') := by rw [run_exec, Tx.exec_ok h]
  rw [statements_bind_of_ok hrun, Nat.add_comm]
  rfl

/-- A fault after the last statement does not disturb the call. -/
lemma runFault_of_statements_le {p : Program σ ε α} {n : ℕ} {s : σ} (h : p.statements s ≤ n) :
    p.runFault n s = p.run s := by
  induction p generalizing n s with
  | done r => rw [runFault_done, run_done]
  | stmt x next ih =>
      rw [statements] at h
      obtain ⟨m, rfl⟩ : ∃ m, n = m + 1 := ⟨n - 1, by omega⟩
      exact ih s (Nat.le_of_add_le_add_right h)

/-- A fault at one of the statements is what the call raises, and what any continuation of the call
raises. -/
lemma runFault_bind_of_lt {p : Program σ ε α} {k : α → Program σ ε β} {n : ℕ} {s : σ}
    (h : n < p.statements s) :
    (p >>= k).runFault n s = (.error (.db .operationalError), (p.runFault n s).2) := by
  induction p generalizing n s with
  | done r => exact absurd h (Nat.not_lt_zero n)
  | stmt x next ih =>
      rw [statements] at h
      rw [stmt_bind]
      cases n with
      | zero => rfl
      | succ n => exact ih s (Nat.lt_of_add_lt_add_right h)

lemma runFault_of_lt {p : Program σ ε α} {n : ℕ} {s : σ} (h : n < p.statements s) :
    (p.runFault n s).1 = .error (.db .operationalError) := by
  induction p generalizing n s with
  | done r => exact absurd h (Nat.not_lt_zero n)
  | stmt x next ih =>
      rw [statements] at h
      cases n with
      | zero => rfl
      | succ n => exact ih s (Nat.lt_of_add_lt_add_right h)

/-- A fault behind the first half of a bind is a fault of the second half. -/
lemma runFault_bind_of_le {p : Program σ ε α} {k : α → Program σ ε β} {n : ℕ} {s : σ}
    (h : p.statements s ≤ n) :
    (p >>= k).runFault n s =
      match p.run s with
      | (.ok a, s') => (k a).runFault (n - p.statements s) s'
      | (.error e, s') => (.error e, s') := by
  induction p generalizing n s with
  | done r =>
      cases r with
      | ok a => rfl
      | error e => rw [done_error_bind, runFault_done, run_done]
  | stmt x next ih =>
      rw [statements] at h
      obtain ⟨m, rfl⟩ : ∃ m, n = m + 1 := ⟨n - 1, by omega⟩
      have hrest := @ih s m (x s) (Nat.le_of_add_le_add_right h)
      rw [stmt_bind, statements, Nat.add_sub_add_right]
      exact hrest

/-! ## One statement -/

/-- Execute the first statement. -/
def step : Program σ ε α → σ → Option (Program σ ε α × σ)
  | done _, _ => none
  | stmt x next, s => some (next s, x s)

@[simp] lemma step_done (r : Except (Raised ε) α) (s : σ) :
    (done r : Program σ ε α).step s = none := rfl

lemma step_exec_bind (x : Tx σ ε α) (k : α → Program σ ε β) (s : σ) :
    (exec x >>= k).step s = some (done (x.exec s).1 >>= k, (x.exec s).2) := rfl

/-! ## Among other calls -/

/-- The result of a call whose statements find the given stores, in turn. -/
def outcome : Program σ ε α → List σ → Option (Except (Raised ε) α)
  | done r, _ => some r
  | stmt _ _, [] => none
  | stmt _ next, s :: rest => (next s).outcome rest

/-- What its statements make of these stores. -/
def moves : Program σ ε α → List σ → List (σ × σ)
  | done _, _ => []
  | stmt _ _, [] => []
  | stmt x next, s :: rest => (s, x s) :: (next s).moves rest

@[simp] lemma outcome_done (r : Except (Raised ε) α) (stores : List σ) :
    (done r : Program σ ε α).outcome stores = some r := by
  cases stores <;> rfl

@[simp] lemma moves_done (r : Except (Raised ε) α) (stores : List σ) :
    (done r : Program σ ε α).moves stores = [] := by
  cases stores <;> rfl

lemma outcome_exec_bind (x : Tx σ ε α) (k : α → Program σ ε β) (s : σ) (rest : List σ) :
    (exec x >>= k).outcome (s :: rest) =
      match (x.exec s).1 with
      | .ok a => (k a).outcome rest
      | .error e => some (.error e) := by
  change (done (x.exec s).1 >>= k).outcome rest = _
  cases (x.exec s).1 with
  | ok a => rfl
  | error e => rw [done_error_bind, outcome_done]

lemma outcome_exec (x : Tx σ ε α) (s : σ) (rest : List σ) :
    (exec x).outcome (s :: rest) = some (x.exec s).1 := outcome_done _ rest

/-- A call that returns has returned from its parts. -/
lemma outcome_bind_ok {p : Program σ ε α} {k : α → Program σ ε β} {stores : List σ} {r : β}
    (h : (p >>= k).outcome stores = some (.ok r)) :
    ∃ a rest, p.outcome stores = some (.ok a) ∧ (k a).outcome rest = some (.ok r) := by
  induction p generalizing stores with
  | done result =>
      cases result with
      | ok a => exact ⟨a, stores, outcome_done _ _, h⟩
      | error e =>
          rw [done_error_bind, outcome_done] at h
          cases h
  | stmt x next ih =>
      cases stores with
      | nil => cases h
      | cons s rest => exact ih s h

lemma moves_exec_bind (x : Tx σ ε α) (k : α → Program σ ε β) (s : σ) (rest : List σ) :
    (exec x >>= k).moves (s :: rest) =
      (s, (x.exec s).2) ::
        match (x.exec s).1 with
        | .ok a => (k a).moves rest
        | .error _ => [] := by
  change (s, (x.exec s).2) :: (done (x.exec s).1 >>= k).moves rest = _
  cases (x.exec s).1 with
  | ok a => rfl
  | error e => rw [done_error_bind, moves_done]

/-! ## Guarantees -/

/-- Every statement of the program moves the store along `R`. -/
def Guarantees (R : σ → σ → Prop) : Program σ ε α → Prop
  | done _ => True
  | stmt x next => ∀ s, R s (x s) ∧ (next s).Guarantees R

variable {R : σ → σ → Prop}

@[simp] lemma guarantees_done (r : Except (Raised ε) α) :
    (done r : Program σ ε α).Guarantees R := trivial

@[simp] lemma guarantees_raise (e : ε) : (raise e : Program σ ε α).Guarantees R := trivial

@[simp] lemma guarantees_require (c : Bool) (e : ε) :
    (require c e : Program σ ε Unit).Guarantees R := by
  cases c <;> trivial

@[simp] lemma guarantees_ofExcept (r : Except ε α) :
    (ofExcept r : Program σ ε α).Guarantees R := trivial

lemma guarantees_exec [Std.Refl R] {x : Tx σ ε α} (hx : x.Guarantees R) :
    (exec x).Guarantees R := by
  intro s
  refine ⟨?_, trivial⟩
  change R s (x.exec s).2
  cases h : x.run s with
  | ok r =>
      rw [Tx.exec_ok h]
      exact hx s _ _ h
  | error e =>
      rw [Tx.exec_error h]
      exact refl_of R s

lemma Guarantees.bind {p : Program σ ε α} {k : α → Program σ ε β} (hp : p.Guarantees R)
    (hk : ∀ a, (k a).Guarantees R) : (p >>= k).Guarantees R := by
  induction p with
  | done r =>
      cases r with
      | ok a => exact hk a
      | error e => trivial
  | stmt x next ih => exact fun s => ⟨(hp s).1, ih s (hp s).2⟩

lemma Guarantees.bind_return {p : Program σ ε α} {f : α → β} (hp : p.Guarantees R) :
    (p >>= fun a => done (.ok (f a)) : Program σ ε β).Guarantees R :=
  hp.bind fun _ => trivial

/-- A run moves the store along a reflexive and transitive guarantee. -/
lemma Guarantees.run [Std.Refl R] [IsTrans σ R] {p : Program σ ε α} (hp : p.Guarantees R)
    (s : σ) : R s (p.run s).2 := by
  induction p generalizing s with
  | done r => exact refl_of R s
  | stmt x next ih => exact trans_of R (hp s).1 (ih s (hp s).2 (x s))

/-- So does a run with a failing statement. -/
lemma Guarantees.runFault [Std.Refl R] [IsTrans σ R] {p : Program σ ε α} (hp : p.Guarantees R)
    (n : ℕ) (s : σ) : R s (p.runFault n s).2 := by
  induction p generalizing n s with
  | done r =>
      rw [runFault_done]
      exact refl_of R s
  | stmt x next ih =>
      cases n with
      | zero => exact refl_of R s
      | succ n => exact trans_of R (hp s).1 (ih s (hp s).2 n (x s))

/-- A step moves the store along the guarantee, and what is left of the program has it too. -/
lemma Guarantees.step {p p' : Program σ ε α} {s s' : σ} (hp : p.Guarantees R)
    (h : p.step s = some (p', s')) : R s s' ∧ p'.Guarantees R := by
  cases p with
  | done r => cases h
  | stmt x next =>
      cases h
      exact hp s

/-- Whatever stores its statements find, each moves its store along the guarantee. -/
lemma Guarantees.moves {p : Program σ ε α} (hp : p.Guarantees R) (stores : List σ) :
    ∀ m ∈ p.moves stores, R m.1 m.2 := by
  induction p generalizing stores with
  | done r =>
      rw [moves_done]
      intro m hm
      cases hm
  | stmt x next ih =>
      cases stores with
      | nil =>
          intro m hm
          cases hm
      | cons s rest =>
          intro m hm
          obtain rfl | hm := List.mem_cons.1 hm
          · exact (hp s).1
          · exact ih s (hp s).2 rest m hm

lemma Guarantees.mono {R' : σ → σ → Prop} {p : Program σ ε α} (hp : p.Guarantees R)
    (h : ∀ s s', R s s' → R' s s') : p.Guarantees R' := by
  induction p with
  | done r => trivial
  | stmt x next ih => exact fun s => ⟨h s _ (hp s).1, ih s (hp s).2⟩

/-! ## Programs that end with a given statement -/

/-- A run of the program that returns `a` has `L a` as its last statement; every other statement,
and every statement of a run that raises, moves the store along `R`. -/
def EndsWith (R : σ → σ → Prop) (L : α → σ → σ → Prop) : Program σ ε α → Prop
  | done (.ok _) => False
  | done (.error _) => True
  | stmt x next => ∀ s, (∃ a, next s = done (.ok a) ∧ L a s (x s)) ∨
    (R s (x s) ∧ (next s).EndsWith R L)

variable {L : α → σ → σ → Prop}

/-- What the first statement of such a program does. -/
lemma EndsWith.step {x : σ → σ} {next : σ → Program σ ε α} (h : (stmt x next).EndsWith R L)
    (s : σ) :
    (∃ a, next s = done (.ok a) ∧ L a s (x s)) ∨ (R s (x s) ∧ ∃ e, next s = done (.error e)) ∨
      (R s (x s) ∧ ∃ x' next', next s = stmt x' next' ∧ (stmt x' next').EndsWith R L) := by
  obtain hlast | ⟨hmove, hrest⟩ := h s
  · exact Or.inl hlast
  · cases hnext : next s with
    | done r =>
        rw [hnext] at hrest
        cases r with
        | ok a => exact hrest.elim
        | error e => exact Or.inr (Or.inl ⟨hmove, e, rfl⟩)
    | stmt x' next' =>
        rw [hnext] at hrest
        exact Or.inr (Or.inr ⟨hmove, x', next', rfl, hrest⟩)

/-- What a run of such a program does, with a failing statement or without. -/
lemma EndsWith.runFault [Std.Refl R] [IsTrans σ R] {p : Program σ ε α} (hp : p.EndsWith R L)
    (n : ℕ) (s : σ) :
    (∃ a s₁ s', p.runFault n s = (.ok a, s') ∧ R s s₁ ∧ L a s₁ s') ∨
      ∃ e s', p.runFault n s = (.error e, s') ∧ R s s' := by
  induction p generalizing n s with
  | done r =>
      cases r with
      | ok a => exact hp.elim
      | error e => exact Or.inr ⟨e, s, runFault_done n _ s, refl_of R s⟩
  | stmt x next ih =>
      cases n with
      | zero => exact Or.inr ⟨_, s, rfl, refl_of R s⟩
      | succ n =>
          obtain ⟨a, hnext, hlast⟩ | ⟨hmove, hrest⟩ := hp s
          · refine Or.inl ⟨a, s, x s, ?_, refl_of R s, hlast⟩
            change (next s).runFault n (x s) = _
            rw [hnext, runFault_done]
          · obtain ⟨a, s₁, s', hrun, hbefore, hlast⟩ | ⟨e, s', hrun, hbefore⟩ := ih s hrest n (x s)
            · exact Or.inl ⟨a, s₁, s', hrun, trans_of R hmove hbefore, hlast⟩
            · exact Or.inr ⟨e, s', hrun, trans_of R hmove hbefore⟩

/-- A run that raises has not come to the last statement. -/
lemma EndsWith.run_error [Std.Refl R] [IsTrans σ R] {p : Program σ ε α} (hp : p.EndsWith R L)
    {e : Raised ε} {s s' : σ} (h : p.run s = (.error e, s')) : R s s' := by
  induction p generalizing s with
  | done r =>
      cases h
      exact refl_of R _
  | stmt x next ih =>
      obtain ⟨a, hnext, -⟩ | ⟨hmove, hrest⟩ := hp s
      · have hrun : (next s).run (x s) = (.error e, s') := h
        rw [hnext] at hrun
        cases hrun
      · exact trans_of R hmove (ih s hrest h)

/-- The last statement, and what is made of its result. -/
lemma endsWith_exec_return [Std.Refl R] {x : Tx σ ε β} {f : β → α}
    (h : ∀ s b s', x.run s = .ok (b, s') → L (f b) s s') :
    (exec x >>= fun b => done (.ok (f b)) : Program σ ε α).EndsWith R L := by
  intro s
  change (∃ a, (done (x.exec s).1 >>= fun b => done (.ok (f b)) : Program σ ε α) = done (.ok a) ∧
    L a s (x.exec s).2) ∨ (R s (x.exec s).2 ∧
      (done (x.exec s).1 >>= fun b => done (.ok (f b)) : Program σ ε α).EndsWith R L)
  cases hx : x.run s with
  | ok r =>
      rw [Tx.exec_ok hx]
      exact Or.inl ⟨f r.1, rfl, h s r.1 r.2 hx⟩
  | error e =>
      rw [Tx.exec_error hx]
      exact Or.inr ⟨refl_of R s, trivial⟩

/-- A part before the end. -/
lemma Guarantees.bind_endsWith {p : Program σ ε β} {k : β → Program σ ε α} (hp : p.Guarantees R)
    (hk : ∀ b, (k b).EndsWith R L) : (p >>= k).EndsWith R L := by
  induction p with
  | done r =>
      cases r with
      | ok b => exact hk b
      | error e => exact True.intro
  | stmt x next ih => exact fun s => Or.inr ⟨(hp s).1, ih s (hp s).2⟩

/-- What is made of the result of such a program. -/
lemma EndsWith.bind_return {L' : β → σ → σ → Prop} {p : Program σ ε α} {f : α → β}
    (hp : p.EndsWith R L) (hL : ∀ a s s', L a s s' → L' (f a) s s') :
    (p >>= fun a => done (.ok (f a)) : Program σ ε β).EndsWith R L' := by
  induction p with
  | done r =>
      cases r with
      | ok a => exact False.elim hp
      | error e => exact True.intro
  | stmt x next ih =>
      intro s
      obtain ⟨a, hnext, hlast⟩ | ⟨hmove, hrest⟩ := hp s
      · refine Or.inl ⟨f a, ?_, hL a s (x s) hlast⟩
        change (next s >>= fun a => done (.ok (f a))) = _
        rw [hnext, done_ok_bind]
      · exact Or.inr ⟨hmove, ih s hrest⟩

/-! ## Exceptions that escape -/

/-- The program has ended with an exception that is not `Handled`. -/
def Escapes (Handled : Raised ε → Prop) : Program σ ε α → Prop
  | done (.error e) => ¬ Handled e
  | done (.ok _) => False
  | stmt _ _ => False

/-- The statements of the program are numbered from `n` on.  Statement `m` ends the program with an
exception that is not `Handled` when `bad m` holds of the store it finds, and only then; a result
satisfies `Q`. -/
def EscapesWhen (Handled : Raised ε → Prop) (Q : α → Prop) (bad : ℕ → σ → Prop) :
    ℕ → Program σ ε α → Prop
  | _, done (.ok a) => Q a
  | _, done (.error e) => Handled e
  | n, stmt _ next => ∀ s, (bad n s ∧ ∃ e, next s = done (.error e) ∧ ¬ Handled e) ∨
    (¬ bad n s ∧ (next s).EscapesWhen Handled Q bad (n + 1))

section Escapes

variable {Handled : Raised ε → Prop} {Q : α → Prop} {bad : ℕ → σ → Prop} {n : ℕ}

@[simp] lemma escapes_error {e : Raised ε} :
    (done (.error e) : Program σ ε α).Escapes Handled ↔ ¬ Handled e := Iff.rfl

@[simp] lemma not_escapes_ok (a : α) : ¬ (done (.ok a) : Program σ ε α).Escapes Handled := id

/-- A program that is about to execute a statement has not ended. -/
lemma not_escapes_exec_bind (x : Tx σ ε β) (k : β → Program σ ε α) :
    ¬ (exec x >>= k).Escapes Handled := id

lemma escapes_iff {p : Program σ ε α} :
    p.Escapes Handled ↔ ∃ e, p = done (.error e) ∧ ¬ Handled e := by
  cases p with
  | done r => cases r <;> simp
  | stmt x next => simp [Escapes]

lemma Escapes.step {p : Program σ ε α} (h : p.Escapes Handled) (s : σ) : p.step s = none := by
  obtain ⟨e, rfl, -⟩ := escapes_iff.1 h
  rfl

lemma escapesWhen_ok {a : α} (h : Q a) :
    (done (.ok a) : Program σ ε α).EscapesWhen Handled Q bad n := h

lemma escapesWhen_error {e : Raised ε} (h : Handled e) :
    (done (.error e) : Program σ ε α).EscapesWhen Handled Q bad n := h

lemma escapesWhen_require_bind {c : Bool} {e : ε} {k : Unit → Program σ ε α} (he : Handled (.app e))
    (hk : c = true → (k ()).EscapesWhen Handled Q bad n) :
    (require c e >>= k).EscapesWhen Handled Q bad n := by
  cases c with
  | false => exact escapesWhen_error he
  | true => exact hk rfl

lemma escapesWhen_ofExcept_bind {r : Except ε β} {k : β → Program σ ε α}
    (he : ∀ e, r = .error e → Handled (.app e))
    (hk : ∀ b, r = .ok b → (k b).EscapesWhen Handled Q bad n) :
    (ofExcept r >>= k).EscapesWhen Handled Q bad n := by
  cases r with
  | ok b => exact hk b rfl
  | error e => exact escapesWhen_error (he e rfl)

/-- The rule for a statement, from what is known of the statement alone. -/
lemma escapesWhen_exec_bind {x : Tx σ ε β} {k : β → Program σ ε α}
    (hx : x.EscapesWhen Handled (bad n))
    (hk : ∀ s b s', x.run s = .ok (b, s') → (k b).EscapesWhen Handled Q bad (n + 1)) :
    (exec x >>= k).EscapesWhen Handled Q bad n := by
  intro s
  change (bad n s ∧ ∃ e, (done (x.exec s).1 >>= k : Program σ ε α) = done (.error e) ∧
    ¬ Handled e) ∨ (¬ bad n s ∧
      (done (x.exec s).1 >>= k : Program σ ε α).EscapesWhen Handled Q bad (n + 1))
  cases hrun : x.run s with
  | ok r =>
      have hgood : ¬ bad n s := by
        intro hbad
        obtain ⟨e, herror, -⟩ := (hx s).1 hbad
        rw [hrun] at herror
        cases herror
      rw [Tx.exec_ok hrun]
      exact Or.inr ⟨hgood, hk s r.1 r.2 hrun⟩
  | error e =>
      rw [Tx.exec_error hrun, done_error_bind]
      by_cases he : Handled e
      · refine Or.inr ⟨fun hbad => ?_, he⟩
        obtain ⟨e', herror, he'⟩ := (hx s).1 hbad
        cases hrun.symm.trans herror
        exact he' he
      · exact Or.inl ⟨(hx s).2 ⟨e, hrun, he⟩, e, rfl, he⟩

lemma EscapesWhen.not_escapes {p : Program σ ε α} (hp : p.EscapesWhen Handled Q bad n) :
    ¬ p.Escapes Handled := by
  rw [escapes_iff]
  rintro ⟨e, rfl, he⟩
  exact he hp

/-- What is made of the result. -/
lemma EscapesWhen.bind_return {Q' : β → Prop} {p : Program σ ε α} {f : α → β}
    (hp : p.EscapesWhen Handled Q bad n) (hQ : ∀ a, Q a → Q' (f a)) :
    (p >>= fun a => done (.ok (f a)) : Program σ ε β).EscapesWhen Handled Q' bad n := by
  induction p generalizing n with
  | done r =>
      cases r with
      | ok a => exact hQ a hp
      | error e => exact hp
  | stmt x next ih =>
      intro s
      obtain ⟨hbad, e, hnext, he⟩ | ⟨hgood, hrest⟩ := hp s
      · refine Or.inl ⟨hbad, e, ?_, he⟩
        change (next s >>= fun a => done (.ok (f a))) = _
        rw [hnext, done_error_bind]
      · exact Or.inr ⟨hgood, ih s hrest⟩

end Escapes

end Program

/-! ## Named control points -/

/-- The residuals of a program, presented by control points: `next` executes the statement a
control point is about to execute, and is the program's own step. -/
structure Control (σ ε α Pc : Type) where
  program : Pc → Program σ ε α
  next : Pc → σ → Option (Pc × σ)
  sound : ∀ c s, (program c).step s = (next c s).map fun x => (program x.1, x.2)

namespace Control

variable {σ ε α Pc : Type}

/-- Go to the control point the outcome of a transaction selects. -/
def advance {β : Type} (x : Tx σ ε β) (onOk : β → Pc) (onError : Raised ε → Pc) (s : σ) :
    Option (Pc × σ) :=
  match x.exec s with
  | (.ok b, s') => some (onOk b, s')
  | (.error e, s') => some (onError e, s')

/-- An `advance` can always be taken. -/
lemma exists_advance {β : Type} (x : Tx σ ε β) (onOk : β → Pc) (onError : Raised ε → Pc) (s : σ) :
    ∃ r, advance x onOk onError s = some r := by
  unfold advance
  rcases x.exec s with ⟨result, s'⟩
  cases result with
  | ok b => exact ⟨_, rfl⟩
  | error e => exact ⟨_, rfl⟩

/-- What an `advance` that was taken did. -/
lemma advance_cases {β : Type} {x : Tx σ ε β} {onOk : β → Pc} {onError : Raised ε → Pc}
    {s s' : σ} {c : Pc} (h : advance x onOk onError s = some (c, s')) :
    (∃ b, x.run s = .ok (b, s') ∧ c = onOk b) ∨
      (∃ e, x.run s = .error e ∧ c = onError e ∧ s' = s) := by
  unfold advance Tx.exec at h
  cases hx : x.run s with
  | ok r =>
      rw [hx] at h
      cases h
      exact Or.inl ⟨r.1, rfl, rfl⟩
  | error e =>
      rw [hx] at h
      cases h
      exact Or.inr ⟨e, rfl, rfl, rfl⟩

/-- An `advance` leads to an exception that escapes exactly when the transaction raises one. -/
lemma escapes_of_advance {β : Type} (program : Pc → Program σ ε α) {x : Tx σ ε β}
    {onOk : β → Pc} {onError : Raised ε → Pc} {s s' : σ} {c : Pc} {Handled : Raised ε → Prop}
    {bad : σ → Prop} (hx : x.EscapesWhen Handled bad)
    (hok : ∀ b, ¬ (program (onOk b)).Escapes Handled)
    (herror : ∀ e, program (onError e) = .done (.error e))
    (h : advance x onOk onError s = some (c, s')) : (program c).Escapes Handled ↔ bad s := by
  rw [hx s]
  obtain ⟨b, hrun, rfl⟩ | ⟨e, hrun, rfl, -⟩ := advance_cases h
  · simp [hrun, hok b]
  · simp [hrun, herror e]

/-- A call that has ended with such an exception goes nowhere. -/
lemma next_of_escapes (C : Control σ ε α Pc) {Handled : Raised ε → Prop} {c : Pc}
    (h : (C.program c).Escapes Handled) (s : σ) : C.next c s = none := by
  have hsound := C.sound c s
  rw [h.step s] at hsound
  exact Option.map_eq_none_iff.1 hsound.symm

/-- The step of a program that is `exec x >>= k` is an `advance`, when the control points of both
outcomes stand for the right residuals. -/
lemma step_eq_advance {β : Type} (program : Pc → Program σ ε α) {c : Pc} {x : Tx σ ε β}
    (k : β → Program σ ε α) {onOk : β → Pc} {onError : Raised ε → Pc}
    (hc : program c = Program.exec x >>= k) (hok : ∀ b, program (onOk b) = k b)
    (herror : ∀ e, program (onError e) = .done (.error e)) (s : σ) :
    (program c).step s = (advance x onOk onError s).map fun y => (program y.1, y.2) := by
  rw [hc, Program.step_exec_bind]
  unfold advance
  rcases hx : x.exec s with ⟨r, s'⟩
  cases r with
  | ok b => simp [hok]
  | error e => simp [herror]

/-- The same for a program that ends with the transaction. -/
lemma step_eq_advance_last (program : Pc → Program σ ε α) {c : Pc} {x : Tx σ ε α}
    {onOk : α → Pc} {onError : Raised ε → Pc} (hc : program c = Program.exec x)
    (hok : ∀ b, program (onOk b) = .done (.ok b))
    (herror : ∀ e, program (onError e) = .done (.error e)) (s : σ) :
    (program c).step s = (advance x onOk onError s).map fun y => (program y.1, y.2) := by
  rw [hc]
  change some (Program.done (x.exec s).1, (x.exec s).2) = _
  unfold advance
  rcases hx : x.exec s with ⟨r, s'⟩
  cases r with
  | ok b => simp [hok]
  | error e => simp [herror]

end Control

end BePyEco.Library
