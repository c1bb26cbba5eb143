import BePyEco.Library.Table
import Mathlib.Order.Defs.Unbundled

/-!
# Transactions and the row manager

`Tx σ ε α` is a piece of database code that either commits as a whole or leaves the store `σ`
as it was: an autocommitted statement, or the body of a transaction block.  An exception is a
database error or an exception of the application (`Raised ε`), and carries no store, which is
what makes a failed body roll back.

`Stored σ Row` says that a store holds a table of `Row`s, and `Objects` is the row manager over
it: `get`, `filter`, `create`, `update`, `save`, `delete`.  Every operation is one statement.
-/

namespace BePyEco.Library

/-- What a call can raise: an error of the database, or an exception of the application. -/
inductive Raised (ε : Type)
  | db (e : DbError)
  | app (e : ε)
  deriving DecidableEq, Repr

/-- Database code that commits as a whole or not at all. -/
structure Tx (σ ε α : Type) where
  run : σ → Except (Raised ε) (α × σ)

/-- The frame relation of an observation: it is the same before and after. -/
def Same {σ τ : Type} (f : σ → τ) (s s' : σ) : Prop := f s' = f s

instance {σ τ : Type} (f : σ → τ) : Std.Refl (Same f) := ⟨fun _ => rfl⟩

instance {σ τ : Type} (f : σ → τ) : IsTrans σ (Same f) := ⟨fun _ _ _ h h' => h'.trans h⟩

/-- A chain of fallible computations succeeds when each of them does. -/
lemma bind_eq_ok_iff {ε α β : Type} {x : Except ε α} {f : α → Except ε β} {b : β} :
    x >>= f = .ok b ↔ ∃ a, x = .ok a ∧ f a = .ok b := by
  cases x with
  | ok a =>
      constructor
      · exact fun h => ⟨a, rfl, h⟩
      · rintro ⟨a', ha, h⟩
        rw [Except.ok.inj ha]
        exact h
  | error e =>
      constructor
      · intro h
        cases h
      · rintro ⟨a, ha, -⟩
        cases ha

namespace Tx

variable {σ ε α β : Type}

instance : Monad (Tx σ ε) where
  pure a := ⟨fun s => .ok (a, s)⟩
  bind x f := ⟨fun s =>
    match x.run s with
    | .ok (a, s') => (f a).run s'
    | .error e => .error e⟩

@[simp] lemma run_pure (a : α) (s : σ) : (pure a : Tx σ ε α).run s = .ok (a, s) := rfl

@[simp] lemma run_bind (x : Tx σ ε α) (f : α → Tx σ ε β) (s : σ) :
    (x >>= f).run s =
      match x.run s with
      | .ok (a, s') => (f a).run s'
      | .error e => .error e := rfl

@[simp] lemma run_map (f : α → β) (x : Tx σ ε α) (s : σ) :
    (f <$> x).run s =
      match x.run s with
      | .ok (a, s') => .ok (f a, s')
      | .error e => .error e := rfl

/-- A computation on the current store. -/
def read (f : σ → α) : Tx σ ε α := ⟨fun s => .ok (f s, s)⟩

/-- Replace the store. -/
def modify (f : σ → σ) : Tx σ ε Unit := ⟨fun s => .ok ((), f s)⟩

/-- Raise an exception. -/
def raise (e : Raised ε) : Tx σ ε α := ⟨fun _ => .error e⟩

/-- Raise an exception of the application unless a check holds. -/
def require (c : Bool) (e : ε) : Tx σ ε Unit := if c then pure () else raise (.app e)

/-- A result at hand; its exception is one of the application. -/
def ofExcept : Except ε α → Tx σ ε α
  | .ok a => pure a
  | .error e => raise (.app e)

/-- Handle one kind of database error; every other exception passes. -/
def handling (x : Tx σ ε α) (e : DbError) (handler : Tx σ ε α) : Tx σ ε α := ⟨fun s =>
  match x.run s with
  | .ok r => .ok r
  | .error (.db e') => if e' = e then handler.run s else .error (.db e')
  | .error (.app e') => .error (.app e')⟩

@[simp] lemma run_read (f : σ → α) (s : σ) : (read f : Tx σ ε α).run s = .ok (f s, s) := rfl

@[simp] lemma run_modify (f : σ → σ) (s : σ) :
    (modify f : Tx σ ε Unit).run s = .ok ((), f s) := rfl

@[simp] lemma run_raise (e : Raised ε) (s : σ) : (raise e : Tx σ ε α).run s = .error e := rfl

@[simp] lemma run_require_true (e : ε) (s : σ) :
    (require true e : Tx σ ε Unit).run s = .ok ((), s) := rfl

@[simp] lemma run_require_false (e : ε) (s : σ) :
    (require false e : Tx σ ε Unit).run s = .error (.app e) := rfl

@[simp] lemma run_ofExcept_ok (a : α) (s : σ) :
    (ofExcept (.ok a) : Tx σ ε α).run s = .ok (a, s) := rfl

@[simp] lemma run_ofExcept_error (e : ε) (s : σ) :
    (ofExcept (.error e) : Tx σ ε α).run s = .error (.app e) := rfl

lemma run_handling_ok {x : Tx σ ε α} {e : DbError} {h : Tx σ ε α} {s : σ} {r : α × σ}
    (hx : x.run s = .ok r) : (x.handling e h).run s = .ok r := by
  simp [handling, hx]

lemma run_handling_error {x : Tx σ ε α} {e : DbError} {h : Tx σ ε α} {s : σ}
    (hx : x.run s = .error (.db e)) : (x.handling e h).run s = h.run s := by
  simp [handling, hx]

lemma run_handling_of_ne {x : Tx σ ε α} {e : DbError} {h : Tx σ ε α} {s : σ} {e' : Raised ε}
    (hx : x.run s = .error e') (hne : e' ≠ .db e) : (x.handling e h).run s = .error e' := by
  cases e' with
  | db e' =>
      have hne' : e' ≠ e := fun heq => hne (congrArg Raised.db heq)
      simp [handling, hx, hne']
  | app e' => simp [handling, hx]

/-- A handled body committed either by itself or in the handler. -/
lemma handling_ok {x : Tx σ ε α} {e : DbError} {h : Tx σ ε α} {s : σ} {r : α × σ}
    (hrun : (x.handling e h).run s = .ok r) :
    x.run s = .ok r ∨ (x.run s = .error (.db e) ∧ h.run s = .ok r) := by
  simp only [handling] at hrun
  split at hrun
  · rename_i heq
    exact Or.inl (heq.trans hrun)
  · rename_i e' heq
    split at hrun
    · rename_i he
      rw [he] at heq
      exact Or.inr ⟨heq, hrun⟩
    · cases hrun
  · cases hrun

/-- A body as one statement: an exception leaves the store as it was. -/
def exec (x : Tx σ ε α) (s : σ) : Except (Raised ε) α × σ :=
  match x.run s with
  | .ok (a, s') => (.ok a, s')
  | .error e => (.error e, s)

lemma exec_ok {x : Tx σ ε α} {s s' : σ} {a : α} (h : x.run s = .ok (a, s')) :
    x.exec s = (.ok a, s') := by
  simp [exec, h]

lemma exec_error {x : Tx σ ε α} {s : σ} {e : Raised ε} (h : x.run s = .error e) :
    x.exec s = (.error e, s) := by
  simp [exec, h]

/-- From a bind that committed, both halves committed. -/
lemma bind_ok {x : Tx σ ε α} {f : α → Tx σ ε β} {s s' : σ} {b : β}
    (h : (x >>= f).run s = .ok (b, s')) :
    ∃ a s₁, x.run s = .ok (a, s₁) ∧ (f a).run s₁ = .ok (b, s') := by
  rw [run_bind] at h
  split at h
  · exact ⟨_, _, by assumption, h⟩
  · cases h

/-- A body commits when both of its halves do. -/
lemma isOk_bind {x : Tx σ ε α} {f : α → Tx σ ε β} {s s' : σ} {a : α}
    (hx : x.run s = .ok (a, s')) (hf : ∃ r, (f a).run s' = .ok r) :
    ∃ r, (x >>= f).run s = .ok r := by
  rw [run_bind, hx]
  exact hf

/-- From a result at hand that let the body go on. -/
lemma ofExcept_ok {r : Except ε α} {s s' : σ} {a : α}
    (h : (ofExcept r : Tx σ ε α).run s = .ok (a, s')) : s' = s ∧ r = .ok a := by
  cases r with
  | ok b =>
      cases h
      exact ⟨rfl, rfl⟩
  | error e => cases h

lemma ofExcept_mapError_ok {δ : Type} {r : Except δ α} {f : δ → ε} {s s' : σ} {a : α}
    (h : (ofExcept (r.mapError f) : Tx σ ε α).run s = .ok (a, s')) : s' = s ∧ r = .ok a := by
  obtain ⟨hs', hr⟩ := ofExcept_ok h
  cases r with
  | ok b =>
      cases hr
      exact ⟨hs', rfl⟩
  | error e => cases hr

/-- A check that let the body go on holds. -/
lemma require_ok {c : Bool} {e : ε} {s s' : σ} {u : Unit}
    (h : (require c e : Tx σ ε Unit).run s = .ok (u, s')) : s' = s ∧ c = true := by
  by_cases hc : c = true
  · rw [hc] at h
    cases h
    exact ⟨rfl, hc⟩
  · rw [Bool.not_eq_true] at hc
    rw [hc] at h
    cases h

/-! ### Errors of the database -/

/-- The body raises errors of the database only. -/
def RaisesDb (x : Tx σ ε α) : Prop := ∀ s e, x.run s = .error e → ∃ e', e = .db e'

lemma raisesDb_pure (a : α) : (pure a : Tx σ ε α).RaisesDb := by
  intro s e h
  cases h

lemma raisesDb_raise (e : DbError) : (raise (.db e) : Tx σ ε α).RaisesDb := by
  intro s e' h
  cases h
  exact ⟨e, rfl⟩

lemma RaisesDb.bind {x : Tx σ ε α} {f : α → Tx σ ε β} (hx : x.RaisesDb)
    (hf : ∀ a, (f a).RaisesDb) : (x >>= f).RaisesDb := by
  intro s e h
  rw [run_bind] at h
  split at h
  · exact hf _ _ e h
  · rename_i e' hrun
    cases h
    exact hx s _ hrun

/-- The body raises an exception that is not `Handled` in the stores of `bad`, and in no other. -/
def EscapesWhen (Handled : Raised ε → Prop) (bad : σ → Prop) (x : Tx σ ε α) : Prop :=
  ∀ s, bad s ↔ ∃ e, x.run s = .error e ∧ ¬ Handled e

variable {Handled : Raised ε → Prop} {bad : σ → Prop}

/-- A body that raises handled exceptions only. -/
lemma escapesWhen_of_handled {x : Tx σ ε α} (h : ∀ s e, x.run s = .error e → Handled e) :
    x.EscapesWhen Handled fun _ => False := by
  intro s
  constructor
  · exact False.elim
  · rintro ⟨e, hrun, he⟩
    exact he (h s e hrun)

/-- A body that raises nothing. -/
lemma escapesWhen_of_ok {x : Tx σ ε α} (h : ∀ s, ∃ r, x.run s = .ok r) :
    x.EscapesWhen Handled fun _ => False := by
  refine escapesWhen_of_handled fun s e herror => ?_
  obtain ⟨r, hrun⟩ := h s
  rw [hrun] at herror
  cases herror

/-- A body that raises errors of the database only, none of which is handled. -/
lemma RaisesDb.escapesWhen {x : Tx σ ε α} {good : σ → Prop} (hx : x.RaisesDb)
    (hdb : ∀ e, ¬ Handled (.db e)) (hgood : ∀ s, (∃ r, x.run s = .ok r) ↔ good s) :
    x.EscapesWhen Handled fun s => ¬ good s := by
  intro s
  show ¬ good s ↔ _
  rw [← hgood s]
  cases hrun : x.run s with
  | ok r => simp
  | error e =>
      obtain ⟨e', rfl⟩ := hx s e hrun
      simp [hdb e']

lemma EscapesWhen.congr {bad' : σ → Prop} {x : Tx σ ε α} (hx : x.EscapesWhen Handled bad)
    (h : ∀ s, bad' s ↔ bad s) : x.EscapesWhen Handled bad' :=
  fun s => (h s).trans (hx s)

/-! ### Guarantees -/

/-- Every commit of the body moves the store along `R`. -/
def Guarantees (R : σ → σ → Prop) (x : Tx σ ε α) : Prop :=
  ∀ s a s', x.run s = .ok (a, s') → R s s'

variable {R : σ → σ → Prop}

lemma guarantees_raise (e : Raised ε) : (raise e : Tx σ ε α).Guarantees R := by
  intro s a s' h
  cases h

lemma Guarantees.handling {x h : Tx σ ε α} (hx : x.Guarantees R) (e : DbError)
    (hh : h.Guarantees R) : (x.handling e h).Guarantees R := by
  intro s a s' hrun
  obtain hrun | ⟨-, hrun⟩ := handling_ok hrun
  · exact hx s a s' hrun
  · exact hh s a s' hrun

lemma guarantees_modify {f : σ → σ} (h : ∀ s, R s (f s)) :
    (modify f : Tx σ ε Unit).Guarantees R := by
  intro s a s' hrun
  cases hrun
  exact h s

section

variable [Std.Refl R]

lemma guarantees_pure (a : α) : (pure a : Tx σ ε α).Guarantees R := by
  intro s b s' h
  cases h
  exact refl_of R s

lemma guarantees_read (f : σ → α) : (read f : Tx σ ε α).Guarantees R := by
  intro s b s' h
  cases h
  exact refl_of R s

lemma guarantees_require (c : Bool) (e : ε) : (require c e : Tx σ ε Unit).Guarantees R := by
  unfold require
  split
  · exact guarantees_pure ()
  · exact guarantees_raise _

end

lemma Guarantees.bind [IsTrans σ R] {x : Tx σ ε α} {f : α → Tx σ ε β} (hx : x.Guarantees R)
    (hf : ∀ a, (f a).Guarantees R) : (x >>= f).Guarantees R := by
  intro s b s' h
  obtain ⟨a, s₁, hrun, hrest⟩ := bind_ok h
  exact trans_of R (hx s a s₁ hrun) (hf a s₁ b s' hrest)

lemma Guarantees.mono {R' : σ → σ → Prop} {x : Tx σ ε α} (hx : x.Guarantees R)
    (h : ∀ s s', R s s' → R' s s') : x.Guarantees R' :=
  fun s a s' hrun => h s s' (hx s a s' hrun)

end Tx

/-! ## The row manager -/

/-- A store that holds a table of `Row`s. -/
class Stored (σ Row : Type) [Model Row] where
  table : σ → Table Row
  put : Table Row → σ → σ
  table_put : ∀ t s, table (put t s) = t
  put_table : ∀ s, put (table s) s = s
  put_put : ∀ t t' s, put t (put t' s) = put t s

namespace Objects

open Stored

variable {σ ε Row : Type} [Model Row] [Stored σ Row]

/-- Lift the outcome of a table operation that returns a new table. -/
def store (s : σ) : Except DbError (Table Row) → Except (Raised ε) (Unit × σ)
  | .ok t => .ok ((), put t s)
  | .error e => .error (.db e)

/-- `Row.objects.get(...)`. -/
def get (p : Row → Bool) : Tx σ ε Row := ⟨fun s =>
  match (table s : Table Row).get p with
  | .ok r => .ok (r, s)
  | .error e => .error (.db e)⟩

/-- `Row.objects.filter(...)`, in insertion order. -/
def filter (p : Row → Bool) : Tx σ ε (List Row) :=
  Tx.read fun s => (table s : Table Row).rows.filter p

/-- `Row.objects.filter(...).exists()`. -/
def exists? (p : Row → Bool) : Tx σ ε Bool :=
  Tx.read fun s => (table s : Table Row).rows.any p

/-- `Row.objects.create(...)`; the primary key is supplied by the table. -/
def create (mk : ℕ → Row) (hpk : ∀ i, Model.pk (mk i) = i := by intro _; rfl) :
    Tx σ ε Row := ⟨fun s =>
  match (table s : Table Row).insert mk hpk with
  | .ok (r, t) => .ok (r, put t s)
  | .error e => .error (.db e)⟩

/-- `Row.objects.bulk_create(...)`: all rows or none. -/
def bulkCreate {β : Type} (mk : β → ℕ → Row)
    (hpk : ∀ b i, Model.pk (mk b i) = i := by intro _ _; rfl) : List β → Tx σ ε Unit
  | [] => pure ()
  | b :: rest => do
    let _ ← create (mk b) (hpk b)
    bulkCreate mk hpk rest

/-- `Row.objects.filter(...).update(...)`; returns how many rows matched. -/
def update (p : Row → Bool) (a : Assignment Row) : Tx σ ε ℕ := ⟨fun s =>
  .ok ((table s : Table Row).count p, put ((table s : Table Row).update p a) s)⟩

/-- `instance.save(update_fields=...)` for unconstrained columns.  Saving a row that is gone
raises. -/
def save (key : ℕ) (a : Assignment Row) : Tx σ ε Unit := ⟨fun s =>
  if (table s : Table Row).rows.any (fun r => Model.pk r == key) then
    .ok ((), put ((table s : Table Row).update (fun r => Model.pk r == key) a) s)
  else .error (.db .noRowUpdated)⟩

/-- `instance.save(update_fields=...)` for columns the schema constrains. -/
def saveChecked (key : ℕ) (f : Row → Row) (hpk : ∀ r, Model.pk (f r) = Model.pk r) :
    Tx σ ε Unit := ⟨fun s =>
  if (table s : Table Row).rows.any (fun r => Model.pk r == key) then
    store s ((table s : Table Row).rewrite (fun r => Model.pk r == key) f hpk)
  else .error (.db .noRowUpdated)⟩

/-- `Row.objects.filter(...).delete()`. -/
def delete (p : Row → Bool) : Tx σ ε Unit :=
  Tx.modify fun s => put ((table s : Table Row).delete p) s

@[simp] lemma run_filter (p : Row → Bool) (s : σ) :
    (filter p : Tx σ ε (List Row)).run s = .ok ((table s : Table Row).rows.filter p, s) := rfl

@[simp] lemma run_exists? (p : Row → Bool) (s : σ) :
    (exists? p : Tx σ ε Bool).run s = .ok ((table s : Table Row).rows.any p, s) := rfl

@[simp] lemma run_update (p : Row → Bool) (a : Assignment Row) (s : σ) :
    (update p a : Tx σ ε ℕ).run s =
      .ok ((table s : Table Row).count p, put ((table s : Table Row).update p a) s) := rfl

@[simp] lemma run_delete (p : Row → Bool) (s : σ) :
    (delete p : Tx σ ε Unit).run s = .ok ((), put ((table s : Table Row).delete p) s) := rfl

/-! ### What a committed statement did -/

lemma get_ok {p : Row → Bool} {r : Row} {s s' : σ}
    (h : (get p : Tx σ ε Row).run s = .ok (r, s')) :
    s' = s ∧ (table s : Table Row).get p = .ok r := by
  simp only [get] at h
  split at h
  · rename_i heq
    cases h
    exact ⟨rfl, heq⟩
  · cases h

lemma run_get_of_ok {p : Row → Bool} {r : Row} {s : σ}
    (h : (table s : Table Row).get p = .ok r) : (get p : Tx σ ε Row).run s = .ok (r, s) := by
  simp [get, h]

lemma run_get_of_error {p : Row → Bool} {e : DbError} {s : σ}
    (h : (table s : Table Row).get p = .error e) :
    (get p : Tx σ ε Row).run s = .error (.db e) := by
  simp [get, h]

lemma create_ok {mk : ℕ → Row} {hpk : ∀ i, Model.pk (mk i) = i} {r : Row} {s s' : σ}
    (h : (create mk hpk : Tx σ ε Row).run s = .ok (r, s')) :
    ∃ t, (table s : Table Row).insert mk hpk = .ok (r, t) ∧ s' = put t s := by
  simp only [create] at h
  split at h
  · rename_i heq
    cases h
    exact ⟨_, heq, rfl⟩
  · cases h

lemma mem_of_create_ok {mk : ℕ → Row} {hpk : ∀ i, Model.pk (mk i) = i} {r : Row} {s s' : σ}
    (h : (create mk hpk : Tx σ ε Row).run s = .ok (r, s')) : r ∈ (table s' : Table Row).rows := by
  obtain ⟨t, hinsert, rfl⟩ := create_ok h
  rw [Stored.table_put, (Table.insert_spec hinsert).2.1]
  exact List.mem_append_right _ List.mem_cons_self

lemma run_create_of_ok {mk : ℕ → Row} {hpk : ∀ i, Model.pk (mk i) = i} {r : Row}
    {t : Table Row} {s : σ} (h : (table s : Table Row).insert mk hpk = .ok (r, t)) :
    (create mk hpk : Tx σ ε Row).run s = .ok (r, put t s) := by
  simp [create, h]

lemma run_create_of_error {mk : ℕ → Row} {hpk : ∀ i, Model.pk (mk i) = i} {e : DbError}
    {s : σ} (h : (table s : Table Row).insert mk hpk = .error e) :
    (create mk hpk : Tx σ ε Row).run s = .error (.db e) := by
  simp [create, h]

/-- A row that fits and meets no conflict is created. -/
lemma run_create_of_free {mk : ℕ → Row} {hpk : ∀ i, Model.pk (mk i) = i} {s : σ}
    (hfit : Model.fits (mk (table s : Table Row).next) = true)
    (hfree : ∀ r ∈ (table s : Table Row).rows,
      Model.conflicts r (mk (table s : Table Row).next) = false) :
    ∃ t : Table Row, (create mk hpk : Tx σ ε Row).run s =
        .ok (mk (table s : Table Row).next, put t s) ∧
      t.rows = (table s : Table Row).rows ++ [mk (table s : Table Row).next] := by
  obtain ⟨t, hinsert⟩ := @Table.insert_isOk _ _ _ mk hpk hfit hfree
  exact ⟨t, run_create_of_ok hinsert, (Table.insert_spec hinsert).2.1⟩

/-- A row is created exactly when it fits and meets no conflict. -/
lemma run_create_isOk_iff {mk : ℕ → Row} {hpk : ∀ i, Model.pk (mk i) = i} {s : σ} :
    (∃ r, (create mk hpk : Tx σ ε Row).run s = .ok r) ↔
      Model.fits (mk (table s : Table Row).next) = true ∧
        ∀ r ∈ (table s : Table Row).rows,
          Model.conflicts r (mk (table s : Table Row).next) = false := by
  constructor
  · rintro ⟨⟨r, s'⟩, hrun⟩
    obtain ⟨t, hinsert, -⟩ := create_ok hrun
    obtain ⟨rfl, -, -, hfit, hfree⟩ := Table.insert_spec hinsert
    exact ⟨hfit, hfree⟩
  · rintro ⟨hfit, hfree⟩
    obtain ⟨t, hrun, -⟩ := @run_create_of_free _ ε _ _ _ mk hpk s hfit hfree
    exact ⟨_, hrun⟩

lemma run_create_of_too_wide {mk : ℕ → Row} {hpk : ∀ i, Model.pk (mk i) = i} {s : σ}
    (hfit : Model.fits (mk (table s : Table Row).next) = false) :
    (create mk hpk : Tx σ ε Row).run s = .error (.db .dataError) :=
  run_create_of_error (Table.insert_dataError hfit)

lemma run_create_of_conflict {mk : ℕ → Row} {hpk : ∀ i, Model.pk (mk i) = i} {s : σ} {r : Row}
    (hfit : Model.fits (mk (table s : Table Row).next) = true) (hr : r ∈ (table s : Table Row).rows)
    (hcon : Model.conflicts r (mk (table s : Table Row).next) = true) :
    (create mk hpk : Tx σ ε Row).run s = .error (.db .integrityError) :=
  run_create_of_error (Table.insert_integrityError hfit hr hcon)

/-- The rows that a bulk insert appends, one for each element in turn. -/
lemma bulkCreate_ok {β : Type} {mk : β → ℕ → Row} {hpk : ∀ b i, Model.pk (mk b i) = i}
    {bs : List β} {s s' : σ} (h : (bulkCreate mk hpk bs : Tx σ ε Unit).run s = .ok ((), s')) :
    ∃ (t : Table Row) (keys : List ℕ), s' = put t s ∧ keys.length = bs.length ∧
      t.rows = (table s : Table Row).rows ++ List.zipWith mk bs keys := by
  induction bs generalizing s with
  | nil =>
      cases h
      exact ⟨table s', [], (put_table s').symm, rfl, (List.append_nil _).symm⟩
  | cons b rest ih =>
      obtain ⟨r, s₁, hcreate, hrest⟩ := Tx.bind_ok h
      obtain ⟨t₁, hinsert, rfl⟩ := create_ok hcreate
      obtain ⟨hr, hrows₁, -⟩ := Table.insert_spec hinsert
      obtain ⟨t, keys, hs', hlength, hrows⟩ := ih hrest
      rw [put_put] at hs'
      rw [table_put, hrows₁, List.append_assoc, hr] at hrows
      exact ⟨t, (table s : Table Row).next :: keys, hs', congrArg (· + 1) hlength, hrows⟩

section BulkCreate

variable {β : Type} {mk : β → ℕ → Row} {hpk : ∀ b i, Model.pk (mk b i) = i} {bs : List β} {s : σ}

/-- Rows that fit and conflict neither with stored rows nor with each other are all created. -/
lemma run_bulkCreate_of_free (hfit : ∀ b ∈ bs, ∀ i, Model.fits (mk b i) = true)
    (hfree : ∀ r ∈ (table s : Table Row).rows, ∀ b ∈ bs, ∀ i, Model.conflicts r (mk b i) = false)
    (hpair : bs.Pairwise fun b b' => ∀ i j, Model.conflicts (mk b i) (mk b' j) = false) :
    ∃ t : Table Row, (bulkCreate mk hpk bs : Tx σ ε Unit).run s = .ok ((), put t s) := by
  induction bs generalizing s with
  | nil => exact ⟨table s, by rw [put_table]; rfl⟩
  | cons b rest ih =>
      obtain ⟨hhead, hrest⟩ := List.pairwise_cons.1 hpair
      obtain ⟨t, hcreate, hrows⟩ := @run_create_of_free _ ε _ _ _ (mk b) (hpk b) s
        (hfit b List.mem_cons_self _) fun r hr => hfree r hr b List.mem_cons_self _
      have hfree' : ∀ r ∈ (table (put t s) : Table Row).rows, ∀ b' ∈ rest, ∀ i,
          Model.conflicts r (mk b' i) = false := by
        intro r hr b' hb' i
        rw [table_put, hrows, List.mem_append, List.mem_singleton] at hr
        obtain hold | rfl := hr
        · exact hfree r hold b' (List.mem_cons_of_mem _ hb') i
        · exact hhead b' hb' _ i
      obtain ⟨t', hrun⟩ := ih (fun b' hb' => hfit b' (List.mem_cons_of_mem _ hb')) hfree' hrest
      refine ⟨t', ?_⟩
      rw [bulkCreate, Tx.run_bind, hcreate]
      dsimp only
      rw [hrun, put_put]

/-- A row that conflicts with a stored row, or with an earlier one of the list, is refused with all
others. -/
lemma run_bulkCreate_of_conflict (hfit : ∀ b ∈ bs, ∀ i, Model.fits (mk b i) = true)
    (h : (∃ r ∈ (table s : Table Row).rows, ∃ b ∈ bs, ∀ i, Model.conflicts r (mk b i) = true) ∨
      ¬ bs.Pairwise fun b b' => ¬ ∀ i j, Model.conflicts (mk b i) (mk b' j) = true) :
    (bulkCreate mk hpk bs : Tx σ ε Unit).run s = .error (.db .integrityError) := by
  induction bs generalizing s with
  | nil =>
      obtain ⟨r, -, b, hb, -⟩ | hpair := h
      · cases hb
      · exact absurd .nil hpair
  | cons b rest ih =>
      have hfit' : ∀ b' ∈ rest, ∀ i, Model.fits (mk b' i) = true :=
        fun b' hb' => hfit b' (List.mem_cons_of_mem _ hb')
      have hfitb := hfit b List.mem_cons_self (table s : Table Row).next
      rw [bulkCreate, Tx.run_bind]
      by_cases hfree : ∀ r ∈ (table s : Table Row).rows,
          Model.conflicts r (mk b (table s : Table Row).next) = false
      · obtain ⟨t, hcreate, hrows⟩ := @run_create_of_free _ ε _ _ _ (mk b) (hpk b) s hfitb hfree
        rw [hcreate]
        dsimp only
        refine ih hfit' ?_
        rw [table_put, hrows]
        obtain ⟨r, hr, b', hb', hcon⟩ | hpair := h
        · obtain rfl | hb' := List.mem_cons.1 hb'
          · exact absurd (hfree r hr) (by simp [hcon])
          · exact Or.inl ⟨r, List.mem_append_left _ hr, b', hb', hcon⟩
        · rw [List.pairwise_cons, not_and_or] at hpair
          obtain hhead | hrest := hpair
          · push Not at hhead
            obtain ⟨b', hb', hcon⟩ := hhead
            exact Or.inl ⟨_, List.mem_append_right _ (List.mem_singleton_self _), b', hb',
              hcon _⟩
          · exact Or.inr hrest
      · push Not at hfree
        obtain ⟨r, hr, hcon⟩ := hfree
        rw [run_create_of_conflict hfitb hr (by simpa using hcon)]

end BulkCreate

lemma save_ok {key : ℕ} {a : Assignment Row} {s s' : σ}
    (h : (save key a : Tx σ ε Unit).run s = .ok ((), s')) :
    s' = put ((table s : Table Row).update (fun r => Model.pk r == key) a) s := by
  simp only [save] at h
  split at h
  · cases h
    rfl
  · cases h

lemma exists_of_save_ok {key : ℕ} {a : Assignment Row} {s s' : σ}
    (h : (save key a : Tx σ ε Unit).run s = .ok ((), s')) :
    ∃ r ∈ (table s : Table Row).rows, Model.pk r = key := by
  simp only [save] at h
  split at h
  · rename_i hany
    obtain ⟨r, hr, hk⟩ := List.any_eq_true.1 hany
    exact ⟨r, hr, beq_iff_eq.1 hk⟩
  · cases h

/-- Saving a stored row succeeds. -/
lemma run_save_of_mem {key : ℕ} {a : Assignment Row} {s : σ} {r : Row}
    (hr : r ∈ (table s : Table Row).rows) (hk : Model.pk r = key) :
    (save key a : Tx σ ε Unit).run s =
      .ok ((), put ((table s : Table Row).update (fun r => Model.pk r == key) a) s) := by
  have hany : (table s : Table Row).rows.any (fun r => Model.pk r == key) = true :=
    List.any_eq_true.2 ⟨r, hr, by simp [hk]⟩
  simp only [save, hany, if_true]

lemma saveChecked_ok {key : ℕ} {f : Row → Row} {hpk : ∀ r, Model.pk (f r) = Model.pk r}
    {s s' : σ} (h : (saveChecked key f hpk : Tx σ ε Unit).run s = .ok ((), s')) :
    ∃ t, (table s : Table Row).rewrite (fun r => Model.pk r == key) f hpk = .ok t ∧
      s' = put t s := by
  simp only [saveChecked] at h
  split at h
  · cases hr : (table s : Table Row).rewrite (fun r => Model.pk r == key) f hpk with
    | ok t =>
        rw [hr] at h
        cases h
        exact ⟨t, rfl, rfl⟩
    | error e =>
        rw [hr] at h
        cases h
  · cases h

/-- A save that went through found its row. -/
lemma exists_of_saveChecked_ok {key : ℕ} {f : Row → Row}
    {hpk : ∀ r, Model.pk (f r) = Model.pk r} {s s' : σ}
    (h : (saveChecked key f hpk : Tx σ ε Unit).run s = .ok ((), s')) :
    ∃ r ∈ (table s : Table Row).rows, Model.pk r = key := by
  simp only [saveChecked] at h
  split at h
  · rename_i hany
    obtain ⟨r, hr, hk⟩ := List.any_eq_true.1 hany
    exact ⟨r, hr, beq_iff_eq.1 hk⟩
  · cases h

/-- Saving constrained columns of a stored row succeeds when the new row fits and meets no
conflict. -/
lemma run_saveChecked_of_mem {f : Row → Row} {hpk : ∀ r, Model.pk (f r) = Model.pk r} {s : σ}
    {r : Row} (hr : r ∈ (table s : Table Row).rows) (hfit : Model.fits (f r) = true)
    (hfree : ∀ r' ∈ (table s : Table Row).rows, Model.pk r' ≠ Model.pk r →
      Model.conflicts r' (f r) = false) :
    ∃ t, (table s : Table Row).rewrite (fun r' => Model.pk r' == Model.pk r) f hpk = .ok t ∧
      (saveChecked (Model.pk r) f hpk : Tx σ ε Unit).run s = .ok ((), put t s) := by
  have hany : (table s : Table Row).rows.any (fun r' => Model.pk r' == Model.pk r) = true :=
    List.any_eq_true.2 ⟨r, hr, by simp⟩
  obtain ⟨t, hrewrite⟩ := @Table.rewrite_isOk _ _ _ f hpk r hr hfit hfree
  refine ⟨t, hrewrite, ?_⟩
  simp only [saveChecked, hany, if_true, hrewrite, store]

lemma run_saveChecked_of_too_wide {f : Row → Row} {hpk : ∀ r, Model.pk (f r) = Model.pk r} {s : σ}
    {r : Row} (hr : r ∈ (table s : Table Row).rows) (hfit : Model.fits (f r) = false) :
    (saveChecked (Model.pk r) f hpk : Tx σ ε Unit).run s = .error (.db .dataError) := by
  have hany : (table s : Table Row).rows.any (fun r' => Model.pk r' == Model.pk r) = true :=
    List.any_eq_true.2 ⟨r, hr, by simp⟩
  simp only [saveChecked, hany, if_true, @Table.rewrite_dataError _ _ _ f hpk r hr hfit, store]

lemma raisesDb_get {p : Row → Bool} : (get p : Tx σ ε Row).RaisesDb := by
  intro s e h
  unfold get at h
  dsimp only at h
  split at h
  · cases h
  · cases h
    exact ⟨_, rfl⟩

lemma raisesDb_create {mk : ℕ → Row} {hpk : ∀ i, Model.pk (mk i) = i} :
    (create mk hpk : Tx σ ε Row).RaisesDb := by
  intro s e h
  unfold create at h
  dsimp only at h
  split at h
  · cases h
  · cases h
    exact ⟨_, rfl⟩

lemma raisesDb_save {key : ℕ} {a : Assignment Row} : (save key a : Tx σ ε Unit).RaisesDb := by
  intro s e h
  unfold save at h
  dsimp only at h
  split at h
  · cases h
  · cases h
    exact ⟨_, rfl⟩

/-! ### Guarantees

A statement on a table guarantees whatever a replacement of that table does.  This is the frame
rule: a relation that does not look at the table holds between the stores before and after. -/

variable {R : σ → σ → Prop}

lemma guarantees_get [Std.Refl R] (p : Row → Bool) :
    (get p : Tx σ ε Row).Guarantees R := by
  intro s r s' h
  obtain ⟨rfl, -⟩ := get_ok h
  exact refl_of R s'

lemma guarantees_create (h : ∀ s (t : Table Row), R s (put t s)) {mk : ℕ → Row}
    {hpk : ∀ i, Model.pk (mk i) = i} : (create mk hpk : Tx σ ε Row).Guarantees R := by
  intro s r s' hrun
  obtain ⟨t, -, rfl⟩ := create_ok hrun
  exact h s t

/-- The insert of a row, for a relation that depends on what is inserted. -/
lemma guarantees_insert {mk : ℕ → Row} {hpk : ∀ i, Model.pk (mk i) = i}
    (h : ∀ s (t : Table Row),
      t.rows = (table s : Table Row).rows ++ [mk (table s : Table Row).next] → R s (put t s)) :
    (create mk hpk : Tx σ ε Row).Guarantees R := by
  intro s r s' hrun
  obtain ⟨t, hinsert, rfl⟩ := create_ok hrun
  obtain ⟨hr, hrows, -⟩ := Table.insert_spec hinsert
  rw [hr] at hrows
  exact h s t hrows

lemma guarantees_bulkCreate [Std.Refl R] [IsTrans σ R] (h : ∀ s (t : Table Row), R s (put t s))
    {β : Type} {mk : β → ℕ → Row} {hpk : ∀ b i, Model.pk (mk b i) = i} (bs : List β) :
    (bulkCreate mk hpk bs : Tx σ ε Unit).Guarantees R := by
  induction bs with
  | nil => exact Tx.guarantees_pure ()
  | cons b rest ih => exact Tx.Guarantees.bind (guarantees_create h) fun _ => ih

lemma guarantees_update {p : Row → Bool} {a : Assignment Row}
    (h : ∀ s, R s (put ((table s : Table Row).update p a) s)) :
    (update p a : Tx σ ε ℕ).Guarantees R := by
  intro s n s' hrun
  cases hrun
  exact h s

lemma guarantees_save {key : ℕ} {a : Assignment Row}
    (h : ∀ s, R s (put ((table s : Table Row).update (fun r => Model.pk r == key) a) s)) :
    (save key a : Tx σ ε Unit).Guarantees R := by
  intro s u s' hrun
  rw [save_ok hrun]
  exact h s

lemma guarantees_saveChecked (h : ∀ s (t : Table Row), R s (put t s)) {key : ℕ}
    {f : Row → Row} {hpk : ∀ r, Model.pk (f r) = Model.pk r} :
    (saveChecked key f hpk : Tx σ ε Unit).Guarantees R := by
  intro s u s' hrun
  obtain ⟨t, -, rfl⟩ := saveChecked_ok hrun
  exact h s t

/-- The save of constrained columns, for a relation that depends on what is saved. -/
lemma guarantees_rewrite {key : ℕ} {f : Row → Row} {hpk : ∀ r, Model.pk (f r) = Model.pk r}
    (h : ∀ s (t : Table Row),
      (table s : Table Row).rewrite (fun r => Model.pk r == key) f hpk = .ok t → R s (put t s)) :
    (saveChecked key f hpk : Tx σ ε Unit).Guarantees R := by
  intro s u s' hrun
  obtain ⟨t, ht, rfl⟩ := saveChecked_ok hrun
  exact h s t ht

lemma guarantees_delete {p : Row → Bool}
    (h : ∀ s, R s (put ((table s : Table Row).delete p) s)) :
    (delete p : Tx σ ε Unit).Guarantees R :=
  Tx.guarantees_modify h

end Objects

end BePyEco.Library
