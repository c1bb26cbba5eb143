import Mathlib.Data.List.Pairwise
import Mathlib.Data.List.Nodup
import Mathlib.Tactic.Common

/-!
# Tables with declared constraints

A relational table as the list of its rows in insertion order, together with the constraints
the schema declares for it: a primary key drawn from a counter, width limits on columns, and
unique constraints (possibly partial).  The constraints are *fields* of `Table`, so a table
that violates one cannot be built, and every operation either returns a table that meets them
or the error with which the database would refuse the statement.

`Model` is what a row type has to supply.  A unique constraint is given in the form in which
the proofs use it, as the relation "these two rows cannot both be stored".

Two kinds of `UPDATE` are kept apart.  An `Assignment` touches no constrained column, so
`Table.update` is total; `Table.rewrite` may touch any column but the primary key and checks
the result.
-/

namespace BePyEco.Library

/-- The errors a database statement raises by itself. -/
inductive DbError
  /-- `get` matched no row. -/
  | doesNotExist
  /-- `get` matched more than one row. -/
  | multipleObjectsReturned
  /-- A unique constraint refused the row. -/
  | integrityError
  /-- A value is longer than its column. -/
  | dataError
  /-- A `save(update_fields=...)` found its row gone. -/
  | noRowUpdated
  /-- The statement failed for a reason outside the statement. -/
  | operationalError
  deriving DecidableEq, Repr

/-- What the schema declares for a row type: its primary key, its width limits, and its unique
constraints as the relation between two rows that cannot both be stored. -/
class Model (Row : Type) where
  pk : Row → ℕ
  fits : Row → Bool
  conflicts : Row → Row → Bool
  conflicts_symm : ∀ a b, conflicts a b = conflicts b a

open Model

/-- A stored table.  `next` is the key the next inserted row gets. -/
structure Table (Row : Type) [Model Row] where
  rows : List Row
  next : ℕ
  pk_lt : ∀ r ∈ rows, pk r < next
  nodup : (rows.map pk).Nodup
  all_fit : ∀ r ∈ rows, fits r = true
  no_conflict : rows.Pairwise fun a b => conflicts a b = false

namespace Table

variable {Row : Type} [Model Row]

/-- The table without rows. -/
def empty : Table Row where
  rows := []
  next := 0
  pk_lt := by simp
  nodup := by simp
  all_fit := by simp
  no_conflict := by simp

@[simp] lemma rows_empty : (empty : Table Row).rows = [] := rfl

instance : Inhabited (Table Row) := ⟨empty⟩

variable (t : Table Row)

/-! ## What the constraints give -/

lemma eq_of_pk {a b : Row} (ha : a ∈ t.rows) (hb : b ∈ t.rows) (h : pk a = pk b) : a = b :=
  List.inj_on_of_nodup_map t.nodup ha hb h

/-- The next key is free. -/
lemma pk_ne_next {r : Row} (hr : r ∈ t.rows) : pk r ≠ t.next := Nat.ne_of_lt (t.pk_lt r hr)

/-- A row that was appended was not there. -/
lemma not_mem_of_append {rows : List Row} {r : Row} (h : t.rows = rows ++ [r]) : r ∉ rows := by
  have hnodup := List.Nodup.of_map _ t.nodup
  rw [h, List.nodup_append] at hnodup
  exact fun hr => hnodup.2.2 r hr r (List.mem_singleton_self r) rfl

/-- Two stored rows that a unique constraint tells apart are the same row. -/
lemma eq_of_conflicts {a b : Row} (ha : a ∈ t.rows) (hb : b ∈ t.rows)
    (h : conflicts a b = true) : a = b := by
  by_contra hne
  have : Std.Symm fun x y : Row => conflicts x y = false :=
    ⟨fun x y hxy => by rw [conflicts_symm]; exact hxy⟩
  have hfalse : conflicts a b = false := t.no_conflict.forall ha hb hne
  rw [hfalse] at h
  exact Bool.false_ne_true h

/-! ## Reading -/

/-- `objects.get(...)`: the one row that matches. -/
def get (p : Row → Bool) : Except DbError Row :=
  match t.rows.filter p with
  | [] => .error .doesNotExist
  | [r] => .ok r
  | _ :: _ :: _ => .error .multipleObjectsReturned

variable {t}

lemma filter_eq_of_get {p : Row → Bool} {r : Row} (h : t.get p = .ok r) :
    t.rows.filter p = [r] := by
  unfold get at h
  split at h
  · cases h
  · rename_i heq
    cases h
    exact heq
  · cases h

lemma mem_of_get {p : Row → Bool} {r : Row} (h : t.get p = .ok r) : r ∈ t.rows := by
  have hmem : r ∈ t.rows.filter p := by rw [filter_eq_of_get h]; simp
  exact (List.mem_filter.1 hmem).1

lemma holds_of_get {p : Row → Bool} {r : Row} (h : t.get p = .ok r) : p r = true := by
  have hmem : r ∈ t.rows.filter p := by rw [filter_eq_of_get h]; simp
  exact (List.mem_filter.1 hmem).2

lemma get_eq_doesNotExist_iff {p : Row → Bool} :
    t.get p = .error .doesNotExist ↔ ∀ r ∈ t.rows, p r = false := by
  unfold get
  constructor
  · intro h r hr
    split at h
    · rename_i heq
      have hnot := List.filter_eq_nil_iff.1 heq r hr
      simpa using hnot
    · cases h
    · cases h
  · intro h
    have hnil : t.rows.filter p = [] :=
      List.filter_eq_nil_iff.2 fun r hr => by simp [h r hr]
    rw [hnil]

/-- `get` finds a stored row whenever no other row matches the same filter. -/
lemma get_of_unique {p : Row → Bool} {r : Row} (hr : r ∈ t.rows) (hp : p r = true)
    (huniq : ∀ s ∈ t.rows, p s = true → s = r) : t.get p = .ok r := by
  have hmem : r ∈ t.rows.filter p := List.mem_filter.2 ⟨hr, hp⟩
  have hnodup : (t.rows.filter p).Nodup := (t.nodup.of_map pk).filter p
  have hall : ∀ s ∈ t.rows.filter p, s = r := fun s hs =>
    huniq s (List.mem_filter.1 hs).1 (List.mem_filter.1 hs).2
  unfold get
  match hrows : t.rows.filter p with
  | [] => rw [hrows] at hmem; cases hmem
  | [s] =>
    rw [hrows] at hall
    rw [hall s (by simp)]
  | s :: s' :: rest =>
    rw [hrows] at hall hnodup
    have hss' : s = s' := (hall s (by simp)).trans (hall s' (by simp)).symm
    simp [hss'] at hnodup

/-- `get` by a filter that at most one stored row can match returns that row or reports that
there is none. -/
lemma get_cases {p : Row → Bool}
    (huniq : ∀ a ∈ t.rows, ∀ b ∈ t.rows, p a = true → p b = true → a = b) :
    (∃ r ∈ t.rows, p r = true ∧ t.get p = .ok r) ∨ t.get p = .error .doesNotExist := by
  by_cases h : ∃ r ∈ t.rows, p r = true
  · obtain ⟨r, hr, hp⟩ := h
    exact Or.inl ⟨r, hr, hp, get_of_unique hr hp fun s hs hps => huniq s hs r hr hps hp⟩
  · refine Or.inr (get_eq_doesNotExist_iff.2 fun r hr => ?_)
    cases hp : p r with
    | false => rfl
    | true => exact absurd ⟨r, hr, hp⟩ h

variable (t)

/-! ## Inserting -/

/-- `objects.create(...)`: the new row takes the next key, and is refused when a value is too
wide for its column or a unique constraint already holds its place. -/
def insert (mk : ℕ → Row) (hpk : ∀ i, pk (mk i) = i) : Except DbError (Row × Table Row) :=
  if hfit : fits (mk t.next) = true then
    if hfree : ∀ r ∈ t.rows, conflicts r (mk t.next) = false then
      .ok (mk t.next,
        { rows := t.rows ++ [mk t.next]
          next := t.next + 1
          pk_lt := by
            intro r hr
            rcases List.mem_append.1 hr with hr | hr
            · exact Nat.lt_succ_of_lt (t.pk_lt r hr)
            · rw [List.mem_singleton.1 hr, hpk]
              exact Nat.lt_succ_self _
          nodup := by
            rw [List.map_append, List.nodup_append]
            refine ⟨t.nodup, by simp, ?_⟩
            intro i hi j hj
            obtain ⟨r, hr, rfl⟩ := List.mem_map.1 hi
            have hj' : j = t.next := by simpa [hpk] using hj
            rw [hj']
            exact Nat.ne_of_lt (t.pk_lt r hr)
          all_fit := by
            intro r hr
            rcases List.mem_append.1 hr with hr | hr
            · exact t.all_fit r hr
            · rw [List.mem_singleton.1 hr]
              exact hfit
          no_conflict := by
            rw [List.pairwise_append]
            refine ⟨t.no_conflict, by simp, ?_⟩
            intro r hr s hs
            rw [List.mem_singleton.1 hs]
            exact hfree r hr })
    else .error .integrityError
  else .error .dataError

variable {t}

/-- What a successful insert does: the row is the built one, and it is appended. -/
lemma insert_spec {mk : ℕ → Row} {hpk : ∀ i, pk (mk i) = i} {r : Row} {t' : Table Row}
    (h : t.insert mk hpk = .ok (r, t')) :
    r = mk t.next ∧ t'.rows = t.rows ++ [r] ∧ t'.next = t.next + 1 ∧ fits r = true ∧
      ∀ s ∈ t.rows, conflicts s r = false := by
  unfold insert at h
  split at h
  · rename_i hfit
    split at h
    · rename_i hfree
      cases h
      exact ⟨rfl, rfl, rfl, hfit, hfree⟩
    · cases h
  · cases h

lemma mem_insert {mk : ℕ → Row} {hpk : ∀ i, pk (mk i) = i} {r s : Row} {t' : Table Row}
    (h : t.insert mk hpk = .ok (r, t')) : s ∈ t'.rows ↔ s ∈ t.rows ∨ s = r := by
  rw [(insert_spec h).2.1]
  simp

/-- A row that fits its columns and meets no conflict is inserted. -/
lemma insert_isOk {mk : ℕ → Row} {hpk : ∀ i, pk (mk i) = i} (hfit : fits (mk t.next) = true)
    (hfree : ∀ r ∈ t.rows, conflicts r (mk t.next) = false) :
    ∃ t', t.insert mk hpk = .ok (mk t.next, t') := by
  unfold insert
  rw [dif_pos hfit, dif_pos hfree]
  exact ⟨_, rfl⟩

lemma insert_dataError {mk : ℕ → Row} {hpk : ∀ i, pk (mk i) = i}
    (hfit : fits (mk t.next) = false) : t.insert mk hpk = .error .dataError := by
  unfold insert
  rw [dif_neg (by simp [hfit])]

lemma insert_integrityError {mk : ℕ → Row} {hpk : ∀ i, pk (mk i) = i} {s : Row}
    (hfit : fits (mk t.next) = true) (hs : s ∈ t.rows) (hcon : conflicts s (mk t.next) = true) :
    t.insert mk hpk = .error .integrityError := by
  unfold insert
  rw [dif_pos hfit, dif_neg]
  intro hfree
  rw [hfree s hs] at hcon
  exact Bool.false_ne_true hcon

variable (t)

/-! ## Deleting -/

/-- `filter(...).delete()`. -/
def delete (p : Row → Bool) : Table Row where
  rows := t.rows.filter fun r => !p r
  next := t.next
  pk_lt := fun r hr => t.pk_lt r (List.mem_filter.1 hr).1
  nodup := t.nodup.sublist (List.Sublist.map _ List.filter_sublist)
  all_fit := fun r hr => t.all_fit r (List.mem_filter.1 hr).1
  no_conflict := t.no_conflict.sublist List.filter_sublist

@[simp] lemma mem_delete {p : Row → Bool} {r : Row} :
    r ∈ (t.delete p).rows ↔ r ∈ t.rows ∧ p r = false := by
  simp [delete]

/-- Two filters that select the same stored rows delete the same. -/
lemma delete_congr {p q : Row → Bool} (h : ∀ r ∈ t.rows, p r = q r) : t.delete p = t.delete q := by
  have hrows : (t.rows.filter fun r => !p r) = t.rows.filter fun r => !q r :=
    List.filter_congr fun r hr => by rw [h r hr]
  simp only [delete, hrows]

/-- Deleting rows that are not there changes nothing. -/
lemma delete_eq_self_iff {p : Row → Bool} : t.delete p = t ↔ ∀ r ∈ t.rows, p r = false := by
  constructor
  · intro h r hr
    rw [← h] at hr
    exact (t.mem_delete.1 hr).2
  · intro h
    have hrows : (t.rows.filter fun r => !p r) = t.rows :=
      List.filter_eq_self.2 fun r hr => by simp [h r hr]
    cases t
    simp only [delete] at hrows ⊢
    simp only [hrows]

end Table

/-! ## Updating unconstrained columns -/

/-- An assignment to columns that no constraint mentions. -/
structure Assignment (Row : Type) [Model Row] where
  apply : Row → Row
  pk_apply : ∀ r, pk (apply r) = pk r
  fits_apply : ∀ r, fits (apply r) = fits r
  conflicts_apply : ∀ a b, conflicts (apply a) b = conflicts a b

namespace Assignment

variable {Row : Type} [Model Row] (a : Assignment Row)

/-- The assignment restricted to the rows a filter selects. -/
def on (p : Row → Bool) (r : Row) : Row := if p r then a.apply r else r

lemma on_pos {p : Row → Bool} {r : Row} (h : p r = true) : a.on p r = a.apply r := by
  simp [on, h]

lemma on_neg {p : Row → Bool} {r : Row} (h : p r = false) : a.on p r = r := by
  simp [on, h]

@[simp] lemma pk_on (p : Row → Bool) (r : Row) : pk (a.on p r) = pk r := by
  unfold on
  split
  · exact a.pk_apply r
  · rfl

@[simp] lemma fits_on (p : Row → Bool) (r : Row) : fits (a.on p r) = fits r := by
  unfold on
  split
  · exact a.fits_apply r
  · rfl

lemma conflicts_on_left (p : Row → Bool) (r s : Row) :
    conflicts (a.on p r) s = conflicts r s := by
  unfold on
  split
  · exact a.conflicts_apply r s
  · rfl

@[simp] lemma conflicts_on (p : Row → Bool) (r s : Row) :
    conflicts (a.on p r) (a.on p s) = conflicts r s := by
  rw [conflicts_on_left, conflicts_symm, conflicts_on_left, conflicts_symm]

end Assignment

namespace Table

variable {Row : Type} [Model Row] (t : Table Row)

/-- `filter(...).update(...)` of unconstrained columns. -/
def update (p : Row → Bool) (a : Assignment Row) : Table Row where
  rows := t.rows.map (a.on p)
  next := t.next
  pk_lt := by
    intro r hr
    obtain ⟨s, hs, rfl⟩ := List.mem_map.1 hr
    rw [a.pk_on]
    exact t.pk_lt s hs
  nodup := by
    have hmap : (t.rows.map (a.on p)).map pk = t.rows.map pk := by
      simp [List.map_map, Function.comp_def]
    rw [hmap]
    exact t.nodup
  all_fit := by
    intro r hr
    obtain ⟨s, hs, rfl⟩ := List.mem_map.1 hr
    rw [a.fits_on]
    exact t.all_fit s hs
  no_conflict := by
    rw [List.pairwise_map]
    simpa using t.no_conflict

@[simp] lemma next_update (p : Row → Bool) (a : Assignment Row) :
    (t.update p a).next = t.next := rfl

@[simp] lemma mem_update {p : Row → Bool} {a : Assignment Row} {r : Row} :
    r ∈ (t.update p a).rows ↔ ∃ s ∈ t.rows, a.on p s = r := by
  simp [update]

/-- A row of a table in which one row was updated by its key. -/
lemma mem_update_pk {k : ℕ} {a : Assignment Row} {r : Row}
    (h : r ∈ (t.update (fun s => pk s == k) a).rows) :
    (∃ s ∈ t.rows, pk s = k ∧ r = a.apply s) ∨ (r ∈ t.rows ∧ pk r ≠ k) := by
  obtain ⟨s, hs, rfl⟩ := t.mem_update.1 h
  by_cases hk : pk s = k
  · have happly : a.on (fun s => pk s == k) s = a.apply s := a.on_pos (beq_iff_eq.2 hk)
    exact Or.inl ⟨s, hs, hk, happly⟩
  · have hsame : a.on (fun s => pk s == k) s = s := a.on_neg (beq_eq_false_iff_ne.2 hk)
    rw [hsame]
    exact Or.inr ⟨hs, hk⟩

/-- The other rows stay. -/
lemma mem_update_of_ne {k : ℕ} {a : Assignment Row} {r : Row} (hr : r ∈ t.rows) (hne : pk r ≠ k) :
    r ∈ (t.update (fun s => pk s == k) a).rows := by
  have hsame : a.on (fun s => pk s == k) r = r := a.on_neg (beq_eq_false_iff_ne.2 hne)
  exact t.mem_update.2 ⟨r, hr, hsame⟩

/-- An update of rows that a filter leaves out before and after changes nothing for the filter. -/
lemma filter_update {p q : Row → Bool} {a : Assignment Row}
    (h : ∀ r ∈ t.rows, p r = true → q r = false ∧ q (a.apply r) = false) :
    (t.update p a).rows.filter q = t.rows.filter q := by
  have hq : ∀ r ∈ t.rows, (q ∘ a.on p) r = q r := by
    intro r hr
    rw [Function.comp_apply]
    by_cases hp : p r = true
    · rw [a.on_pos hp, (h r hr hp).1, (h r hr hp).2]
    · rw [a.on_neg (eq_false_of_ne_true hp)]
  have hid : ∀ r ∈ t.rows.filter q, a.on p r = id r := by
    intro r hr
    obtain ⟨hr, hqr⟩ := List.mem_filter.1 hr
    refine a.on_neg (eq_false_of_ne_true fun hp => ?_)
    rw [(h r hr hp).1] at hqr
    exact Bool.false_ne_true hqr
  change (t.rows.map (a.on p)).filter q = t.rows.filter q
  rw [List.filter_map, List.filter_congr hq, List.map_congr_left hid, List.map_id]

/-- The number of rows an `UPDATE` matched. -/
def count (p : Row → Bool) : ℕ := (t.rows.filter p).length

lemma count_eq_zero_iff {p : Row → Bool} : t.count p = 0 ↔ ∀ r ∈ t.rows, p r = false := by
  simp [count, List.filter_eq_nil_iff]

lemma update_eq_self_iff {p : Row → Bool} {a : Assignment Row} :
    t.update p a = t ↔ ∀ r ∈ t.rows, a.on p r = r := by
  constructor
  · intro h r hr
    have hrows : t.rows.map (a.on p) = t.rows := congrArg Table.rows h
    have hid : t.rows.map (a.on p) = t.rows.map id := by rw [hrows, List.map_id]
    exact List.map_inj_left.1 hid r hr
  · intro h
    have hrows : t.rows.map (a.on p) = t.rows := by
      conv_rhs => rw [← List.map_id t.rows]
      exact List.map_congr_left h
    cases t
    simp only [update] at hrows ⊢
    simp only [hrows]

/-- An update of one row by its key changes nothing when the row has the values already. -/
lemma update_pk_eq_self_iff {r : Row} (hr : r ∈ t.rows) {a : Assignment Row} :
    t.update (fun s => pk s == pk r) a = t ↔ a.apply r = r := by
  rw [update_eq_self_iff]
  constructor
  · intro h
    have hr' := h r hr
    unfold Assignment.on at hr'
    rw [if_pos (beq_self_eq_true _)] at hr'
    exact hr'
  · intro h s hs
    by_cases hpk : pk s = pk r
    · rw [t.eq_of_pk hs hr hpk]
      unfold Assignment.on
      split
      · exact h
      · rfl
    · unfold Assignment.on
      rw [if_neg (by simpa using hpk)]

/-! ## Updating constrained columns -/

/-- The rows an update produces. -/
def rewritten (p : Row → Bool) (f : Row → Row) : List Row :=
  t.rows.map fun r => if p r then f r else r

/-- `save(update_fields=...)` of columns with constraints: the result is checked as a whole. -/
def rewrite (p : Row → Bool) (f : Row → Row) (hpk : ∀ r, pk (f r) = pk r) :
    Except DbError (Table Row) :=
  if hfit : ∀ r ∈ t.rewritten p f, fits r = true then
    if hfree : (t.rewritten p f).Pairwise fun a b => conflicts a b = false then
      .ok
        { rows := t.rewritten p f
          next := t.next
          pk_lt := by
            intro r hr
            obtain ⟨s, hs, rfl⟩ := List.mem_map.1 hr
            split
            · rw [hpk]; exact t.pk_lt s hs
            · exact t.pk_lt s hs
          nodup := by
            have hmap : (t.rewritten p f).map pk = t.rows.map pk := by
              unfold rewritten
              rw [List.map_map]
              refine List.map_congr_left fun s _ => ?_
              simp only [Function.comp_apply]
              split
              · exact hpk s
              · rfl
            rw [hmap]
            exact t.nodup
          all_fit := hfit
          no_conflict := hfree }
    else .error .integrityError
  else .error .dataError

lemma mem_rewritten {p : Row → Bool} {f : Row → Row} {r : Row} :
    r ∈ t.rewritten p f ↔ ∃ s ∈ t.rows, (if p s then f s else s) = r := by
  simp [rewritten]

variable {t}

lemma rewrite_spec {p : Row → Bool} {f : Row → Row} {hpk : ∀ r, pk (f r) = pk r}
    {t' : Table Row} (h : t.rewrite p f hpk = .ok t') :
    t'.rows = t.rewritten p f ∧ t'.next = t.next := by
  unfold rewrite at h
  split at h
  · split at h
    · cases h
      exact ⟨rfl, rfl⟩
    · cases h
  · cases h

/-- A row of a table in which one row was rewritten by its key. -/
lemma mem_rewrite_pk {k : ℕ} {f : Row → Row} {hpk : ∀ r, pk (f r) = pk r} {t' : Table Row}
    (h : t.rewrite (fun s => pk s == k) f hpk = .ok t') {r : Row} (hr : r ∈ t'.rows) :
    (∃ s ∈ t.rows, pk s = k ∧ r = f s) ∨ (r ∈ t.rows ∧ pk r ≠ k) := by
  rw [(rewrite_spec h).1] at hr
  obtain ⟨s, hs, heq⟩ := List.mem_map.1 hr
  by_cases hk : pk s = k
  · rw [if_pos (beq_iff_eq.2 hk)] at heq
    exact Or.inl ⟨s, hs, hk, heq.symm⟩
  · rw [if_neg (by simpa using hk)] at heq
    rw [← heq]
    exact Or.inr ⟨hs, hk⟩

/-- The row that was rewritten by its key. -/
lemma apply_mem_rewrite_pk {k : ℕ} {f : Row → Row} {hpk : ∀ r, pk (f r) = pk r} {t' : Table Row}
    (h : t.rewrite (fun s => pk s == k) f hpk = .ok t') {r : Row} (hr : r ∈ t.rows)
    (hk : pk r = k) : f r ∈ t'.rows := by
  rw [(rewrite_spec h).1]
  refine List.mem_map.2 ⟨r, hr, ?_⟩
  rw [if_pos (beq_iff_eq.2 hk)]

/-- Rewriting one row by its key succeeds when the new row fits and meets no conflict. -/
lemma rewrite_isOk {f : Row → Row} {hpk : ∀ r, pk (f r) = pk r} {r : Row} (hr : r ∈ t.rows)
    (hfit : fits (f r) = true)
    (hfree : ∀ s ∈ t.rows, pk s ≠ pk r → conflicts s (f r) = false) :
    ∃ t', t.rewrite (fun s => pk s == pk r) f hpk = .ok t' := by
  have hrow : ∀ s ∈ t.rows, (if pk s == pk r then f s else s) = f r ∧ s = r ∨
      (if pk s == pk r then f s else s) = s ∧ pk s ≠ pk r := by
    intro s hs
    by_cases hk : pk s = pk r
    · rw [t.eq_of_pk hs hr hk, if_pos (beq_self_eq_true _)]
      exact Or.inl ⟨rfl, rfl⟩
    · rw [if_neg (by simpa using hk)]
      exact Or.inr ⟨rfl, hk⟩
  have hfits : ∀ s ∈ t.rewritten (fun s => pk s == pk r) f, fits s = true := by
    intro s hs
    obtain ⟨s₀, hs₀, rfl⟩ := List.mem_map.1 hs
    obtain ⟨heq, -⟩ | ⟨heq, -⟩ := hrow s₀ hs₀
    · rw [heq]
      exact hfit
    · rw [heq]
      exact t.all_fit s₀ hs₀
  have hfrees : (t.rewritten (fun s => pk s == pk r) f).Pairwise
      fun a b => conflicts a b = false := by
    refine List.pairwise_map.2 ((t.no_conflict.and (List.pairwise_map.1 t.nodup)).imp_of_mem ?_)
    rintro a b ha hb ⟨hab, hne⟩
    obtain ⟨haeq, rfl⟩ | ⟨haeq, hak⟩ := hrow a ha
    · obtain ⟨-, rfl⟩ | ⟨hbeq, hbk⟩ := hrow b hb
      · exact absurd rfl hne
      · rw [haeq, hbeq, conflicts_symm]
        exact hfree b hb hbk
    · obtain ⟨hbeq, rfl⟩ | ⟨hbeq, -⟩ := hrow b hb
      · rw [haeq, hbeq]
        exact hfree a ha hak
      · rw [haeq, hbeq]
        exact hab
  unfold rewrite
  rw [dif_pos hfits, dif_pos hfrees]
  exact ⟨_, rfl⟩

/-- Rewriting a row to one that is too wide is refused. -/
lemma rewrite_dataError {f : Row → Row} {hpk : ∀ r, pk (f r) = pk r} {r : Row} (hr : r ∈ t.rows)
    (hfit : fits (f r) = false) :
    t.rewrite (fun s => pk s == pk r) f hpk = .error .dataError := by
  unfold rewrite
  rw [dif_neg]
  intro hall
  have hfits := hall (f r) (List.mem_map.2 ⟨r, hr, if_pos (beq_self_eq_true _)⟩)
  rw [hfit] at hfits
  exact Bool.false_ne_true hfits

lemma mem_rewrite {p : Row → Bool} {f : Row → Row} {hpk : ∀ r, pk (f r) = pk r}
    {t' : Table Row} (h : t.rewrite p f hpk = .ok t') {r : Row} :
    r ∈ t'.rows ↔ ∃ s ∈ t.rows, (if p s then f s else s) = r := by
  rw [(rewrite_spec h).1]
  exact t.mem_rewritten

end Table

end BePyEco.Library
