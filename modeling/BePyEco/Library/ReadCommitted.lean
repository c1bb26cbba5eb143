import BePyEco.Library.Table

/-!
# Tables under READ COMMITTED

A table that several transactions write at once is a list of versions: a version carries the
running transaction that has inserted it and the one that has deleted it, if any.  A statement sees
what is committed and the writes of its own transaction; what another running transaction has
written makes it wait.  `commit` and `rollback` settle the versions of one transaction.

`committed` are the rows that everybody sees, `insertedBy x` those that the commit of `x` will add.
Only a commit changes what is committed (`committed_delete`, `committed_insertAll`,
`committed_rollback`).  After it the rows of a kind are those that the transaction has inserted
exactly when it has deleted all that were committed before (`committed_commit_of_deleted`,
`committed_commit_of_left`).
-/

namespace BePyEco.Library

variable {ι Row : Type}

/-- A row, with the running transactions that have inserted and deleted it. -/
structure Version (ι Row : Type) where
  row : Row
  insertedBy : Option ι := none
  deletedBy : Option ι := none
  deriving DecidableEq, Repr

/-- What becomes of a statement: it goes through, it fails, or it waits for another transaction. -/
inductive Attempt (α : Type)
  | done (a : α)
  | conflict
  | waits

namespace Version

variable [DecidableEq ι] (x : ι) (p : Row → Bool) (v : Version ι Row)

/-- Another running transaction has written the version. -/
def heldByOther : Bool :=
  v.insertedBy.any (fun y => decide (y ≠ x)) || v.deletedBy.any fun y => decide (y ≠ x)

/-- A committed version with the property is deleted. -/
def delete : Version ι Row :=
  if v.insertedBy.isNone && p v.row then { v with deletedBy := some x } else v

/-- What was inserted is committed. -/
def commit : Version ι Row :=
  if v.insertedBy = some x then { v with insertedBy := none } else v

/-- What was deleted is not deleted any more. -/
def rollback : Version ι Row :=
  if v.deletedBy = some x then { v with deletedBy := none } else v

omit [DecidableEq ι] in
@[simp] lemma row_delete : (v.delete x p).row = v.row := by
  unfold delete
  split <;> rfl

omit [DecidableEq ι] in
@[simp] lemma insertedBy_delete : (v.delete x p).insertedBy = v.insertedBy := by
  unfold delete
  split <;> rfl

omit [DecidableEq ι] in
/-- A version that is deleted now was deleted before, or has the property. -/
lemma deletedBy_delete_cases {y : ι} (h : (v.delete x p).deletedBy = some y) :
    (y = x ∧ p v.row = true) ∨ v.deletedBy = some y := by
  unfold delete at h
  split at h
  · rename_i hmatch
    simp only [Bool.and_eq_true] at hmatch
    exact Or.inl ⟨(Option.some.inj h).symm, hmatch.2⟩
  · exact Or.inr h

@[simp] lemma row_commit : (v.commit x).row = v.row := by
  unfold commit
  split <;> rfl

@[simp] lemma deletedBy_commit : (v.commit x).deletedBy = v.deletedBy := by
  unfold commit
  split <;> rfl

@[simp] lemma row_rollback : (v.rollback x).row = v.row := by
  unfold rollback
  split <;> rfl

@[simp] lemma insertedBy_rollback : (v.rollback x).insertedBy = v.insertedBy := by
  unfold rollback
  split <;> rfl

end Version

namespace Versions

/-- The rows that are committed. -/
def committed (vs : List (Version ι Row)) : List Row :=
  (vs.filter fun v => v.insertedBy.isNone).map Version.row

variable [DecidableEq ι]

/-- The rows that a running transaction has inserted. -/
def insertedBy (x : ι) (vs : List (Version ι Row)) : List Row :=
  (vs.filter fun v => decide (v.insertedBy = some x)).map Version.row

/-! ## The statements -/

/-- Another running transaction has written a row with the property. -/
def held (x : ι) (p : Row → Bool) (vs : List (Version ι Row)) : Bool :=
  vs.any fun v => p v.row && v.heldByOther x

/-- Delete committed rows. -/
def delete (x : ι) (p : Row → Bool) (vs : List (Version ι Row)) : List (Version ι Row) :=
  vs.map (Version.delete x p)

/-- The versions with which a row conflicts, as far as the transaction has not deleted them. -/
def rivals [Model Row] (x : ι) (r : Row) (vs : List (Version ι Row)) : List (Version ι Row) :=
  vs.filter fun v => decide (v.deletedBy ≠ some x) && Model.conflicts v.row r

/-- Insert one row: a rival of no other transaction makes the statement fail, one that another
transaction has written makes it wait. -/
def insert [Model Row] (x : ι) (r : Row) (vs : List (Version ι Row)) :
    Attempt (List (Version ι Row)) :=
  if (rivals x r vs).any fun v => !v.heldByOther x then .conflict
  else if (rivals x r vs).isEmpty then .done (vs ++ [{ row := r, insertedBy := some x }])
  else .waits

/-- Insert several rows, in order. -/
def insertAll [Model Row] (x : ι) :
    List Row → List (Version ι Row) → Attempt (List (Version ι Row))
  | [], vs => .done vs
  | r :: rest, vs =>
    match insert x r vs with
    | .done vs' => insertAll x rest vs'
    | .conflict => .conflict
    | .waits => .waits

/-- The writes of the transaction become everybody's. -/
def commit (x : ι) (vs : List (Version ι Row)) : List (Version ι Row) :=
  (vs.filter fun v => decide (v.deletedBy ≠ some x)).map (Version.commit x)

/-- The writes of the transaction are undone. -/
def rollback (x : ι) (vs : List (Version ι Row)) : List (Version ι Row) :=
  (vs.filter fun v => decide (v.insertedBy ≠ some x)).map (Version.rollback x)

/-! ## Whose versions there are -/

section Members

variable {x : ι} {vs vs' : List (Version ι Row)} {p : Row → Bool} {v : Version ι Row} {r : Row}

omit [DecidableEq ι] in
@[simp] lemma mem_committed : r ∈ committed vs ↔ ∃ v ∈ vs, v.insertedBy = none ∧ v.row = r := by
  simp [committed, and_assoc]

@[simp] lemma mem_insertedBy :
    r ∈ insertedBy x vs ↔ ∃ v ∈ vs, v.insertedBy = some x ∧ v.row = r := by
  simp [insertedBy, and_assoc]

omit [DecidableEq ι] in
@[simp] lemma mem_delete : v ∈ delete x p vs ↔ ∃ v₀ ∈ vs, v₀.delete x p = v := by
  simp [delete]

@[simp] lemma mem_commit :
    v ∈ commit x vs ↔ ∃ v₀ ∈ vs, v₀.deletedBy ≠ some x ∧ v₀.commit x = v := by
  simp [commit, and_assoc]

@[simp] lemma mem_rollback :
    v ∈ rollback x vs ↔ ∃ v₀ ∈ vs, v₀.insertedBy ≠ some x ∧ v₀.rollback x = v := by
  simp [rollback, and_assoc]

/-- A statement waits for what another transaction has written. -/
lemma not_held_iff : held x p vs = false ↔
    ∀ v ∈ vs, p v.row = true → (∀ y, v.insertedBy = some y → y = x) ∧
      ∀ y, v.deletedBy = some y → y = x := by
  simp only [held, Version.heldByOther, List.any_eq_false, Bool.and_eq_true, Bool.or_eq_true,
    Option.any_eq_true, decide_eq_true_eq, not_and, not_or, not_exists, not_not]

/-- The rows are inserted at the end. -/
lemma insertAll_done [Model Row] {rows : List Row} (h : insertAll x rows vs = .done vs') :
    vs' = vs ++ rows.map fun r => { row := r, insertedBy := some x } := by
  induction rows generalizing vs with
  | nil =>
      cases h
      simp
  | cons r rest ih =>
      unfold insertAll at h
      split at h
      · rename_i vs₁ hinsert
        have hone : vs₁ = vs ++ [{ row := r, insertedBy := some x }] := by
          unfold insert at hinsert
          split at hinsert
          · cases hinsert
          · split at hinsert
            · cases hinsert
              rfl
            · cases hinsert
        rw [ih h, hone]
        simp
      · cases h
      · cases h

end Members

/-! ## What is committed -/

section Committed

variable {x y : ι} {vs : List (Version ι Row)} {p : Row → Bool}

/-- Only committed rows are deleted. -/
def DeletesCommitted (vs : List (Version ι Row)) : Prop :=
  ∀ v ∈ vs, v.deletedBy ≠ none → v.insertedBy = none

omit [DecidableEq ι] in
/-- The rows of the versions with a property, when versions are changed but not their rows. -/
lemma rows_filter_map {f : Version ι Row → Version ι Row} (hrow : ∀ v, (f v).row = v.row)
    (q : Version ι Row → Bool) (vs : List (Version ι Row)) :
    ((vs.map f).filter q).map Version.row = (vs.filter fun v => q (f v)).map Version.row := by
  rw [List.filter_map, List.map_map]
  exact List.map_congr_left fun v _ => hrow v

omit [DecidableEq ι] in
@[simp] lemma committed_delete : committed (delete x p vs) = committed vs := by
  rw [committed, delete, rows_filter_map (Version.row_delete x p)]
  simp [committed]

@[simp] lemma insertedBy_delete : insertedBy y (delete x p vs) = insertedBy y vs := by
  rw [insertedBy, delete, rows_filter_map (Version.row_delete x p)]
  simp [insertedBy]

omit [DecidableEq ι] in
@[simp] lemma committed_insertAll {rows : List Row} :
    committed (vs ++ rows.map fun r => { row := r, insertedBy := some x }) = committed vs := by
  simp [committed, List.filter_map]

lemma insertedBy_insertAll {rows : List Row} :
    insertedBy x (vs ++ rows.map fun r => { row := r, insertedBy := some x }) =
      insertedBy x vs ++ rows := by
  simp [insertedBy, List.filter_map, Function.comp_def]

lemma insertedBy_insertAll_of_ne (h : y ≠ x) {rows : List Row} :
    insertedBy y (vs ++ rows.map fun r => { row := r, insertedBy := some x }) =
      insertedBy y vs := by
  simp [insertedBy, List.filter_map, h.symm]

@[simp] lemma committed_rollback : committed (rollback x vs) = committed vs := by
  rw [committed, rollback, rows_filter_map (Version.row_rollback x), List.filter_filter]
  refine congrArg _ (List.filter_congr fun v _ => ?_)
  by_cases hv : v.insertedBy = none
  · simp [hv]
  · simp [Option.isNone_iff_eq_none, hv]

lemma insertedBy_rollback (h : y ≠ x) : insertedBy y (rollback x vs) = insertedBy y vs := by
  rw [insertedBy, rollback, rows_filter_map (Version.row_rollback x), List.filter_filter]
  refine congrArg _ (List.filter_congr fun v _ => ?_)
  by_cases hv : v.insertedBy = some y
  · simp [hv, h]
  · simp [hv]

lemma insertedBy_commit (h : y ≠ x) (hdeletes : DeletesCommitted vs) :
    insertedBy y (commit x vs) = insertedBy y vs := by
  rw [insertedBy, commit, rows_filter_map (Version.row_commit x), List.filter_filter]
  refine congrArg _ (List.filter_congr fun v hv => ?_)
  by_cases hx : v.insertedBy = some x
  · simp [Version.commit, hx, h.symm]
  · by_cases hy : v.insertedBy = some y
    · have hdeleted : v.deletedBy = none := by
        by_contra hne
        rw [hdeletes v hv hne] at hy
        cases hy
      simp [Version.commit, hy, hdeleted, h]
    · simp [Version.commit, hx, hy]

lemma isNone_insertedBy_commit (v : Version ι Row) :
    (v.commit x).insertedBy.isNone = (v.insertedBy.isNone || decide (v.insertedBy = some x)) := by
  by_cases hx : v.insertedBy = some x
  · simp [Version.commit, hx]
  · simp [Version.commit, hx]

/-- What is committed after a commit. -/
lemma filter_committed_commit : (committed (commit x vs)).filter p =
    (vs.filter fun v => p v.row && decide (v.deletedBy ≠ some x) &&
      (v.insertedBy.isNone || decide (v.insertedBy = some x))).map Version.row := by
  rw [committed, commit, rows_filter_map (Version.row_commit x), List.filter_map,
    List.filter_filter, List.filter_filter]
  refine congrArg _ (List.filter_congr fun v _ => ?_)
  simp only [isNone_insertedBy_commit, Function.comp_apply]
  grind

omit [DecidableEq ι] in
/-- A version that was inserted is kept by the commit. -/
lemma DeletesCommitted.not_deletedBy (h : DeletesCommitted vs) {v : Version ι Row} (hv : v ∈ vs)
    (hx : v.insertedBy = some x) : v.deletedBy ≠ some y := by
  intro hy
  have hnone := h v hv (by rw [hy]; exact Option.some_ne_none y)
  rw [hx] at hnone
  cases hnone

/-- When the transaction has deleted all committed rows of a kind, its own ones are left. -/
theorem committed_commit_of_deleted (hdeletes : DeletesCommitted vs)
    (hown : ∀ r ∈ insertedBy x vs, p r = true)
    (hdeleted : ∀ v ∈ vs, v.insertedBy = none → p v.row = true → v.deletedBy = some x) :
    (committed (commit x vs)).filter p = insertedBy x vs := by
  rw [filter_committed_commit, insertedBy]
  refine congrArg _ (List.filter_congr fun v hv => ?_)
  by_cases hx : v.insertedBy = some x
  · have hp := hown v.row (mem_insertedBy.2 ⟨v, hv, hx, rfl⟩)
    simp [hx, hp, hdeletes.not_deletedBy hv hx]
  · by_cases hnone : v.insertedBy.isNone = true
    · by_cases hp : p v.row = true
      · simp [hdeleted v hv (Option.isNone_iff_eq_none.1 hnone) hp, hx]
      · simp [hp, hx]
    · simp only [hx, hnone, decide_false, Bool.false_or, Bool.and_false]

/-- A committed row of the kind that the transaction has not deleted is left beside them. -/
theorem committed_commit_of_left (hdeletes : DeletesCommitted vs)
    (hown : ∀ r ∈ insertedBy x vs, p r = true) {v : Version ι Row} (hv : v ∈ vs)
    (hnone : v.insertedBy = none) (hp : p v.row = true) (hleft : v.deletedBy ≠ some x) :
    (insertedBy x vs).length < ((committed (commit x vs)).filter p).length := by
  rw [filter_committed_commit, insertedBy, List.length_map, List.length_map]
  have hsub : (vs.filter fun v => decide (v.insertedBy = some x)) =
      ((vs.filter fun v => p v.row && decide (v.deletedBy ≠ some x) &&
        (v.insertedBy.isNone || decide (v.insertedBy = some x))).filter fun v =>
          decide (v.insertedBy = some x)) := by
    rw [List.filter_filter]
    refine List.filter_congr fun v hv => ?_
    by_cases hx : v.insertedBy = some x
    · have hp := hown v.row (mem_insertedBy.2 ⟨v, hv, hx, rfl⟩)
      simp [hx, hp, hdeletes.not_deletedBy hv hx]
    · simp [hx]
  rw [hsub]
  refine List.length_filter_lt_length_iff_exists.2 ⟨v, ?_, ?_⟩
  · simp [hv, hp, hnone, hleft]
  · simp [hnone]

/-- A transaction that has written no row of a kind leaves the rows of that kind. -/
theorem committed_commit_of_foreign (hown : ∀ r ∈ insertedBy x vs, p r = false)
    (hdeleted : ∀ v ∈ vs, v.deletedBy = some x → p v.row = false) :
    (committed (commit x vs)).filter p = (committed vs).filter p := by
  rw [filter_committed_commit, committed, List.filter_map, List.filter_filter]
  refine congrArg _ (List.filter_congr fun v hv => ?_)
  by_cases hp : p v.row = true
  · have hx : v.insertedBy ≠ some x := fun hx => by
      have hfalse := hown v.row (mem_insertedBy.2 ⟨v, hv, hx, rfl⟩)
      rw [hp] at hfalse
      cases hfalse
    have hkept : v.deletedBy ≠ some x := fun hx => by
      have hfalse := hdeleted v hv hx
      rw [hp] at hfalse
      cases hfalse
    simp [hp, hx, hkept]
  · simp [hp]

/-! ### Only committed rows are deleted -/

omit [DecidableEq ι] in
lemma DeletesCommitted.delete (h : DeletesCommitted vs) : DeletesCommitted (delete x p vs) := by
  intro v hv hne
  obtain ⟨v₀, hv₀, rfl⟩ := mem_delete.1 hv
  rw [Version.insertedBy_delete]
  unfold Version.delete at hne
  split at hne
  · rename_i hnone
    simp only [Bool.and_eq_true, Option.isNone_iff_eq_none] at hnone
    exact hnone.1
  · exact h v₀ hv₀ hne

omit [DecidableEq ι] in
lemma DeletesCommitted.insertAll (h : DeletesCommitted vs) {rows : List Row} :
    DeletesCommitted (vs ++ rows.map fun r => { row := r, insertedBy := some x }) := by
  intro v hv hne
  obtain hold | hnew := List.mem_append.1 hv
  · exact h v hold hne
  · obtain ⟨r, -, rfl⟩ := List.mem_map.1 hnew
    exact absurd rfl hne

lemma DeletesCommitted.commit (h : DeletesCommitted vs) : DeletesCommitted (commit x vs) := by
  intro v hv hne
  obtain ⟨v₀, hv₀, -, rfl⟩ := mem_commit.1 hv
  rw [Version.deletedBy_commit] at hne
  simp [Version.commit, h v₀ hv₀ hne]

lemma DeletesCommitted.rollback (h : DeletesCommitted vs) : DeletesCommitted (rollback x vs) := by
  intro v hv hne
  obtain ⟨v₀, hv₀, -, rfl⟩ := mem_rollback.1 hv
  rw [Version.insertedBy_rollback]
  unfold Version.rollback at hne
  split at hne
  · exact absurd rfl hne
  · exact h v₀ hv₀ hne

/-! ### What another transaction leaves -/

/-- The rows that `x` has inserted are the same, and what it has deleted it had deleted before. -/
structure Spares (x : ι) (vs vs' : List (Version ι Row)) : Prop where
  inserted : insertedBy x vs' = insertedBy x vs
  deleted : ∀ v' ∈ vs', v'.deletedBy = some x → ∃ v ∈ vs, v.deletedBy = some x ∧ v.row = v'.row

lemma Spares.refl (x : ι) (vs : List (Version ι Row)) : Spares x vs vs :=
  ⟨rfl, fun v hv hx => ⟨v, hv, hx, rfl⟩⟩

lemma Spares.trans {vs₁ vs₂ vs₃ : List (Version ι Row)} (h : Spares x vs₁ vs₂)
    (h' : Spares x vs₂ vs₃) : Spares x vs₁ vs₃ := by
  refine ⟨h'.inserted.trans h.inserted, fun v hv hx => ?_⟩
  obtain ⟨v₂, hv₂, hx₂, hrow₂⟩ := h'.deleted v hv hx
  obtain ⟨v₁, hv₁, hx₁, hrow₁⟩ := h.deleted v₂ hv₂ hx₂
  exact ⟨v₁, hv₁, hx₁, hrow₁.trans hrow₂⟩

lemma spares_delete (h : x ≠ y) : Spares x vs (delete y p vs) := by
  refine ⟨insertedBy_delete, fun v' hv' hx => ?_⟩
  obtain ⟨v, hv, rfl⟩ := mem_delete.1 hv'
  refine ⟨v, hv, ?_, (Version.row_delete y p v).symm⟩
  obtain ⟨heq, -⟩ | hold := Version.deletedBy_delete_cases y p v hx
  · exact absurd heq h
  · exact hold

lemma spares_insertAll (h : x ≠ y) {rows : List Row} :
    Spares x vs (vs ++ rows.map fun r => { row := r, insertedBy := some y }) := by
  refine ⟨insertedBy_insertAll_of_ne h, fun v' hv' hx => ?_⟩
  obtain hold | hnew := List.mem_append.1 hv'
  · exact ⟨v', hold, hx, rfl⟩
  · obtain ⟨r, -, rfl⟩ := List.mem_map.1 hnew
    cases hx

lemma spares_commit (h : x ≠ y) (hdeletes : DeletesCommitted vs) : Spares x vs (commit y vs) := by
  refine ⟨insertedBy_commit h hdeletes, fun v' hv' hx => ?_⟩
  obtain ⟨v, hv, -, rfl⟩ := mem_commit.1 hv'
  rw [Version.deletedBy_commit] at hx
  exact ⟨v, hv, hx, (Version.row_commit y v).symm⟩

lemma spares_rollback (h : x ≠ y) : Spares x vs (rollback y vs) := by
  refine ⟨insertedBy_rollback h, fun v' hv' hx => ?_⟩
  obtain ⟨v, hv, -, rfl⟩ := mem_rollback.1 hv'
  refine ⟨v, hv, ?_, (Version.row_rollback y v).symm⟩
  unfold Version.rollback at hx
  split at hx
  · cases hx
  · exact hx

end Committed

end Versions

end BePyEco.Library
