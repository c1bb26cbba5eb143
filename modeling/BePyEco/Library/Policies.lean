import BePyEco.Library.Table
import Mathlib.Logic.Relation

/-!
# Write policies

A `TablePolicy` says which rows may be added to a table, how a row may change under its key, and
which rows may be removed.  `TablePolicy.Allows` relates a table to what any number of statements
within the policy make of it.

The lemmas read off a policy what becomes of a table: a policy that allows nothing keeps it as it is
(`eq_of_allows`), one that only adds extends it (`prefix_of_allows`), and one that removes nothing
keeps every row, up to the changes (`kept_of_allows`).  Every row was there, or was added
(`origin_of_allows`); the rows that no change concerns stay as they are (`filter_eq_of_allows`).
`Settles` is what many changes have in common: columns that they leave, and flags that they only
set.
-/

namespace BePyEco.Library

variable {Row : Type}

/-- What may be done to the rows of a table; nothing, unless it is said. -/
structure TablePolicy (Row : Type) where
  add : Row → Prop := fun _ => False
  change : Row → Row → Prop := fun _ _ => False
  remove : Row → Prop := fun _ => False

namespace TablePolicy

/-- Nothing that `Q` does not allow. -/
structure Le (P Q : TablePolicy Row) : Prop where
  add : ∀ r, P.add r → Q.add r
  change : ∀ r r', P.change r r' → Q.change r r'
  remove : ∀ r, P.remove r → Q.remove r

/-- What one of the policies allows. -/
def union {ι : Type} (P : ι → TablePolicy Row) : TablePolicy Row where
  add r := ∃ i, (P i).add r
  change r r' := ∃ i, (P i).change r r'
  remove r := ∃ i, (P i).remove r

lemma Le.refl (P : TablePolicy Row) : P.Le P :=
  ⟨fun _ h => h, fun _ _ h => h, fun _ h => h⟩

lemma le_union {ι : Type} (P : ι → TablePolicy Row) (i : ι) : (P i).Le (union P) :=
  ⟨fun _ h => ⟨i, h⟩, fun _ _ h => ⟨i, h⟩, fun _ h => ⟨i, h⟩⟩

lemma union_le {ι : Type} {P : ι → TablePolicy Row} {Q : TablePolicy Row} (h : ∀ i, (P i).Le Q) :
    (union P).Le Q :=
  ⟨fun r ⟨i, hi⟩ => (h i).add r hi, fun r r' ⟨i, hi⟩ => (h i).change r r' hi,
    fun r ⟨i, hi⟩ => (h i).remove r hi⟩

variable [Model Row] {P Q : TablePolicy Row} {t t' : Table Row}

/-- What one statement within the policy makes of a table. -/
inductive Step (P : TablePolicy Row) (t : Table Row) : Table Row → Prop
  | add {t' : Table Row} (r : Row) (h : P.add r) (hpk : t.next ≤ Model.pk r)
      (hrows : t'.rows = t.rows ++ [r]) : Step P t t'
  | change {t' : Table Row} (p : Row → Bool) (f : Row → Row)
      (h : ∀ r ∈ t.rows, p r = true → Model.pk (f r) = Model.pk r ∧ P.change r (f r))
      (hrows : t'.rows = t.rewritten p f) (hnext : t'.next = t.next) : Step P t t'
  | remove (p : Row → Bool) (h : ∀ r ∈ t.rows, p r = true → P.remove r) : Step P t (t.delete p)

/-- What statements within the policy make of a table. -/
def Allows (P : TablePolicy Row) : Table Row → Table Row → Prop := Relation.ReflTransGen P.Step

lemma Step.mono (hle : P.Le Q) (h : P.Step t t') : Q.Step t t' := by
  cases h with
  | add r hadd hpk hrows => exact .add r (hle.add r hadd) hpk hrows
  | change p f hchange hrows hnext =>
      exact .change p f (fun r hr hp =>
        ⟨(hchange r hr hp).1, hle.change r _ (hchange r hr hp).2⟩) hrows hnext
  | remove p hremove => exact .remove p fun r hr hp => hle.remove r (hremove r hr hp)

lemma Allows.refl (P : TablePolicy Row) (t : Table Row) : P.Allows t t := Relation.ReflTransGen.refl

lemma Allows.trans {t'' : Table Row} (h : P.Allows t t') (h' : P.Allows t' t'') :
    P.Allows t t'' := Relation.ReflTransGen.trans h h'

lemma Allows.mono (hle : P.Le Q) (h : P.Allows t t') : Q.Allows t t' :=
  Relation.ReflTransGen.mono (fun _ _ hstep => Step.mono hle hstep) _ _ h

/-! ## The statements -/

lemma allows_insert {r : Row} (h : P.add r) (hpk : Model.pk r = t.next)
    (hrows : t'.rows = t.rows ++ [r]) : P.Allows t t' :=
  Relation.ReflTransGen.single (.add r h (Nat.le_of_eq hpk.symm) hrows)

lemma allows_update {p : Row → Bool} {a : Assignment Row}
    (h : ∀ r ∈ t.rows, p r = true → P.change r (a.apply r)) : P.Allows t (t.update p a) :=
  Relation.ReflTransGen.single
    (.change p a.apply (fun r hr hp => ⟨a.pk_apply r, h r hr hp⟩) rfl rfl)

lemma allows_rewrite {p : Row → Bool} {f : Row → Row} {hpk : ∀ r, Model.pk (f r) = Model.pk r}
    (h : ∀ r, p r = true → P.change r (f r)) (ht : t.rewrite p f hpk = .ok t') :
    P.Allows t t' :=
  Relation.ReflTransGen.single (.change p f (fun r _ hp => ⟨hpk r, h r hp⟩)
    (Table.rewrite_spec ht).1 (Table.rewrite_spec ht).2)

lemma allows_delete {p : Row → Bool} (h : ∀ r, p r = true → P.remove r) :
    P.Allows t (t.delete p) :=
  Relation.ReflTransGen.single (.remove p fun r _ hp => h r hp)

/-! ## What a policy keeps -/

lemma Step.next_le (h : P.Step t t') : t.next ≤ t'.next := by
  cases h with
  | add r hadd hpk hrows =>
      have hr : r ∈ t'.rows := by
        rw [hrows]
        exact List.mem_append_right _ (List.mem_singleton_self r)
      exact Nat.le_trans hpk (Nat.le_of_lt (t'.pk_lt r hr))
  | change p f hchange hrows hnext => exact Nat.le_of_eq hnext.symm
  | remove p hremove => exact Nat.le_refl _

/-- No key is given out twice. -/
lemma next_le_of_allows (h : P.Allows t t') : t.next ≤ t'.next := by
  induction h with
  | refl => exact Nat.le_refl _
  | tail _ hstep ih => exact Nat.le_trans ih hstep.next_le

lemma rewritten_eq_self {p : Row → Bool} {f : Row → Row} (h : ∀ r ∈ t.rows, p r = false) :
    t.rewritten p f = t.rows := by
  unfold Table.rewritten
  refine (List.map_congr_left fun r hr => ?_).trans (List.map_id _)
  rw [h r hr]
  rfl

/-- A change that nothing allows is none. -/
lemma not_of_forbidden {p : Row → Bool} {Q : Row → Prop} (hQ : ∀ r, ¬ Q r)
    (h : ∀ r ∈ t.rows, p r = true → Q r) : ∀ r ∈ t.rows, p r = false := by
  intro r hr
  rw [← Bool.not_eq_true]
  exact fun hp => hQ r (h r hr hp)

/-- A policy that only adds. -/
structure AddsOnly (P : TablePolicy Row) : Prop where
  change : ∀ r r', ¬ P.change r r'
  remove : ∀ r, ¬ P.remove r

lemma AddsOnly.step (hP : P.AddsOnly) (h : P.Step t t') :
    t' = t ∨ ∃ r, P.add r ∧ t'.rows = t.rows ++ [r] := by
  cases h with
  | add r hadd hpk hrows => exact Or.inr ⟨r, hadd, hrows⟩
  | change p f hchange hrows hnext =>
      have hnone := not_of_forbidden (fun r => hP.change r (f r)) fun r hr hp => (hchange r hr hp).2
      rw [rewritten_eq_self hnone] at hrows
      cases t
      cases t'
      dsimp only at hrows hnext
      subst hrows hnext
      exact Or.inl rfl
  | remove p hremove =>
      exact Or.inl (t.delete_eq_self_iff.2 (not_of_forbidden hP.remove hremove))

/-- What was there stays in front of what is added. -/
theorem prefix_of_allows (hP : P.AddsOnly) (h : P.Allows t t') : t.rows <+: t'.rows := by
  induction h with
  | refl => exact List.prefix_rfl
  | tail _ hstep ih =>
      obtain heq | ⟨r, -, hrows⟩ := hP.step hstep
      · rw [heq]
        exact ih
      · rw [hrows]
        exact ih.trans (List.prefix_append _ _)

/-- A table that nothing may be done to stays. -/
theorem eq_of_allows (hP : P.AddsOnly) (hadd : ∀ r, ¬ P.add r) (h : P.Allows t t') : t' = t := by
  induction h with
  | refl => rfl
  | tail _ hstep ih =>
      obtain heq | ⟨r, hr, -⟩ := hP.step hstep
      · exact heq.trans ih
      · exact absurd hr (hadd r)

/-- The columns `f` are the same, and what has become true of the row stays true. -/
def Settles {α : Type} (f : Row → α) (flags : List (Row → Prop)) (r r' : Row) : Prop :=
  f r' = f r ∧ ∀ flag ∈ flags, flag r → flag r'

instance {α : Type} (f : Row → α) (flags : List (Row → Prop)) : Std.Refl (Settles f flags) :=
  ⟨fun _ => ⟨rfl, fun _ _ h => h⟩⟩

instance {α : Type} (f : Row → α) (flags : List (Row → Prop)) : IsTrans Row (Settles f flags) :=
  ⟨fun _ _ _ h h' => ⟨h'.1.trans h.1, fun flag hflag hr => h'.2 flag hflag (h.2 flag hflag hr)⟩⟩

section Kept

variable {K : Row → Row → Prop} [Std.Refl K] [IsTrans Row K]

/-- A row that is not removed is there under its key, as the changes make it. -/
theorem kept_of_allows (hremove : ∀ r, ¬ P.remove r) (hchange : ∀ r r', P.change r r' → K r r')
    (h : P.Allows t t') {r : Row} (hr : r ∈ t.rows) :
    ∃ r' ∈ t'.rows, Model.pk r' = Model.pk r ∧ K r r' := by
  induction h with
  | refl => exact ⟨r, hr, rfl, refl_of K r⟩
  | @tail t₁ _ _ hstep ih =>
      obtain ⟨r₁, hr₁, hpk, hK⟩ := ih
      cases hstep with
      | add s hadd hkey hrows =>
          refine ⟨r₁, ?_, hpk, hK⟩
          rw [hrows]
          exact List.mem_append_left _ hr₁
      | change p f hstep hrows =>
          by_cases hp : p r₁ = true
          · obtain ⟨hkey, hmove⟩ := hstep r₁ hr₁ hp
            refine ⟨f r₁, ?_, hkey.trans hpk, trans_of K hK (hchange _ _ hmove)⟩
            rw [hrows, Table.mem_rewritten]
            exact ⟨r₁, hr₁, if_pos hp⟩
          · refine ⟨r₁, ?_, hpk, hK⟩
            rw [hrows, Table.mem_rewritten]
            exact ⟨r₁, hr₁, if_neg hp⟩
      | remove p hforbidden =>
          refine ⟨r₁, ?_, hpk, hK⟩
          rw [t₁.delete_eq_self_iff.2 (not_of_forbidden hremove hforbidden)]
          exact hr₁

/-- Every row was there or was added, and is what the changes have made of it. -/
theorem origin_of_allows (hchange : ∀ r r', P.change r r' → K r r') (h : P.Allows t t') {r' : Row}
    (hr' : r' ∈ t'.rows) :
    (∃ r ∈ t.rows, Model.pk r = Model.pk r' ∧ K r r') ∨
      ∃ r, P.add r ∧ t.next ≤ Model.pk r' ∧ K r r' := by
  induction h generalizing r' with
  | refl => exact Or.inl ⟨r', hr', rfl, refl_of K r'⟩
  | @tail t₁ _ hfirst hstep ih =>
      cases hstep with
      | add s hadd hkey hrows =>
          rw [hrows] at hr'
          obtain hold | hnew := List.mem_append.1 hr'
          · exact ih hold
          · rw [List.mem_singleton.1 hnew]
            exact Or.inr ⟨s, hadd, Nat.le_trans (next_le_of_allows hfirst) hkey, refl_of K s⟩
      | change p f hstep hrows =>
          rw [hrows, Table.mem_rewritten] at hr'
          obtain ⟨r₁, hr₁, heq⟩ := hr'
          by_cases hp : p r₁ = true
          · rw [if_pos hp] at heq
            obtain ⟨hkey, hmove⟩ := hstep r₁ hr₁ hp
            rw [← heq]
            obtain ⟨r, hr, hpk, hK⟩ | ⟨r, hadd, hpk, hK⟩ := ih hr₁
            · exact Or.inl ⟨r, hr, hpk.trans hkey.symm, trans_of K hK (hchange _ _ hmove)⟩
            · exact Or.inr ⟨r, hadd, hkey.symm ▸ hpk, trans_of K hK (hchange _ _ hmove)⟩
          · rw [if_neg hp] at heq
            rw [← heq]
            exact ih hr₁
      | remove p hforbidden => exact ih (t₁.mem_delete.1 hr').1

end Kept

/-! ## Rows that no change concerns -/

lemma filter_rewritten {q p : Row → Bool} {f : Row → Row}
    (h : ∀ r ∈ t.rows, p r = true → q r = false ∧ q (f r) = false) :
    (t.rewritten p f).filter q = t.rows.filter q := by
  unfold Table.rewritten
  rw [List.filter_map, List.filter_congr (q := q) fun r hr => ?_]
  · refine (List.map_congr_left fun r hr => ?_).trans (List.map_id _)
    obtain ⟨hr, hq⟩ := List.mem_filter.1 hr
    by_cases hp : p r = true
    · rw [(h r hr hp).1] at hq
      cases hq
    · exact if_neg hp
  · by_cases hp : p r = true
    · rw [Function.comp_apply, if_pos hp, (h r hr hp).1, (h r hr hp).2]
    · rw [Function.comp_apply, if_neg hp]

/-- When nothing that the policy allows on the way from `t` to `t'` concerns the rows with `q`, they
stay as they are. -/
theorem filter_eq_of_allows {q : Row → Bool}
    (hadd : ∀ t₁ r, P.Allows t t₁ → P.add r → (∀ s ∈ t₁.rows, Model.pk s ≠ Model.pk r) →
      t.next ≤ Model.pk r → q r = false)
    (hchange : ∀ t₁ r r', P.Allows t t₁ → P.Allows t₁ t' → r ∈ t₁.rows →
      Model.pk r' = Model.pk r → P.change r r' → q r = false ∧ q r' = false)
    (hremove : ∀ r, P.remove r → q r = false) (h : P.Allows t t') :
    t'.rows.filter q = t.rows.filter q := by
  induction h with
  | refl => rfl
  | @tail t₁ t₂ hfirst hstep ih =>
      have hlast : P.Allows t₁ t₂ := Relation.ReflTransGen.single hstep
      refine Eq.trans ?_ (ih fun t₃ r r' h₃ h₃' => hchange t₃ r r' h₃ (h₃'.trans hlast))
      cases hstep with
      | add r hallowed hpk hrows =>
          have hfree : ∀ s ∈ t₁.rows, Model.pk s ≠ Model.pk r := fun s hs =>
            Nat.ne_of_lt (Nat.lt_of_lt_of_le (t₁.pk_lt s hs) hpk)
          rw [hrows, List.filter_append, List.filter_singleton,
            hadd t₁ r hfirst hallowed hfree (Nat.le_trans (next_le_of_allows hfirst) hpk)]
          exact List.append_nil _
      | change p f hmoves hrows hnext =>
          rw [hrows]
          refine filter_rewritten fun r hr hp => ?_
          obtain ⟨hpk, hmove⟩ := hmoves r hr hp
          exact hchange t₁ r (f r) hfirst hlast hr hpk hmove
      | remove p hforbidden =>
          change (t₁.rows.filter fun r => !p r).filter q = _
          rw [List.filter_filter]
          refine List.filter_congr fun r hr => ?_
          cases hp : p r with
          | true => rw [hremove r (hforbidden r hr hp), Bool.false_and]
          | false => rw [Bool.not_false, Bool.and_true]

end TablePolicy

end BePyEco.Library
