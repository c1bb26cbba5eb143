import BePyEco.Library.Table

/-!
# Copies of rows

A call works on copies of rows that it read some time ago.  `Evolving` says how a row may have
changed since: `Later r r'` is the order of its versions.  `Table.HasLater` says that a table
still has the row of a copy, and `Table.Keeps` that one table is a later state of another in
which no row was lost.  Under `Keeps` a copy never becomes a copy of nothing.
-/

namespace BePyEco.Library

/-- The versions of a row: `Later r r'` when `r'` may be what `r` has become. -/
class Evolving (Row : Type) [Model Row] where
  Later : Row → Row → Prop
  refl : ∀ r, Later r r
  trans : ∀ {a b c}, Later a b → Later b c → Later a c
  pk_eq : ∀ {a b}, Later a b → Model.pk b = Model.pk a

open Evolving

namespace Table

variable {Row : Type} [Model Row] [Evolving Row]

/-- The table has the row of a copy, possibly in a later version. -/
def HasLater (t : Table Row) (r : Row) : Prop := ∃ r' ∈ t.rows, Later r r'

/-- Every row of `t` is still in `t'`, possibly in a later version. -/
def Keeps (t t' : Table Row) : Prop := ∀ r ∈ t.rows, t'.HasLater r

variable {t t' t'' : Table Row}

lemma hasLater_of_mem {r : Row} (h : r ∈ t.rows) : t.HasLater r := ⟨r, h, refl r⟩

lemma Keeps.refl (t : Table Row) : t.Keeps t := fun _ => hasLater_of_mem

/-- A copy of a row of a table is a copy of a row of every later table. -/
lemma Keeps.hasLater (h : t.Keeps t') {r : Row} (hr : t.HasLater r) : t'.HasLater r := by
  obtain ⟨r₁, hmem₁, hlater₁⟩ := hr
  obtain ⟨r₂, hmem₂, hlater₂⟩ := h r₁ hmem₁
  exact ⟨r₂, hmem₂, Evolving.trans hlater₁ hlater₂⟩

lemma Keeps.trans (h : t.Keeps t') (h' : t'.Keeps t'') : t.Keeps t'' :=
  fun r hr => h'.hasLater (h r hr)

lemma Keeps.of_update {p : Row → Bool} {a : Assignment Row} (h : ∀ r, Later r (a.apply r)) :
    t.Keeps (t.update p a) := by
  intro r hr
  refine ⟨a.on p r, (t.mem_update).2 ⟨r, hr, rfl⟩, ?_⟩
  unfold Assignment.on
  split
  · exact h r
  · exact Evolving.refl r

/-- The row of a copy is the stored row with the same key. -/
lemma HasLater.later_of_pk {r s : Row} (hr : t.HasLater r) (hs : s ∈ t.rows)
    (h : Model.pk s = Model.pk r) : Later r s := by
  obtain ⟨r', hr', hlater⟩ := hr
  have heq : r' = s := t.eq_of_pk hr' hs ((pk_eq hlater).trans h.symm)
  rw [← heq]
  exact hlater

end Table

end BePyEco.Library
