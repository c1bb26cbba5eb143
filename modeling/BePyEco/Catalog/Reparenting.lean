import BePyEco.Catalog.CategoryTree

/-!
# One call on the category tree

A call of `create_category` or `reparent_category` that runs alone.  Every parent that
`assert_acyclic` queries is a stored category that it has not walked before, so the walk ends
whatever the stored parents are (`finished_of_runAlone`).  In a sound tree `reparent_category`
raises exactly when the new parent is the category or one of its descendants; otherwise it moves
the category and nothing else (`reparentCategory_exact`).
-/

namespace BePyEco

open Library Relation

namespace CategoryPc

/-- At most `n` statements of a call, one after the other. -/
def runAlone : ℕ → CategoryPc → World → CategoryPc × World
  | 0, pc, w => (pc, w)
  | n + 1, pc, w =>
    match pc.next w with
    | none => (pc, w)
    | some (pc', w') => runAlone n pc' w'

/-- The call has returned or raised. -/
def Finished : CategoryPc → Prop
  | returned _ => True
  | raised _ => True
  | _ => False

/-- What every step keeps holds where the run ends. -/
lemma runAlone_invariant {I : CategoryPc → World → Prop} {pc : CategoryPc} {w : World}
    (hstep : ∀ pc w pc' w', I pc w → pc.next w = some (pc', w') → I pc' w') (n : ℕ)
    (hstart : I pc w) : I (pc.runAlone n w).1 (pc.runAlone n w).2 := by
  induction n generalizing pc w with
  | zero => exact hstart
  | succ n ih =>
      unfold runAlone
      cases hnext : pc.next w with
      | none => exact hstart
      | some r => exact ih (hstep pc w r.1 r.2 hstart hnext)

end CategoryPc

/-! ## The walk ends -/

section Termination

variable {w : World}

/-- The stored categories that the walk has not met. -/
def unwalked (w : World) (ancestors : List Id) : ℕ :=
  (w.db.categories.rows.filter fun c => decide (c.id ∉ ancestors)).length

lemma unwalked_le (w : World) (ancestors : List Id) :
    unwalked w ancestors ≤ w.db.categories.rows.length := List.length_filter_le _ _

lemma unwalked_cons_lt {c : Category} {ancestors : List Id} (hc : c ∈ w.db.categories.rows)
    (hnew : c.id ∉ ancestors) : unwalked w (c.id :: ancestors) < unwalked w ancestors := by
  unfold unwalked
  have hsub : (w.db.categories.rows.filter fun r => decide (r.id ∉ c.id :: ancestors)) =
      (w.db.categories.rows.filter fun r => decide (r.id ∉ ancestors)).filter
        fun r => decide (r.id ≠ c.id) := by
    rw [List.filter_filter]
    refine List.filter_congr fun r _ => ?_
    simp [List.mem_cons]
  rw [hsub]
  refine List.length_filter_lt_length_iff_exists.2 ⟨c, ?_, by simp⟩
  exact List.mem_filter.2 ⟨hc, decide_eq_true hnew⟩

/-- A bound on the statements that a call has left. -/
def CategoryPc.left (w : World) : CategoryPc → ℕ
  | reading _ ancestors _ => unwalked w ancestors + 2
  | saving _ _ => 1
  | returned _ => 0
  | raised _ => 0

lemma CategoryPc.next_eq_none {pc : CategoryPc} (h : pc.next w = none) : pc.Finished := by
  cases pc with
  | reading call ancestors parentId =>
      obtain ⟨r, hr⟩ := Control.exists_advance (getCategory parentId)
        (fun parent => call.after (walk call.own ancestors parent.instance)) raised w
      cases h.symm.trans hr
  | saving call ancestors =>
      cases call with
      | createCategory parent =>
          obtain ⟨r, hr⟩ := Control.exists_advance (insertCategory
            (parent.map CategoryInstance.pk))
            (fun category => returned (.ofAncestors category.id ancestors)) raised w
          cases h.symm.trans hr
      | reparentCategory category newParent =>
          obtain ⟨r, hr⟩ := Control.exists_advance
            (saveParent category.pk (newParent.map CategoryInstance.pk))
            (fun _ => returned (.ofAncestors category.pk ancestors)) raised w
          cases h.symm.trans hr
  | returned category => trivial
  | raised e => trivial

/-- Every statement brings a call nearer to its end. -/
lemma CategoryPc.left_lt_of_next {pc pc' : CategoryPc} {w' : World}
    (h : pc.next w = some (pc', w')) : pc'.left w' < pc.left w := by
  cases pc with
  | reading call ancestors parentId =>
      obtain ⟨c, hget, rfl⟩ | ⟨e, -, rfl, -⟩ := Control.advance_cases h
      · obtain ⟨rfl, hc, -⟩ := getCategory_ok hget
        unfold walk
        split
        · exact Nat.succ_pos _
        · rename_i hunseen
          push Not at hunseen
          have hnew : c.id ∉ ancestors := hunseen.2
          have hlt := unwalked_cons_lt hc hnew
          cases hparent : c.parentId with
          | none =>
              simp only [Category.instance, hparent, CategoryCall.after, left]
              omega
          | some parentId' =>
              simp only [Category.instance, hparent, CategoryCall.after, left]
              omega
      · exact Nat.succ_pos _
  | saving call ancestors =>
      cases call with
      | createCategory parent =>
          obtain ⟨category, -, rfl⟩ | ⟨e, -, rfl, -⟩ := Control.advance_cases h
          · exact Nat.one_pos
          · exact Nat.one_pos
      | reparentCategory category newParent =>
          obtain ⟨u, -, rfl⟩ | ⟨e, -, rfl, -⟩ := Control.advance_cases h
          · exact Nat.one_pos
          · exact Nat.one_pos
  | returned category => cases h
  | raised e => cases h

lemma CategoryPc.finished_of_left_le {pc : CategoryPc} {n : ℕ} (h : pc.left w ≤ n) :
    (pc.runAlone n w).1.Finished := by
  induction n generalizing pc w with
  | zero =>
      cases pc with
      | reading call ancestors parentId => simp [left] at h
      | saving call ancestors => simp [left] at h
      | returned category => trivial
      | raised e => trivial
  | succ n ih =>
      unfold runAlone
      cases hnext : pc.next w with
      | none => exact next_eq_none hnext
      | some r =>
          have hlt : r.1.left r.2 < pc.left w := left_lt_of_next hnext
          exact ih (by omega)

/-- A call ends after at most two more statements than there are categories, whatever the stored
parents are. -/
lemma CategoryCall.finished_of_runAlone (call : CategoryCall) {n : ℕ}
    (hn : w.db.categories.rows.length + 2 ≤ n) : (call.start.runAlone n w).1.Finished := by
  refine CategoryPc.finished_of_left_le (le_trans ?_ hn)
  unfold CategoryCall.start CategoryCall.after
  split
  · simp [CategoryPc.left]
  · simp [CategoryPc.left]
  · have hle := unwalked_le w
    simpa [CategoryPc.left] using hle _

end Termination

/-! ## Where the walk leads -/

section Trail

variable {w w' : World}

/-- The walked categories are above the start, and the next one is above all of them. -/
structure Trail (w : World) (start : Id) (ancestors : List Id) (upcoming : Id) : Prop where
  above : ReflTransGen (IsParent w) start upcoming
  below : ∀ id ∈ ancestors, TransGen (IsParent w) id upcoming

lemma Trail.cons {start id upcoming : Id} {ancestors : List Id} (h : Trail w start ancestors id)
    (hedge : IsParent w id upcoming) : Trail w start (id :: ancestors) upcoming where
  above := h.above.tail hedge
  below other hother := by
    obtain rfl | hold := List.mem_cons.1 hother
    · exact .single hedge
    · exact (h.below other hold).tail hedge

/-- What a walk from `start` has found when it stops: a category that it meets twice is the one
that is re-parented. -/
def Walk.OnTrail (w : World) (own : Option Id) (start : Id) : Walk → Prop
  | root _ => True
  | cycle => ∃ id, own = some id ∧ ReflTransGen (IsParent w) start id
  | reads ancestors parentId => Trail w start ancestors parentId ∧ CategoryStored w parentId

lemma walk_onTrail {own : Option Id} {start : Id} {ancestors : List Id} {node : CategoryInstance}
    (hw : TreeSound w) (htrail : Trail w start ancestors node.pk) (hfresh : node.Fresh w)
    (hstored : CategoryStored w node.pk) : (walk own ancestors node).OnTrail w own start := by
  have hseen : ∀ id ancestors, Trail w start ancestors id → own = some id ∨ id ∈ ancestors →
      Walk.cycle.OnTrail w own start := by
    intro id ancestors htrail hseen
    obtain hown | hmem := hseen
    · exact ⟨id, hown, htrail.above⟩
    · exact absurd (htrail.below id hmem) (hw.acyclic id)
  induction node generalizing ancestors with
  | unread id parentId =>
      unfold walk
      split
      · rename_i hid
        exact hseen id _ htrail hid
      · cases parentId with
        | none => trivial
        | some parentId =>
            obtain ⟨c, hc, hid⟩ := hstored
            have hedge : IsParent w id parentId := ⟨c, hc, hid, hfresh c hc hid⟩
            exact ⟨htrail.cons hedge, hw.stored id parentId hedge⟩
  | cached id parent ih =>
      unfold walk
      split
      · rename_i hid
        exact hseen id _ htrail hid
      · obtain ⟨c, hc, hid⟩ := hstored
        have hedge : IsParent w id parent.pk := ⟨c, hc, hid, hfresh.1 c hc hid⟩
        exact ih (htrail.cons hedge) hfresh.2 (hw.stored id parent.pk hedge)

end Trail

/-! ## Moving one category -/

@[simp] lemma CategoryInstance.pk_ofAncestors (id : Id) (ancestors : List Id) :
    (ofAncestors id ancestors).pk = id := by
  unfold ofAncestors child
  split <;> rfl

section Moving

variable {w w' : World} {category : CategoryInstance} {newParent : Option CategoryInstance}

/-- The new parent is the category or one of its descendants. -/
def Below (w : World) (newParent : Option CategoryInstance) (category : CategoryInstance) : Prop :=
  ∃ p, newParent = some p ∧ ReflTransGen (IsParent w) p.pk category.pk

/-- The world after the move: one row has a new parent. -/
def moved (w : World) (category : CategoryInstance) (newParent : Option CategoryInstance) : World :=
  Stored.put (w.db.categories.update (fun c => Model.pk c == category.pk)
    (Category.setParentId (newParent.map CategoryInstance.pk))) w

/-- How far a call of `reparent_category` has come, from `w`. -/
def CategoryPc.Reparents (w : World) (category : CategoryInstance)
    (newParent : Option CategoryInstance) : CategoryPc → World → Prop
  | reading call ancestors parentId, w' =>
    call = .reparentCategory category newParent ∧ w' = w ∧ ∃ p, newParent = some p ∧
      Trail w p.pk ancestors parentId ∧ CategoryStored w parentId
  | saving call _, w' => call = .reparentCategory category newParent ∧ w' = w
  | returned result, w' =>
    ¬ Below w newParent category ∧ w' = moved w category newParent ∧ result.pk = category.pk
  | raised e, w' => e = .app .categoryCycle ∧ w' = w ∧ Below w newParent category

lemma CategoryCall.reparents_after {outcome : Walk} {p : CategoryInstance}
    (h : outcome.OnTrail w (some category.pk) p.pk) :
    (CategoryCall.after (.reparentCategory category (some p)) outcome).Reparents w category
      (some p) w := by
  cases outcome with
  | root ancestors => exact ⟨rfl, rfl⟩
  | cycle =>
      obtain ⟨id, hid, hreach⟩ := h
      cases hid
      exact ⟨rfl, rfl, p, rfl, hreach⟩
  | reads ancestors parentId => exact ⟨rfl, rfl, p, rfl, h⟩

lemma CategoryCall.reparents_start (hw : TreeSound w)
    (hparent : ∀ p, newParent = some p → CategoryStored w p.pk ∧ p.Fresh w) :
    (CategoryCall.start (.reparentCategory category newParent)).Reparents w category newParent
      w := by
  cases newParent with
  | none => exact ⟨rfl, rfl⟩
  | some p =>
      obtain ⟨hstored, hfresh⟩ := hparent p rfl
      refine reparents_after ?_
      change (assertAcyclic (some category.pk) (some p)).OnTrail w (some category.pk) p.pk
      rw [assertAcyclic]
      split
      · rename_i hsame
        exact ⟨p.pk, hsame, .refl⟩
      · exact walk_onTrail hw ⟨.refl, fun id hid => by cases hid⟩ hfresh hstored

lemma eq_moved_of_saveParent {u : Unit}
    (h : (saveParent category.pk (newParent.map CategoryInstance.pk)).run w = .ok (u, w')) :
    w' = moved w category newParent := by
  obtain ⟨u, w₁, hsave, hrequire⟩ := Tx.bind_ok h
  obtain ⟨rfl, -⟩ := requireParent_ok hrequire
  exact Objects.save_ok hsave

/-- A stored category is saved under a stored parent or as a root. -/
lemma exists_saveParent (hcategory : CategoryStored w category.pk)
    (hparent : ∀ p, newParent = some p → CategoryStored w p.pk ∧ p.Fresh w) :
    ∃ w', (saveParent category.pk (newParent.map CategoryInstance.pk)).run w = .ok ((), w') := by
  cases newParent with
  | some p => exact saveParent_run hcategory (hparent p rfl).1
  | none =>
      obtain ⟨c, hc, hid⟩ := hcategory
      have hsave : (Objects.save category.pk (Category.setParentId none) : Statement Unit).run w =
          .ok ((), moved w category none) := Objects.run_save_of_mem hc hid
      refine ⟨moved w category none, ?_⟩
      rw [Option.map_none, saveParent, Tx.run_bind, hsave]
      rfl

/-- Every statement of the call leads on: a query finds the parent, and the save works. -/
lemma CategoryPc.Reparents.step {pc pc' : CategoryPc} {w₁ w₂ : World} (hw : TreeSound w)
    (hcategory : CategoryStored w category.pk)
    (hparent : ∀ p, newParent = some p → CategoryStored w p.pk ∧ p.Fresh w)
    (hwalked : pc.Walked) (hpath : pc.PathStored w₁) (h : pc.Reparents w category newParent w₁)
    (hnext : pc.next w₁ = some (pc', w₂)) : pc'.Reparents w category newParent w₂ := by
  cases pc with
  | reading call ancestors parentId =>
      obtain ⟨rfl, rfl, p, rfl, htrail, hstored⟩ := h
      obtain ⟨c, hget, rfl⟩ | ⟨e, herror, -, -⟩ := Control.advance_cases hnext
      · obtain ⟨rfl, hc, rfl⟩ := getCategory_ok hget
        refine CategoryCall.reparents_after (walk_onTrail hw htrail ?_ hstored)
        intro r hr hid
        rw [w₂.db.categories.eq_of_pk hr hc hid]
      · obtain ⟨c, hc, rfl⟩ := hstored
        have hget : (getCategory c.id).run w₁ = .ok (c, w₁) := by
          refine Objects.run_get_of_ok (Table.get_of_unique hc (decide_eq_true rfl) ?_)
          exact fun r hr hid => w₁.db.categories.eq_of_pk hr hc (of_decide_eq_true hid)
        cases hget.symm.trans herror
  | saving call ancestors =>
      obtain ⟨rfl, rfl⟩ := h
      obtain ⟨u, hsave, rfl⟩ | ⟨e, herror, -, -⟩ := Control.advance_cases hnext
      · refine ⟨?_, eq_moved_of_saveParent hsave, ?_⟩
        · rintro ⟨p, rfl, hreach⟩
          exact hwalked.not_below hpath hreach
        · exact CategoryInstance.pk_ofAncestors category.pk ancestors
      · obtain ⟨w', hsave⟩ := exists_saveParent hcategory hparent
        cases hsave.symm.trans herror
  | returned result => cases hnext
  | raised e => cases hnext

/-- The edges after the move. -/
lemma isParent_moved_iff (hcategory : CategoryStored w category.pk)
    (hparent : ∀ p, newParent = some p → CategoryStored w p.pk ∧ p.Fresh w) (x y : Id) :
    IsParent (moved w category newParent) x y ↔ redirect (IsParent w) category.pk
      (fun y => newParent.map CategoryInstance.pk = some y) x y := by
  obtain ⟨w', hsave⟩ := exists_saveParent hcategory hparent
  rw [← eq_moved_of_saveParent hsave]
  exact isParent_save_iff hsave x y

lemma treeSound_moved (hw : TreeSound w) (hcategory : CategoryStored w category.pk)
    (hparent : ∀ p, newParent = some p → CategoryStored w p.pk ∧ p.Fresh w)
    (hbelow : ¬ Below w newParent category) : TreeSound (moved w category newParent) := by
  obtain ⟨w', hsave⟩ := exists_saveParent hcategory hparent
  rw [← eq_moved_of_saveParent hsave]
  refine ⟨(hw.save_iff hsave).2 fun id hid hreach => ?_, fun x y => hw.stored_save hsave⟩
  obtain ⟨p, hp, rfl⟩ := Option.map_eq_some_iff.1 hid
  exact hbelow ⟨p, hp, hreach⟩

/-- How far the call has come after `n` statements. -/
lemma reparents_of_runAlone (hw : TreeSound w) (hcategory : CategoryStored w category.pk)
    (hparent : ∀ p, newParent = some p → CategoryStored w p.pk ∧ p.Fresh w) (n : ℕ) :
    ((CategoryCall.start (.reparentCategory category newParent)).runAlone n w).1.Reparents w
      category newParent
      ((CategoryCall.start (.reparentCategory category newParent)).runAlone n w).2 := by
  let I : CategoryPc → World → Prop := fun pc w' =>
    pc.Walked ∧ pc.WalkedIn w w' ∧ pc.Reparents w category newParent w'
  refine (CategoryPc.runAlone_invariant (I := I) ?_ n ?_).2.2
  · rintro pc w₁ pc' w₂ ⟨hwalked, hwalkedIn, hreparents⟩ hnext
    exact ⟨hwalked.step hnext, hwalkedIn.step hnext,
      hreparents.step hw hcategory hparent hwalked hwalkedIn.pathStored hnext⟩
  · exact ⟨CategoryCall.walked_start _,
      CategoryCall.walkedIn_after (assertAcyclic_walkedIn fun p hp => (hparent p hp).2) rfl,
      CategoryCall.reparents_start hw hparent⟩

/-- In a sound tree, `reparent_category` raises exactly when the new parent is the category or one
of its descendants, and changes nothing then; otherwise it moves the category and leaves a sound
tree.  On any stored parents, the check of any call ends. -/
theorem reparentCategory_exact (hw : TreeSound w) (hcategory : CategoryStored w category.pk)
    (hparent : ∀ p, newParent = some p → CategoryStored w p.pk ∧ p.Fresh w) :
    (∀ n pc w', w.db.categories.rows.length + 2 ≤ n →
      (CategoryCall.start (.reparentCategory category newParent)).runAlone n w = (pc, w') →
        (pc = .raised (.app .categoryCycle) ↔ Below w newParent category) ∧
        (Below w newParent category → w' = w) ∧
        (¬ Below w newParent category →
          (∃ result, pc = .returned result ∧ result.pk = category.pk) ∧
          w' = moved w category newParent ∧
          (∀ x y, x ≠ category.pk → (IsParent w' x y ↔ IsParent w x y)) ∧
          (∀ y, IsParent w' category.pk y ↔ newParent.map CategoryInstance.pk = some y) ∧
          TreeSound w')) ∧
    ∀ (w' : World) (call : CategoryCall) (n : ℕ), w'.db.categories.rows.length + 2 ≤ n →
      (call.start.runAlone n w').1.Finished := by
  refine ⟨fun n pc w' hn hrun => ?_, fun w' call n hn => call.finished_of_runAlone hn⟩
  have hreparents := reparents_of_runAlone hw hcategory hparent n
  have hfinished := CategoryCall.finished_of_runAlone
    (.reparentCategory category newParent) hn
  rw [hrun] at hreparents hfinished
  cases pc with
  | reading call ancestors parentId => cases hfinished
  | saving call ancestors => cases hfinished
  | returned result =>
      obtain ⟨hbelow, rfl, hresult⟩ := hreparents
      refine ⟨iff_of_false (fun h => by cases h) hbelow, fun h => absurd h hbelow,
        fun _ => ⟨⟨result, rfl, hresult⟩, rfl, fun x y hne => ?_, fun y => ?_,
          treeSound_moved hw hcategory hparent hbelow⟩⟩
      · rw [isParent_moved_iff hcategory hparent, redirect_of_ne hne]
      · rw [isParent_moved_iff hcategory hparent]
        simp [redirect]
  | raised e =>
      obtain ⟨rfl, rfl, hbelow⟩ := hreparents
      exact ⟨iff_of_true rfl hbelow, fun _ => rfl, fun h => absurd hbelow h⟩

end Moving

/-! ### A chain of three categories -/

def rootWorld : World := ((insertCategory none).exec {}).2
def childWorld : World := ((insertCategory (some 0)).exec rootWorld).2
def grandchildWorld : World := ((insertCategory (some 1)).exec childWorld).2

lemma treeSound_grandchildWorld : TreeSound grandchildWorld := by
  have hroot : (insertCategory none).run {} = .ok (⟨0, none⟩, rootWorld) := rfl
  have hchild : (insertCategory (some 0)).run rootWorld = .ok (⟨1, some 0⟩, childWorld) := rfl
  have hgrandchild : (insertCategory (some 1)).run childWorld =
    .ok (⟨2, some 1⟩, grandchildWorld) := rfl
  exact (((treeSound_of_empty rfl).insert hroot).insert hchild).insert hgrandchild

/-- The root is moved under its grandchild. -/
theorem reparentCategory_exact_cycle :
    ((CategoryCall.start (.reparentCategory (.unread 0 none)
      (some (.unread 2 (some 1))))).runAlone 5 grandchildWorld).1 =
        .raised (.app .categoryCycle) := by
  have hrows : grandchildWorld.db.categories.rows = [⟨0, none⟩, ⟨1, some 0⟩, ⟨2, some 1⟩] := rfl
  have hroot : CategoryStored grandchildWorld 0 := ⟨⟨0, none⟩, by simp [hrows], rfl⟩
  have hgrandchild : CategoryStored grandchildWorld 2 := ⟨⟨2, some 1⟩, by simp [hrows], rfl⟩
  have hfresh : (CategoryInstance.unread 2 (some 1)).Fresh grandchildWorld := by
    unfold CategoryInstance.Fresh
    rw [hrows]
    decide
  have hbelow : Below grandchildWorld (some (.unread 2 (some 1))) (.unread 0 none) :=
    ⟨_, rfl, .head ⟨⟨2, some 1⟩, by simp [hrows], rfl, rfl⟩
      (.head ⟨⟨1, some 0⟩, by simp [hrows], rfl, rfl⟩ .refl)⟩
  have hparent : ∀ p, some (CategoryInstance.unread 2 (some 1)) = some p →
      CategoryStored grandchildWorld p.pk ∧ p.Fresh grandchildWorld := by
    rintro p ⟨⟩
    exact ⟨hgrandchild, hfresh⟩
  exact ((@reparentCategory_exact _ (.unread 0 none) _ treeSound_grandchildWorld hroot
    hparent).1 5 _ _ le_rfl rfl).1.2 hbelow

end BePyEco
