import BePyEco.Catalog.Categories
import BePyEco.Library.Acyclic

/-!
# The category tree

A category that is re-parented between another call's check and its save makes the check stale, and
two such calls can close a cycle.  Where the walked categories still have the parents that the walk
has found in them (`CategoryPc.PathStored`), the walked path is the stored one.  The walk has ended
at a root and has not met the category (`CategoryPc.Walked`), so the save closes no cycle.  A call
that runs alone finds its path unchanged (`pathStored_of_alone`).
-/

namespace BePyEco

open Library Relation

/-- The stored parent of a category. -/
def IsParent (w : World) (child parent : Id) : Prop :=
  ∃ c ∈ w.db.categories.rows, c.id = child ∧ c.parentId = some parent

def CategoryStored (w : World) (id : Id) : Prop := ∃ c ∈ w.db.categories.rows, c.id = id

/-- The stored parents close no cycle, and all of them are stored. -/
structure TreeSound (w : World) : Prop where
  acyclic : Acyclic (IsParent w)
  stored : ∀ child parent, IsParent w child parent → CategoryStored w parent

/-- The categories of a walk, newest first, each with the parent that was found in it; that of the
newest comes next. -/
def walkedPath : List Id → Option Id → List (Id × Option Id)
  | [], _ => []
  | id :: ancestors, upcoming => (id, upcoming) :: walkedPath ancestors (some id)

/-- The walked categories still have the parents that were found in them. -/
def WalkedIn (w : World) (ancestors : List Id) (upcoming : Option Id) : Prop :=
  ∀ link ∈ walkedPath ancestors upcoming, ∀ c ∈ w.db.categories.rows, c.id = link.1 →
    c.parentId = link.2

instance (w : World) (ancestors : List Id) (upcoming : Option Id) :
    Decidable (WalkedIn w ancestors upcoming) := by
  unfold WalkedIn
  infer_instance

/-- When a category is saved under a new parent, no category on the path that was walked up from
this parent has been moved since it was read. -/
def CategoryPc.PathStored : CategoryPc → World → Prop
  | saving (.reparentCategory _ (some _)) ancestors, w => WalkedIn w ancestors none
  | _, _ => True

instance : (pc : CategoryPc) → (w : World) → Decidable (pc.PathStored w)
  | .saving (.reparentCategory _ (some _)) ancestors, w =>
    inferInstanceAs (Decidable (WalkedIn w ancestors none))
  | .saving (.reparentCategory _ none) _, _ => .isTrue trivial
  | .saving (.createCategory _) _, _ => .isTrue trivial
  | .reading .., _ => .isTrue trivial
  | .returned _, _ => .isTrue trivial
  | .raised _, _ => .isTrue trivial

/-- The next step of the call saves nothing on the strength of a path that has changed. -/
def PathsStored {ι : Type} (P : Pool ι CategoryPc World) (i : ι) : Prop :=
  (P.pc i).PathStored P.store

/-! ## What the statements do -/

section Statements

variable {w w' : World}

lemma getCategory_ok {id : Id} {c : Category} (h : (getCategory id).run w = .ok (c, w')) :
    w' = w ∧ c ∈ w.db.categories.rows ∧ c.id = id := by
  obtain ⟨rfl, hget⟩ := Objects.get_ok h
  exact ⟨rfl, Table.mem_of_get hget, by simpa using Table.holds_of_get hget⟩

lemma requireParent_ok {parentId : Option Id} {u : Unit}
    (h : (requireParent parentId).run w = .ok (u, w')) :
    w' = w ∧ ∀ id, parentId = some id → CategoryStored w id := by
  obtain ⟨rfl, hstored⟩ := requireStored_ok h
  exact ⟨rfl, fun id hid => hstored id (Option.mem_toList.2 hid)⟩

/-- The row that was inserted has the given parent, all others have theirs. -/
lemma insertCategory_ok {parentId : Option Id} {c : Category}
    (h : (insertCategory parentId).run w = .ok (c, w')) :
    c.id = w.db.categories.next ∧ c.parentId = parentId ∧
      w'.db.categories.rows = w.db.categories.rows ++ [c] ∧
      ∀ id, parentId = some id → CategoryStored w id := by
  obtain ⟨u, w₁, hrequire, hcreate⟩ := Tx.bind_ok h
  obtain ⟨rfl, hparent⟩ := requireParent_ok hrequire
  obtain ⟨t, hinsert, rfl⟩ := Objects.create_ok hcreate
  obtain ⟨rfl, hrows, -⟩ := Table.insert_spec hinsert
  exact ⟨rfl, rfl, hrows, hparent⟩

/-- The row that was saved has the given parent, all others have theirs. -/
lemma saveParent_ok {id : Id} {parentId : Option Id} {u : Unit}
    (h : (saveParent id parentId).run w = .ok (u, w')) :
    CategoryStored w id ∧
      w'.db.categories = w.db.categories.update (fun c => Model.pk c == id)
        (Category.setParentId parentId) ∧
      ∀ id, parentId = some id → CategoryStored w' id := by
  obtain ⟨u, w₁, hsave, hrequire⟩ := Tx.bind_ok h
  obtain ⟨rfl, hparent⟩ := requireParent_ok hrequire
  obtain rfl := Objects.save_ok hsave
  exact ⟨Objects.exists_of_save_ok hsave, rfl, hparent⟩

end Statements

/-! ## What they make of the tree -/

section Tree

variable {w w' : World}

lemma TreeSound.stored_of_reaches (hw : TreeSound w) {a b : Id}
    (h : ReflTransGen (IsParent w) a b) (ha : CategoryStored w a) : CategoryStored w b :=
  mem_of_reaches (fun x y _ hedge => hw.stored x y hedge) ha h

/-- A new category is a leaf. -/
lemma TreeSound.insert (hw : TreeSound w) {parentId : Option Id} {c : Category}
    (h : (insertCategory parentId).run w = .ok (c, w')) : TreeSound w' := by
  obtain ⟨hid, hparentId, hrows, hstored⟩ := insertCategory_ok h
  have hnew : ∀ r ∈ w.db.categories.rows, r.id ≠ c.id := by
    intro r hr
    rw [hid]
    exact w.db.categories.pk_ne_next hr
  have hmem : ∀ r ∈ w'.db.categories.rows, r ∈ w.db.categories.rows ∨ r = c := by
    intro r hr
    rw [hrows, List.mem_append, List.mem_singleton] at hr
    exact hr
  have hedges : ∀ x y, IsParent w' x y →
      redirect (IsParent w) c.id (fun y => parentId = some y) x y := by
    rintro x y ⟨r, hr, rfl, hparent⟩
    obtain hold | rfl := hmem r hr
    · exact Or.inr ⟨hnew r hold, r, hold, rfl, hparent⟩
    · exact Or.inl ⟨rfl, hparentId.symm.trans hparent⟩
  refine ⟨?_, fun x y hedge => ?_⟩
  · refine Acyclic.mono ((acyclic_redirect_iff hw.acyclic).2 fun p hp hreach => ?_) hedges
    obtain ⟨r, hr, hrid⟩ := hw.stored_of_reaches hreach (hstored p hp)
    exact hnew r hr hrid
  · have hkept : ∀ id, CategoryStored w id → CategoryStored w' id := by
      rintro id ⟨r, hr, hrid⟩
      refine ⟨r, ?_, hrid⟩
      rw [hrows]
      exact List.mem_append_left _ hr
    obtain ⟨-, hp⟩ | ⟨-, hold⟩ := hedges x y hedge
    · exact hkept y (hstored y hp)
    · exact hkept y (hw.stored x y hold)

/-- The edges after a save. -/
lemma isParent_save_iff {id : Id} {parentId : Option Id} {u : Unit}
    (h : (saveParent id parentId).run w = .ok (u, w')) (x y : Id) :
    IsParent w' x y ↔ redirect (IsParent w) id (fun y => parentId = some y) x y := by
  obtain ⟨⟨c, hc, hid⟩, hupdate, -⟩ := saveParent_ok h
  unfold IsParent
  rw [hupdate]
  constructor
  · rintro ⟨r, hr, rfl, hparent⟩
    obtain ⟨r₀, -, hr₀, rfl⟩ | ⟨hold, hne⟩ := Table.mem_update_pk _ hr
    · exact Or.inl ⟨hr₀, hparent⟩
    · exact Or.inr ⟨hne, r, hold, rfl, hparent⟩
  · rintro (⟨rfl, hparent⟩ | ⟨hne, r, hr, rfl, hparent⟩)
    · have hsaved : (Category.setParentId parentId).apply c ∈ (w.db.categories.update
          (fun c => Model.pk c == x) (Category.setParentId parentId)).rows := by
        refine (Table.mem_update _).2 ⟨c, hc, Assignment.on_pos _ ?_⟩
        exact beq_iff_eq.2 hid
      exact ⟨_, hsaved, hid, hparent⟩
    · exact ⟨r, Table.mem_update_of_ne _ hr hne, rfl, hparent⟩

/-- A save keeps the tree acyclic exactly when the new parent is not below the category. -/
lemma TreeSound.save_iff (hw : TreeSound w) {id : Id} {parentId : Option Id} {u : Unit}
    (h : (saveParent id parentId).run w = .ok (u, w')) :
    Acyclic (IsParent w') ↔ ∀ p, parentId = some p → ¬ ReflTransGen (IsParent w) p id := by
  rw [← acyclic_redirect_iff hw.acyclic]
  have hedges := isParent_save_iff h
  constructor
  · intro hacyclic
    exact hacyclic.mono fun x y hedge => (hedges x y).2 hedge
  · intro hacyclic
    exact hacyclic.mono fun x y hedge => (hedges x y).1 hedge

/-- After a save the parents are stored. -/
lemma TreeSound.stored_save (hw : TreeSound w) {id : Id} {parentId : Option Id} {u : Unit}
    (h : (saveParent id parentId).run w = .ok (u, w')) {x y : Id} (hedge : IsParent w' x y) :
    CategoryStored w' y := by
  obtain ⟨-, hupdate, hstored⟩ := saveParent_ok h
  obtain ⟨-, hp⟩ | ⟨-, hold⟩ := (isParent_save_iff h x y).1 hedge
  · exact hstored y hp
  · obtain ⟨r, hr, hid⟩ := hw.stored x y hold
    unfold CategoryStored
    rw [hupdate]
    exact ⟨_, (Table.mem_update _).2 ⟨r, hr, rfl⟩, (Assignment.pk_on _ _ r).trans hid⟩

/-- A stored category is saved under a stored parent. -/
lemma saveParent_run {id p : Id} (hid : CategoryStored w id) (hp : CategoryStored w p) :
    ∃ w', (saveParent id (some p)).run w = .ok ((), w') := by
  obtain ⟨c, hc, hcid⟩ := hid
  let saved : World := Stored.put (w.db.categories.update (fun c => Model.pk c == id)
    (Category.setParentId (some p))) w
  have hsave : (Objects.save id (Category.setParentId (some p)) : Statement Unit).run w =
    .ok ((), saved) := Objects.run_save_of_mem hc hcid
  have hp' : CategoryStored saved p := by
    obtain ⟨c', hc', hpid⟩ := hp
    exact ⟨_, (Table.mem_update _).2 ⟨c', hc', rfl⟩, (Assignment.pk_on _ _ c').trans hpid⟩
  refine ⟨saved, ?_⟩
  rw [saveParent, Tx.run_bind, hsave]
  exact run_requireStored_singleton hp'

end Tree

/-! ## What a call has walked -/

/-- The walk has met the new parent, and not the category itself. -/
def CategoryCall.Walked (call : CategoryCall) (ancestors : List Id) : Prop :=
  (∀ newParent, call.newParent = some newParent → newParent.pk ∈ ancestors) ∧
    ∀ id, call.own = some id → id ∉ ancestors

def CategoryPc.Walked : CategoryPc → Prop
  | reading call ancestors _ => call.Walked ancestors
  | saving call ancestors => call.Walked ancestors
  | returned _ => True
  | raised _ => True

/-- The walked categories, unless the walk has met a category twice. -/
def Walk.ancestors : Walk → Option (List Id)
  | root ancestors => some ancestors
  | cycle => none
  | reads ancestors _ => some ancestors

section Walking

/-- A walk that goes on or ends has met the node, and nothing that it must not meet. -/
lemma walk_spec {own : Option Id} {before after : List Id} {node : CategoryInstance}
    (h : (walk own before node).ancestors = some after) :
    (∀ id ∈ before, id ∈ after) ∧ node.pk ∈ after ∧
      ((∀ id, own = some id → id ∉ before) → ∀ id, own = some id → id ∉ after) := by
  induction node generalizing before with
  | unread id parentId =>
      unfold walk at h
      split at h
      · cases h
      · rename_i hunseen
        push Not at hunseen
        have hafter : after = id :: before := by
          cases parentId with
          | none => exact (Option.some.inj h).symm
          | some parentId => exact (Option.some.inj h).symm
        rw [hafter]
        refine ⟨fun _ => List.mem_cons_of_mem _, List.mem_cons_self, fun hown id' hid' => ?_⟩
        rw [List.mem_cons, not_or]
        refine ⟨fun heq => hunseen.1 ?_, hown id' hid'⟩
        rw [hid', heq]
        rfl
  | cached id parent ih =>
      unfold walk at h
      split at h
      · cases h
      · rename_i hunseen
        push Not at hunseen
        obtain ⟨hbefore, -, hmeets⟩ := ih h
        refine ⟨fun _ hmem => hbefore _ (List.mem_cons_of_mem _ hmem),
          hbefore id List.mem_cons_self, fun hown => hmeets fun id' hid' => ?_⟩
        rw [List.mem_cons, not_or]
        refine ⟨fun heq => hunseen.1 ?_, hown id' hid'⟩
        rw [hid', heq]
        rfl

lemma CategoryCall.walked_after {call : CategoryCall} {outcome : Walk}
    (h : ∀ ancestors, outcome.ancestors = some ancestors → call.Walked ancestors) :
    (call.after outcome).Walked := by
  cases outcome with
  | root ancestors => exact h ancestors rfl
  | cycle => trivial
  | reads ancestors parentId => exact h ancestors rfl

lemma CategoryCall.walked_start (call : CategoryCall) : call.start.Walked := by
  refine walked_after fun ancestors hancestors => ?_
  cases hparent : call.newParent with
  | none =>
      rw [hparent] at hancestors
      cases hancestors
      refine ⟨fun newParent hnew => ?_, fun id _ => List.not_mem_nil⟩
      rw [hparent] at hnew
      cases hnew
  | some newParent =>
      rw [hparent, assertAcyclic] at hancestors
      split at hancestors
      · cases hancestors
      · obtain ⟨-, hmem, hown⟩ := walk_spec hancestors
        refine ⟨fun newParent' hnew => ?_, hown fun id _ => List.not_mem_nil⟩
        rw [hparent] at hnew
        cases hnew
        exact hmem

/-- Every step keeps it. -/
lemma CategoryPc.Walked.step {pc pc' : CategoryPc} {w w' : World} (hpc : pc.Walked)
    (h : pc.next w = some (pc', w')) : pc'.Walked := by
  cases pc with
  | reading call ancestors parentId =>
      obtain ⟨parent, -, rfl⟩ | ⟨e, -, rfl, -⟩ := Control.advance_cases h
      · refine CategoryCall.walked_after fun after hafter => ?_
        obtain ⟨hbefore, -, hown⟩ := walk_spec hafter
        exact ⟨fun newParent hnew => hbefore _ (hpc.1 newParent hnew), hown hpc.2⟩
      · trivial
  | saving call ancestors =>
      cases call with
      | createCategory parent =>
          obtain ⟨category, -, rfl⟩ | ⟨e, -, rfl, -⟩ := Control.advance_cases h
          · trivial
          · trivial
      | reparentCategory category newParent =>
          obtain ⟨u, -, rfl⟩ | ⟨e, -, rfl, -⟩ := Control.advance_cases h
          · trivial
          · trivial
  | returned category => cases h
  | raised e => cases h

end Walking

/-! ## Runs -/

section Runs

variable {ι : Type} {P : Pool ι CategoryPc World} {w w' : World}

lemma TreeSound.of_categories (hw : TreeSound w) (h : w'.db.categories = w.db.categories) :
    TreeSound w' := by
  have hedges : ∀ x y, IsParent w' x y ↔ IsParent w x y := by
    intro x y
    unfold IsParent
    rw [h]
  refine ⟨hw.acyclic.mono fun x y hedge => (hedges x y).1 hedge, fun x y hedge => ?_⟩
  unfold CategoryStored
  rw [h]
  exact hw.stored x y ((hedges x y).1 hedge)

lemma treeSound_of_empty (h : w.db.categories = .empty) : TreeSound w := by
  have hnone : ∀ x y, ¬ IsParent w x y := by
    rintro x y ⟨c, hc, -⟩
    rw [h] at hc
    cases hc
  exact ⟨acyclic_of_forall_not hnone, fun x y hedge => absurd hedge (hnone x y)⟩

/-- A walked category has a parent that was walked as well, or comes next. -/
lemma exists_of_mem_walked {ancestors : List Id} (upcoming : Option Id) {id : Id}
    (h : id ∈ ancestors) : ∃ parentId, (id, parentId) ∈ walkedPath ancestors upcoming ∧
      ∀ parent, parentId = some parent → parent ∈ ancestors ∨ upcoming = some parent := by
  induction ancestors generalizing upcoming with
  | nil => cases h
  | cons newest ancestors ih =>
      obtain rfl | hold := List.mem_cons.1 h
      · exact ⟨upcoming, List.mem_cons_self, fun parent => Or.inr⟩
      · obtain ⟨parentId, hlink, hparent⟩ := ih (some newest) hold
        refine ⟨parentId, List.mem_cons_of_mem _ hlink, fun parent heq => Or.inl ?_⟩
        obtain hwalked | hnext := hparent parent heq
        · exact List.mem_cons_of_mem _ hwalked
        · cases hnext
          exact List.mem_cons_self

/-- On a stored path that ends at a root, what a walked category reaches was walked. -/
lemma WalkedIn.mem_of_reaches {ancestors : List Id} (h : WalkedIn w ancestors none) {a b : Id}
    (ha : a ∈ ancestors) (hreach : ReflTransGen (IsParent w) a b) : b ∈ ancestors := by
  refine Library.mem_of_reaches (fun x y hx hedge => ?_) ha hreach
  obtain ⟨c, hc, rfl, hparent⟩ := hedge
  obtain ⟨parentId, hlink, hwalked⟩ := exists_of_mem_walked none hx
  have hsame : c.parentId = parentId := h _ hlink c hc rfl
  obtain hy | hnone := hwalked y (hsame.symm.trans hparent)
  · exact hy
  · cases hnone

/-- The new parent is not below the category, where the path that was walked is stored. -/
lemma CategoryCall.Walked.not_below {category p : CategoryInstance} {ancestors : List Id}
    (hwalked : (CategoryCall.reparentCategory category (some p)).Walked ancestors)
    (hpath : WalkedIn w ancestors none) : ¬ ReflTransGen (IsParent w) p.pk category.pk :=
  fun hreach => hwalked.2 category.pk rfl (hpath.mem_of_reaches (hwalked.1 p rfl) hreach)

/-- A step on a stored path keeps the tree sound. -/
lemma TreeSound.step {pc pc' : CategoryPc} (hw : TreeSound w) (hpc : pc.Walked)
    (hpath : pc.PathStored w) (h : pc.next w = some (pc', w')) : TreeSound w' := by
  cases pc with
  | reading call ancestors parentId =>
      obtain ⟨parent, hget, -⟩ | ⟨e, -, -, rfl⟩ := Control.advance_cases h
      · obtain ⟨rfl, -⟩ := getCategory_ok hget
        exact hw
      · exact hw
  | saving call ancestors =>
      cases call with
      | createCategory parent =>
          obtain ⟨category, hinsert, -⟩ | ⟨e, -, -, rfl⟩ := Control.advance_cases h
          · exact hw.insert hinsert
          · exact hw
      | reparentCategory category newParent =>
          obtain ⟨u, hsave, -⟩ | ⟨e, -, -, rfl⟩ := Control.advance_cases h
          · refine ⟨(hw.save_iff hsave).2 fun id hid => ?_, fun x y => hw.stored_save hsave⟩
            -- what was walked is not the category, and is all that the new parent reaches
            obtain ⟨p, rfl, rfl⟩ := Option.map_eq_some_iff.1 hid
            exact hpc.not_below hpath
          · exact hw
  | returned category => cases h
  | raised e => cases h

/-- The tree is sound, and so is what every call has walked. -/
structure CategoriesSound (P : Pool ι CategoryPc World) : Prop where
  tree : TreeSound P.store
  walked : ∀ i, (P.pc i).Walked

lemma categoriesSound_of_run [DecidableEq ι] {calls : ι → CategoryCall}
    (hempty : w.db.categories = .empty)
    (hrun : categorySystem.Run PathsStored (categoryPool w calls) P) : CategoriesSound P := by
  refine System.Run.invariant ?_ ?_ ?_ hrun
  · exact ⟨treeSound_of_empty hempty, fun i => (calls i).walked_start⟩
  · rintro P i pc s ⟨htree, hwalked⟩ hpath hnext
    refine ⟨htree.step (hwalked i) hpath hnext, fun j => ?_⟩
    obtain ⟨-, hpc⟩ | ⟨-, hpc⟩ := P.pc_advance_cases i j pc s
    · rw [hpc]
      exact (hwalked i).step hnext
    · rw [hpc]
      exact hwalked j
  · rintro P s ⟨htree, hwalked⟩ hsame
    exact ⟨htree.of_categories hsame, hwalked⟩

/-- In a run in which every save under a new parent finds the path that it has walked as it was, the
tree is acyclic. -/
theorem categoryTree_acyclic [DecidableEq ι] {calls : ι → CategoryCall}
    (hempty : w.db.categories = .empty)
    (hrun : categorySystem.Run PathsStored (categoryPool w calls) P) :
    Acyclic (IsParent P.store) :=
  (categoriesSound_of_run hempty hrun).tree.acyclic

/-! ## A walk that nobody has overtaken -/

/-- The instance and those in its caches are as stored. -/
def CategoryInstance.Fresh (w : World) : CategoryInstance → Prop
  | unread id parentId => ∀ c ∈ w.db.categories.rows, c.id = id → c.parentId = parentId
  | cached id parent =>
    (∀ c ∈ w.db.categories.rows, c.id = id → c.parentId = some parent.pk) ∧ parent.Fresh w

lemma WalkedIn.cons {ancestors : List Id} {id : Id} {parentId : Option Id}
    (h : WalkedIn w ancestors (some id))
    (hid : ∀ c ∈ w.db.categories.rows, c.id = id → c.parentId = parentId) :
    WalkedIn w (id :: ancestors) parentId := by
  intro link hlink
  obtain rfl | hold := List.mem_cons.1 hlink
  · exact hid
  · exact h link hold

/-- What a walk that has stopped leaves to come. -/
def Walk.WalkedIn (w : World) : Walk → Prop
  | root ancestors => BePyEco.WalkedIn w ancestors none
  | cycle => True
  | reads ancestors parentId => BePyEco.WalkedIn w ancestors (some parentId)

lemma walk_walkedIn {own : Option Id} {ancestors : List Id} {node : CategoryInstance}
    (h : WalkedIn w ancestors (some node.pk)) (hfresh : node.Fresh w) :
    (walk own ancestors node).WalkedIn w := by
  induction node generalizing ancestors with
  | unread id parentId =>
      unfold walk
      split
      · trivial
      · cases parentId with
        | none => exact h.cons hfresh
        | some parentId => exact h.cons hfresh
  | cached id parent ih =>
      unfold walk
      split
      · trivial
      · exact ih (h.cons hfresh.1) hfresh.2

lemma assertAcyclic_walkedIn {own : Option Id} {newParent : Option CategoryInstance}
    (hfresh : ∀ p, newParent = some p → p.Fresh w) :
    (assertAcyclic own newParent).WalkedIn w := by
  have hnothing : ∀ upcoming, WalkedIn w [] upcoming := fun _ _ hlink => by cases hlink
  cases newParent with
  | none => exact hnothing none
  | some p =>
      dsimp only [assertAcyclic]
      split
      · trivial
      · exact walk_walkedIn (hnothing _) (hfresh p rfl)

/-- A call that has not saved yet finds the categories as they were. -/
def CategoryPc.WalkedIn (w : World) : CategoryPc → World → Prop
  | reading _ ancestors parentId, w' =>
    w'.db.categories = w.db.categories ∧ BePyEco.WalkedIn w ancestors (some parentId)
  | saving _ ancestors, w' =>
    w'.db.categories = w.db.categories ∧ BePyEco.WalkedIn w ancestors none
  | returned _, _ => True
  | raised _, _ => True

lemma CategoryCall.walkedIn_after {call : CategoryCall} {outcome : Walk}
    (h : outcome.WalkedIn w) (hw : w'.db.categories = w.db.categories) :
    (call.after outcome).WalkedIn w w' := by
  cases outcome with
  | root ancestors => exact ⟨hw, h⟩
  | cycle => trivial
  | reads ancestors parentId => exact ⟨hw, h⟩

lemma CategoryPc.WalkedIn.step {pc pc' : CategoryPc} {w₁ w₂ : World} (hpc : pc.WalkedIn w w₁)
    (h : pc.next w₁ = some (pc', w₂)) : pc'.WalkedIn w w₂ := by
  cases pc with
  | reading call ancestors parentId =>
      obtain ⟨hsame, hwalked⟩ := hpc
      obtain ⟨parent, hget, rfl⟩ | ⟨e, -, rfl, -⟩ := Control.advance_cases h
      · obtain ⟨rfl, hparent, hid⟩ := getCategory_ok hget
        rw [hsame] at hparent
        refine CategoryCall.walkedIn_after (walk_walkedIn ?_ ?_) hsame
        · rw [← hid] at hwalked
          exact hwalked
        · intro c hc heq
          rw [w.db.categories.eq_of_pk hc hparent heq]
      · trivial
  | saving call ancestors =>
      cases call with
      | createCategory parent =>
          obtain ⟨category, -, rfl⟩ | ⟨e, -, rfl, -⟩ := Control.advance_cases h
          · trivial
          · trivial
      | reparentCategory category newParent =>
          obtain ⟨u, -, rfl⟩ | ⟨e, -, rfl, -⟩ := Control.advance_cases h
          · trivial
          · trivial
  | returned category => cases h
  | raised e => cases h

lemma CategoryPc.WalkedIn.of_same {pc : CategoryPc} {w₁ w₂ : World} (hpc : pc.WalkedIn w w₁)
    (h : w₂.db.categories = w₁.db.categories) : pc.WalkedIn w w₂ := by
  cases pc with
  | reading call ancestors parentId => exact ⟨h.trans hpc.1, hpc.2⟩
  | saving call ancestors => exact ⟨h.trans hpc.1, hpc.2⟩
  | returned category => trivial
  | raised e => trivial

/-- What was walked in the categories as they are is the stored path. -/
lemma CategoryPc.WalkedIn.pathStored {pc : CategoryPc} (h : pc.WalkedIn w w') :
    pc.PathStored w' := by
  unfold CategoryPc.PathStored
  split
  · obtain ⟨hsame, hwalked⟩ := h
    unfold BePyEco.WalkedIn
    rw [hsame]
    exact hwalked
  · trivial

/-- A call that runs alone, on a new parent as it is stored, finds its path as it was. -/
theorem pathStored_of_alone {call : CategoryCall} {P : Pool Unit CategoryPc World}
    (hfresh : ∀ p, call.newParent = some p → p.Fresh w)
    (hrun : categorySystem.Run (fun _ _ => True) (categoryPool w fun _ => call) P) :
    PathsStored P () := by
  have hwalked : (P.pc ()).WalkedIn w P.store := by
    induction hrun with
    | refl => exact CategoryCall.walkedIn_after (assertAcyclic_walkedIn hfresh) rfl
    | @call P i pc s _ _ hnext ih =>
        rw [P.pc_advance_self]
        exact ih.step hnext
    | env _ hsame ih => exact ih.of_same hsame
  exact hwalked.pathStored

end Runs

/-! ### Two categories under each other -/

section Example

/-- Two root categories are created, and each is moved under the other. -/
def moveUnderEachOther : Fin 4 → CategoryCall
  | 0 => .createCategory none
  | 1 => .createCategory none
  | 2 => .reparentCategory (.unread 0 none) (some (.unread 1 none))
  | 3 => .reparentCategory (.unread 1 none) (some (.unread 0 none))

/-- One of them is moved. -/
theorem categoryTree_acyclic_moveOne :
    ∃ P, categorySystem.Run PathsStored (categoryPool {} moveUnderEachOther) P ∧
      P.store.db.categories.rows = [⟨0, some 1⟩, ⟨1, none⟩] ∧ Acyclic (IsParent P.store) := by
  have h : (categorySystem.execute (fun P i => decide ((P.pc i).PathStored P.store))
      (categoryPool {} moveUnderEachOther) [0, 1, 2]).map (fun P =>
        decide (P.store.db.categories.rows = [⟨0, some 1⟩, ⟨1, none⟩])) = some true := by decide
  obtain ⟨P, hrun, hp⟩ := System.exists_run_of_execute (fun _ _ hok => of_decide_eq_true hok) h
  exact ⟨P, hrun, of_decide_eq_true hp, categoryTree_acyclic rfl hrun⟩

/-- Both are moved, each checked while the other is a root. -/
theorem not_categoryTree_acyclic :
    ∃ P, categorySystem.Run (fun _ _ => True) (categoryPool {} moveUnderEachOther) P ∧
      ¬ Acyclic (IsParent P.store) := by
  have h : (categorySystem.execute (fun _ _ => true) (categoryPool {} moveUnderEachOther)
      [0, 1, 2, 3]).map (fun P =>
        decide (P.store.db.categories.rows = [⟨0, some 1⟩, ⟨1, some 0⟩])) = some true := by decide
  obtain ⟨P, hrun, hp⟩ := System.exists_run_of_execute (fun _ _ _ => trivial) h
  have hrows := of_decide_eq_true hp
  refine ⟨P, hrun, fun hacyclic => ?_⟩
  have hfirst : IsParent P.store 0 1 := ⟨⟨0, some 1⟩, by rw [hrows]; simp, rfl, rfl⟩
  have hsecond : IsParent P.store 1 0 := ⟨⟨1, some 0⟩, by rw [hrows]; simp, rfl, rfl⟩
  exact hacyclic 0 (.head hfirst (.single hsecond))

end Example

end BePyEco
