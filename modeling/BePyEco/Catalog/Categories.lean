import BePyEco.Database
import BePyEco.Library.Interleaving

/-!
# Categories

`create_category` and `reparent_category`, one row at a time.  `assert_acyclic` walks up from the
new parent: through the instances in the caches of `parent` for nothing, and with one query for
every parent that no cache has.  How long the walk takes depends on what the other calls do, so the
calls are given by their control points: about to read a parent, about to save, returned, or raised.
-/

namespace BePyEco

open Library

/-! ## Instances -/

/-- A `Category` instance: it knows its `parent_id`, and may have the parent in its cache. -/
inductive CategoryInstance
  | unread (id : Id) (parentId : Option Id)
  | cached (id : Id) (parent : CategoryInstance)
  deriving DecidableEq, Repr

namespace CategoryInstance

def pk : CategoryInstance → Id
  | unread id _ => id
  | cached id _ => id

@[simp] lemma pk_unread (id : Id) (parentId : Option Id) : (unread id parentId).pk = id := rfl
@[simp] lemma pk_cached (id : Id) (parent : CategoryInstance) : (cached id parent).pk = id := rfl

/-- An instance with its parent in the cache. -/
def child (id : Id) : Option CategoryInstance → CategoryInstance
  | none => unread id none
  | some parent => cached id parent

/-- An instance with all its ancestors in the caches; they are given from the root down. -/
def ofAncestors (id : Id) (ancestors : List Id) : CategoryInstance :=
  child id (ancestors.foldl (fun parent id => some (child id parent)) none)

end CategoryInstance

/-- A row as the query behind `node.parent` returns it. -/
def Category.instance (c : Category) : CategoryInstance := .unread c.id c.parentId

/-! ## The check -/

/-- Where the loop of `assert_acyclic` stands: it has reached a root, it has met a category that it
has seen, or it has to query the parent of the last category.  The walked categories come newest
first. -/
inductive Walk
  | root (ancestors : List Id)
  | cycle
  | reads (ancestors : List Id) (parentId : Id)
  deriving DecidableEq, Repr

/-- `while node is not None`, as far as the caches reach.  What is in `seen` is `self.pk` and the
walked categories. -/
def walk (own : Option Id) (ancestors : List Id) (node : CategoryInstance) : Walk :=
  if own = some node.pk ∨ node.pk ∈ ancestors then .cycle
  else
    match node with
    | .unread id none => .root (id :: ancestors)
    | .unread id (some parentId) => .reads (id :: ancestors) parentId
    | .cached id parent => walk own (id :: ancestors) parent

/-- `self.assert_acyclic(new_parent)`.  A category that is not stored yet has a pk that no stored
category has; `own` is `none` then. -/
def assertAcyclic (own : Option Id) : Option CategoryInstance → Walk
  | none => .root []
  | some newParent => if own = some newParent.pk then .cycle else walk own [] newParent

/-! ## The statements -/

/-- The query behind `node.parent`. -/
def getCategory (parentId : Id) : Statement Category :=
  Objects.get fun c : Category => decide (c.id = parentId)

/-- The foreign key: a parent must be stored. -/
def requireParent (parentId : Option Id) : Statement Unit := requireStored Category parentId.toList

/-- `category.save()` of a new category. -/
def insertCategory (parentId : Option Id) : Statement Category := do
  requireParent parentId
  Objects.create fun id => { id := id, parentId := parentId }

/-- `category.parent = ...`. -/
def Category.setParentId (parentId : Option Id) : Assignment Category where
  apply c := { c with parentId := parentId }
  pk_apply _ := rfl
  fits_apply _ := rfl
  conflicts_apply _ _ := rfl

/-- `category.save(update_fields=["parent", "updated_at"])`. -/
def saveParent (id : Id) (parentId : Option Id) : Statement Unit := do
  Objects.save id (Category.setParentId parentId)
  requireParent parentId

/-! ## The calls -/

/-- A call, with the instances that it is given. -/
inductive CategoryCall
  | createCategory (parent : Option CategoryInstance)
  | reparentCategory (category : CategoryInstance) (newParent : Option CategoryInstance)

namespace CategoryCall

/-- The pk of the category that is re-parented. -/
def own : CategoryCall → Option Id
  | createCategory _ => none
  | reparentCategory category _ => some category.pk

def newParent : CategoryCall → Option CategoryInstance
  | createCategory parent => parent
  | reparentCategory _ newParent => newParent

/-- `parent_id` after the assignment. -/
def parentId (call : CategoryCall) : Option Id := call.newParent.map CategoryInstance.pk

end CategoryCall

/-- Where a call stands. -/
inductive CategoryPc
  | reading (call : CategoryCall) (ancestors : List Id) (parentId : Id)
  | saving (call : CategoryCall) (ancestors : List Id)
  | returned (category : CategoryInstance)
  | raised (e : Raised ApiError)

/-- What a call does after a part of the walk. -/
def CategoryCall.after (call : CategoryCall) : Walk → CategoryPc
  | .root ancestors => .saving call ancestors
  | .cycle => .raised (.app .categoryCycle)
  | .reads ancestors parentId => .reading call ancestors parentId

/-- Up to the first statement. -/
def CategoryCall.start (call : CategoryCall) : CategoryPc :=
  call.after (assertAcyclic call.own call.newParent)

/-- The statement that a call executes. -/
def CategoryPc.next : CategoryPc → World → Option (CategoryPc × World)
  | reading call ancestors parentId, w =>
    Control.advance (getCategory parentId)
      (fun parent => call.after (walk call.own ancestors parent.instance)) raised w
  | saving (.createCategory parent) ancestors, w =>
    Control.advance (insertCategory (parent.map CategoryInstance.pk))
      (fun category => returned (.ofAncestors category.id ancestors)) raised w
  | saving (.reparentCategory category newParent) ancestors, w =>
    Control.advance (saveParent category.pk (newParent.map CategoryInstance.pk))
      (fun _ => returned (.ofAncestors category.pk ancestors)) raised w
  | returned _, _ => none
  | raised _, _ => none

/-- Calls that share the categories, with anything else in between that leaves them alone. -/
def categorySystem : System CategoryPc World where
  next := CategoryPc.next
  env := Same fun w => w.db.categories

/-- No call has executed a statement yet. -/
def categoryPool {ι : Type} (w : World) (calls : ι → CategoryCall) : Pool ι CategoryPc World where
  store := w
  pc i := (calls i).start

end BePyEco
