import BePyEco.Library.RowLocks
import BePyEco.Media.VettedUploads

/-!
# Deliveries and row locks

`request_upload`, deliveries of `validate_upload` and `attach_media_to_product`, interleaved by
statements.  A delivery locks the row of its upload with its first statement and holds it until its
transaction ends, so another delivery, or the save of an attachment, waits.  What the transaction
writes becomes visible when it commits; it may fail at any statement and is rolled back then.
-/

namespace BePyEco

open Library

/-- The world and the uploads whose rows are locked. -/
structure UploadStore where
  world : World
  locked : List Id := []

/-- Where a call stands.  An attachment keeps the instance that it has loaded. -/
inductive UploadPc
  | draw (contentType : String) (sizeBytes : ℕ)
  | create (storageKey : StorageKey) (contentType : String) (sizeBytes : ℕ)
  | deliver (services : ObjectServices) (mediaUploadId : Id) (fails : Bool)
  | holding (services : ObjectServices) (mediaUpload : MediaUpload) (fails : Bool)
  | load (mediaUploadId : Id) (product : Product)
  | attach (mediaUpload : MediaUpload) (product : Product)
  | finished
  | failed (e : Raised ApiError)

namespace UploadStore

/-- The row is locked. -/
def lock (s : UploadStore) (id : Id) : UploadStore := { s with locked := id :: s.locked }

/-- The row is free again. -/
def release (s : UploadStore) (id : Id) : UploadStore :=
  { s with locked := s.locked.filter fun other => !decide (other = id) }

@[simp] lemma world_lock (s : UploadStore) (id : Id) : (s.lock id).world = s.world := rfl

@[simp] lemma world_release (s : UploadStore) (id : Id) : (s.release id).world = s.world := rfl

@[simp] lemma mem_locked_lock {s : UploadStore} {id other : Id} :
    other ∈ (s.lock id).locked ↔ other = id ∨ other ∈ s.locked := List.mem_cons

@[simp] lemma mem_locked_release {s : UploadStore} {id other : Id} :
    other ∈ (s.release id).locked ↔ other ∈ s.locked ∧ other ≠ id := by
  simp [release]

/-- Execute a statement, and go on with what it returns. -/
def after {α : Type} (x : Statement α) (onOk : α → UploadPc) (s : UploadStore) :
    UploadPc × UploadStore :=
  match x.run s.world with
  | .ok (a, w) => (onOk a, { s with world := w })
  | .error e => (.failed e, s)

/-- A statement leaves the locks alone; it returned, or it raised and changed nothing. -/
lemma after_cases {α : Type} (x : Statement α) (onOk : α → UploadPc) (s : UploadStore) :
    (∃ a w, x.run s.world = .ok (a, w) ∧ s.after x onOk = (onOk a, { s with world := w })) ∨
      (∃ e, s.after x onOk = (.failed e, s)) := by
  unfold after
  split
  · rename_i a w hrun
    exact Or.inl ⟨a, w, hrun, rfl⟩
  · rename_i e _
    exact Or.inr ⟨e, rfl⟩

end UploadStore

section Pipeline

variable [ImageLibraries]

/-- `validate_upload` behind its first statement. -/
def judgeUpload (services : ObjectServices) (mediaUpload : MediaUpload) : Statement Unit :=
  if mediaUpload.status = .pending then processUpload services mediaUpload
  else return ()

/-- The task is its first statement and what follows. -/
lemma validateUpload_eq (services : ObjectServices) (mediaUploadId : Id) :
    validateUpload services mediaUploadId =
      (getMediaUpload mediaUploadId >>= fun m => judgeUpload services m) := rfl

namespace UploadPc

/-- Execute the next statement of a call, unless it waits. -/
def next : UploadPc → UploadStore → Option (UploadPc × UploadStore)
  | draw contentType sizeBytes, s =>
    some (s.after drawRandom fun name => create ⟨name⟩ contentType sizeBytes)
  | create storageKey contentType sizeBytes, s =>
    some (s.after (createMediaUpload storageKey contentType sizeBytes) fun _ => finished)
  | deliver services mediaUploadId fails, s =>
    if mediaUploadId ∈ s.locked then none
    else match (getMediaUpload mediaUploadId).run s.world with
      | .ok (m, _) => some (holding services m fails, s.lock mediaUploadId)
      | .error e => some (failed e, s)
  | holding services m fails, s =>
    if fails then some (failed (.db .operationalError), s.release m.id)
    else some ((s.release m.id).after (judgeUpload services m) fun _ => finished)
  | load mediaUploadId product, s =>
    some (s.after (getMediaUpload mediaUploadId) fun m => attach m product)
  | attach m product, s =>
    if m.status = .ready then
      if m.id ∈ s.locked then none
      else some (s.after (saveProduct m.id product.id) fun _ => finished)
    else some (failed (.app .mediaUploadNotReady), s)
  | finished, _ => none
  | failed _, _ => none

/-- The upload whose row the call holds. -/
def held : UploadPc → Option MediaUpload
  | holding _ m _ => some m
  | _ => none

/-- The storage and the scanner that a delivery works with. -/
def services : UploadPc → Option ObjectServices
  | deliver services _ _ => some services
  | holding services _ _ => some services
  | _ => none

/-- The lock of the call. -/
def holds (c : UploadPc) : Option Id := c.held.map MediaUpload.id

end UploadPc

/-- Any number of calls on any uploads.  Whatever else happens leaves the uploads alone. -/
def uploadSystem : System UploadPc UploadStore where
  next := UploadPc.next
  env s s' := s'.world.db.mediaUploads = s.world.db.mediaUploads ∧ s'.locked = s.locked

/-- A pool of such calls. -/
abbrev UploadPool (ι : Type) := Pool ι UploadPc UploadStore

/-! ## What one step does -/

/-- The steps of a call, with what each does to the uploads and the locks. -/
inductive UploadStep : UploadPc → UploadStore → UploadPc → UploadStore → Prop
  | quiet {c c' : UploadPc} {s s' : UploadStore} (hc : c.held = none) (hc' : c'.held = none)
      (hservices : c'.services = none)
      (hattach : ∀ m product, c' = .attach m product → m ∈ s.world.db.mediaUploads.rows)
      (hrows : s'.world.db.mediaUploads = s.world.db.mediaUploads)
      (hlocked : s'.locked = s.locked) : UploadStep c s c' s'
  | create {storageKey : StorageKey} {contentType : String} {sizeBytes : ℕ} {s : UploadStore}
      {m : MediaUpload} {w : World}
      (hrun : (createMediaUpload storageKey contentType sizeBytes).run s.world = .ok (m, w)) :
      UploadStep (.create storageKey contentType sizeBytes) s .finished { s with world := w }
  | lock {services : ObjectServices} {m : MediaUpload} {fails : Bool} {s : UploadStore}
      (hmem : m ∈ s.world.db.mediaUploads.rows) (hfree : m.id ∉ s.locked) :
      UploadStep (.deliver services m.id fails) s (.holding services m fails) (s.lock m.id)
  | rollback {services : ObjectServices} {m : MediaUpload} {fails : Bool} {e : Raised ApiError}
      {s : UploadStore} :
      UploadStep (.holding services m fails) s (.failed e) (s.release m.id)
  | commit {services : ObjectServices} {m : MediaUpload} {s : UploadStore} {w : World}
      (hrun : (judgeUpload services m).run s.world = .ok ((), w)) :
      UploadStep (.holding services m false) s .finished { s.release m.id with world := w }
  | attach {m : MediaUpload} {product : Product} {s : UploadStore} {w : World}
      (hready : m.status = .ready) (hfree : m.id ∉ s.locked)
      (hrun : (saveProduct m.id product.id).run s.world = .ok ((), w)) :
      UploadStep (.attach m product) s .finished { s with world := w }

lemma uploadStep_of_next {c c' : UploadPc} {s s' : UploadStore}
    (h : c.next s = some (c', s')) : UploadStep c s c' s' := by
  have hfailed : ∀ {c : UploadPc} {e : Raised ApiError}, c.held = none →
      UploadStep c s (.failed e) s := fun hc =>
    .quiet hc rfl rfl (fun _ _ h => by cases h) rfl rfl
  cases c with
  | draw contentType sizeBytes =>
      cases h
      exact .quiet rfl rfl rfl (fun _ _ h => by cases h) rfl rfl
  | create storageKey contentType sizeBytes =>
      obtain ⟨m, w, hrun, heq⟩ | ⟨e, heq⟩ := s.after_cases
        (createMediaUpload storageKey contentType sizeBytes) fun _ => UploadPc.finished
      · rw [UploadPc.next, heq] at h
        cases h
        exact .create hrun
      · rw [UploadPc.next, heq] at h
        cases h
        exact hfailed rfl
  | deliver services mediaUploadId fails =>
      rw [UploadPc.next] at h
      split at h
      · cases h
      · rename_i hfree
        split at h
        · rename_i m w hrun
          obtain ⟨-, hmem, rfl⟩ := getMediaUpload_ok hrun
          cases h
          exact .lock hmem hfree
        · cases h
          exact hfailed rfl
  | holding services m fails =>
      rw [UploadPc.next] at h
      split at h
      · cases h
        exact .rollback
      · rename_i hfails
        rw [Bool.not_eq_true] at hfails
        rw [hfails]
        obtain ⟨u, w, hrun, heq⟩ | ⟨e, heq⟩ := (s.release m.id).after_cases
          (judgeUpload services m) fun _ => UploadPc.finished
        · rw [heq] at h
          cases h
          exact .commit hrun
        · rw [heq] at h
          cases h
          exact .rollback
  | load mediaUploadId product =>
      obtain ⟨m, w, hrun, heq⟩ | ⟨e, heq⟩ := s.after_cases
        (getMediaUpload mediaUploadId) fun m => UploadPc.attach m product
      · rw [UploadPc.next, heq] at h
        cases h
        obtain ⟨hw, hmem, -⟩ := getMediaUpload_ok hrun
        refine .quiet rfl rfl rfl (fun m' product' h => ?_) ?_ rfl
        · cases h
          exact hmem
        · rw [hw]
      · rw [UploadPc.next, heq] at h
        cases h
        exact hfailed rfl
  | attach m product =>
      rw [UploadPc.next] at h
      split at h
      · rename_i hready
        split at h
        · cases h
        · rename_i hfree
          obtain ⟨u, w, hrun, heq⟩ | ⟨e, heq⟩ := s.after_cases
            (saveProduct m.id product.id) fun _ => UploadPc.finished
          · rw [heq] at h
            cases h
            exact .attach hready hfree hrun
          · rw [heq] at h
            cases h
            exact hfailed rfl
      · cases h
        exact hfailed rfl
  | finished => cases h
  | failed e => cases h

/-- The calls follow the discipline of the row locks. -/
lemma uploadSystem_locking :
    Locking uploadSystem UploadPc.holds fun s id => id ∈ s.locked where
  step h := by
    cases uploadStep_of_next h with
    | quiet hc hc' _ _ _ hlocked =>
        refine Or.inl ⟨?_, fun k => ?_⟩
        · rw [UploadPc.holds, UploadPc.holds, hc, hc']
        · rw [hlocked]
    | create => exact Or.inl ⟨rfl, fun _ => Iff.rfl⟩
    | lock _ hfree => exact Or.inr (Or.inl ⟨_, rfl, rfl, hfree, fun _ => by simp⟩)
    | rollback => exact Or.inr (Or.inr ⟨_, rfl, rfl, fun _ => by simp⟩)
    | commit => exact Or.inr (Or.inr ⟨_, rfl, rfl, fun _ => UploadStore.mem_locked_release⟩)
    | attach => exact Or.inl ⟨rfl, fun _ => Iff.rfl⟩
  env h k := by rw [h.2]

end Pipeline

end BePyEco
