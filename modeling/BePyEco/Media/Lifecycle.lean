import BePyEco.Library.Copies
import BePyEco.Media.Deliveries

/-!
# The life of an upload

In every interleaving an upload gets at most one verdict, and the derivative keys, the reason and
the product are stored when the verdict says so (`Lifecycle`).

Every step changes the uploads as one of the services does in one statement (`UploadMove`): a
delivery holds the row that it has read, so what it commits is what it would have done at once.
-/

namespace BePyEco

open Library

/-- What is stored of an upload in each state. -/
structure Lifecycle (m : MediaUpload) : Prop where
  webpKey : m.webpKey ≠ "" ↔ m.status = .ready
  avifKey : m.avifKey ≠ "" ↔ m.status = .ready
  thumbnailKey : m.thumbnailKey ≠ "" ↔ m.status = .ready
  rejectionReason : m.rejectionReason ≠ "" ↔ m.status = .rejected
  product : m.productId ≠ none → m.status = .ready

/-- What an upload may become: a verdict and what came with it stay. -/
structure MediaUpload.Later (m m' : MediaUpload) : Prop where
  id_eq : m'.id = m.id
  status_eq : m.status ≠ .pending → m'.status = m.status
  keys_eq : m.status ≠ .pending → m'.webpKey = m.webpKey ∧ m'.avifKey = m.avifKey ∧
    m'.thumbnailKey = m.thumbnailKey
  reason_eq : m.status ≠ .pending → m'.rejectionReason = m.rejectionReason

lemma MediaUpload.Later.trans {a b c : MediaUpload} (hab : a.Later b) (hbc : b.Later c) :
    a.Later c := by
  have hb : a.status ≠ .pending → b.status ≠ .pending := fun ha => by rwa [hab.status_eq ha]
  refine ⟨hbc.id_eq.trans hab.id_eq, fun ha => ?_, fun ha => ?_, fun ha => ?_⟩
  · exact (hbc.status_eq (hb ha)).trans (hab.status_eq ha)
  · obtain ⟨hwebp, havif, hthumbnail⟩ := hab.keys_eq ha
    obtain ⟨hwebp', havif', hthumbnail'⟩ := hbc.keys_eq (hb ha)
    exact ⟨hwebp'.trans hwebp, havif'.trans havif, hthumbnail'.trans hthumbnail⟩
  · exact (hbc.reason_eq (hb ha)).trans (hab.reason_eq ha)

instance : Evolving MediaUpload where
  Later := MediaUpload.Later
  refl _ := ⟨rfl, fun _ => rfl, fun _ => ⟨rfl, rfl, rfl⟩, fun _ => rfl⟩
  trans := MediaUpload.Later.trans
  pk_eq := MediaUpload.Later.id_eq

/-- `save` of the object storage returns the name under which it has stored the content, which is
not empty. -/
def StoresUnderKeys (services : ObjectServices) : Prop :=
  ∀ name content key, services.saveObject name content = .ok key → key ≠ ""

/-- Every stored upload is as its status says. -/
def UploadsAlive (w : World) : Prop := ∀ m ∈ w.db.mediaUploads.rows, Lifecycle m

/-! ## One row -/

section Rows

variable {m : MediaUpload}

lemma Lifecycle.reject {reason : String} (h : Lifecycle m) (hpending : m.status = .pending)
    (hreason : reason ≠ "") : Lifecycle (m.reject reason) := by
  have hne : m.status ≠ .ready := by
    rw [hpending]
    decide
  refine ⟨?_, ?_, ?_, iff_of_true hreason rfl, fun hproduct => absurd (h.product hproduct) hne⟩
  · exact iff_of_false (fun hkey => hne (h.webpKey.1 hkey)) (by simp [MediaUpload.reject])
  · exact iff_of_false (fun hkey => hne (h.avifKey.1 hkey)) (by simp [MediaUpload.reject])
  · exact iff_of_false (fun hkey => hne (h.thumbnailKey.1 hkey)) (by simp [MediaUpload.reject])

lemma Lifecycle.makeReady {webpKey avifKey thumbnailKey : String} (h : Lifecycle m)
    (hpending : m.status = .pending) (hwebp : webpKey ≠ "") (havif : avifKey ≠ "")
    (hthumbnail : thumbnailKey ≠ "") : Lifecycle (m.makeReady webpKey avifKey thumbnailKey) := by
  have hne : m.status ≠ .rejected := by
    rw [hpending]
    decide
  refine ⟨iff_of_true hwebp rfl, iff_of_true havif rfl, iff_of_true hthumbnail rfl, ?_,
    fun _ => rfl⟩
  exact iff_of_false (fun hreason => hne (h.rejectionReason.1 hreason))
    (by simp [MediaUpload.makeReady])

lemma Lifecycle.setProduct {productId : Id} (h : Lifecycle m) (hready : m.status = .ready) :
    Lifecycle ((MediaUpload.setProduct productId).apply m) :=
  ⟨h.webpKey, h.avifKey, h.thumbnailKey, h.rejectionReason, fun _ => hready⟩

/-- A pending upload may become anything. -/
lemma MediaUpload.later_of_pending {m' : MediaUpload} (hpending : m.status = .pending)
    (hid : m'.id = m.id) : m.Later m' :=
  ⟨hid, fun h => absurd hpending h, fun h => absurd hpending h, fun h => absurd hpending h⟩

end Rows

section Pipeline

variable [ImageLibraries]

/-! ## One move -/

/-- What the services do to the uploads, each in one statement. -/
inductive UploadMove (w w' : World) : Prop
  | quiet (h : w'.db.mediaUploads = w.db.mediaUploads)
  | create {storageKey : StorageKey} {contentType : String} {sizeBytes : ℕ} {m : MediaUpload}
      (hrun : (createMediaUpload storageKey contentType sizeBytes).run w = .ok (m, w'))
  | validate {services : ObjectServices} {mediaUploadId : Id} (hstores : StoresUnderKeys services)
      (hrun : (validateUpload services mediaUploadId).run w = .ok ((), w'))
  | attach {m : MediaUpload} {product : Product} (hready : m.status = .ready)
      (hcopy : w.db.mediaUploads.HasLater m)
      (hrun : (saveProduct m.id product.id).run w = .ok ((), w'))

section Moves

variable {w w' : World}

omit [ImageLibraries] in
lemma createMediaUpload_ok {storageKey : StorageKey} {contentType : String} {sizeBytes : ℕ}
    {m : MediaUpload}
    (h : (createMediaUpload storageKey contentType sizeBytes).run w = .ok (m, w')) :
    Lifecycle m ∧ w'.db.mediaUploads.rows = w.db.mediaUploads.rows ++ [m] := by
  obtain ⟨t, hinsert, rfl⟩ := Objects.create_ok h
  obtain ⟨hm, hrows, -⟩ := Table.insert_spec hinsert
  refine ⟨?_, hrows⟩
  rw [hm]
  constructor <;> simp

/-- A delivery that changes something gives a pending upload its verdict. -/
lemma validateUpload_cases {services : ObjectServices} {mediaUploadId : Id}
    (hstores : StoresUnderKeys services)
    (h : (validateUpload services mediaUploadId).run w = .ok ((), w')) :
    w' = w ∨ ∃ m ∈ w.db.mediaUploads.rows, m.id = mediaUploadId ∧ m.status = .pending ∧
      ∃ m' ∈ w'.db.mediaUploads.rows, m'.id = m.id ∧ (Lifecycle m → Lifecycle m') ∧
        (∀ r ∈ w.db.mediaUploads.rows, r.id ≠ m.id → r ∈ w'.db.mediaUploads.rows) ∧
        ∀ r ∈ w'.db.mediaUploads.rows, r = m' ∨ r ∈ w.db.mediaUploads.rows := by
  obtain ⟨m, hm, hmid, ⟨-, hw'⟩ | ⟨hpending, t, rfl, hverdict⟩⟩ := validateUpload_ok h
  · exact Or.inl hw'
  · have hrewritten : ∀ f hpk,
        w.db.mediaUploads.rewrite (fun r => Model.pk r == m.id) f hpk = .ok t →
          (Lifecycle m → Lifecycle (f m)) →
            ∃ m' ∈ t.rows, m'.id = m.id ∧ (Lifecycle m → Lifecycle m') ∧
              (∀ r ∈ w.db.mediaUploads.rows, r.id ≠ m.id → r ∈ t.rows) ∧
              ∀ r ∈ t.rows, r = m' ∨ r ∈ w.db.mediaUploads.rows := by
      intro f hpk ht hlife
      refine ⟨f m, Table.apply_mem_rewrite_pk ht hm rfl, hpk m, hlife, fun r hr hne => ?_,
        fun r hr => ?_⟩
      · have hne' : Model.pk r ≠ m.id := hne
        refine (Table.mem_rewrite ht).2 ⟨r, hr, ?_⟩
        rw [if_neg (by simpa using hne')]
      · obtain ⟨n, hn, hid, rfl⟩ | ⟨hold, -⟩ := Table.mem_rewrite_pk ht hr
        · rw [w.db.mediaUploads.eq_of_pk hn hm hid]
          exact Or.inl rfl
        · exact Or.inr hold
    refine Or.inr ⟨m, hm, hmid, hpending, ?_⟩
    obtain ⟨reason, hreason, ht⟩ | ⟨data, webpKey, avifKey, thumbnailKey, hpasses, ht⟩ := hverdict
    · exact hrewritten _ _ ht fun hlife => hlife.reject hpending hreason
    · obtain ⟨derivatives, -, hwebp, havif, hthumbnail⟩ := hpasses.derived
      exact hrewritten _ _ ht fun hlife => hlife.makeReady hpending (hstores _ _ _ hwebp)
        (hstores _ _ _ havif) (hstores _ _ _ hthumbnail)

/-- Every move keeps the uploads as their status says. -/
lemma UploadMove.alive (h : UploadMove w w') (hw : UploadsAlive w) : UploadsAlive w' := by
  intro r hr
  cases h with
  | quiet h =>
      rw [h] at hr
      exact hw r hr
  | create hrun =>
      obtain ⟨hlife, hrows⟩ := createMediaUpload_ok hrun
      rw [hrows, List.mem_append, List.mem_singleton] at hr
      obtain hr | rfl := hr
      · exact hw r hr
      · exact hlife
  | validate hstores hrun =>
      obtain rfl | ⟨m, hm, -, -, m', -, -, hlife, -, hothers⟩ := validateUpload_cases hstores hrun
      · exact hw r hr
      · obtain rfl | hold := hothers r hr
        · exact hlife (hw m hm)
        · exact hw r hold
  | @attach m product hready hcopy hrun =>
      rw [Objects.save_ok hrun] at hr
      obtain ⟨n, hn, hid, rfl⟩ | ⟨hold, -⟩ := Table.mem_update_pk _ hr
      · -- the stored upload is the instance or has come from it
        have hlater : MediaUpload.Later m n := hcopy.later_of_pk hn hid
        refine (hw n hn).setProduct ?_
        rw [hlater.status_eq (by rw [hready]; decide), hready]
      · exact hw r hold

/-- Every move keeps the uploads and their verdicts. -/
lemma UploadMove.keeps (h : UploadMove w w') :
    w.db.mediaUploads.Keeps w'.db.mediaUploads := by
  cases h with
  | quiet h =>
      rw [h]
      exact Table.Keeps.refl _
  | create hrun =>
      intro r hr
      refine Table.hasLater_of_mem ?_
      rw [(createMediaUpload_ok hrun).2]
      exact List.mem_append_left _ hr
  | validate hstores hrun =>
      intro r hr
      obtain rfl | ⟨m, hm, -, hpending, m', hm', hid, -, hothers, -⟩ :=
        validateUpload_cases hstores hrun
      · exact Table.hasLater_of_mem hr
      · by_cases hrm : r.id = m.id
        · have heq : r = m := w.db.mediaUploads.eq_of_pk hr hm hrm
          rw [heq]
          exact ⟨m', hm', MediaUpload.later_of_pending hpending hid⟩
        · exact Table.hasLater_of_mem (hothers r hr hrm)
  | attach _ _ hrun =>
      rw [Objects.save_ok hrun]
      exact Table.Keeps.of_update fun r =>
        ⟨rfl, fun _ => rfl, fun _ => ⟨rfl, rfl, rfl⟩, fun _ => rfl⟩

end Moves

/-! ## One step -/

/-- What a call knows about the uploads. -/
structure UploadPc.Knows (c : UploadPc) (w : World) : Prop where
  held : ∀ m, c.held = some m → m ∈ w.db.mediaUploads.rows
  loaded : ∀ m product, c = .attach m product → w.db.mediaUploads.HasLater m
  stores : ∀ services, c.services = some services → StoresUnderKeys services

section Steps

variable {c c' d : UploadPc} {s s' : UploadStore}

lemma validateUpload_run_of_judge {services : ObjectServices} {m : MediaUpload} {w w' : World}
    (hm : m ∈ w.db.mediaUploads.rows) (h : (judgeUpload services m).run w = .ok ((), w')) :
    (validateUpload services m.id).run w = .ok ((), w') := by
  rw [validateUpload_eq, Tx.run_bind, getMediaUpload_run_of_mem hm]
  exact h

/-- A step is what one of the services does: a delivery that commits does what it would have done in
one statement, since it holds the row that it has read. -/
lemma UploadStep.move (h : UploadStep c s c' s') (hc : c.Knows s.world) :
    UploadMove s.world s'.world := by
  cases h with
  | quiet _ _ _ _ hrows _ => exact .quiet hrows
  | create hrun => exact .create hrun
  | lock => exact .quiet rfl
  | rollback => exact .quiet rfl
  | @commit services m _ w hrun =>
      exact .validate (hc.stores services rfl) (validateUpload_run_of_judge (hc.held m rfl) hrun)
  | @attach m product _ w hready _ hrun => exact .attach hready (hc.loaded m product rfl) hrun

/-- What the call knows after its step. -/
lemma UploadStep.knows (h : UploadStep c s c' s') (hc : c.Knows s.world) : c'.Knows s'.world := by
  have hended : ∀ {c : UploadPc} {w : World}, c.held = none → c.services = none →
      (∀ m product, c ≠ .attach m product) → c.Knows w := by
    intro c w hheld hservices hattach
    refine ⟨fun m h => ?_, fun m product h => absurd h (hattach m product), fun _ h => ?_⟩
    · cases hheld.symm.trans h
    · cases hservices.symm.trans h
  cases h with
  | quiet _ hc' hservices hattach hrows _ =>
      refine ⟨fun m h => ?_, fun m product h => ?_, fun _ h => ?_⟩
      · cases hc'.symm.trans h
      · rw [hrows]
        exact Table.hasLater_of_mem (hattach m product h)
      · cases hservices.symm.trans h
  | create => exact hended rfl rfl fun _ _ h => by cases h
  | @lock services m fails _ hmem =>
      refine ⟨fun m' h => ?_, fun m' product h => ?_, fun services' h => hc.stores services' h⟩
      · cases h
        exact hmem
      · cases h
  | rollback => exact hended rfl rfl fun _ _ h => by cases h
  | commit => exact hended rfl rfl fun _ _ h => by cases h
  | attach => exact hended rfl rfl fun _ _ h => by cases h

/-- What another call knows after the step, as long as the two do not hold the same row. -/
lemma UploadStep.knows_other (h : UploadStep c s c' s') (hc : c.Knows s.world)
    (hd : d.Knows s.world)
    (hlocks : ∀ m, d.held = some m → m.id ∈ s.locked ∧ c.holds ≠ some m.id) :
    d.Knows s'.world := by
  refine ⟨fun r hr => ?_, fun m product hm => ?_, hd.stores⟩
  · have hmem := hd.held r hr
    obtain ⟨hlocked, hne⟩ := hlocks r hr
    cases h with
    | quiet _ _ _ _ hrows _ =>
        rw [hrows]
        exact hmem
    | create hrun =>
        dsimp only
        rw [(createMediaUpload_ok hrun).2]
        exact List.mem_append_left _ hmem
    | lock => exact hmem
    | rollback => exact hmem
    | @commit services m _ w hrun =>
        have hvalidate := validateUpload_run_of_judge (hc.held m rfl) hrun
        obtain rfl | ⟨n, -, hnm, -, m', -, -, -, hothers, -⟩ :=
          validateUpload_cases (hc.stores services rfl) hvalidate
        · exact hmem
        · refine hothers r hmem fun hrn => hne ?_
          rw [hrn, hnm]
          rfl
    | @attach m product _ w _ hfree hrun =>
        have hother : r.id ≠ m.id := fun h => hfree (h ▸ hlocked)
        dsimp only
        rw [Objects.save_ok hrun]
        exact Table.mem_update_of_ne _ hmem hother
  · exact (h.move hc).keeps.hasLater (hd.loaded m product hm)

end Steps

/-! ## Runs -/

/-- The start of a run: the stored uploads are as their status says, no delivery holds a row yet,
and every instance that was loaded before is one of a stored upload. -/
structure UploadStart {ι : Type} (P : UploadPool ι) : Prop where
  alive : UploadsAlive P.store.world
  unlocked : ∀ i, (P.pc i).held = none
  loaded : ∀ i m product, P.pc i = .attach m product →
    P.store.world.db.mediaUploads.HasLater m
  stores : ∀ i services, (P.pc i).services = some services → StoresUnderKeys services

omit [ImageLibraries] in
lemma UploadStart.exclusive {ι : Type} {P₀ : UploadPool ι} (h : UploadStart P₀) :
    Exclusive UploadPc.holds (fun (s : UploadStore) id => id ∈ s.locked) P₀ := by
  refine exclusive_of_none fun i => ?_
  rw [UploadPc.holds, h.unlocked i]
  rfl

omit [ImageLibraries] in
lemma UploadStart.knows {ι : Type} {P₀ : UploadPool ι} (h : UploadStart P₀) (i : ι) :
    (P₀.pc i).Knows P₀.store.world := by
  refine ⟨fun m hm => ?_, h.loaded i, h.stores i⟩
  cases (h.unlocked i).symm.trans hm

section Runs

variable {ι : Type} [DecidableEq ι] {P₀ P P₁ P₂ : UploadPool ι} {ok : UploadPool ι → ι → Prop}

/-- A step keeps what all calls know. -/
lemma knows_advance
    (hlocks : Exclusive UploadPc.holds (fun (s : UploadStore) id => id ∈ s.locked) P)
    (hknows : ∀ i, (P.pc i).Knows P.store.world) {i : ι} {c : UploadPc} {s : UploadStore}
    (hstep : UploadStep (P.pc i) P.store c s) (j : ι) :
    ((P.advance i c s).pc j).Knows s.world := by
  obtain ⟨rfl, hpc⟩ | ⟨hne, hpc⟩ := P.pc_advance_cases i j c s
  · rw [hpc]
    exact hstep.knows (hknows j)
  · rw [hpc]
    refine hstep.knows_other (hknows i) (hknows j) fun m hm => ?_
    have hholds : (P.pc j).holds = some m.id := by
      rw [UploadPc.holds, hm]
      rfl
    obtain ⟨hlocked, honly⟩ := hlocks j m.id hholds
    exact ⟨hlocked, fun hi => hne (honly i hi).symm⟩

/-- Along every run the calls know the uploads. -/
lemma knows_of_run (hstart : UploadStart P₀) (hrun : uploadSystem.Run ok P₀ P) :
    ∀ i, (P.pc i).Knows P.store.world := by
  induction hrun with
  | refl => exact hstart.knows
  | @call P i c s hrun _ hnext ih =>
      exact knows_advance (uploadSystem_locking.exclusive_of_run hstart.exclusive hrun) ih
        (uploadStep_of_next hnext)
  | env _ henv ih =>
      intro i
      obtain ⟨hheld, hloaded, hstores⟩ := ih i
      refine ⟨fun m hm => ?_, fun m product hm => ?_, hstores⟩
      · rw [henv.1]
        exact hheld m hm
      · rw [henv.1]
        exact hloaded m product hm

lemma alive_of_run (hstart : UploadStart P₀) (hrun : uploadSystem.Run ok P₀ P) :
    UploadsAlive P.store.world := by
  induction hrun with
  | refl => exact hstart.alive
  | @call P i c s hrun _ hnext ih =>
      exact ((uploadStep_of_next hnext).move (knows_of_run hstart hrun i)).alive ih
  | env _ henv ih =>
      intro m hm
      rw [henv.1] at hm
      exact ih m hm

lemma keeps_of_run (hstart : UploadStart P₀) (h₁ : uploadSystem.Run ok P₀ P₁)
    (h₂ : uploadSystem.Run ok P₁ P₂) :
    P₁.store.world.db.mediaUploads.Keeps P₂.store.world.db.mediaUploads := by
  induction h₂ with
  | refl => exact Table.Keeps.refl _
  | @call P i c s hrun _ hnext ih =>
      exact ih.trans ((uploadStep_of_next hnext).move (knows_of_run hstart (h₁.trans hrun) i)).keeps
  | env _ henv ih =>
      dsimp only
      rw [henv.1]
      exact ih

/-- A verdict stays, and so do the keys that were stored. -/
structure VerdictStays (m m' : MediaUpload) : Prop where
  status : m.status ≠ .pending → m'.status = m.status
  webpKey : m.webpKey ≠ "" → m'.webpKey = m.webpKey
  avifKey : m.avifKey ≠ "" → m'.avifKey = m.avifKey
  thumbnailKey : m.thumbnailKey ≠ "" → m'.thumbnailKey = m.thumbnailKey

omit [ImageLibraries] in
lemma Lifecycle.verdictStays {m m' : MediaUpload} (h : Lifecycle m) (hlater : m.Later m') :
    VerdictStays m m' := by
  have hjudged : m.status = .ready → m.status ≠ .pending := by
    intro hready
    rw [hready]
    decide
  refine ⟨hlater.status_eq, fun hkey => ?_, fun hkey => ?_, fun hkey => ?_⟩
  · exact (hlater.keys_eq (hjudged (h.webpKey.1 hkey))).1
  · exact (hlater.keys_eq (hjudged (h.avifKey.1 hkey))).2.1
  · exact (hlater.keys_eq (hjudged (h.thumbnailKey.1 hkey))).2.2

/-- In every interleaving of requests, deliveries and attachments, whatever fails, every stored
upload is as its status says, and from any state of the run to a later one its verdict and the keys
that were stored stay. -/
theorem lifecycle_of_run (hstart : UploadStart P₀) (h₁ : uploadSystem.Run (fun _ _ => True) P₀ P₁)
    (h₂ : uploadSystem.Run (fun _ _ => True) P₁ P₂) :
    (∀ m ∈ P₁.store.world.db.mediaUploads.rows, Lifecycle m) ∧
      ∀ m ∈ P₁.store.world.db.mediaUploads.rows,
        ∃ m' ∈ P₂.store.world.db.mediaUploads.rows, m'.id = m.id ∧ VerdictStays m m' := by
  have halive : UploadsAlive P₁.store.world := alive_of_run hstart h₁
  refine ⟨halive, fun m hm => ?_⟩
  obtain ⟨m', hm', hlater⟩ := keeps_of_run hstart h₁ h₂ m hm
  have hlater' : m.Later m' := hlater
  exact ⟨m', hm', hlater'.id_eq, (halive m hm).verdictStays hlater'⟩

end Runs

end Pipeline

/-! ### An upload that is delivered three times -/

section Example

attribute [local instance] pngLibraries

/-- A scanner that finds nothing, and a storage that stores under every name but the empty one. -/
def namedStorage : ObjectServices where
  openObject _ := .ok [0, 1, 2]
  saveObject name _ := if name = "" then .error "SuspiciousFileOperation" else .ok name
  instream _ := .ok (.ok, none)

lemma storesUnderKeys_namedStorage : StoresUnderKeys namedStorage := by
  intro name content key h
  change (if name = "" then Except.error "SuspiciousFileOperation" else Except.ok name) =
    .ok key at h
  split at h
  · cases h
  · rename_i hname
    cases h
    exact hname

/-- The product that gets the image. -/
def picturedProduct : Product where
  id := 0
  createdAt := 0
  brandId := none
  primaryCategoryId := 0

/-- The product is stored. -/
def picturedWorld : World :=
  ((Objects.create fun id => { picturedProduct with id := id } : Statement Product).exec {}).2

/-- An upload is requested, delivered three times, once with a failure, and attached. -/
def deliveredThrice : UploadPool (Fin 5) where
  store := { world := picturedWorld }
  pc
    | 0 => .draw "image/png" 3
    | 1 => .deliver namedStorage 0 true
    | 2 => .deliver namedStorage 0 false
    | 3 => .deliver namedStorage 0 false
    | 4 => .load 0 picturedProduct

lemma uploadStart_deliveredThrice : UploadStart deliveredThrice where
  alive m hm := by cases hm
  unlocked
    | 0 => rfl
    | 1 => rfl
    | 2 => rfl
    | 3 => rfl
    | 4 => rfl
  loaded
    | 0, _, _, h => by cases h
    | 1, _, _, h => by cases h
    | 2, _, _, h => by cases h
    | 3, _, _, h => by cases h
    | 4, _, _, h => by cases h
  stores
    | 0, _, h => by cases h
    | 1, _, h => by
      cases h
      exact storesUnderKeys_namedStorage
    | 2, _, h => by
      cases h
      exact storesUnderKeys_namedStorage
    | 3, _, h => by
      cases h
      exact storesUnderKeys_namedStorage
    | 4, _, h => by cases h

/-- After the first verdict. -/
def deliveredOnce : UploadPool (Fin 5) :=
  uploadSystem.replay (fun _ _ => true) deliveredThrice [0, 0, 1, 1, 2, 2] rfl

/-- After the second delivery and the attachment. -/
def deliveredAll : UploadPool (Fin 5) :=
  uploadSystem.replay (fun _ _ => true) deliveredOnce [3, 4, 3, 4] rfl

/-- The upload is ready after its second delivery, and stays so. -/
theorem lifecycle_of_deliveredThrice :
    deliveredOnce.store.world.db.mediaUploads.rows.map MediaUpload.status = [.ready] ∧
    deliveredAll.store.world.db.mediaUploads.rows.map MediaUpload.productId = [some 0] ∧
    (∀ m ∈ deliveredOnce.store.world.db.mediaUploads.rows, Lifecycle m) ∧
      ∀ m ∈ deliveredOnce.store.world.db.mediaUploads.rows,
        ∃ m' ∈ deliveredAll.store.world.db.mediaUploads.rows, m'.id = m.id ∧ VerdictStays m m' :=
  ⟨by decide, by decide, lifecycle_of_run uploadStart_deliveredThrice
    (System.run_replay (fun _ _ _ => trivial) rfl) (System.run_replay (fun _ _ _ => trivial) rfl)⟩

end Example

end BePyEco
