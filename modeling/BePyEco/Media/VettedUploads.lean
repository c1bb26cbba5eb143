import BePyEco.Media.ValidateUpload

/-!
# Only vetted uploads become ready

What `validate_upload` does to the row of an upload (`validateUpload_ok`), and when an object that
the scanner could not scan becomes ready (`onlyVetted_iff`).
-/

namespace BePyEco

open Library

section Pipeline

variable [ImageLibraries]

/-! ## What the pipeline checks -/

/-- The bytes are what was declared, and a valid image. -/
structure Genuine (m : MediaUpload) (data : Bytes) : Prop where
  size : data.length = m.declaredSizeBytes
  accepted : m.declaredContentType ∈ acceptedMimeTypes
  detected : ImageLibraries.guess data = some m.declaredContentType
  verified : openAndVerify data = .ok ()

lemma validateBytes_of_genuine {m : MediaUpload} {data : Bytes} (h : Genuine m data) :
    validateBytes data m.declaredSizeBytes m.declaredContentType = .ok { isValid := true } := by
  unfold validateBytes
  rw [if_neg (not_not_intro h.size), if_neg (not_not_intro h.accepted),
    if_neg (not_not_intro h.detected), h.verified]

lemma genuine_of_isValid {m : MediaUpload} {data : Bytes} {result : ValidationResult}
    (h : validateBytes data m.declaredSizeBytes m.declaredContentType = .ok result)
    (hvalid : result.isValid = true) : Genuine m data := by
  unfold validateBytes at h
  split at h
  · cases h
    cases hvalid
  · rename_i hsize
    split at h
    · cases h
      cases hvalid
    · rename_i haccepted
      split at h
      · cases h
        cases hvalid
      · rename_i hdetected
        split at h
        · rename_i hverified
          exact ⟨not_not.1 hsize, not_not.1 haccepted, not_not.1 hdetected, hverified⟩
        · cases h
        · cases h
          cases hvalid

/-! ## Reasons -/

omit [ImageLibraries] in
lemma length_unsupported (declared : String) :
    s!"unsupported declared content type: {declared}".length = declared.length + 35 := by
  have hhead : "unsupported declared content type: ".length = 35 := rfl
  simp only [toString, String.length_append]
  omega

omit [ImageLibraries] in
lemma length_magic (actual : String) :
    s!"magic bytes ({actual}) do not match declared type".length = actual.length + 41 := by
  have hhead : "magic bytes (".length = 13 := rfl
  have htail : ") do not match declared type".length = 28 := rfl
  simp only [toString, String.length_append]
  omega

omit [ImageLibraries] in
lemma length_infected (signature : String) :
    s!"file is infected: {signature}".length = signature.length + 18 := by
  have hhead : "file is infected: ".length = 18 := rfl
  simp only [toString, String.length_append]
  omega

omit [ImageLibraries] in
lemma ne_empty_of_length {s : String} (h : 0 < s.length) : s ≠ "" := by
  intro hempty
  rw [hempty] at h
  cases h

/-- A rejection says why. -/
lemma reason_ne_empty {m : MediaUpload} {data : Bytes} {result : ValidationResult}
    (h : validateBytes data m.declaredSizeBytes m.declaredContentType = .ok result)
    (hvalid : result.isValid = false) : result.reason ≠ "" := by
  unfold validateBytes at h
  split at h
  · cases h
    decide
  · split at h
    · cases h
      refine ne_empty_of_length ?_
      rw [length_unsupported]
      omega
    · split at h
      · cases h
        refine ne_empty_of_length ?_
        rw [length_magic]
        omega
      · split at h
        · cases h
          cases hvalid
        · cases h
        · cases h
          decide

/-! ## What passes -/

omit [ImageLibraries] in
/-- The adapter lets a scan pass that did not flag the bytes, whether it was complete or not. -/
lemma scanBytes_eq_ok_iff {services : ObjectServices} {data : Bytes} :
    scanBytes services data = .ok () ↔ ∃ status signature,
      services.instream data = .ok (status, signature) ∧ status ≠ .found := by
  unfold scanBytes
  cases services.instream data with
  | error name => simp
  | ok answer =>
      obtain ⟨status, signature⟩ := answer
      by_cases hfound : status = .found <;> simp [hfound]

/-- The object goes through the whole pipeline, and its derivatives are stored under the keys. -/
structure Passes (services : ObjectServices) (m : MediaUpload) (data : Bytes)
    (webpKey avifKey thumbnailKey : String) : Prop where
  opened : services.openObject m.storageKey = .ok data
  genuine : Genuine m data
  scanned : scanBytes services data = .ok ()
  derived : ∃ derivatives, generateDerivatives data = .ok derivatives ∧
    services.saveObject s!"{readyBase m}.webp" derivatives.webp = .ok webpKey ∧
    services.saveObject s!"{readyBase m}.avif" derivatives.avif = .ok avifKey ∧
    services.saveObject s!"{readyBase m}-thumb.webp" derivatives.thumbnailWebp = .ok thumbnailKey

/-! ## What the task does -/

section Task

variable {services : ObjectServices} {w w' : World}

lemma deriveUpload_ok {m : MediaUpload} {data : Bytes}
    (h : (deriveUpload services m data).run w = .ok ((), w')) :
    ∃ derivatives webpKey avifKey thumbnailKey, generateDerivatives data = .ok derivatives ∧
      services.saveObject s!"{readyBase m}.webp" derivatives.webp = .ok webpKey ∧
      services.saveObject s!"{readyBase m}.avif" derivatives.avif = .ok avifKey ∧
      services.saveObject s!"{readyBase m}-thumb.webp" derivatives.thumbnailWebp =
        .ok thumbnailKey ∧
      ∃ t, w.db.mediaUploads.rewrite (fun r => Model.pk r == m.id)
        (MediaUpload.makeReady webpKey avifKey thumbnailKey) (fun _ => rfl) = .ok t ∧
          w' = Stored.put t w := by
  obtain ⟨derivatives, w₁, hderivatives, h₁⟩ := Tx.bind_ok h
  obtain ⟨hw₁, hderived⟩ := Tx.ofExcept_mapError_ok hderivatives
  obtain ⟨webpKey, w₂, hwebp, h₂⟩ := Tx.bind_ok h₁
  obtain ⟨hw₂, hwebpKey⟩ := Tx.ofExcept_mapError_ok hwebp
  obtain ⟨avifKey, w₃, havif, h₃⟩ := Tx.bind_ok h₂
  obtain ⟨hw₃, havifKey⟩ := Tx.ofExcept_mapError_ok havif
  obtain ⟨thumbnailKey, w₄, hthumbnail, h₄⟩ := Tx.bind_ok h₃
  obtain ⟨hw₄, hthumbnailKey⟩ := Tx.ofExcept_mapError_ok hthumbnail
  rw [hw₄, hw₃, hw₂, hw₁] at h₄
  exact ⟨derivatives, webpKey, avifKey, thumbnailKey, hderived, hwebpKey, havifKey,
    hthumbnailKey, Objects.saveChecked_ok h₄⟩

/-- A pending upload ends rejected, or passes the pipeline and ends ready. -/
lemma processUpload_ok {m : MediaUpload} (h : (processUpload services m).run w = .ok ((), w')) :
    ∃ t, w' = Stored.put t w ∧
      ((∃ reason, reason ≠ "" ∧ w.db.mediaUploads.rewrite (fun r => Model.pk r == m.id)
          (MediaUpload.reject reason) (fun _ => rfl) = .ok t) ∨
        ∃ data webpKey avifKey thumbnailKey,
          Passes services m data webpKey avifKey thumbnailKey ∧
          w.db.mediaUploads.rewrite (fun r => Model.pk r == m.id)
            (MediaUpload.makeReady webpKey avifKey thumbnailKey) (fun _ => rfl) = .ok t) := by
  obtain ⟨data, w₁, hdata, h₁⟩ := Tx.bind_ok h
  obtain ⟨hw₁, hopened⟩ := Tx.ofExcept_mapError_ok hdata
  obtain ⟨result, w₂, hresult, h₂⟩ := Tx.bind_ok h₁
  obtain ⟨hw₂, hvalidated⟩ := Tx.ofExcept_mapError_ok hresult
  rw [hw₂, hw₁] at h₂
  have hreject : ∀ reason, (rejectUpload m reason).run w = .ok ((), w') → ∃ t,
      w' = Stored.put t w ∧ w.db.mediaUploads.rewrite (fun r => Model.pk r == m.id)
        (MediaUpload.reject reason) (fun _ => rfl) = .ok t := by
    intro reason hrun
    obtain ⟨t, ht, hw'⟩ := Objects.saveChecked_ok hrun
    exact ⟨t, hw', ht⟩
  split at h₂
  · rename_i hvalid
    unfold scanUpload at h₂
    split at h₂
    · rename_i hscanned
      obtain ⟨derivatives, webpKey, avifKey, thumbnailKey, hderived, hwebp, havif, hthumbnail,
        t, ht, hw'⟩ := deriveUpload_ok h₂
      refine ⟨t, hw', Or.inr ⟨data, webpKey, avifKey, thumbnailKey, ?_, ht⟩⟩
      exact ⟨hopened, genuine_of_isValid hvalidated hvalid, hscanned,
        derivatives, hderived, hwebp, havif, hthumbnail⟩
    · rename_i signature _
      obtain ⟨t, hw', ht⟩ := hreject _ h₂
      have hreason : s!"file is infected: {signature}" ≠ "" := by
        refine ne_empty_of_length ?_
        rw [length_infected]
        omega
      exact ⟨t, hw', Or.inl ⟨_, hreason, ht⟩⟩
    · cases h₂
  · rename_i hinvalid
    obtain ⟨t, hw', ht⟩ := hreject _ h₂
    have hreason := reason_ne_empty hvalidated (eq_false_of_ne_true hinvalid)
    exact ⟨t, hw', Or.inl ⟨_, hreason, ht⟩⟩

omit [ImageLibraries] in
lemma getMediaUpload_ok {mediaUploadId : Id} {m : MediaUpload}
    (h : (getMediaUpload mediaUploadId).run w = .ok (m, w')) :
    w' = w ∧ m ∈ w.db.mediaUploads.rows ∧ m.id = mediaUploadId := by
  obtain ⟨hw', hrow⟩ := Objects.get_ok h
  exact ⟨hw', Table.mem_of_get hrow, by simpa using Table.holds_of_get hrow⟩

/-- What a delivery that returns did to the row. -/
theorem validateUpload_ok {mediaUploadId : Id}
    (h : (validateUpload services mediaUploadId).run w = .ok ((), w')) :
    ∃ m ∈ w.db.mediaUploads.rows, m.id = mediaUploadId ∧
      ((m.status ≠ .pending ∧ w' = w) ∨
        (m.status = .pending ∧ ∃ t, w' = Stored.put t w ∧
          ((∃ reason, reason ≠ "" ∧ w.db.mediaUploads.rewrite (fun r => Model.pk r == m.id)
              (MediaUpload.reject reason) (fun _ => rfl) = .ok t) ∨
            ∃ data webpKey avifKey thumbnailKey,
              Passes services m data webpKey avifKey thumbnailKey ∧
              w.db.mediaUploads.rewrite (fun r => Model.pk r == m.id)
                (MediaUpload.makeReady webpKey avifKey thumbnailKey) (fun _ => rfl) = .ok t))) := by
  obtain ⟨m, w₁, hget, hrest⟩ := Tx.bind_ok h
  obtain ⟨hw₁, hmem, hid⟩ := getMediaUpload_ok hget
  rw [hw₁] at hrest
  refine ⟨m, hmem, hid, ?_⟩
  split at hrest
  · rename_i hpending
    exact Or.inr ⟨hpending, processUpload_ok hrest⟩
  · rename_i hprocessed
    cases hrest
    exact Or.inl ⟨hprocessed, rfl⟩

omit [ImageLibraries] in
lemma getMediaUpload_run_of_mem {m : MediaUpload} (hm : m ∈ w.db.mediaUploads.rows) :
    (getMediaUpload m.id).run w = .ok (m, w) := by
  refine Objects.run_get_of_ok (Table.get_of_unique hm (decide_eq_true rfl) fun r hr hid => ?_)
  exact w.db.mediaUploads.eq_of_pk hr hm (of_decide_eq_true hid)

omit [ImageLibraries] in
/-- A save that keeps the storage key and fits its columns succeeds. -/
lemma saveUpload_run_of_fits {m : MediaUpload} {f : MediaUpload → MediaUpload}
    {hpk : ∀ r, Model.pk (f r) = Model.pk r} (hm : m ∈ w.db.mediaUploads.rows)
    (hkey : (f m).storageKey = m.storageKey) (hfits : Model.fits (f m) = true) :
    ∃ t : Table MediaUpload, (Objects.saveChecked m.id f hpk : Statement Unit).run w =
        .ok ((), Stored.put t w) ∧ f m ∈ t.rows := by
  have hfree : ∀ r ∈ w.db.mediaUploads.rows, Model.pk r ≠ Model.pk m →
      Model.conflicts r (f m) = false := by
    intro r hr hne
    by_contra hconflict
    rw [Bool.not_eq_false] at hconflict
    have hkeys : r.storageKey = m.storageKey := (of_decide_eq_true hconflict).trans hkey
    exact hne (congrArg Model.pk (w.db.mediaUploads.eq_of_conflicts hr hm (decide_eq_true hkeys)))
  obtain ⟨t, hrewrite, hsave⟩ :=
    @Objects.run_saveChecked_of_mem World ApiError MediaUpload _ _ f hpk w m hm hfits hfree
  exact ⟨t, hsave, Table.apply_mem_rewrite_pk hrewrite hm rfl⟩

/-- A pending upload that passes the pipeline becomes ready. -/
lemma validateUpload_run_of_passes {m : MediaUpload} {data : Bytes}
    {webpKey avifKey thumbnailKey : String} (hm : m ∈ w.db.mediaUploads.rows)
    (hpending : m.status = .pending)
    (h : Passes services m data webpKey avifKey thumbnailKey) (hwebp : webpKey.length ≤ 255)
    (havif : avifKey.length ≤ 255) (hthumbnail : thumbnailKey.length ≤ 255) :
    ∃ t : Table MediaUpload, (validateUpload services m.id).run w = .ok ((), Stored.put t w) ∧
      m.makeReady webpKey avifKey thumbnailKey ∈ t.rows := by
  have hfits : Model.fits (m.makeReady webpKey avifKey thumbnailKey) = true := by
    have hold := w.db.mediaUploads.all_fit m hm
    simp only [Model.fits, Bool.and_eq_true, decide_eq_true_eq] at hold ⊢
    exact ⟨⟨⟨hold.1.1.1, hwebp⟩, havif⟩, hthumbnail⟩
  obtain ⟨t, hsave, hready⟩ := @saveUpload_run_of_fits w m
    (MediaUpload.makeReady webpKey avifKey thumbnailKey) (fun _ => rfl) hm rfl hfits
  obtain ⟨derivatives, hderived, hwebpKey, havifKey, hthumbnailKey⟩ := h.derived
  have hderive : (deriveUpload services m data).run w = .ok ((), Stored.put t w) := by
    unfold deriveUpload saveObject
    simp only [Tx.run_bind, hderived, hwebpKey, havifKey, hthumbnailKey, Except.mapError,
      Tx.run_ofExcept_ok]
    exact hsave
  refine ⟨t, ?_, hready⟩
  unfold validateUpload processUpload scanUpload
  simp only [Tx.run_bind, getMediaUpload_run_of_mem hm, hpending, if_true, h.opened, h.scanned,
    validateBytes_of_genuine h.genuine, Except.mapError, Tx.run_ofExcept_ok, hderive]

end Task

/-! ## Only vetted uploads -/

/-- The stored object is genuine, and a complete scan found nothing in it. -/
def Vetted (services : ObjectServices) (m : MediaUpload) : Prop :=
  ∃ data, services.openObject m.storageKey = .ok data ∧ Genuine m data ∧
    ∃ signature, services.instream data = .ok (.ok, signature)

/-- If a delivery moves the upload to ready, the upload is vetted. -/
def OnlyVetted (services : ObjectServices) (w : World) (mediaUploadId : Id) : Prop :=
  ∀ m ∈ w.db.mediaUploads.rows, m.id = mediaUploadId → m.status ≠ .ready →
    ∀ m' ∈ ((validateUpload services mediaUploadId).exec w).2.db.mediaUploads.rows,
      m'.id = mediaUploadId → m'.status = .ready → Vetted services m

/-- The upload is pending, its object is genuine, the scan fails, and the derivatives are made and
stored under keys that fit their columns. -/
def ScanFailsOpen (services : ObjectServices) (w : World) (mediaUploadId : Id) : Prop :=
  ∃ m ∈ w.db.mediaUploads.rows, m.id = mediaUploadId ∧ m.status = .pending ∧
    ∃ data webpKey avifKey thumbnailKey, Passes services m data webpKey avifKey thumbnailKey ∧
      webpKey.length ≤ 255 ∧ avifKey.length ≤ 255 ∧ thumbnailKey.length ≤ 255 ∧
      ∃ signature, services.instream data = .ok (.error, signature)

variable {services : ObjectServices} {w : World} {mediaUploadId : Id}

/-- A failed scan makes the object ready. -/
lemma ScanFailsOpen.unvetted (h : ScanFailsOpen services w mediaUploadId) :
    ¬ OnlyVetted services w mediaUploadId := by
  intro hvetted
  obtain ⟨m, hm, rfl, hpending, data, webpKey, avifKey, thumbnailKey, hpasses, hwebp, havif,
    hthumbnail, signature, hscan⟩ := h
  obtain ⟨t, hrun, hready⟩ :=
    validateUpload_run_of_passes hm hpending hpasses hwebp havif hthumbnail
  have hne : m.status ≠ .ready := by
    rw [hpending]
    exact nofun
  have hafter := hvetted m hm rfl hne (m.makeReady webpKey avifKey thumbnailKey)
  rw [Tx.exec_ok hrun] at hafter
  obtain ⟨data', hopened, -, signature', hclean⟩ := hafter hready rfl rfl
  have hdata : data' = data := Except.ok.inj (hopened.symm.trans hpasses.opened)
  rw [hdata] at hclean
  cases hclean.symm.trans hscan

/-- Where no scan fails, an object that becomes ready is vetted. -/
lemma onlyVetted_of_scanned (hscanned : ¬ ScanFailsOpen services w mediaUploadId) :
    OnlyVetted services w mediaUploadId := by
  intro m hm hid hne m' hm' hid' hready
  cases hrun : (validateUpload services mediaUploadId).run w with
  | error raised =>
      rw [Tx.exec_error hrun] at hm'
      have hsame : m' = m := w.db.mediaUploads.eq_of_pk hm' hm (hid'.trans hid.symm)
      rw [hsame] at hready
      exact absurd hready hne
  | ok r =>
      obtain ⟨u, w'⟩ := r
      rw [Tx.exec_ok hrun] at hm'
      obtain ⟨n, hn, hnid, hcases⟩ := validateUpload_ok hrun
      have hnm : n = m := w.db.mediaUploads.eq_of_pk hn hm (hnid.trans hid.symm)
      rw [hnm] at hcases
      obtain ⟨-, rfl⟩ | ⟨hpending, t, rfl, hrewritten⟩ := hcases
      · have hsame : m' = m := w'.db.mediaUploads.eq_of_pk hm' hm (hid'.trans hid.symm)
        rw [hsame] at hready
        exact absurd hready hne
      · change m' ∈ t.rows at hm'
        obtain ⟨reason, -, hreject⟩ | ⟨data, webpKey, avifKey, thumbnailKey, hpasses, hmade⟩ :=
          hrewritten
        · obtain ⟨s, -, -, rfl⟩ | ⟨-, hother⟩ := Table.mem_rewrite_pk hreject hm'
          · cases hready
          · exact absurd (hid'.trans hid.symm) hother
        · obtain ⟨s, -, -, rfl⟩ | ⟨-, hother⟩ := Table.mem_rewrite_pk hmade hm'
          · have hfits := t.all_fit _ hm'
            simp only [Model.fits, Bool.and_eq_true, decide_eq_true_eq] at hfits
            obtain ⟨status, signature, hanswer, hfound⟩ := scanBytes_eq_ok_iff.1 hpasses.scanned
            cases status with
            | ok => exact ⟨data, hpasses.opened, hpasses.genuine, signature, hanswer⟩
            | found => exact absurd rfl hfound
            | error =>
                exact absurd ⟨m, hm, hid, hpending, data, webpKey, avifKey, thumbnailKey,
                  hpasses, hfits.1.1.2, hfits.1.2, hfits.2, signature, hanswer⟩ hscanned
          · exact absurd (hid'.trans hid.symm) hother

/-- A delivery moves an unvetted upload to ready exactly when its scan fails. -/
theorem onlyVetted_iff :
    OnlyVetted services w mediaUploadId ↔ ¬ ScanFailsOpen services w mediaUploadId := by
  constructor
  · intro hvetted hopen
    exact hopen.unvetted hvetted
  · exact onlyVetted_of_scanned

end Pipeline

/-! ### A scan that fails -/

/-- Libraries that take every object for a PNG image. -/
@[reducible] def pngLibraries : ImageLibraries where
  Image := Unit
  guess _ := some "image/png"
  openImage _ := .ok ()
  verify _ := .ok ()
  convert _ _ := .ok ()
  save _ _ := .ok []
  thumbnail _ _ := .ok ()

section Example

attribute [local instance] pngLibraries

/-- A scanner that answers `ERROR`, and a storage of three bytes under every key. -/
def failingScanner : ObjectServices where
  openObject _ := .ok [0, 1, 2]
  saveObject name _ := .ok name
  instream _ := .ok (.error, none)

/-- One pending upload of three bytes. -/
def pendingWorld : World :=
  ((createMediaUpload ⟨0⟩ "image/png" 3).exec {}).2

/-- An object that was not scanned becomes ready. -/
theorem not_onlyVetted :
    ¬ ∀ (libraries : ImageLibraries) (services : ObjectServices) (w : World) (id : Id),
      @OnlyVetted libraries services w id := by
  intro hclaim
  let m : MediaUpload := {
    id := 0
    storageKey := ⟨0⟩
    declaredContentType := "image/png"
    declaredSizeBytes := 3 }
  have hm : m ∈ pendingWorld.db.mediaUploads.rows := by decide
  have hpasses : Passes failingScanner m [0, 1, 2] "products/0.webp"
      "products/0.avif" "products/0-thumb.webp" := by
    refine ⟨rfl, ⟨rfl, by decide, rfl, rfl⟩, rfl, ⟨[], [], []⟩, rfl, ?_, ?_, ?_⟩ <;> decide
  refine @ScanFailsOpen.unvetted pngLibraries failingScanner pendingWorld 0 ?_
    (hclaim pngLibraries failingScanner pendingWorld 0)
  exact ⟨m, hm, rfl, rfl, _, _, _, _, hpasses, by decide, by decide, by decide, none, rfl⟩

end Example

end BePyEco
