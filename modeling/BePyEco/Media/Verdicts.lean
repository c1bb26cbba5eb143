import BePyEco.Media.VettedUploads

/-!
# Verdicts on uploads

Whether `validate_upload` reaches a verdict on a pending upload that it can read and scan.  Pillow
decodes the bytes twice: `verify` inside a handler of `UnidentifiedImageError` and `OSError`, and
`convert` outside any.  An exception that is not handled, or a text that is too wide for its
column, rolls the task back and leaves the upload pending.
-/

namespace BePyEco

open Library

section Pipeline

variable [ImageLibraries]

/-- A run that returns and leaves the upload ready or rejected. -/
def EndsJudged (x : Statement Unit) (w : World) (mediaUploadId : Id) : Prop :=
  ∃ w', x.run w = .ok ((), w') ∧ ∃ m ∈ w'.db.mediaUploads.rows, m.id = mediaUploadId ∧
    (m.status = .ready ∨ m.status = .rejected)

/-- The bytes are of the declared size and of the declared type, which is accepted. -/
structure AsDeclared (m : MediaUpload) (data : Bytes) : Prop where
  size : data.length = m.declaredSizeBytes
  accepted : m.declaredContentType ∈ acceptedMimeTypes
  detected : ImageLibraries.guess data = some m.declaredContentType

/-- Pillow decodes the bytes in full and encodes the derivatives. -/
def Decodes (data : Bytes) (derivatives : Derivatives) : Prop :=
  ∃ image, ImageLibraries.openImage data = .ok image ∧
    ∃ clean, ImageLibraries.convert "RGB" image = .ok clean ∧
      ImageLibraries.save "WEBP" clean = .ok derivatives.webp ∧
      ImageLibraries.save "AVIF" clean = .ok derivatives.avif ∧
      ∃ thumbnail, ImageLibraries.thumbnail thumbnailSize clean = .ok thumbnail ∧
        ImageLibraries.save "WEBP" thumbnail = .ok derivatives.thumbnailWebp

/-- The storage takes the three derivatives, under keys that fit their columns. -/
def Storable (services : ObjectServices) (m : MediaUpload) (derivatives : Derivatives) : Prop :=
  ∃ webpKey avifKey thumbnailKey,
    services.saveObject s!"{readyBase m}.webp" derivatives.webp = .ok webpKey ∧
    services.saveObject s!"{readyBase m}.avif" derivatives.avif = .ok avifKey ∧
    services.saveObject s!"{readyBase m}-thumb.webp" derivatives.thumbnailWebp =
      .ok thumbnailKey ∧
    webpKey.length ≤ 255 ∧ avifKey.length ≤ 255 ∧ thumbnailKey.length ≤ 255

/-- The inputs on which the task raises. -/
inductive Unjudged (services : ObjectServices) (m : MediaUpload) (data : Bytes) : Prop
  /-- The detected type does not fit the reason. -/
  | detected (hsize : data.length = m.declaredSizeBytes)
      (haccepted : m.declaredContentType ∈ acceptedMimeTypes)
      (hmismatch : ImageLibraries.guess data ≠ some m.declaredContentType)
      (h : 214 < ((ImageLibraries.guess data).getD "unknown").length)
  /-- `open` or `verify` raises something other than `UnidentifiedImageError` and `OSError`. -/
  | verify {name : String} (hdeclared : AsDeclared m data)
      (h : openAndVerify data = .error (.other name))
  /-- The signature does not fit the reason. -/
  | signature {signature : Option String} (hgenuine : Genuine m data)
      (hflagged : services.instream data = .ok (.found, signature))
      (h : 237 < (signatureOrUnknown signature).length)
  /-- The bytes pass `verify`, and decoding or encoding them raises. -/
  | decode (hgenuine : Genuine m data) (hscanned : scanBytes services data = .ok ())
      (h : ∀ derivatives, ¬ Decodes data derivatives)
  /-- The storage refuses a derivative, or stores it under a key that does not fit. -/
  | store {derivatives : Derivatives} (hgenuine : Genuine m data)
      (hscanned : scanBytes services data = .ok ()) (hdecodes : Decodes data derivatives)
      (h : ¬ Storable services m derivatives)

/-! ## The stages -/

variable {services : ObjectServices} {w : World} {m : MediaUpload} {data : Bytes}

lemma generateDerivatives_ok_iff {derivatives : Derivatives} :
    generateDerivatives data = .ok derivatives ↔ Decodes data derivatives := by
  unfold generateDerivatives Decodes
  simp only [bind_eq_ok_iff]
  constructor
  · rintro ⟨image, hopen, clean, hconvert, webp, hwebp, avif, havif, thumbnail, hthumbnail,
      thumbnailWebp, hthumbnailWebp, hpure⟩
    cases hpure
    exact ⟨image, hopen, clean, hconvert, hwebp, havif, thumbnail, hthumbnail, hthumbnailWebp⟩
  · rintro ⟨image, hopen, clean, hconvert, hwebp, havif, thumbnail, hthumbnail, hthumbnailWebp⟩
    exact ⟨image, hopen, clean, hconvert, _, hwebp, _, havif, thumbnail, hthumbnail, _,
      hthumbnailWebp, rfl⟩

omit [ImageLibraries] in
/-- A save that keeps the key of an upload and gives it a verdict goes through when the new row
fits its columns. -/
lemma endsJudged_saveChecked (f : MediaUpload → MediaUpload)
    (hpk : ∀ r, Model.pk (f r) = Model.pk r) (hm : m ∈ w.db.mediaUploads.rows)
    (hkey : (f m).storageKey = m.storageKey)
    (hstatus : (f m).status = .ready ∨ (f m).status = .rejected) :
    EndsJudged (Objects.saveChecked m.id f hpk) w m.id ↔ Model.fits (f m) = true := by
  constructor
  · rintro ⟨w', hrun, -⟩
    obtain ⟨t, hrewrite, -⟩ := Objects.saveChecked_ok hrun
    exact t.all_fit _ (Table.apply_mem_rewrite_pk hrewrite hm rfl)
  · intro hfits
    obtain ⟨t, hrun, hmem⟩ := @saveUpload_run_of_fits w m f hpk hm hkey hfits
    exact ⟨_, hrun, f m, hmem, hpk m, hstatus⟩

omit [ImageLibraries] in
lemma endsJudged_rejectUpload {reason : String} (hm : m ∈ w.db.mediaUploads.rows) :
    EndsJudged (rejectUpload m reason) w m.id ↔ reason.length ≤ 255 := by
  refine (endsJudged_saveChecked (MediaUpload.reject reason) (fun _ => rfl) hm rfl
    (Or.inr rfl)).trans ?_
  have hold := w.db.mediaUploads.all_fit m hm
  simp only [Model.fits, Bool.and_eq_true, decide_eq_true_eq] at hold ⊢
  exact ⟨fun h => h.1.1.1.2, fun h => ⟨⟨⟨⟨hold.1.1.1.1, h⟩, hold.1.1.2⟩, hold.1.2⟩, hold.2⟩⟩

lemma endsJudged_deriveUpload (hm : m ∈ w.db.mediaUploads.rows) :
    EndsJudged (deriveUpload services m data) w m.id ↔
      ∃ derivatives, Decodes data derivatives ∧ Storable services m derivatives := by
  have hfits : ∀ webpKey avifKey thumbnailKey,
      Model.fits (m.makeReady webpKey avifKey thumbnailKey) = true ↔
        webpKey.length ≤ 255 ∧ avifKey.length ≤ 255 ∧ thumbnailKey.length ≤ 255 := by
    intro webpKey avifKey thumbnailKey
    have hold := w.db.mediaUploads.all_fit m hm
    simp only [Model.fits, Bool.and_eq_true, decide_eq_true_eq] at hold ⊢
    exact ⟨fun h => ⟨h.1.1.2, h.1.2, h.2⟩, fun h => ⟨⟨⟨hold.1.1.1, h.1⟩, h.2.1⟩, h.2.2⟩⟩
  constructor
  · rintro ⟨w', hrun, -⟩
    obtain ⟨derivatives, webpKey, avifKey, thumbnailKey, hderived, hwebp, havif, hthumbnail,
      t, hrewrite, -⟩ := deriveUpload_ok hrun
    have hfit := t.all_fit _ (Table.apply_mem_rewrite_pk hrewrite hm rfl)
    exact ⟨derivatives, generateDerivatives_ok_iff.1 hderived, webpKey, avifKey, thumbnailKey,
      hwebp, havif, hthumbnail, (hfits _ _ _).1 hfit⟩
  · rintro ⟨derivatives, hdecodes, webpKey, avifKey, thumbnailKey, hwebp, havif, hthumbnail,
      hlengths⟩
    have hderived := generateDerivatives_ok_iff.2 hdecodes
    obtain ⟨w', hrun, hjudged⟩ :=
      (endsJudged_saveChecked (MediaUpload.makeReady webpKey avifKey thumbnailKey) (fun _ => rfl)
        hm rfl (Or.inl rfl)).2 ((hfits _ _ _).2 hlengths)
    refine ⟨w', ?_, hjudged⟩
    unfold deriveUpload saveObject
    simp only [Tx.run_bind, hderived, hwebp, havif, hthumbnail, Except.mapError,
      Tx.run_ofExcept_ok]
    exact hrun

/-- Scanned bytes are flagged and rejected, or derived. -/
lemma endsJudged_scanUpload {status : ScanStatus} {signature : Option String}
    (hm : m ∈ w.db.mediaUploads.rows)
    (hscan : services.instream data = .ok (status, signature)) :
    EndsJudged (scanUpload services m data) w m.id ↔
      (status = .found → (signatureOrUnknown signature).length ≤ 237) ∧
        (status ≠ .found → ∃ derivatives, Decodes data derivatives ∧
          Storable services m derivatives) := by
  by_cases hfound : status = .found
  · have hflagged : scanBytes services data =
        .error (.infectedFile (signatureOrUnknown signature)) := by simp [scanBytes, hscan, hfound]
    unfold scanUpload
    rw [hflagged]
    dsimp only
    rw [endsJudged_rejectUpload hm, length_infected]
    simp [hfound]
  · have hclean : scanBytes services data = .ok () := by simp [scanBytes, hscan, hfound]
    unfold scanUpload
    rw [hclean]
    dsimp only
    rw [endsJudged_deriveUpload hm]
    simp [hfound]

/-- The task goes on from the row that it locked. -/
lemma endsJudged_validateUpload (hm : m ∈ w.db.mediaUploads.rows) (hpending : m.status = .pending) :
    EndsJudged (validateUpload services m.id) w m.id ↔
      EndsJudged (processUpload services m) w m.id := by
  have hrun : (validateUpload services m.id).run w = (processUpload services m).run w := by
    unfold validateUpload
    simp only [Tx.run_bind, getMediaUpload_run_of_mem hm, hpending, if_true]
  unfold EndsJudged
  rw [hrun]

/-- The bytes that were read are refused, or scanned. -/
lemma endsJudged_processUpload (hm : m ∈ w.db.mediaUploads.rows)
    (hread : services.openObject m.storageKey = .ok data) :
    EndsJudged (processUpload services m) w m.id ↔
      ∃ result, validateBytes data m.declaredSizeBytes m.declaredContentType = .ok result ∧
        (result.isValid = true → EndsJudged (scanUpload services m data) w m.id) ∧
        (result.isValid = false → result.reason.length ≤ 255) := by
  cases hresult : validateBytes data m.declaredSizeBytes m.declaredContentType with
  | error e =>
      have hrun : (processUpload services m).run w = .error (.app e.unhandled) := by
        unfold processUpload
        simp only [Tx.run_bind, hread, hresult, Except.mapError, Tx.run_ofExcept_ok,
          Tx.run_ofExcept_error]
      unfold EndsJudged
      simp [hrun]
  | ok result =>
      have hrun : (processUpload services m).run w =
          (if result.isValid then scanUpload services m data
            else rejectUpload m result.reason).run w := by
        unfold processUpload
        simp only [Tx.run_bind, hread, hresult, Except.mapError, Tx.run_ofExcept_ok]
      have hreject := @endsJudged_rejectUpload w m result.reason hm
      unfold EndsJudged at hreject ⊢
      rw [hrun]
      by_cases hvalid : result.isValid = true
      · simp [hvalid]
      · simp [hvalid, hreject]

omit [ImageLibraries] in
lemma exists_invalid_iff {p : Prop} (reason : String) :
    (∃ result : ValidationResult,
      (.ok { isValid := false, reason := reason } : Except PillowError _) = .ok result ∧
        (result.isValid = true → p) ∧ (result.isValid = false → result.reason.length ≤ 255)) ↔
      reason.length ≤ 255 := by
  simp

/-! ## The verdict -/

lemma Unjudged.size (h : Unjudged services m data) : data.length = m.declaredSizeBytes := by
  cases h with
  | detected hsize => exact hsize
  | verify hdeclared => exact hdeclared.size
  | signature hgenuine => exact hgenuine.size
  | decode hgenuine => exact hgenuine.size
  | store hgenuine => exact hgenuine.size

lemma Unjudged.accepted (h : Unjudged services m data) :
    m.declaredContentType ∈ acceptedMimeTypes := by
  cases h with
  | detected _ haccepted => exact haccepted
  | verify hdeclared => exact hdeclared.accepted
  | signature hgenuine => exact hgenuine.accepted
  | decode hgenuine => exact hgenuine.accepted
  | store hgenuine => exact hgenuine.accepted

/-- Bytes of another type than declared. -/
lemma unjudged_iff_of_mismatch (hsize : data.length = m.declaredSizeBytes)
    (haccepted : m.declaredContentType ∈ acceptedMimeTypes)
    (hmismatch : ImageLibraries.guess data ≠ some m.declaredContentType) :
    Unjudged services m data ↔ 214 < ((ImageLibraries.guess data).getD "unknown").length := by
  constructor
  · intro h
    cases h with
    | detected _ _ _ h => exact h
    | verify hdeclared => exact absurd hdeclared.detected hmismatch
    | signature hgenuine => exact absurd hgenuine.detected hmismatch
    | decode hgenuine => exact absurd hgenuine.detected hmismatch
    | store hgenuine => exact absurd hgenuine.detected hmismatch
  · exact .detected hsize haccepted hmismatch

/-- Bytes that Pillow does not open or verify. -/
lemma unjudged_iff_of_error {e : PillowError} (hdeclared : AsDeclared m data)
    (hverify : openAndVerify data = .error e) :
    Unjudged services m data ↔ ∃ name, e = .other name := by
  have hgenuine : ¬ Genuine m data := by
    intro h
    cases hverify.symm.trans h.verified
  constructor
  · intro h
    cases h with
    | detected _ _ hmismatch => exact absurd hdeclared.detected hmismatch
    | verify _ h => exact ⟨_, Except.error.inj (hverify.symm.trans h)⟩
    | signature h => exact absurd h hgenuine
    | decode h => exact absurd h hgenuine
    | store h => exact absurd h hgenuine
  · rintro ⟨name, rfl⟩
    exact .verify hdeclared hverify

/-- Genuine bytes. -/
lemma unjudged_iff_of_genuine {status : ScanStatus} {signature : Option String}
    (hgenuine : Genuine m data) (hscan : services.instream data = .ok (status, signature)) :
    Unjudged services m data ↔
      (status = .found ∧ 237 < (signatureOrUnknown signature).length) ∨
        (status ≠ .found ∧ ∀ derivatives, Decodes data derivatives →
          ¬ Storable services m derivatives) := by
  have hclean : scanBytes services data = .ok () ↔ status ≠ .found := by
    simp [scanBytes_eq_ok_iff, hscan]
  constructor
  · intro h
    cases h with
    | detected _ _ hmismatch => exact absurd hgenuine.detected hmismatch
    | verify _ h => cases h.symm.trans hgenuine.verified
    | signature _ hflagged h =>
        cases hflagged.symm.trans hscan
        exact Or.inl ⟨rfl, h⟩
    | decode _ hscanned h =>
        exact Or.inr ⟨hclean.1 hscanned, fun derivatives hdecodes =>
          absurd hdecodes (h derivatives)⟩
    | @store derivatives _ hscanned hdecodes h =>
        refine Or.inr ⟨hclean.1 hscanned, fun derivatives' hdecodes' => ?_⟩
        have heq : derivatives' = derivatives := Except.ok.inj
          ((generateDerivatives_ok_iff.2 hdecodes').symm.trans
            (generateDerivatives_ok_iff.2 hdecodes))
        rw [heq]
        exact h
  · rintro (⟨rfl, h⟩ | ⟨hfound, h⟩)
    · exact .signature hgenuine hscan h
    · by_cases hdecodes : ∃ derivatives, Decodes data derivatives
      · obtain ⟨derivatives, hdecodes⟩ := hdecodes
        exact .store hgenuine (hclean.2 hfound) hdecodes (h derivatives hdecodes)
      · exact .decode hgenuine (hclean.2 hfound) (not_exists.1 hdecodes)

/-- A delivery for a pending upload that it reads and scans ends with a verdict exactly when no
library raises outside the handlers and the texts to be stored fit. -/
theorem endsJudged_iff {answer : ScanStatus × Option String} (hm : m ∈ w.db.mediaUploads.rows)
    (hpending : m.status = .pending) (hread : services.openObject m.storageKey = .ok data)
    (hscan : services.instream data = .ok answer) :
    EndsJudged (validateUpload services m.id) w m.id ↔ ¬ Unjudged services m data := by
  obtain ⟨status, signature⟩ := answer
  rw [endsJudged_validateUpload hm hpending, endsJudged_processUpload hm hread]
  unfold validateBytes
  by_cases hsize : data.length = m.declaredSizeBytes
  · by_cases haccepted : m.declaredContentType ∈ acceptedMimeTypes
    · by_cases hdetected : ImageLibraries.guess data = some m.declaredContentType
      · rw [if_neg (not_not_intro hsize), if_neg (not_not_intro haccepted),
          if_neg (not_not_intro hdetected)]
        cases hverify : openAndVerify data with
        | ok u =>
            have hgenuine : Genuine m data := ⟨hsize, haccepted, hdetected, hverify⟩
            rw [unjudged_iff_of_genuine hgenuine hscan]
            have hscanned := @endsJudged_scanUpload _ services w m data status signature hm hscan
            simp only [Except.ok.injEq, exists_eq_left', true_implies, reduceCtorEq, false_implies,
              and_true, hscanned]
            by_cases hfound : status = .found <;> simp [hfound]
        | error e =>
            rw [unjudged_iff_of_error ⟨hsize, haccepted, hdetected⟩ hverify]
            have hfits : "file failed to decode as a valid image".length ≤ 255 := by decide
            cases e with
            | other name => simp
            | unidentifiedImageError => simpa using hfits
            | osError => simpa using hfits
      · rw [if_neg (not_not_intro hsize), if_neg (not_not_intro haccepted), if_pos hdetected,
          unjudged_iff_of_mismatch hsize haccepted hdetected]
        dsimp only
        rw [exists_invalid_iff, length_magic]
        omega
    · have hjudged : ¬ Unjudged services m data := fun h => haccepted h.accepted
      have hfit := w.db.mediaUploads.all_fit m hm
      simp only [Model.fits, Bool.and_eq_true, decide_eq_true_eq] at hfit
      rw [if_neg (not_not_intro hsize), if_pos haccepted, exists_invalid_iff, length_unsupported]
      exact iff_of_true (by omega) hjudged
  · have hjudged : ¬ Unjudged services m data := fun h => hsize h.size
    have hfits : "declared size does not match the uploaded object's size".length ≤ 255 := by
      decide
    rw [if_pos hsize, exists_invalid_iff]
    exact iff_of_true hfits hjudged

end Pipeline

/-! ### An image whose pixels stop halfway -/

/-- Libraries for a PNG image whose chunks are intact and whose pixel data stop halfway: `verify`
accepts it and `convert` raises. -/
@[reducible] def truncatingLibraries : ImageLibraries where
  Image := Unit
  guess _ := some "image/png"
  openImage _ := .ok ()
  verify _ := .ok ()
  convert _ _ := .error .osError
  save _ _ := .ok []
  thumbnail _ _ := .ok ()

/-- A scanner that finds nothing, and a storage of three bytes under every key. -/
def cleanServices : ObjectServices where
  openObject _ := .ok [0, 1, 2]
  saveObject name _ := .ok name
  instream _ := .ok (.ok, none)

/-- The upload of `pendingWorld`. -/
def pendingUpload : MediaUpload where
  id := 0
  storageKey := ⟨0⟩
  declaredContentType := "image/png"
  declaredSizeBytes := 3

section Example

attribute [local instance] pngLibraries

/-- Bytes that decode end ready. -/
theorem endsJudged_of_clean :
    EndsJudged (validateUpload cleanServices pendingUpload.id) pendingWorld pendingUpload.id := by
  have hm : pendingUpload ∈ pendingWorld.db.mediaUploads.rows := by decide
  have hgenuine : Genuine pendingUpload [0, 1, 2] := ⟨rfl, by decide, rfl, rfl⟩
  have hscan : cleanServices.instream [0, 1, 2] = .ok (.ok, none) := rfl
  refine (endsJudged_iff hm rfl rfl hscan).2 ?_
  rw [unjudged_iff_of_genuine hgenuine hscan]
  rintro (⟨hfound, -⟩ | ⟨-, h⟩)
  · cases hfound
  · refine h ⟨[], [], []⟩ ⟨(), rfl, (), rfl, rfl, rfl, (), rfl, rfl⟩ ?_
    refine ⟨_, _, _, rfl, rfl, rfl, ?_, ?_, ?_⟩ <;> decide

end Example

/-- An image that verifies and cannot be decoded is neither ready nor rejected. -/
theorem not_endsJudged :
    ¬ ∀ (libraries : ImageLibraries) (services : ObjectServices) (w : World) (m : MediaUpload)
      (data : Bytes) (answer : ScanStatus × Option String),
      m ∈ w.db.mediaUploads.rows → m.status = .pending →
        services.openObject m.storageKey = .ok data → services.instream data = .ok answer →
          EndsJudged (@validateUpload libraries services m.id) w m.id := by
  intro hclaim
  have hm : pendingUpload ∈ pendingWorld.db.mediaUploads.rows := by decide
  obtain ⟨w', hrun, -⟩ := hclaim truncatingLibraries cleanServices pendingWorld pendingUpload
    [0, 1, 2] (.ok, none) hm rfl rfl rfl
  cases hrun

end BePyEco
