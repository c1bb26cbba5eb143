import BePyEco.Library.Copies
import BePyEco.Library.Interleaving
import BePyEco.Translation.Entries

/-!
# Approvals and drafts

Any number of `set_translation` and `approve_translation` calls, interleaved by statements.  An
approval reads an entry and later sets `is_approved` on it, whatever its value is by then; a draft
that was stored in between becomes visible without anybody having read it.

`lastWrite` and `approvedCopy` read the ghost state off the history of a pool: what was last
written in a slot, and what the approval that made it visible had read.  Under the discipline that
an approval does not save over another draft (`ApprovesItsCopy`) every visible value is reviewed
(`onlyReviewed_of_approvesItsCopy`), and the first step that breaks the discipline makes a value
visible that is not (`not_onlyReviewed_of_next`).
-/

namespace BePyEco

open Library

/-! ## Versions of an entry -/

/-- An entry keeps its slot. -/
instance : Evolving TranslationEntry where
  Later a b := b.id = a.id ∧ b.slot = a.slot
  refl _ := ⟨rfl, rfl⟩
  trans hab hbc := ⟨hbc.1.trans hab.1, hbc.2.trans hab.2⟩
  pk_eq h := h.1

/-! ## Control points -/

/-- Where a call stands.  `save` keeps the entry that the approval read. -/
inductive TranslationPc
  | set (slot : TranslationSlot) (value : String) (isAiGenerated : Bool)
  | read (entryId : Id)
  | save (entry : TranslationEntry)
  | succeeded (entry : TranslationEntry)
  | failed (e : Raised ApiError)

namespace TranslationPc

/-- What is left of a call. -/
def program : TranslationPc → Service TranslationEntry
  | set slot value isAiGenerated =>
    setTranslation slot.entity slot.locale slot.field value isAiGenerated
  | read entryId => approveTranslation entryId
  | save entry => do
    saveApproved entry.id
    return { entry with isApproved := true }
  | succeeded entry => return entry
  | failed e => .done (.error e)

/-- Execute the next statement of a call. -/
def next : TranslationPc → World → Option (TranslationPc × World)
  | set slot value isAiGenerated, w =>
    Control.advance (updateOrCreateEntry slot value isAiGenerated) succeeded failed w
  | read entryId, w => Control.advance (getEntry entryId) save failed w
  | save entry, w =>
    Control.advance (saveApproved entry.id) (fun _ => succeeded { entry with isApproved := true })
      failed w
  | succeeded _, _ => none
  | failed _, _ => none

end TranslationPc

/-- The control points follow the two services. -/
def translationControl : Control World ApiError TranslationEntry TranslationPc where
  program := TranslationPc.program
  next := TranslationPc.next
  sound c w := by
    cases c with
    | set slot value isAiGenerated =>
        exact Control.step_eq_advance_last TranslationPc.program rfl (fun _ => rfl) (fun _ => rfl) w
    | read entryId =>
        exact Control.step_eq_advance TranslationPc.program _ rfl (fun _ => rfl) (fun _ => rfl) w
    | save entry =>
        exact Control.step_eq_advance TranslationPc.program _ rfl (fun _ => rfl) (fun _ => rfl) w
    | succeeded entry => rfl
    | failed e => rfl

/-- The entries are the same before and after. -/
abbrev KeepsEntries : World → World → Prop := Same fun w => w.db.translationEntries

/-- Any number of calls on any entries, with other calls and changes from outside that leave the
entries alone. -/
def translationSystem : System (TranslationPc ⊕ Service Unit) World :=
  translationControl.system KeepsEntries

/-- A pool of translation calls. -/
abbrev TranslationPool (ι : Type) := Pool ι (TranslationPc ⊕ Service Unit) World

/-- No call has executed a statement yet. -/
def TranslationCall.NotStarted : TranslationPc ⊕ Service Unit → Prop
  | .inl (.set _ _ _) => True
  | .inl (.read _) => True
  | .inl _ => False
  | .inr rest => rest.Guarantees KeepsEntries

/-! ## What one step does -/

/-- The steps of a call, with what each reads and changes. -/
inductive TranslationStep : TranslationPc → World → TranslationPc → World → Prop
  | set {slot : TranslationSlot} {value : String} {isAiGenerated : Bool}
      {entry : TranslationEntry} {w w' : World}
      (h : (updateOrCreateEntry slot value isAiGenerated).run w = .ok (entry, w')) :
      TranslationStep (.set slot value isAiGenerated) w (.succeeded entry) w'
  | unset {slot : TranslationSlot} {value : String} {isAiGenerated : Bool}
      {raised : Raised ApiError} {w : World}
      (h : ∀ e ∈ w.db.translationEntries.rows, e.slot ≠ slot) :
      TranslationStep (.set slot value isAiGenerated) w (.failed raised) w
  | read {entryId : Id} {entry : TranslationEntry} {w : World}
      (h : entry ∈ w.db.translationEntries.rows) :
      TranslationStep (.read entryId) w (.save entry) w
  | unread (entryId : Id) (raised : Raised ApiError) (w : World) :
      TranslationStep (.read entryId) w (.failed raised) w
  | save {entry : TranslationEntry} {w w' : World}
      (h : w' = Stored.put (w.db.translationEntries.update (fun e => Model.pk e == entry.id)
        (TranslationEntry.setIsApproved true)) w) :
      TranslationStep (.save entry) w (.succeeded { entry with isApproved := true }) w'
  | unsaved {entry : TranslationEntry} {raised : Raised ApiError} {w : World}
      (h : ∀ e ∈ w.db.translationEntries.rows, e.id ≠ entry.id) :
      TranslationStep (.save entry) w (.failed raised) w

lemma translationStep_of_next {c c' : TranslationPc} {w w' : World}
    (h : c.next w = some (c', w')) : TranslationStep c w c' w' := by
  cases c with
  | set slot value isAiGenerated =>
      rw [TranslationPc.next] at h
      obtain ⟨entry, hrun, rfl⟩ | ⟨raised, hrun, rfl, rfl⟩ := Control.advance_cases h
      · exact .set hrun
      · exact .unset (updateOrCreateEntry_error hrun)
  | read entryId =>
      rw [TranslationPc.next] at h
      obtain ⟨entry, hrun, rfl⟩ | ⟨raised, -, rfl, rfl⟩ := Control.advance_cases h
      · obtain ⟨rfl, hmem, -⟩ := getEntry_ok hrun
        exact .read hmem
      · exact .unread entryId raised w'
  | save entry =>
      rw [TranslationPc.next] at h
      obtain ⟨u, hrun, rfl⟩ | ⟨raised, hrun, rfl, rfl⟩ := Control.advance_cases h
      · exact .save (Objects.save_ok hrun)
      · refine .unsaved fun e he hid => ?_
        have hsave : ∃ w'', (saveApproved entry.id).run w' = .ok ((), w'') :=
          ⟨_, Objects.run_save_of_mem he hid⟩
        obtain ⟨w'', hsave⟩ := hsave
        cases hsave.symm.trans hrun
  | succeeded entry => cases h
  | failed raised => cases h

/-- The two kinds of steps of the system. -/
lemma translationSystem_next {call call' : TranslationPc ⊕ Service Unit} {w w' : World}
    (h : translationSystem.next call w = some (call', w')) :
    (∃ c c', call = .inl c ∧ call' = .inl c' ∧ TranslationStep c w c' w') ∨
      (∃ rest rest', call = .inr rest ∧ call' = .inr rest' ∧ rest.step w = some (rest', w')) := by
  obtain ⟨c, c', rfl, rfl, hnext⟩ | hother := Control.system_next h
  · exact Or.inl ⟨c, c', rfl, rfl, translationStep_of_next hnext⟩
  · exact Or.inr hother

/-! ## Sound copies -/

/-- The copy of an approval is a copy of a stored entry. -/
def TranslationCall.Sound (w : World) : TranslationPc ⊕ Service Unit → Prop
  | .inl (.save entry) => w.db.translationEntries.HasLater entry
  | .inl _ => True
  | .inr rest => rest.Guarantees KeepsEntries

lemma TranslationCall.Sound.mono {w w' : World}
    (h : w.db.translationEntries.Keeps w'.db.translationEntries)
    {call : TranslationPc ⊕ Service Unit} (hcall : TranslationCall.Sound w call) :
    TranslationCall.Sound w' call := by
  cases call with
  | inl c =>
      cases c with
      | save entry => exact h.hasLater hcall
      | _ => trivial
  | inr rest => exact hcall

/-- A step loses no entry, and the control point it reaches is sound. -/
lemma TranslationStep.sound {c c' : TranslationPc} {w w' : World} (h : TranslationStep c w c' w') :
    w.db.translationEntries.Keeps w'.db.translationEntries ∧
      TranslationCall.Sound w' (.inl c') := by
  cases h with
  | set hrun =>
      refine ⟨?_, trivial⟩
      obtain ⟨-, ⟨old, -, -, -, rfl⟩ | ⟨-, t, hrows, rfl⟩⟩ := updateOrCreateEntry_ok hrun
      · exact Table.Keeps.of_update fun _ => ⟨rfl, rfl⟩
      · intro e he
        refine Table.hasLater_of_mem (t := t) ?_
        rw [hrows]
        exact List.mem_append_left _ he
  | unset hnone => exact ⟨Table.Keeps.refl _, trivial⟩
  | read hmem => exact ⟨Table.Keeps.refl _, Table.hasLater_of_mem hmem⟩
  | unread entryId raised w => exact ⟨Table.Keeps.refl _, trivial⟩
  | save hw' =>
      refine ⟨?_, trivial⟩
      rw [hw']
      exact Table.Keeps.of_update fun _ => ⟨rfl, rfl⟩
  | unsaved hnone => exact ⟨Table.Keeps.refl _, trivial⟩

lemma TranslationCall.NotStarted.sound {call : TranslationPc ⊕ Service Unit}
    (h : TranslationCall.NotStarted call) (w : World) : TranslationCall.Sound w call := by
  cases call with
  | inl c =>
      cases c with
      | set slot value isAiGenerated => trivial
      | read entryId => trivial
      | _ => cases h
  | inr rest => exact h

lemma keeps_of_keepsEntries {w w' : World} (h : KeepsEntries w w') :
    w.db.translationEntries.Keeps w'.db.translationEntries := by
  rw [show w'.db.translationEntries = w.db.translationEntries from h]
  exact Table.Keeps.refl _

lemma translations_relyGuarantee : translationSystem.RelyGuarantee
    (fun w w' => w.db.translationEntries.Keeps w'.db.translationEntries)
    TranslationCall.Sound where
  stable hcall hkeeps := hcall.mono hkeeps
  guarantee hcall hnext := by
    obtain ⟨c, c', rfl, rfl, hstep⟩ | ⟨rest, rest', rfl, rfl, hstep⟩ := translationSystem_next hnext
    · exact hstep.sound
    · obtain ⟨hsame, hrest⟩ := Program.Guarantees.step hcall hstep
      exact ⟨keeps_of_keepsEntries hsame, hrest⟩
  rely henv := keeps_of_keepsEntries henv

variable {ι : Type}

/-- Along every run, every call is sound. -/
theorem TranslationCall.sound_of_run [DecidableEq ι] {ok : TranslationPool ι → ι → Prop}
    {P₀ P : TranslationPool ι} (hstart : ∀ i, TranslationCall.NotStarted (P₀.pc i))
    (hrun : translationSystem.Run ok P₀ P) :
    ∀ i, TranslationCall.Sound P.store (P.pc i) :=
  translations_relyGuarantee.knows (fun i => (hstart i).sound P₀.store) hrun

/-! ## Ghost state -/

/-- What the newest `set_translation` on a slot wrote, and whether an AI wrote it. -/
def lastWrite (slot : TranslationSlot) :
    List (ι × (TranslationPc ⊕ Service Unit)) → Option (String × Bool)
  | [] => none
  | (_, .inl (.set slot' value isAiGenerated)) :: rest =>
    if slot' = slot then some (value, isAiGenerated) else lastWrite slot rest
  | _ :: rest => lastWrite slot rest

/-- What the first approval since the newest `set_translation` on a slot had read. -/
def approvedCopy (slot : TranslationSlot) :
    List (ι × (TranslationPc ⊕ Service Unit)) → Option TranslationEntry
  | [] => none
  | (_, .inl (.set slot' _ _)) :: rest => if slot' = slot then none else approvedCopy slot rest
  | (_, .inl (.save entry)) :: rest =>
    if entry.slot = slot then (approvedCopy slot rest).or (some entry) else approvedCopy slot rest
  | _ :: rest => approvedCopy slot rest

/-- The value in a slot was last written by a person, or was in the entry when the approval that
made it visible read it. -/
def Reviewed (history : List (ι × (TranslationPc ⊕ Service Unit))) (slot : TranslationSlot)
    (value : String) : Prop :=
  lastWrite slot history = some (value, false) ∨
    ∃ copy, approvedCopy slot history = some copy ∧ copy.value = value

/-- Every value that `get_localized_field` returns is reviewed. -/
def OnlyReviewed (P : TranslationPool ι) : Prop :=
  ∀ entity field locale defaultLocale value returned,
    (getLocalizedField P.store entity field locale defaultLocale).value = some value →
      (getLocalizedField P.store entity field locale defaultLocale).locale = some returned →
        Reviewed P.history ⟨entity, returned, field⟩ value

/-- The discipline: when an approval saves, the entry is approved already or has the value that
the approval read. -/
def ApprovesItsCopy (P : TranslationPool ι) (i : ι) : Prop :=
  ∀ copy, P.pc i = .inl (.save copy) → ∀ e ∈ P.store.db.translationEntries.rows,
    e.id = copy.id → e.isApproved = true ∨ e.value = copy.value

/-- What the history says about a stored entry. -/
structure Traced (history : List (ι × (TranslationPc ⊕ Service Unit))) (e : TranslationEntry) :
    Prop where
  written : lastWrite e.slot history = some (e.value, e.isAiGenerated)
  human : e.isAiGenerated = false → e.isApproved = true
  draft : e.isApproved = false → approvedCopy e.slot history = none
  approved : e.isAiGenerated = true → e.isApproved = true →
    ∃ copy, approvedCopy e.slot history = some copy ∧ copy.value = e.value

section Ghost

variable {history : List (ι × (TranslationPc ⊕ Service Unit))} {i : ι} {e : TranslationEntry}

/-- A visible entry is reviewed. -/
lemma Traced.reviewed (h : Traced history e) (happroved : e.isApproved = true) :
    Reviewed history e.slot e.value := by
  cases hai : e.isAiGenerated with
  | false =>
      left
      rw [← hai]
      exact h.written
  | true => exact Or.inr (h.approved hai happroved)

/-- A `set_translation` on another slot says nothing about an entry. -/
lemma Traced.of_set_ne (h : Traced history e) {slot : TranslationSlot} {value : String}
    {isAiGenerated : Bool} (hne : slot ≠ e.slot) :
    Traced ((i, .inl (.set slot value isAiGenerated)) :: history) e where
  written := by
    rw [lastWrite, if_neg hne]
    exact h.written
  human := h.human
  draft hdraft := by
    rw [approvedCopy, if_neg hne]
    exact h.draft hdraft
  approved hai happroved := by
    rw [approvedCopy, if_neg hne]
    exact h.approved hai happroved

/-- The entry that a `set_translation` has just written. -/
lemma Traced.of_drafted {slot : TranslationSlot} {value : String} {isAiGenerated : Bool}
    (h : Drafted slot value isAiGenerated e) :
    Traced ((i, .inl (.set slot value isAiGenerated)) :: history) e where
  written := by rw [lastWrite, if_pos h.slot_eq.symm, h.value_eq, h.isAiGenerated_eq]
  human hhuman := by
    rw [h.isApproved_eq, ← h.isAiGenerated_eq, hhuman]
    rfl
  draft _ := by rw [approvedCopy, if_pos h.slot_eq.symm]
  approved hai happroved := by
    rw [h.isApproved_eq, ← h.isAiGenerated_eq, hai] at happroved
    cases happroved

/-- An approval of another slot says nothing about an entry. -/
lemma Traced.of_save_ne (h : Traced history e) {copy : TranslationEntry}
    (hne : copy.slot ≠ e.slot) : Traced ((i, .inl (.save copy)) :: history) e where
  written := h.written
  human := h.human
  draft hdraft := by
    rw [approvedCopy, if_neg hne]
    exact h.draft hdraft
  approved hai happroved := by
    rw [approvedCopy, if_neg hne]
    exact h.approved hai happroved

/-- The entry that an approval has just saved, when it had the value that the approval read. -/
lemma Traced.of_save (h : Traced history e) {copy : TranslationEntry}
    (hslot : copy.slot = e.slot) (hcopy : e.isApproved = true ∨ e.value = copy.value) :
    Traced ((i, .inl (.save copy)) :: history)
      ((TranslationEntry.setIsApproved true).apply e) where
  written := h.written
  human _ := rfl
  draft hdraft := by cases hdraft
  approved hai _ := by
    change ∃ c, approvedCopy e.slot ((i, .inl (.save copy)) :: history) = some c ∧ c.value = e.value
    rw [approvedCopy, if_pos hslot]
    cases happroved : e.isApproved with
    | true =>
        -- an earlier approval has made it visible
        obtain ⟨earlier, hearlier, hvalue⟩ := h.approved hai happroved
        rw [hearlier]
        exact ⟨earlier, rfl, hvalue⟩
    | false =>
        rw [h.draft happroved]
        refine ⟨copy, rfl, ?_⟩
        obtain htrue | hvalue := hcopy
        · rw [happroved] at htrue
          cases htrue
        · exact hvalue.symm

/-- A draft that is approved with another value than the approval read is not reviewed. -/
lemma Traced.not_reviewed (h : Traced history e) {copy : TranslationEntry}
    (hslot : copy.slot = e.slot) (hdraft : e.isApproved ≠ true) (hvalue : e.value ≠ copy.value) :
    ¬ Reviewed ((i, .inl (.save copy)) :: history) e.slot e.value := by
  rintro (hhuman | ⟨approved, happroved, hcopied⟩)
  · have hwritten : some (e.value, e.isAiGenerated) = some (e.value, false) :=
      h.written.symm.trans hhuman
    have hperson : e.isAiGenerated = false := by simpa using hwritten
    exact hdraft (h.human hperson)
  · rw [approvedCopy, if_pos hslot, h.draft (Bool.eq_false_of_not_eq_true hdraft)] at happroved
    cases happroved
    exact hvalue hcopied.symm

variable {P : TranslationPool ι}

/-- One step keeps the history of every entry. -/
lemma TranslationStep.traced {c c' : TranslationPc} {w' : World}
    (h : TranslationStep c P.store c' w') (hpc : P.pc i = .inl c)
    (hsound : TranslationCall.Sound P.store (.inl c)) (hok : ApprovesItsCopy P i)
    (htraced : ∀ e ∈ P.store.db.translationEntries.rows, Traced P.history e) :
    ∀ e ∈ w'.db.translationEntries.rows, Traced ((i, .inl c) :: P.history) e := by
  have hskip : ∀ e ∈ P.store.db.translationEntries.rows,
      ∀ entryId, Traced ((i, .inl (.read entryId)) :: P.history) e := fun e he _ =>
    ⟨(htraced e he).written, (htraced e he).human, (htraced e he).draft, (htraced e he).approved⟩
  cases h with
  | set hrun =>
      obtain ⟨hdrafted, ⟨old, hold, hslot, hid, rfl⟩ | ⟨hnone, t, hrows, rfl⟩⟩ :=
        updateOrCreateEntry_ok hrun
      · intro e he
        obtain ⟨r, hr, hpk, rfl⟩ | ⟨hr, hpk⟩ := Table.mem_update_pk _ he
        · have hrold : r = old := P.store.db.translationEntries.eq_of_pk hr hold hpk
          rw [hrold]
          exact .of_drafted ⟨hslot, rfl, rfl, rfl⟩
        · refine (htraced e hr).of_set_ne fun heq => hpk ?_
          have heold : e = old := P.store.db.translationEntries.eq_of_conflicts hr hold
            (decide_eq_true (heq.symm.trans hslot.symm))
          rw [heold]
          rfl
      · intro e he
        change e ∈ t.rows at he
        rw [hrows, List.mem_append, List.mem_singleton] at he
        obtain he | rfl := he
        · exact (htraced e he).of_set_ne (hnone e he).symm
        · exact .of_drafted hdrafted
  | unset hnone => exact fun e he => (htraced e he).of_set_ne (hnone e he).symm
  | read hmem => exact fun e he => hskip e he _
  | unread entryId raised w => exact fun e he => hskip e he entryId
  | @save copy w w' hw' =>
      obtain ⟨r, hr, hid, hslot⟩ := hsound
      rw [hw']
      intro e he
      obtain ⟨s, hs, hpk, rfl⟩ | ⟨hs, hpk⟩ := Table.mem_update_pk _ he
      · have hsr : s = r := P.store.db.translationEntries.eq_of_pk hs hr (hpk.trans hid.symm)
        exact (htraced s hs).of_save (by rw [hsr, hslot]) (hok copy hpc s hs hpk)
      · refine (htraced e hs).of_save_ne fun hcopy => hpk ?_
        have her : e = r := P.store.db.translationEntries.eq_of_conflicts hs hr
          (decide_eq_true (hcopy.symm.trans hslot.symm))
        rw [her]
        exact hid
  | unsaved hnone =>
      obtain ⟨r, hr, hid, -⟩ := hsound
      exact absurd hid (hnone r hr)

variable [DecidableEq ι] {P₀ : TranslationPool ι}

/-- Along every disciplined run from an empty table, the history accounts for every entry. -/
lemma traced_of_run (hstart : ∀ i, TranslationCall.NotStarted (P₀.pc i))
    (hempty : P₀.store.db.translationEntries.rows = [])
    (hrun : translationSystem.Run ApprovesItsCopy P₀ P) :
    ∀ e ∈ P.store.db.translationEntries.rows, Traced P.history e := by
  induction hrun with
  | refl =>
      intro e he
      rw [hempty] at he
      cases he
  | @call P i call' w' hrun hok hnext ih =>
      have hsound := TranslationCall.sound_of_run hstart hrun i
      rw [Pool.history_advance]
      obtain ⟨c, c', hpc, rfl, hstep⟩ | ⟨rest, rest', hpc, rfl, hstep⟩ :=
        translationSystem_next hnext
      · rw [hpc] at hsound ⊢
        exact hstep.traced hpc hsound hok ih
      · rw [hpc] at hsound ⊢
        have hsame := (Program.Guarantees.step hsound hstep).1
        intro e he
        rw [Pool.store_advance,
          show w'.db.translationEntries = P.store.db.translationEntries from hsame] at he
        exact ⟨(ih e he).written, (ih e he).human, (ih e he).draft, (ih e he).approved⟩
  | @env P w' _ henv ih =>
      intro e he
      rw [show w'.db.translationEntries = P.store.db.translationEntries from henv] at he
      exact ih e he

/-- In every interleaving in which no approval saves over a draft that it did not read, every
visible value was written by a person or is the value that its approval read. -/
theorem onlyReviewed_of_approvesItsCopy (hstart : ∀ i, TranslationCall.NotStarted (P₀.pc i))
    (hempty : P₀.store.db.translationEntries.rows = [])
    (hrun : translationSystem.Run ApprovesItsCopy P₀ P) : OnlyReviewed P := by
  intro entity field locale defaultLocale value returned hvalue hreturned
  obtain ⟨e, he, hslot, happroved, rfl⟩ := exists_of_localized hvalue hreturned
  rw [← hslot]
  exact (traced_of_run hstart hempty hrun e he).reviewed happroved

/-- A step that breaks the discipline makes text visible that nobody has reviewed. -/
theorem not_onlyReviewed_of_next {i : ι} {call' : TranslationPc ⊕ Service Unit} {w' : World}
    (hstart : ∀ i, TranslationCall.NotStarted (P₀.pc i))
    (hempty : P₀.store.db.translationEntries.rows = [])
    (hrun : translationSystem.Run ApprovesItsCopy P₀ P) (hbreaks : ¬ ApprovesItsCopy P i)
    (hnext : translationSystem.next (P.pc i) P.store = some (call', w')) :
    ¬ OnlyReviewed (P.advance i call' w') := by
  unfold ApprovesItsCopy at hbreaks
  push Not at hbreaks
  obtain ⟨copy, hpc, e, he, hid, hdraft, hvalue⟩ := hbreaks
  have hsound := TranslationCall.sound_of_run hstart hrun i
  rw [hpc] at hsound hnext
  have htraced := traced_of_run hstart hempty hrun e he
  have hslot : copy.slot = e.slot := (hsound.later_of_pk he hid).2.symm
  -- the step approves the draft as it is now
  obtain ⟨c, c', hc, rfl, hstep⟩ | ⟨rest, rest', hc, -, -⟩ := translationSystem_next hnext
  · cases hc
    cases hstep with
    | save hw' =>
        have he' : (TranslationEntry.setIsApproved true).apply e ∈
            w'.db.translationEntries.rows := by
          rw [hw']
          exact (Table.mem_update _).2 ⟨e, he, Assignment.on_pos _ (beq_iff_eq.2 hid)⟩
        have hvisible : getLocalizedField w' e.entity e.field e.locale e.locale =
            { value := some e.value, locale := some e.locale, isFallback := false } :=
          localized_of_mem (e := (TranslationEntry.setIsApproved true).apply e) he' rfl
        intro honly
        have hreviewed : Reviewed ((i, P.pc i) :: P.history) e.slot e.value := by
          refine honly e.entity e.field e.locale e.locale e.value e.locale ?_ ?_
          · rw [Pool.store_advance, hvisible]
          · rw [Pool.store_advance, hvisible]
        rw [hpc] at hreviewed
        exact htraced.not_reviewed hslot hdraft hvalue hreviewed
    | unsaved hnone => exact absurd hid (hnone e he)
  · cases hc

end Ghost

/-! ### A draft that is replaced while it is approved -/

/-- The vi name of a product. -/
def nameSlot : TranslationSlot := ⟨⟨⟨"catalog", "product"⟩, 0⟩, "vi", "name"⟩

/-- A draft of an AI, its approval, and another draft. -/
def draftAndApproval : TranslationPool (Fin 3) where
  store := {}
  pc
    | 0 => .inl (.set nameSlot "draft" true)
    | 1 => .inl (.read 0)
    | 2 => .inl (.set nameSlot "other" true)

lemma notStarted_draftAndApproval :
    ∀ i, TranslationCall.NotStarted (draftAndApproval.pc i)
  | 0 => trivial
  | 1 => trivial
  | 2 => trivial

/-- The check of a step that `ApprovesItsCopy` asks for. -/
def checkApproval (P : TranslationPool (Fin 3)) (i : Fin 3) : Bool :=
  match P.pc i with
  | .inl (.save copy) => decide (∀ e ∈ P.store.db.translationEntries.rows,
      e.id = copy.id → e.isApproved = true ∨ e.value = copy.value)
  | _ => true

lemma approvesItsCopy_of_check {P : TranslationPool (Fin 3)} {i : Fin 3}
    (h : checkApproval P i = true) : ApprovesItsCopy P i := by
  intro copy hpc
  rw [checkApproval, hpc] at h
  exact of_decide_eq_true h

/-- The draft is approved, and visible. -/
theorem onlyReviewed_after_approval :
    ∃ P, translationSystem.Run ApprovesItsCopy draftAndApproval P ∧
      decide ((getLocalizedField P.store nameSlot.entity "name" "vi" "vi").value =
        some "draft") = true ∧ OnlyReviewed P := by
  have h : (translationSystem.execute checkApproval draftAndApproval [0, 1, 1]).map
      (fun P => decide ((getLocalizedField P.store nameSlot.entity "name" "vi" "vi").value =
        some "draft")) = some true := by decide
  obtain ⟨P, hrun, hp⟩ := System.exists_run_of_execute (fun _ _ => approvesItsCopy_of_check) h
  exact ⟨P, hrun, hp, onlyReviewed_of_approvesItsCopy notStarted_draftAndApproval rfl hrun⟩

/-- The approval reads the first draft and makes the second one visible. -/
theorem not_onlyReviewed :
    ¬ ∀ P₀ P : TranslationPool (Fin 3), (∀ i, TranslationCall.NotStarted (P₀.pc i)) →
      P₀.store.db.translationEntries.rows = [] →
        translationSystem.Run (fun _ _ => True) P₀ P → OnlyReviewed P := by
  intro hclaim
  have h : (translationSystem.execute (fun _ _ => true) draftAndApproval [0, 1, 2, 1]).map
      (fun P => decide (getLocalizedField P.store nameSlot.entity "name" "vi" "vi" =
          { value := some "other", locale := some "vi", isFallback := false } ∧
        lastWrite nameSlot P.history = some ("other", true) ∧
        (approvedCopy nameSlot P.history).map TranslationEntry.value = some "draft")) =
      some true := by decide
  obtain ⟨P, hrun, hp⟩ := System.exists_run_of_execute (fun _ _ _ => trivial) h
  obtain ⟨hvisible, hwritten, hcopy⟩ := of_decide_eq_true hp
  have honly := hclaim draftAndApproval P notStarted_draftAndApproval rfl hrun
  have hreviewed : Reviewed P.history nameSlot "other" := by
    refine honly nameSlot.entity "name" "vi" "vi" "other" "vi" ?_ ?_
    · rw [hvisible]
    · rw [hvisible]
  obtain hhuman | ⟨copy, happroved, hvalue⟩ := hreviewed
  · rw [hwritten] at hhuman
    exact absurd hhuman (by decide)
  · rw [happroved, Option.map_some, hvalue] at hcopy
    exact absurd hcopy (by decide)

end BePyEco
