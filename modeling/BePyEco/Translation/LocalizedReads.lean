import BePyEco.Library.Trace
import BePyEco.Translation.Approvals

/-!
# Localized reads

What `get_localized_field` returns after a sequence of complete `set_translation` and
`approve_translation` calls, told from the calls alone.

`slotActions` keeps of a log what concerns one entity, locale and field.  Customers see the last
text that was written there when a person wrote it or when it was approved afterwards (`Shows`).
The row of the slot holds exactly that (`storedText_of_trace`), so a read is decided by the actions
on two slots, that of the requested locale and that of the default locale.
-/

namespace BePyEco

open Library

/-- A call of a mutator. -/
inductive EntryCall
  | setTranslation (entity : Entity) (locale field value : String) (isAiGenerated : Bool)
  | approveTranslation (entryId : Id)
  deriving DecidableEq, Repr

def EntryCall.service : EntryCall → Service TranslationEntry
  | setTranslation entity locale field value isAiGenerated =>
    BePyEco.setTranslation entity locale field value isAiGenerated
  | approveTranslation entryId => BePyEco.approveTranslation entryId

/-- A complete call with its result. -/
abbrev EntryEvent := Program.Event EntryCall World ApiError TranslationEntry

/-- Complete calls one after the other; what happens in between leaves the entries alone. -/
abbrev EntryTrace (w₀ : World) : List EntryEvent → World → Prop :=
  Program.Trace EntryCall.service (fun _ _ _ => True) KeepsEntries w₀

/-! ## What a log says about a slot -/

/-- What a call that returned did to a slot. -/
inductive SlotAction
  | wrote (value : String) (isAiGenerated : Bool)
  | approved
  deriving DecidableEq, Repr

def slotAction (slot : TranslationSlot) (e : EntryEvent) : Option SlotAction :=
  match e.call, e.result with
  | .setTranslation entity locale field value isAiGenerated, .ok _ =>
    if slot = ⟨entity, locale, field⟩ then some (.wrote value isAiGenerated) else none
  | .approveTranslation _, .ok entry => if slot = entry.slot then some .approved else none
  | _, .error _ => none

/-- The actions on a slot, newest first. -/
def slotActions (slot : TranslationSlot) (log : List EntryEvent) : List SlotAction :=
  log.filterMap (slotAction slot)

/-- The last text written in the slot, and whether it is approved. -/
def lastText : List SlotAction → Option (String × Bool)
  | [] => none
  | .wrote value isAiGenerated :: _ => some (value, !isAiGenerated)
  | .approved :: older => (lastText older).map fun text => (text.1, true)

/-- Customers see the value: it was written last, by a person, or it was approved since. -/
def Shows (actions : List SlotAction) (value : String) : Prop :=
  ∃ newer older isAiGenerated, actions = newer ++ .wrote value isAiGenerated :: older ∧
    (∀ a ∈ newer, a = .approved) ∧ (isAiGenerated = false ∨ newer ≠ [])

/-- A text, when it is approved. -/
def shownText (text : Option (String × Bool)) : Option String :=
  (text.filter Prod.snd).map Prod.fst

lemma shownText_eq_some_iff {text : Option (String × Bool)} {value : String} :
    shownText text = some value ↔ text = some (value, true) := by
  cases text with
  | none => simp [shownText]
  | some text =>
      obtain ⟨stored, isApproved⟩ := text
      cases isApproved <;> simp [shownText]

section Actions

variable {actions : List SlotAction} {value : String}

/-- The last text is that of the newest write; it is approved when a person wrote it or an
approval came after it. -/
lemma lastText_eq_some_iff {isApproved : Bool} :
    lastText actions = some (value, isApproved) ↔
      ∃ newer older isAiGenerated, actions = newer ++ .wrote value isAiGenerated :: older ∧
        (∀ a ∈ newer, a = .approved) ∧ isApproved = (!isAiGenerated || !newer.isEmpty) := by
  induction actions generalizing isApproved with
  | nil =>
      constructor
      · intro h
        cases h
      · rintro ⟨newer, older, isAiGenerated, hactions, -⟩
        simp at hactions
  | cons a rest ih =>
      cases a with
      | wrote stored generated =>
          constructor
          · intro h
            cases h
            exact ⟨[], rest, generated, rfl, by simp, by simp⟩
          · rintro ⟨newer, older, isAiGenerated, hactions, hnewer, rfl⟩
            cases newer with
            | nil =>
                cases hactions
                simp [lastText]
            | cons b newer =>
                cases hactions
                cases hnewer _ List.mem_cons_self
      | approved =>
          have hlast : lastText (.approved :: rest) = some (value, isApproved) ↔
              isApproved = true ∧ ∃ stored, lastText rest = some (value, stored) := by
            rw [lastText]
            cases lastText rest with
            | none => simp
            | some text => simp [Prod.ext_iff, eq_comm, and_comm]
          rw [hlast]
          constructor
          · rintro ⟨rfl, stored, hstored⟩
            obtain ⟨newer, older, isAiGenerated, rfl, hnewer, -⟩ := ih.1 hstored
            exact ⟨.approved :: newer, older, isAiGenerated, rfl, by simpa using hnewer, by simp⟩
          · rintro ⟨newer, older, isAiGenerated, hactions, hnewer, rfl⟩
            cases newer with
            | nil => cases hactions
            | cons b newer =>
                cases hactions
                refine ⟨by simp, _, ih.2 ⟨newer, older, isAiGenerated, rfl, ?_, rfl⟩⟩
                exact fun a ha => hnewer a (List.mem_cons_of_mem _ ha)

/-- What the last text comes to for customers. -/
lemma shownText_lastText_iff : shownText (lastText actions) = some value ↔ Shows actions value := by
  rw [shownText_eq_some_iff, lastText_eq_some_iff]
  unfold Shows
  simp

lemma shownText_lastText_eq_none_iff :
    shownText (lastText actions) = none ↔ ¬ ∃ value, Shows actions value := by
  simp only [← shownText_lastText_iff]
  cases shownText (lastText actions) <;> simp

end Actions

/-! ## What the table holds -/

/-- The text in the row of a slot, and whether it is approved. -/
def storedText (w : World) (slot : TranslationSlot) : Option (String × Bool) :=
  (w.db.translationEntries.rows.find? fun e => decide (e.slot = slot)).map
    fun e => (e.value, e.isApproved)

section Stored

variable {w w' : World} {slot : TranslationSlot}

lemma storedText_of_mem {e : TranslationEntry} (he : e ∈ w.db.translationEntries.rows)
    (hslot : e.slot = slot) : storedText w slot = some (e.value, e.isApproved) := by
  unfold storedText
  cases hfind : w.db.translationEntries.rows.find? fun r => decide (r.slot = slot) with
  | none =>
      have hne := List.find?_eq_none.1 hfind e he
      exact absurd (decide_eq_true hslot) hne
  | some r =>
      have hr : r.slot = slot := by simpa using List.find?_some hfind
      have heq : r = e := w.db.translationEntries.eq_of_conflicts
        (List.mem_of_find?_eq_some hfind) he (decide_eq_true (hr.trans hslot.symm))
      rw [heq]
      rfl

lemma storedText_eq_none (h : ∀ e ∈ w.db.translationEntries.rows, e.slot ≠ slot) :
    storedText w slot = none := by
  simpa [storedText] using h

lemma exists_of_storedText {text : String × Bool} (h : storedText w slot = some text) :
    ∃ e ∈ w.db.translationEntries.rows, e.slot = slot ∧ (e.value, e.isApproved) = text := by
  obtain ⟨e, hfind, htext⟩ := Option.map_eq_some_iff.1 h
  exact ⟨e, List.mem_of_find?_eq_some hfind, by simpa using List.find?_some hfind, htext⟩

/-- The approved entry that a locale shows. -/
lemma value_entryIn (w : World) (entity : Entity) (field locale : String) :
    (entryIn locale (approvedEntries w entity field)).map TranslationEntry.value =
      shownText (storedText w ⟨entity, locale, field⟩) := by
  cases hfound : entryIn locale (approvedEntries w entity field) with
  | some e =>
      obtain ⟨hmem, hlocale⟩ := entryIn_eq_some hfound
      obtain ⟨he, hentity, hfield, happroved⟩ := mem_approvedEntries.1 hmem
      have hslot : e.slot = ⟨entity, locale, field⟩ := by
        rw [TranslationEntry.slot, hentity, hlocale, hfield]
      rw [storedText_of_mem he hslot, happroved]
      rfl
  | none =>
      cases hshown : shownText (storedText w ⟨entity, locale, field⟩) with
      | none => rfl
      | some value =>
          obtain ⟨e, he, hslot, htext⟩ := exists_of_storedText (shownText_eq_some_iff.1 hshown)
          have hmem : e ∈ approvedEntries w entity field :=
            mem_approvedEntries.2 ⟨he, congrArg TranslationSlot.entity hslot,
              congrArg TranslationSlot.field hslot, congrArg Prod.snd htext⟩
          exact absurd (congrArg TranslationSlot.locale hslot) (entryIn_eq_none.1 hfound e hmem)

/-- A read is decided by what customers see in two slots. -/
lemma getLocalizedField_eq (w : World) (entity : Entity) (field locale defaultLocale : String) :
    getLocalizedField w entity field locale defaultLocale =
      match shownText (storedText w ⟨entity, locale, field⟩) with
      | some value => { value := some value, locale := some locale, isFallback := false }
      | none =>
        match if locale ≠ defaultLocale then
            shownText (storedText w ⟨entity, defaultLocale, field⟩) else none with
        | some value => { value := some value, locale := some defaultLocale, isFallback := true }
        | none => { value := none, locale := none, isFallback := true } := by
  unfold getLocalizedField localize
  rw [← value_entryIn, ← value_entryIn]
  cases entryIn locale (approvedEntries w entity field) with
  | some e => rfl
  | none =>
      by_cases hdefault : locale = defaultLocale
      · simp [hdefault]
      · simp only [Option.map_none, ne_eq, hdefault, not_false_eq_true, if_true]
        cases entryIn defaultLocale (approvedEntries w entity field) with
        | some e => rfl
        | none => rfl

/-- An update of one row changes the text of its slot only. -/
lemma storedText_update {old : TranslationEntry} {a : Assignment TranslationEntry}
    (hold : old ∈ w.db.translationEntries.rows) (hslot : ∀ e, (a.apply e).slot = e.slot)
    (hw' : w' = Stored.put
      (w.db.translationEntries.update (fun e => Model.pk e == old.id) a) w) :
    storedText w' slot =
      if slot = old.slot then some ((a.apply old).value, (a.apply old).isApproved)
      else storedText w slot := by
  have hrows : w'.db.translationEntries =
      w.db.translationEntries.update (fun e => Model.pk e == old.id) a := by
    rw [hw']
    rfl
  split
  · rename_i heq
    have happly : a.on (fun e => Model.pk e == old.id) old = a.apply old :=
      a.on_pos (beq_self_eq_true old.id)
    have hmem : a.apply old ∈ w'.db.translationEntries.rows := by
      rw [hrows]
      exact (Table.mem_update _).2 ⟨old, hold, happly⟩
    exact storedText_of_mem hmem ((hslot old).trans heq.symm)
  · rename_i hne
    by_cases hexists : ∃ e ∈ w.db.translationEntries.rows, e.slot = slot
    · obtain ⟨e, he, heslot⟩ := hexists
      have hpk : Model.pk e ≠ old.id := by
        intro hpk
        rw [w.db.translationEntries.eq_of_pk he hold hpk] at heslot
        exact hne heslot.symm
      have hmem : e ∈ w'.db.translationEntries.rows := by
        rw [hrows]
        exact Table.mem_update_of_ne _ he hpk
      rw [storedText_of_mem hmem heslot, storedText_of_mem he heslot]
    · push Not at hexists
      rw [storedText_eq_none hexists]
      refine storedText_eq_none fun e he => ?_
      rw [hrows] at he
      obtain ⟨r, hr, -, rfl⟩ | ⟨hmem, -⟩ := Table.mem_update_pk _ he
      · rw [hslot r]
        exact hexists r hr
      · exact hexists e hmem

/-- `set_translation` changes the text of its slot only. -/
lemma storedText_set {written : TranslationSlot} {value : String} {isAiGenerated : Bool}
    {entry : TranslationEntry}
    (h : (updateOrCreateEntry written value isAiGenerated).run w = .ok (entry, w')) :
    storedText w' slot =
      if slot = written then some (value, !isAiGenerated) else storedText w slot := by
  obtain ⟨hdrafted, ⟨old, hold, rfl, -, hw'⟩ | ⟨hnone, t, hrows, rfl⟩⟩ := updateOrCreateEntry_ok h
  · exact storedText_update hold (fun _ => rfl) hw'
  · have hmem : ∀ e, e ∈ (Stored.put t w).db.translationEntries.rows ↔
        e ∈ w.db.translationEntries.rows ∨ e = entry := by
      intro e
      change e ∈ t.rows ↔ _
      rw [hrows, List.mem_append, List.mem_singleton]
    split
    · rename_i heq
      rw [storedText_of_mem ((hmem entry).2 (Or.inr rfl)) (hdrafted.slot_eq.trans heq.symm),
        hdrafted.value_eq, hdrafted.isApproved_eq]
    · rename_i hne
      by_cases hexists : ∃ e ∈ w.db.translationEntries.rows, e.slot = slot
      · obtain ⟨e, he, heslot⟩ := hexists
        rw [storedText_of_mem ((hmem e).2 (Or.inl he)) heslot, storedText_of_mem he heslot]
      · push Not at hexists
        rw [storedText_eq_none hexists]
        refine storedText_eq_none fun e he => ?_
        obtain he | rfl := (hmem e).1 he
        · exact hexists e he
        · rw [hdrafted.slot_eq]
          exact fun heq => hne heq.symm

/-- A write returns when its slot fits the columns. -/
lemma updateOrCreateEntry_isOk (value : String) (isAiGenerated : Bool)
    (hlocale : slot.locale.length ≤ 10) (hfield : slot.field.length ≤ 50) :
    ∃ entry w', (updateOrCreateEntry slot value isAiGenerated).run w = .ok (entry, w') := by
  by_cases hexists : ∃ e ∈ w.db.translationEntries.rows, e.slot = slot
  · obtain ⟨old, hold, rfl⟩ := hexists
    exact ⟨_, _, updateOrCreateEntry_run_of_mem value isAiGenerated hold⟩
  · push Not at hexists
    rw [updateOrCreateEntry_run_of_none value isAiGenerated hexists]
    have hfits : (decide (slot.locale.length ≤ 10) && decide (slot.field.length ≤ 50)) = true := by
      simp [hlocale, hfield]
    let mk : ℕ → TranslationEntry := fun id => {
      id := id
      contentType := slot.entity.contentType
      objectId := slot.entity.pk
      locale := slot.locale
      field := slot.field
      value := value
      isAiGenerated := isAiGenerated
      isApproved := !isAiGenerated }
    have hpk : ∀ i, Model.pk (mk i) = i := fun _ => rfl
    obtain ⟨t, hrun, -⟩ := @Objects.run_create_of_free _ ApiError _ _ _ mk hpk w hfits
      fun e he => decide_eq_false (hexists e he)
    exact ⟨_, _, hrun⟩

/-- An approval that returned found the entry of its id. -/
lemma approveTranslation_ok {entryId : Id} {entry : TranslationEntry}
    (h : (approveTranslation entryId).run w = (.ok entry, w')) :
    ∃ read ∈ w.db.translationEntries.rows, read.id = entryId ∧
      entry = { read with isApproved := true } ∧
      w' = Stored.put (w.db.translationEntries.update (fun e => Model.pk e == read.id)
        (TranslationEntry.setIsApproved true)) w := by
  obtain ⟨read, w₁, hread, hrest⟩ := Program.run_bind_ok h
  obtain ⟨rfl, hmem, hid⟩ := getEntry_ok (Program.run_exec_ok hread)
  obtain ⟨u, w₂, hsave, hreturn⟩ := Program.run_bind_ok hrest
  have hw₂ := Objects.save_ok (Program.run_exec_ok hsave)
  cases hreturn
  exact ⟨read, hmem, hid, rfl, hw₂⟩

/-- An approval of a stored entry returns it. -/
lemma approveTranslation_run {read : TranslationEntry}
    (hread : read ∈ w.db.translationEntries.rows) :
    ∃ w', (approveTranslation read.id).run w = (.ok { read with isApproved := true }, w') := by
  have hget : (getEntry read.id).run w = .ok (read, w) := by
    refine Tx.run_handling_ok (Objects.run_get_of_ok ?_)
    refine Table.get_of_unique hread (decide_eq_true rfl) fun e he hid => ?_
    exact w.db.translationEntries.eq_of_pk he hread (of_decide_eq_true hid)
  have hsave : ∃ w', (saveApproved read.id).run w = .ok ((), w') :=
    ⟨_, Objects.run_save_of_mem hread rfl⟩
  obtain ⟨w', hsave⟩ := hsave
  refine ⟨w', ?_⟩
  rw [approveTranslation, Program.liftM_eq, Program.run_exec_bind_of_ok hget, Program.liftM_eq,
    Program.run_exec_bind_of_ok hsave]
  rfl

/-- An approval that raised found no entry of its id. -/
lemma approveTranslation_error {entryId : Id} {raised : Raised ApiError}
    (h : (approveTranslation entryId).run w = (.error raised, w')) : w' = w := by
  by_cases hexists : ∃ e ∈ w.db.translationEntries.rows, e.id = entryId
  · obtain ⟨e, he, rfl⟩ := hexists
    obtain ⟨w₁, hrun⟩ := approveTranslation_run he
    rw [hrun] at h
    cases h
  · push Not at hexists
    have hget : (getEntry entryId).run w = .error (.app .translationEntryNotFound) :=
      (Tx.run_handling_error (Objects.run_get_of_error
        (Table.get_eq_doesNotExist_iff.2 fun e he => decide_eq_false (hexists e he)))).trans rfl
    rw [approveTranslation, Program.liftM_eq, Program.run_exec_bind_of_error hget] at h
    cases h
    rfl

/-- `approve_translation` approves the text of one slot. -/
lemma storedText_approve {entryId : Id} {entry : TranslationEntry}
    (h : (approveTranslation entryId).run w = (.ok entry, w')) :
    storedText w' slot =
      if slot = entry.slot then (storedText w slot).map fun text => (text.1, true)
      else storedText w slot := by
  obtain ⟨read, hread, -, rfl, hw'⟩ := approveTranslation_ok h
  rw [storedText_update hread (fun _ => rfl) hw']
  by_cases heq : slot = read.slot
  · rw [if_pos heq, storedText_of_mem hread heq.symm]
    exact (if_pos heq).symm
  · rw [if_neg heq]
    exact (if_neg heq).symm

end Stored

/-! ## Along a trace -/

section Trace

variable {w₀ w : World} {log : List EntryEvent}

lemma storedText_of_keepsEntries {w w' : World} (h : KeepsEntries w w') (slot : TranslationSlot) :
    storedText w' slot = storedText w slot := by
  unfold storedText
  rw [show w'.db.translationEntries = w.db.translationEntries from h]

/-- A call changes the text of a slot as its action on the slot says. -/
lemma storedText_event (c : EntryCall) (w : World) (slot : TranslationSlot) :
    storedText (Program.event EntryCall.service c w).after slot =
      match slotAction slot (Program.event EntryCall.service c w) with
      | none => storedText w slot
      | some (.wrote value isAiGenerated) => some (value, !isAiGenerated)
      | some .approved => (storedText w slot).map fun text => (text.1, true) := by
  rcases hrun : c.service.run w with ⟨result, w'⟩
  have hevent : Program.event EntryCall.service c w = ⟨c, w, result, w'⟩ := by
    rw [Program.event, hrun]
  rw [hevent]
  cases c with
  | setTranslation entity locale field value isAiGenerated =>
      cases result with
      | ok entry =>
          rw [slotAction]
          dsimp only
          rw [storedText_set (Program.run_exec_ok hrun)]
          split <;> rfl
      | error raised =>
          obtain ⟨rfl, -⟩ := Program.run_exec_error hrun
          rfl
  | approveTranslation entryId =>
      cases result with
      | ok entry =>
          rw [slotAction]
          dsimp only
          rw [storedText_approve hrun]
          split <;> rfl
      | error raised =>
          rw [approveTranslation_error hrun]
          rfl

/-- The row of every slot holds the last text of the log. -/
lemma storedText_of_trace (hempty : w₀.db.translationEntries.rows = [])
    (htrace : EntryTrace w₀ log w) (slot : TranslationSlot) :
    storedText w slot = lastText (slotActions slot log) := by
  induction htrace with
  | refl => exact storedText_eq_none fun e he => by simp [hempty] at he
  | call c _ _ ih =>
      rw [storedText_event, ih]
      unfold slotActions
      rw [List.filterMap_cons]
      cases slotAction slot (Program.event EntryCall.service c _) with
      | none => rfl
      | some a => cases a <;> rfl
  | env _ hkeeps ih => rw [storedText_of_keepsEntries hkeeps, ih]

/-- A call loses no entry, and what it returns is a copy of a stored entry. -/
lemma event_keeps (c : EntryCall) (w : World) :
    w.db.translationEntries.Keeps
        (Program.event EntryCall.service c w).after.db.translationEntries ∧
      ∀ entry, (Program.event EntryCall.service c w).result = .ok entry →
        (Program.event EntryCall.service c w).after.db.translationEntries.HasLater entry := by
  rcases hrun : c.service.run w with ⟨result, w'⟩
  have hevent : Program.event EntryCall.service c w = ⟨c, w, result, w'⟩ := by
    rw [Program.event, hrun]
  rw [hevent]
  cases c with
  | setTranslation entity locale field value isAiGenerated =>
      cases result with
      | ok entry =>
          have hset := Program.run_exec_ok hrun
          refine ⟨(TranslationStep.set hset).sound.1, fun returned hreturned => ?_⟩
          cases hreturned
          obtain ⟨hdrafted, ⟨old, hold, hslot, hid, rfl⟩ | ⟨-, t, hrows, rfl⟩⟩ :=
            updateOrCreateEntry_ok hset
          · obtain ⟨e, he, heid, heslot⟩ := (TranslationStep.set hset).sound.1 old hold
            exact ⟨e, he, heid.trans hid.symm,
              heslot.trans (hslot.trans hdrafted.slot_eq.symm)⟩
          · refine Table.hasLater_of_mem (t := t) ?_
            rw [hrows]
            exact List.mem_append_right _ (List.mem_singleton_self _)
      | error raised =>
          obtain ⟨rfl, -⟩ := Program.run_exec_error hrun
          exact ⟨Table.Keeps.refl _, fun _ hreturned => by cases hreturned⟩
  | approveTranslation entryId =>
      cases result with
      | ok entry =>
          obtain ⟨read, hread, -, rfl, rfl⟩ := approveTranslation_ok hrun
          have hkeeps := (@TranslationStep.save read w _ rfl).sound.1
          refine ⟨hkeeps, fun returned hreturned => ?_⟩
          cases hreturned
          obtain ⟨e, he, heid, heslot⟩ := hkeeps read hread
          exact ⟨e, he, heid, heslot⟩
      | error raised =>
          rw [approveTranslation_error hrun]
          exact ⟨Table.Keeps.refl _, fun _ hreturned => by cases hreturned⟩

/-- What a call returned is a copy of an entry that is still stored. -/
lemma hasLater_of_trace (htrace : EntryTrace w₀ log w) :
    ∀ e ∈ log, ∀ entry, e.result = .ok entry → w.db.translationEntries.HasLater entry := by
  induction htrace with
  | refl =>
      intro e he
      cases he
  | call c _ _ ih =>
      obtain ⟨hkeeps, hreturned⟩ := event_keeps c _
      intro e he entry hentry
      obtain rfl | he := List.mem_cons.1 he
      · exact hreturned entry hentry
      · exact hkeeps.hasLater (ih e he entry hentry)
  | env _ hsame ih =>
      exact fun e he entry hentry => (keeps_of_keepsEntries hsame).hasLater (ih e he entry hentry)

/-! ## The reads -/

/-- The calls of a log return when they can: a write to a slot that fits the columns, and an
approval of the entry that an earlier write returned, which approves that slot. -/
structure CallsReturn (log : List EntryEvent) : Prop where
  written : ∀ e ∈ log, ∀ entity locale field value isAiGenerated,
    e.call = .setTranslation entity locale field value isAiGenerated → locale.length ≤ 10 →
      field.length ≤ 50 → ∃ entry, e.result = .ok entry
  approved : ∀ newer e older, log = newer ++ e :: older → ∀ e' ∈ older,
    ∀ entity locale field value isAiGenerated entry,
      e'.call = .setTranslation entity locale field value isAiGenerated → e'.result = .ok entry →
        e.call = .approveTranslation entry.id →
          slotAction ⟨entity, locale, field⟩ e = some .approved

lemma callsReturn_of_trace (htrace : EntryTrace w₀ log w) : CallsReturn log where
  written e he entity locale field value isAiGenerated hcall hlocale hfield := by
    obtain ⟨older, -, -, hevent⟩ := htrace.of_mem he
    obtain ⟨entry, w', hrun⟩ := @updateOrCreateEntry_isOk e.before ⟨entity, locale, field⟩ value
      isAiGenerated hlocale hfield
    refine ⟨entry, ?_⟩
    rw [hevent, hcall]
    exact congrArg Prod.fst (Tx.exec_ok hrun)
  approved newer e older hlog e' he' entity locale field value isAiGenerated entry hset hresult
      happrove := by
    obtain ⟨htrace', -, hevent⟩ := htrace.earlier hlog
    obtain ⟨stored, hstored, hid, hslot⟩ := hasLater_of_trace htrace' e' he' entry hresult
    have hwritten : entry.slot = ⟨entity, locale, field⟩ := by
      obtain ⟨_, -, -, hevent'⟩ := htrace'.of_mem he'
      rw [hevent', hset] at hresult
      have hrun := Program.run_exec_ok (Prod.ext hresult rfl)
      exact (updateOrCreateEntry_ok hrun).1.slot_eq
    obtain ⟨w', hrun⟩ := approveTranslation_run hstored
    have hid' : stored.id = entry.id := hid
    have hslot' : stored.slot = entry.slot := hslot
    have happroved : e.result = .ok { stored with isApproved := true } := by
      rw [hevent, happrove, ← hid']
      exact congrArg Prod.fst hrun
    unfold slotAction
    rw [happrove, happroved]
    exact if_pos (hwritten.symm.trans hslot'.symm)

/-- A read returns the last text of its slot when customers see it, otherwise that of the default
locale when customers see that one, and otherwise nothing.  Other slots have no influence. -/
theorem localizedReads_of_trace (hempty : w₀.db.translationEntries.rows = [])
    (htrace : EntryTrace w₀ log w) (entity : Entity) (field locale defaultLocale : String) :
    (∀ value, getLocalizedField w entity field locale defaultLocale =
        { value := some value, locale := some locale, isFallback := false } ↔
      Shows (slotActions ⟨entity, locale, field⟩ log) value) ∧
    ((¬ ∃ value, Shows (slotActions ⟨entity, locale, field⟩ log) value) →
      locale ≠ defaultLocale → ∀ value,
        getLocalizedField w entity field locale defaultLocale =
            { value := some value, locale := some defaultLocale, isFallback := true } ↔
          Shows (slotActions ⟨entity, defaultLocale, field⟩ log) value) ∧
    ((¬ ∃ value, Shows (slotActions ⟨entity, locale, field⟩ log) value) →
      (locale = defaultLocale ∨
        ¬ ∃ value, Shows (slotActions ⟨entity, defaultLocale, field⟩ log) value) →
        getLocalizedField w entity field locale defaultLocale =
          { value := none, locale := none, isFallback := true }) ∧
    (∀ w₀' w' log', w₀'.db.translationEntries.rows = [] → EntryTrace w₀' log' w' →
      slotActions ⟨entity, locale, field⟩ log' = slotActions ⟨entity, locale, field⟩ log →
      slotActions ⟨entity, defaultLocale, field⟩ log' =
        slotActions ⟨entity, defaultLocale, field⟩ log →
      getLocalizedField w' entity field locale defaultLocale =
        getLocalizedField w entity field locale defaultLocale) ∧
    CallsReturn log := by
  have hrequested : shownText (storedText w ⟨entity, locale, field⟩) =
      shownText (lastText (slotActions ⟨entity, locale, field⟩ log)) := by
    rw [storedText_of_trace hempty htrace]
  have hdefault : shownText (storedText w ⟨entity, defaultLocale, field⟩) =
      shownText (lastText (slotActions ⟨entity, defaultLocale, field⟩ log)) := by
    rw [storedText_of_trace hempty htrace]
  refine ⟨fun value => ?_, fun hnone hne value => ?_, fun hnone hnot => ?_,
    fun w₀' w' log' hempty' htrace' hsame hsame' => ?_, callsReturn_of_trace htrace⟩
  · rw [← shownText_lastText_iff, ← hrequested, getLocalizedField_eq]
    cases shownText (storedText w ⟨entity, locale, field⟩) with
    | some shown => simp
    | none =>
        dsimp only
        split <;> simp
  · rw [← shownText_lastText_iff, ← hdefault, getLocalizedField_eq, hrequested,
      shownText_lastText_eq_none_iff.2 hnone, if_pos hne]
    cases shownText (storedText w ⟨entity, defaultLocale, field⟩) <;> simp
  · rw [getLocalizedField_eq, hrequested, shownText_lastText_eq_none_iff.2 hnone]
    obtain heq | hfallback := hnot
    · rw [if_neg (not_not.2 heq)]
    · rw [hdefault, shownText_lastText_eq_none_iff.2 hfallback, ite_self]
  · rw [getLocalizedField_eq, getLocalizedField_eq, storedText_of_trace hempty' htrace',
      storedText_of_trace hempty' htrace', hsame, hsame', storedText_of_trace hempty htrace,
      storedText_of_trace hempty htrace]

end Trace

/-! ### A draft that is approved -/

/-- A person names a product in the default locale; an AI drafts two names in another one, and the
second draft is approved. -/
def namingCalls : List EntryCall := [
  .setTranslation nameSlot.entity "vi" "name" "Ghe" false,
  .setTranslation nameSlot.entity "en" "name" "Stool" true,
  .setTranslation nameSlot.entity "en" "name" "Chair" true,
  .approveTranslation 1]

lemma namingTrace : EntryTrace {}
    (Program.Trace.execute EntryCall.service namingCalls ([], {})).1
    (Program.Trace.execute EntryCall.service namingCalls ([], {})).2 :=
  Program.Trace.execute_of_allowed .refl ⟨trivial, trivial, trivial, trivial, trivial⟩

theorem localizedReads_of_namingTrace :
    getLocalizedField (Program.Trace.execute EntryCall.service namingCalls ([], {})).2
        nameSlot.entity "name" "en" "vi" =
      { value := some "Chair", locale := some "en", isFallback := false } :=
  ((localizedReads_of_trace rfl namingTrace nameSlot.entity "name" "en" "vi").1 "Chair").2
    ⟨[.approved], [.wrote "Stool" true], true, rfl, by simp, Or.inr (List.cons_ne_nil _ _)⟩

end BePyEco
