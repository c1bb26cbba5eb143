import BePyEco.Database

/-!
# Translations

Storing, approving and reading the translations of an entity.  Text of an AI is stored as an
unapproved draft; `get_localized_field` reads approved entries only and falls back to the default
locale.
-/

namespace BePyEco

open Library

/-! ## Writing -/

/-- The insert of `update_or_create`. -/
def createEntry (slot : TranslationSlot) (value : String) (isAiGenerated : Bool) :
    Statement TranslationEntry :=
  Objects.create fun id => {
    id := id
    contentType := slot.entity.contentType
    objectId := slot.entity.pk
    locale := slot.locale
    field := slot.field
    value := value
    isAiGenerated := isAiGenerated
    isApproved := !isAiGenerated }

/-- `TranslationEntry.objects.update_or_create(...)`: one atomic statement. -/
def updateOrCreateEntry (slot : TranslationSlot) (value : String) (isAiGenerated : Bool) :
    Statement TranslationEntry :=
  (do let entry ← Objects.get fun e : TranslationEntry => decide (e.slot = slot)
      Objects.save entry.id (TranslationEntry.setValue value isAiGenerated)
      return (TranslationEntry.setValue value isAiGenerated).apply entry :
    Statement TranslationEntry).handling .doesNotExist (createEntry slot value isAiGenerated)

def setTranslation (entity : Entity) (locale field value : String) (isAiGenerated : Bool) :
    Service TranslationEntry :=
  updateOrCreateEntry ⟨entity, locale, field⟩ value isAiGenerated

/-- `TranslationEntry.objects.get(pk=entry_id)`. -/
def getEntry (entryId : Id) : Statement TranslationEntry :=
  (Objects.get fun e : TranslationEntry => decide (e.id = entryId)).handling .doesNotExist
    (Tx.raise (.app .translationEntryNotFound))

/-- `entry.save(update_fields=["is_approved", ...])` after `entry.is_approved = True`. -/
def saveApproved (entryId : Id) : Statement Unit :=
  Objects.save entryId (TranslationEntry.setIsApproved true)

def approveTranslation (entryId : Id) : Service TranslationEntry := do
  let entry ← getEntry entryId
  saveApproved entry.id
  return { entry with isApproved := true }

/-! ## Guarantees -/

section Guarantees

variable {R : World → World → Prop} [Std.Refl R] [IsTrans World R]

/-- `set_translation` moves the world as its insert and its save do. -/
lemma setTranslation_guarantees {entity : Entity} {locale field value : String}
    {isAiGenerated : Bool}
    (hcreate : (createEntry ⟨entity, locale, field⟩ value isAiGenerated).Guarantees R)
    (hsave : ∀ id, (Objects.save id (TranslationEntry.setValue value isAiGenerated) :
      Statement Unit).Guarantees R) :
    (setTranslation entity locale field value isAiGenerated).Guarantees R := by
  refine Program.guarantees_exec (Tx.Guarantees.handling ?_ _ hcreate)
  exact (Objects.guarantees_get _).bind fun entry =>
    (hsave entry.id).bind fun _ => Tx.guarantees_pure _

omit [IsTrans World R] in
lemma approveTranslation_guarantees {entryId : Id}
    (hsave : ∀ id, (saveApproved id).Guarantees R) :
    (approveTranslation entryId).Guarantees R := by
  have hget : (getEntry entryId).Guarantees R :=
    (Objects.guarantees_get _).handling _ (Tx.guarantees_raise _)
  refine (Program.guarantees_exec hget).bind fun entry => ?_
  exact (Program.guarantees_exec (hsave entry.id)).bind fun _ => trivial

end Guarantees

/-! ## Reading -/

/-- `entries_for_entity(entity)`. -/
def entriesForEntity (w : World) (entity : Entity) : List TranslationEntry :=
  w.db.translationEntries.rows.filter fun e => decide (e.entity = entity)

structure LocalizedField where
  value : Option String
  locale : Option String
  isFallback : Bool
  deriving DecidableEq, Repr

/-- The approved entries of a field. -/
def approvedEntries (w : World) (entity : Entity) (field : String) : List TranslationEntry :=
  (entriesForEntity w entity).filter fun e => decide (e.field = field) && e.isApproved

/-- The first entry in a locale. -/
def entryIn (locale : String) (entries : List TranslationEntry) : Option TranslationEntry :=
  entries.find? fun e => decide (e.locale = locale)

/-- What `get_localized_field` makes of the entries that its one query returns. -/
def localize (entries : List TranslationEntry) (locale defaultLocale : String) : LocalizedField :=
  match entryIn locale entries with
  | some requested => { value := some requested.value, locale := some locale, isFallback := false }
  | none =>
    match if locale ≠ defaultLocale then entryIn defaultLocale entries else none with
    | some fallback =>
      { value := some fallback.value, locale := some defaultLocale, isFallback := true }
    | none => { value := none, locale := none, isFallback := true }

/-- `get_localized_field(...)`, which is one query. -/
def getLocalizedField (w : World) (entity : Entity) (field locale defaultLocale : String) :
    LocalizedField :=
  localize (approvedEntries w entity field) locale defaultLocale

/-! ## What the reads find -/

section Reads

variable {w : World} {entity : Entity} {field locale defaultLocale : String}

lemma mem_approvedEntries {e : TranslationEntry} :
    e ∈ approvedEntries w entity field ↔
      e ∈ w.db.translationEntries.rows ∧ e.entity = entity ∧ e.field = field ∧
        e.isApproved = true := by
  simp only [approvedEntries, entriesForEntity, List.mem_filter, decide_eq_true_eq,
    Bool.and_eq_true]
  tauto

lemma entryIn_eq_some {entries : List TranslationEntry} {e : TranslationEntry}
    (h : entryIn locale entries = some e) : e ∈ entries ∧ e.locale = locale :=
  ⟨List.mem_of_find?_eq_some h, by simpa using List.find?_some h⟩

lemma entryIn_eq_none {entries : List TranslationEntry} :
    entryIn locale entries = none ↔ ∀ e ∈ entries, e.locale ≠ locale := by
  simp [entryIn]

/-- A value that is returned is the value of an approved entry in the locale it is returned
with. -/
lemma exists_of_localized {value returned : String}
    (h : (getLocalizedField w entity field locale defaultLocale).value = some value)
    (hreturned : (getLocalizedField w entity field locale defaultLocale).locale = some returned) :
    ∃ e ∈ w.db.translationEntries.rows, e.slot = ⟨entity, returned, field⟩ ∧
      e.isApproved = true ∧ e.value = value := by
  have hslot : ∀ e ∈ approvedEntries w entity field, e.locale = returned →
      e ∈ w.db.translationEntries.rows ∧ e.slot = ⟨entity, returned, field⟩ ∧
        e.isApproved = true := by
    intro e he hlocale
    obtain ⟨hmem, hentity, hfield, happroved⟩ := mem_approvedEntries.1 he
    refine ⟨hmem, ?_, happroved⟩
    unfold TranslationEntry.slot
    rw [hentity, hlocale, hfield]
  unfold getLocalizedField localize at h hreturned
  cases hrequested : entryIn locale (approvedEntries w entity field) with
  | some requested =>
      rw [hrequested] at h hreturned
      obtain ⟨he, hlocale⟩ := entryIn_eq_some hrequested
      obtain ⟨hmem, hslot', happroved⟩ :=
        hslot requested he (hlocale.trans (Option.some.inj hreturned))
      exact ⟨requested, hmem, hslot', happroved, Option.some.inj h⟩
  | none =>
      rw [hrequested] at h hreturned
      dsimp only at h hreturned
      split at h
      · rename_i fallback hfallback
        rw [hfallback] at hreturned
        split at hfallback
        · obtain ⟨he, hlocale⟩ := entryIn_eq_some hfallback
          obtain ⟨hmem, hslot', happroved⟩ :=
            hslot fallback he (hlocale.trans (Option.some.inj hreturned))
          exact ⟨fallback, hmem, hslot', happroved, Option.some.inj h⟩
        · cases hfallback
      · cases h

/-- A value in the default locale is returned with it. -/
lemma localized_locale {value : String}
    (h : (getLocalizedField w entity field locale locale).value = some value) :
    (getLocalizedField w entity field locale locale).locale = some locale := by
  unfold getLocalizedField localize at h ⊢
  cases hrequested : entryIn locale (approvedEntries w entity field) with
  | some requested => rfl
  | none =>
      rw [hrequested] at h
      simp at h

/-- A field with an approved entry in the default locale has a value in every locale. -/
lemma localized_ne_none {e : TranslationEntry} (hmem : e ∈ approvedEntries w entity field)
    (hdefault : e.locale = defaultLocale) :
    (getLocalizedField w entity field locale defaultLocale).value ≠ none := by
  unfold getLocalizedField localize
  split
  · exact nofun
  · rename_i hnone
    have hne : locale ≠ defaultLocale := by
      intro heq
      rw [heq] at hnone
      exact entryIn_eq_none.1 hnone e hmem hdefault
    rw [if_pos hne]
    split
    · exact nofun
    · rename_i hnone'
      exact absurd hdefault (entryIn_eq_none.1 hnone' e hmem)

/-- An approved entry is what its locale shows. -/
lemma localized_of_mem {e : TranslationEntry} (he : e ∈ w.db.translationEntries.rows)
    (happroved : e.isApproved = true) :
    getLocalizedField w e.entity e.field e.locale defaultLocale =
      { value := some e.value, locale := some e.locale, isFallback := false } := by
  have hmem : e ∈ approvedEntries w e.entity e.field :=
    mem_approvedEntries.2 ⟨he, rfl, rfl, happroved⟩
  have hrequested : entryIn e.locale (approvedEntries w e.entity e.field) = some e := by
    cases hfound : entryIn e.locale (approvedEntries w e.entity e.field) with
    | none => exact absurd rfl (entryIn_eq_none.1 hfound e hmem)
    | some e' =>
        obtain ⟨hmem', hlocale⟩ := entryIn_eq_some hfound
        obtain ⟨he', hentity, hfield, -⟩ := mem_approvedEntries.1 hmem'
        have hslot : e'.slot = e.slot := by
          unfold TranslationEntry.slot
          rw [hentity, hlocale, hfield]
        rw [w.db.translationEntries.eq_of_conflicts he' he (decide_eq_true hslot)]
  unfold getLocalizedField localize
  rw [hrequested]

end Reads

/-! ## What the statements do -/

section Runs

variable {w w' : World}

lemma updateOrCreateEntry_run_of_mem {old : TranslationEntry} (value : String)
    (isAiGenerated : Bool) (hold : old ∈ w.db.translationEntries.rows) :
    (updateOrCreateEntry old.slot value isAiGenerated).run w =
      .ok ((TranslationEntry.setValue value isAiGenerated).apply old,
        Stored.put (w.db.translationEntries.update (fun e => Model.pk e == old.id)
          (TranslationEntry.setValue value isAiGenerated)) w) := by
  have hget : w.db.translationEntries.get
      (fun e : TranslationEntry => decide (e.slot = old.slot)) = .ok old := by
    refine Table.get_of_unique hold (decide_eq_true rfl) fun e he hslot => ?_
    exact w.db.translationEntries.eq_of_conflicts he hold hslot
  have hsave : (Objects.save old.id (TranslationEntry.setValue value isAiGenerated) :
      Statement Unit).run w = .ok ((), Stored.put (w.db.translationEntries.update
        (fun e => Model.pk e == old.id) (TranslationEntry.setValue value isAiGenerated)) w) :=
    Objects.run_save_of_mem hold rfl
  refine Tx.run_handling_ok ?_
  rw [Tx.run_bind, Objects.run_get_of_ok hget]
  dsimp only
  rw [Tx.run_bind, hsave]
  rfl

lemma updateOrCreateEntry_run_of_none {slot : TranslationSlot} (value : String)
    (isAiGenerated : Bool) (hnone : ∀ e ∈ w.db.translationEntries.rows, e.slot ≠ slot) :
    (updateOrCreateEntry slot value isAiGenerated).run w =
      (createEntry slot value isAiGenerated).run w := by
  refine Tx.run_handling_error ?_
  rw [Tx.run_bind, Objects.run_get_of_error
    (Table.get_eq_doesNotExist_iff.2 fun e he => decide_eq_false (hnone e he))]

/-- The entry that `set_translation` leaves in the slot. -/
structure Drafted (slot : TranslationSlot) (value : String) (isAiGenerated : Bool)
    (entry : TranslationEntry) : Prop where
  slot_eq : entry.slot = slot
  value_eq : entry.value = value
  isAiGenerated_eq : entry.isAiGenerated = isAiGenerated
  isApproved_eq : entry.isApproved = !isAiGenerated

/-- What `update_or_create` does: the entry of the slot gets the new value, or is inserted. -/
lemma updateOrCreateEntry_ok {slot : TranslationSlot} {value : String} {isAiGenerated : Bool}
    {entry : TranslationEntry}
    (h : (updateOrCreateEntry slot value isAiGenerated).run w = .ok (entry, w')) :
    Drafted slot value isAiGenerated entry ∧
      ((∃ old ∈ w.db.translationEntries.rows, old.slot = slot ∧ entry.id = old.id ∧
          w' = Stored.put (w.db.translationEntries.update (fun e => Model.pk e == old.id)
            (TranslationEntry.setValue value isAiGenerated)) w) ∨
        ((∀ e ∈ w.db.translationEntries.rows, e.slot ≠ slot) ∧
          ∃ t : Table TranslationEntry,
            t.rows = w.db.translationEntries.rows ++ [entry] ∧ w' = Stored.put t w)) := by
  by_cases hnone : ∀ e ∈ w.db.translationEntries.rows, e.slot ≠ slot
  · rw [updateOrCreateEntry_run_of_none value isAiGenerated hnone] at h
    obtain ⟨t, hinsert, hw'⟩ := Objects.create_ok h
    obtain ⟨hentry, hrows, -⟩ := Table.insert_spec hinsert
    refine ⟨?_, Or.inr ⟨hnone, t, hrows, hw'⟩⟩
    rw [hentry]
    exact ⟨rfl, rfl, rfl, rfl⟩
  · push Not at hnone
    obtain ⟨old, hold, rfl⟩ := hnone
    rw [updateOrCreateEntry_run_of_mem value isAiGenerated hold] at h
    cases h
    exact ⟨⟨rfl, rfl, rfl, rfl⟩, Or.inl ⟨old, hold, rfl, rfl, rfl⟩⟩

/-- An `update_or_create` that fails had no entry to update. -/
lemma updateOrCreateEntry_error {slot : TranslationSlot} {value : String} {isAiGenerated : Bool}
    {raised : Raised ApiError}
    (h : (updateOrCreateEntry slot value isAiGenerated).run w = .error raised) :
    ∀ e ∈ w.db.translationEntries.rows, e.slot ≠ slot := by
  rintro old hold rfl
  rw [updateOrCreateEntry_run_of_mem value isAiGenerated hold] at h
  cases h

lemma getEntry_ok {entryId : Id} {entry : TranslationEntry}
    (h : (getEntry entryId).run w = .ok (entry, w')) :
    w' = w ∧ entry ∈ w.db.translationEntries.rows ∧ entry.id = entryId := by
  obtain hget | ⟨-, hraise⟩ := Tx.handling_ok h
  · obtain ⟨hw', hrow⟩ := Objects.get_ok hget
    exact ⟨hw', Table.mem_of_get hrow, by simpa using Table.holds_of_get hrow⟩
  · cases hraise

end Runs

end BePyEco
