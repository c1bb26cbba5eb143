import BePyEco.Translation.Approvals

/-!
# Drafts of an AI

What customers see of a draft.  A translation has one row for each entity, locale and field, and
`get_localized_field` reads approved rows only.  A draft in a slot without an approved entry is
invisible until it is approved; a draft in a slot with an approved entry takes the row of the
approved text, which customers then no longer see.
-/

namespace BePyEco

open Library

/-- Every read of every field returns the same. -/
def SameReads (w w' : World) : Prop :=
  ∀ entity field locale defaultLocale,
    getLocalizedField w' entity field locale defaultLocale =
      getLocalizedField w entity field locale defaultLocale

/-- The slot holds an approved entry. -/
def HasApproved (w : World) (slot : TranslationSlot) : Prop :=
  ∃ e ∈ w.db.translationEntries.rows, e.slot = slot ∧ e.isApproved = true

/-! ## One draft -/

section Draft

variable {w w' : World} {slot : TranslationSlot} {value : String}

lemma SameReads.refl (w : World) : SameReads w w := fun _ _ _ _ => rfl

lemma SameReads.trans {w'' : World} (h : SameReads w w') (h' : SameReads w' w'') :
    SameReads w w'' :=
  fun entity field locale defaultLocale =>
    (h' entity field locale defaultLocale).trans (h entity field locale defaultLocale)

/-- The reads depend on the approved rows only. -/
lemma SameReads.of_approved
    (h : w'.db.translationEntries.rows.filter TranslationEntry.isApproved =
      w.db.translationEntries.rows.filter TranslationEntry.isApproved) : SameReads w w' := by
  intro entity field locale defaultLocale
  have happroved : ∀ v : World, approvedEntries v entity field =
      (v.db.translationEntries.rows.filter TranslationEntry.isApproved).filter
        fun e => decide (e.entity = entity) && decide (e.field = field) := by
    intro v
    simp only [approvedEntries, entriesForEntity, List.filter_filter]
    refine List.filter_congr fun e _ => ?_
    cases e.isApproved <;> simp [Bool.and_comm]
  unfold getLocalizedField
  rw [happroved w, happroved w', h]

lemma SameReads.of_keepsEntries (h : KeepsEntries w w') : SameReads w w' := by
  refine .of_approved ?_
  rw [show w'.db.translationEntries = w.db.translationEntries from h]

/-- A draft in a slot without an approved entry leaves the approved rows as they are. -/
lemma sameReads_of_draft {entry : TranslationEntry}
    (h : (updateOrCreateEntry slot value true).run w = .ok (entry, w'))
    (hnone : ¬ HasApproved w slot) : SameReads w w' := by
  obtain ⟨hdrafted, ⟨old, hold, hslot, -, rfl⟩ | ⟨-, t, hrows, rfl⟩⟩ := updateOrCreateEntry_ok h
  · refine .of_approved (Table.filter_update _ fun e he hpk => ⟨?_, rfl⟩)
    have heold : e = old := w.db.translationEntries.eq_of_pk he hold (beq_iff_eq.1 hpk)
    exact Bool.eq_false_of_not_eq_true fun happroved => hnone ⟨e, he, heold ▸ hslot, happroved⟩
  · refine .of_approved ?_
    change t.rows.filter _ = _
    rw [hrows, List.filter_append, List.filter_singleton, hdrafted.isApproved_eq]
    exact List.append_nil _

/-- A draft in a slot with an approved entry hides the approved text. -/
lemma not_sameReads_of_draft {entry : TranslationEntry}
    (h : (updateOrCreateEntry slot value true).run w = .ok (entry, w'))
    (happroved : HasApproved w slot) : ¬ SameReads w w' := by
  obtain ⟨e, he, rfl, happroved⟩ := happroved
  have hbefore : getLocalizedField w e.entity e.field e.locale e.locale =
      { value := some e.value, locale := some e.locale, isFallback := false } :=
    localized_of_mem he happroved
  rw [updateOrCreateEntry_run_of_mem value true he] at h
  cases h
  intro hsame
  have hafter := hsame e.entity e.field e.locale e.locale
  rw [hbefore] at hafter
  have hvalue := congrArg LocalizedField.value hafter
  have hlocale := congrArg LocalizedField.locale hafter
  -- the entry of the slot is the draft now, which is not approved
  obtain ⟨e', he', hslot, happroved', -⟩ := exists_of_localized hvalue hlocale
  obtain ⟨s, -, -, rfl⟩ | ⟨hmem, hpk⟩ := Table.mem_update_pk _ he'
  · cases happroved'
  · refine hpk ?_
    rw [w.db.translationEntries.eq_of_conflicts hmem he (decide_eq_true hslot)]
    rfl

end Draft

/-! ## Drafts among other calls -/

variable {ι : Type}

/-- The steps that make no text visible and store none of a person: reads, drafts in slots without
an approved entry, and the statements of other calls. -/
def NoApproval (P : TranslationPool ι) (i : ι) : Prop :=
  match P.pc i with
  | .inl (.set slot _ isAiGenerated) => isAiGenerated = true ∧ ¬ HasApproved P.store slot
  | .inl (.save _) => False
  | _ => True

section Runs

variable {P₀ P : TranslationPool ι}

lemma TranslationStep.sameReads {c c' : TranslationPc} {w' : World} {i : ι}
    (h : TranslationStep c P.store c' w') (hpc : P.pc i = .inl c) (hok : NoApproval P i) :
    SameReads P.store w' := by
  unfold NoApproval at hok
  rw [hpc] at hok
  cases h with
  | set hrun =>
      obtain ⟨rfl, hnone⟩ := hok
      exact sameReads_of_draft hrun hnone
  | unset hnone => exact .refl _
  | read hmem => exact .refl _
  | unread entryId raised w => exact .refl _
  | save hw' => exact hok.elim
  | unsaved hnone => exact .refl _

variable [DecidableEq ι]

/-- Along every run without an approval the reads stay as they are. -/
lemma sameReads_of_run
    (hothers : ∀ i rest, P₀.pc i = .inr rest → rest.Guarantees KeepsEntries)
    (hrun : translationSystem.Run NoApproval P₀ P) : SameReads P₀.store P.store := by
  induction hrun with
  | refl => exact .refl _
  | @call P i call' w' hrun hok hnext ih =>
      refine ih.trans ?_
      obtain ⟨c, c', hpc, -, hstep⟩ | ⟨rest, rest', hpc, -, hstep⟩ := translationSystem_next hnext
      · exact hstep.sameReads hpc hok
      · exact .of_keepsEntries ((Control.guarantees_of_pc hothers hrun hpc).step hstep).1
  | env _ henv ih => exact ih.trans (.of_keepsEntries henv)

/-- A draft leaves what customers see as it was, until an approval, exactly when its slot holds no
approved entry. -/
theorem draft_sameReads_iff {i : ι} {slot : TranslationSlot} {value : String}
    {call' : TranslationPc ⊕ Service Unit} {w' : World}
    (hothers : ∀ i rest, P₀.pc i = .inr rest → rest.Guarantees KeepsEntries)
    (hpc : P₀.pc i = .inl (.set slot value true))
    (hnext : translationSystem.next (P₀.pc i) P₀.store = some (call', w')) :
    (∀ P, translationSystem.Run NoApproval (P₀.advance i call' w') P →
        SameReads P₀.store P.store) ↔ ¬ HasApproved P₀.store slot := by
  constructor
  · intro hsame happroved
    have hsame' : SameReads P₀.store w' := hsame _ .refl
    rw [hpc] at hnext
    obtain ⟨c, c', hc, rfl, hstep⟩ | ⟨rest, rest', hc, -, -⟩ := translationSystem_next hnext
    · cases hc
      cases hstep with
      | set hrun => exact not_sameReads_of_draft hrun happroved hsame'
      | unset hnone =>
          obtain ⟨e, he, hslot, -⟩ := happroved
          exact hnone e he hslot
    · cases hc
  · intro hnone P hrun
    have hdraft : NoApproval P₀ i := by
      unfold NoApproval
      rw [hpc]
      exact ⟨rfl, hnone⟩
    exact sameReads_of_run hothers ((System.Run.refl.call hdraft hnext).trans hrun)

end Runs

/-! ### A draft that takes the row of an approved text -/

/-- A text of a person and a draft of an AI for the same slot. -/
def textAndDraft : TranslationPool (Fin 2) where
  store := {}
  pc
    | 0 => .inl (.set nameSlot "text" false)
    | 1 => .inl (.set nameSlot "draft" true)

lemma textAndDraft_pc_ne : ∀ i (rest : Service Unit), textAndDraft.pc i ≠ .inr rest
  | 0, _ => by simp [textAndDraft]
  | 1, _ => by simp [textAndDraft]

/-- The pool once the text is stored, and approved with that. -/
def textStored : TranslationPool (Fin 2) :=
  translationSystem.replay (fun _ _ => true) textAndDraft [⟨0, Nat.zero_lt_two⟩] rfl

/-- What the step of a call leaves for a read of the name. -/
def nameAfter (P : TranslationPool (Fin 2)) (i : Fin 2) : Option LocalizedField :=
  (translationSystem.next (P.pc i) P.store).map fun x =>
    getLocalizedField x.2 nameSlot.entity "name" "vi" "vi"

/-- A draft in an empty table changes no read. -/
theorem sameReads_of_first_draft :
    ∃ call' w', translationSystem.next (textAndDraft.pc 1) textAndDraft.store = some (call', w') ∧
      ∀ P, translationSystem.Run NoApproval (textAndDraft.advance 1 call' w') P →
        SameReads textAndDraft.store P.store := by
  have hothers : ∀ i rest, textAndDraft.pc i = .inr rest → rest.Guarantees KeepsEntries :=
    fun i rest hrest => absurd hrest (textAndDraft_pc_ne i rest)
  have hsome : (translationSystem.next (textAndDraft.pc 1) textAndDraft.store).isSome = true := rfl
  obtain ⟨⟨call', w'⟩, hnext⟩ := Option.isSome_iff_exists.1 hsome
  have hnone : ¬ HasApproved textAndDraft.store nameSlot := by
    rintro ⟨e, he, -⟩
    cases he
  exact ⟨call', w', hnext, (draft_sameReads_iff hothers rfl hnext).2 hnone⟩

/-- Once the text is visible, the draft hides it. -/
theorem not_sameReads :
    ¬ ∀ (P : TranslationPool (Fin 2)) i slot value call' w',
      P.pc i = .inl (.set slot value true) →
        translationSystem.next (P.pc i) P.store = some (call', w') → SameReads P.store w' := by
  intro hclaim
  have hshown : getLocalizedField textStored.store nameSlot.entity "name" "vi" "vi" =
      { value := some "text", locale := some "vi", isFallback := false } := by decide
  have hhidden : nameAfter textStored 1 =
      some { value := none, locale := none, isFallback := true } := by decide
  obtain ⟨⟨call', w'⟩, hnext, hread⟩ := Option.map_eq_some_iff.1 hhidden
  have hsame := hclaim textStored 1 nameSlot "draft" call' w' rfl hnext
    nameSlot.entity "name" "vi" "vi"
  rw [hread, hshown] at hsame
  cases hsame

end BePyEco
