import BePyEco.Common.FlattenedErrors

/-!
# The code of a Problem Details response

`exception_handler` takes the code of a single error that has no field.  The index of a list is part
of the field, so the error of `ValidationError("...")` has one, and an error below the key zero has
none.  A dict with the keys of a leaf hides the leaves that it contains.  `surfaces_iff` says for
which trees the code of a lone error is the code of the response and every leaf of every other tree
has an entry of its own in the list.
-/

namespace BePyEco

/-- The tree has one leaf, and no key on the path to it but the non-field key. -/
def LoneUnnamed (details : ErrorDetails) (leaf : Located ErrorDetail) : Prop :=
  leaves details = [leaf] ∧ ∀ k, PathStep.key k ∈ leaf.path → k = nonFieldErrorsKey

/-- The entries of the flat list, each with the path of the node that it is appended for. -/
def locatedErrors (nestedText : FullDetails → String) (details : ErrorDetails) :
    List (Located FlatError) :=
  (reports details).map fun r => ⟨r.path, reportEntry nestedText (.str "") r⟩

lemma map_value_locatedErrors (nestedText : FullDetails → String) (details : ErrorDetails) :
    (locatedErrors nestedText details).map Located.value =
      flattenFullDetails nestedText (getFullDetails details) (.str "") := by
  rw [flattenFullDetails_eq, locatedErrors, List.map_map]
  rfl

/-- The list has the entry that was appended for the leaf, with its code and its message. -/
def Listed (nestedText : FullDetails → String) (details : ErrorDetails) (errors : List FlatError)
    (leaf : Located ErrorDetail) : Prop :=
  ∃ error ∈ errors, ⟨leaf.path, error⟩ ∈ locatedErrors nestedText details ∧
    error.code = leaf.value.code ∧ error.message = leaf.value.message

/-- A lone error without a field gives the response its code and leaves the list empty; all the
leaves of every other tree are listed. -/
structure Surfaces (nestedText : FullDetails → String) (details : ErrorDetails)
    (body : ProblemDetails) : Prop where
  lone : ∀ leaf, LoneUnnamed details leaf → body.code = leaf.value.code ∧ body.errors = []
  listed : (¬ ∃ leaf, LoneUnnamed details leaf) → ∀ leaf ∈ leaves details,
    Listed nestedText details body.errors leaf

namespace ErrorDetails

mutual

/-- Every dict has each of its keys once. -/
def DistinctKeys : ErrorDetails → Prop
  | error _ => True
  | list items => DistinctKeysItems items
  | dict entries => (entries.map Prod.fst).Nodup ∧ DistinctKeysEntries entries

def DistinctKeysItems : List ErrorDetails → Prop
  | [] => True
  | item :: rest => item.DistinctKeys ∧ DistinctKeysItems rest

def DistinctKeysEntries : List (FieldKey × ErrorDetails) → Prop
  | [] => True
  | (_, value) :: rest => value.DistinctKeys ∧ DistinctKeysEntries rest

end

mutual

/-- No dict with the keys of a leaf contains a leaf. -/
def NoneHidden : ErrorDetails → Prop
  | error _ => True
  | list items => NoneHiddenItems items
  | dict entries =>
      if isLeafKeys (entries.map Prod.fst) then leavesEntries entries = []
      else NoneHiddenEntries entries

def NoneHiddenItems : List ErrorDetails → Prop
  | [] => True
  | item :: rest => item.NoneHidden ∧ NoneHiddenItems rest

def NoneHiddenEntries : List (FieldKey × ErrorDetails) → Prop
  | [] => True
  | (_, value) :: rest => value.NoneHidden ∧ NoneHiddenEntries rest

end

end ErrorDetails

/-- When the handler surfaces the errors of a tree. -/
structure SurfacesWhen (details : ErrorDetails) : Prop where
  /-- A lone error without a field is in no list, and no dict has the keys of a leaf. -/
  lone : ∀ leaf, LoneUnnamed details leaf →
    Unmistaken details ∧ ∀ i, PathStep.index i ∉ leaf.path
  /-- Where no dict has the keys of a leaf, a single leaf with a key has an index or a key on its
  path that is neither empty nor zero nor the non-field key. -/
  named : ∀ leaf, ¬ LoneUnnamed details leaf → leaves details = [leaf] → Unmistaken details →
    ∃ s ∈ segments leaf.path, s.truthy = true
  /-- In any tree but that of a lone error without a field, no leaf is in a dict with the keys of
  one. -/
  hidden : (¬ ∃ leaf, LoneUnnamed details leaf) → details.NoneHidden

/-! ## The single unnamed error -/

section Reports

variable {nestedText : FullDetails → String}

lemma truthy_foldl_joinSegment (segs : List FieldKey) (before : FieldKey) :
    (segs.foldl joinSegment before).truthy = true ↔
      before.truthy = true ∨ ∃ s ∈ segs, s.truthy = true := by
  induction segs generalizing before with
  | nil => simp
  | cons s rest ih =>
      have hjoin : (joinSegment before s).truthy = true ↔
          before.truthy = true ∨ s.truthy = true := by
        unfold joinSegment
        by_cases hs : s.truthy = true
        · by_cases hbefore : before.truthy = true
          · have hne : before.text ++ "." ++ s.text ≠ "" := by simp
            rw [if_pos hs, if_pos hbefore]
            exact iff_of_true (decide_eq_true hne) (Or.inl hbefore)
          · rw [if_pos hs, if_neg hbefore]
            exact iff_of_true hs (Or.inr hs)
        · rw [if_neg hs]
          exact (or_iff_left hs).symm
      rw [List.foldl_cons, ih, hjoin, or_assoc]
      simp only [List.mem_cons, exists_eq_or_imp]

/-- A field is truthy when some segment of its path is. -/
lemma truthy_fieldAt (path : List PathStep) :
    (fieldAt path (.str "")).truthy = true ↔ ∃ s ∈ segments path, s.truthy = true := by
  rw [fieldAt_eq, truthy_foldl_joinSegment]
  exact or_iff_right (by decide)

/-- The entries of a tree. -/
def flatErrors (nestedText : FullDetails → String) (details : ErrorDetails) : List FlatError :=
  (reports details).map (reportEntry nestedText (.str ""))

lemma singleUnnamedError_iff (details : ErrorDetails) :
    singleUnnamedError (flatErrors nestedText details) = true ↔
      ∃ r, reports details = [r] ∧ ¬ ∃ s ∈ segments r.path, s.truthy = true := by
  unfold flatErrors
  generalize reports details = rs
  match rs with
  | [] => exact iff_of_false Bool.false_ne_true (by rintro ⟨r, ⟨⟩, -⟩)
  | [r] =>
      have hfield : singleUnnamedError [reportEntry nestedText (.str "") r] = true ↔
          ¬ (fieldAt r.path (.str "")).truthy = true := by
        change (!(fieldAt r.path (.str "")).truthy) = true ↔ _
        rw [Bool.not_eq_true', Bool.not_eq_true]
      rw [List.map_singleton, hfield, truthy_fieldAt]
      constructor
      · intro h
        exact ⟨r, rfl, h⟩
      · rintro ⟨r', hr', h⟩
        obtain rfl := List.singleton_inj.1 hr'
        exact h
  | _ :: _ :: _ => exact iff_of_false Bool.false_ne_true (by rintro ⟨r, ⟨⟩, -⟩)

lemma leavesOf_of_error {r : Located ErrorDetails} {e : ErrorDetail} (h : r.value = .error e) :
    leavesOf r = [⟨r.path, e⟩] := by
  simp [leavesOf, h, leaves, Located.under]

/-- A leaf with no key on its path but the non-field key is in no mistaken dict. -/
lemma report_of_loneUnnamed {details : ErrorDetails} {leaf : Located ErrorDetail}
    (h : LoneUnnamed details leaf) : ⟨leaf.path, .error leaf.value⟩ ∈ reports details := by
  have hmem : leaf ∈ (reports details).flatMap leavesOf := by
    rw [← leaves_eq, h.1]
    exact List.mem_singleton_self leaf
  obtain ⟨r, hr, hbelow⟩ := List.mem_flatMap.1 hmem
  rcases isReport_reports details r hr with ⟨e, he⟩ | ⟨entries, hvalue, hkeys⟩
  · rw [leavesOf_of_error he] at hbelow
    obtain rfl := List.mem_singleton.1 hbelow
    rwa [← he]
  · exfalso
    obtain ⟨below, hleaf, rfl⟩ := List.mem_map.1 hbelow
    rw [hvalue] at hleaf
    obtain ⟨key, hkey, rest, hpath⟩ := exists_key_of_mem_leavesEntries hleaf
    have hunnamed : key = nonFieldErrorsKey := by
      refine h.2 key (List.mem_append_right _ ?_)
      rw [hpath]
      exact List.mem_cons_self
    have hall := List.all_eq_true.1 (Bool.and_eq_true _ _ ▸ hkeys).2 key hkey
    rw [hunnamed] at hall
    exact absurd hall (by decide)

/-- Where no dict has the keys of a leaf, a single leaf is the only report. -/
lemma reports_of_single {details : ErrorDetails} {leaf : Located ErrorDetail}
    (h : leaves details = [leaf]) (hunmistaken : Unmistaken details) :
    reports details = [⟨leaf.path, .error leaf.value⟩] := by
  have hall := (unmistaken_iff details).1 hunmistaken
  have hlength : (reports details).length = 1 := by
    have hleaves := congrArg List.length (leaves_eq details)
    rw [h, List.length_flatMap] at hleaves
    have hones : (reports details).map (fun r => (leavesOf r).length) =
        (reports details).map fun _ => 1 := by
      refine List.map_congr_left fun r hr => ?_
      obtain ⟨e, he⟩ := hall r hr
      rw [leavesOf_of_error he]
      rfl
    rw [hones, List.map_const', List.sum_replicate_nat, Nat.mul_one] at hleaves
    exact hleaves.symm
  obtain ⟨r, hr⟩ := List.length_eq_one_iff.1 hlength
  obtain ⟨e, he⟩ := hall r (hr ▸ List.mem_singleton_self r)
  have hleaf := leaves_eq details
  rw [h, hr, List.flatMap_singleton, leavesOf_of_error he] at hleaf
  obtain rfl := List.singleton_inj.1 hleaf
  rw [hr, ← he]

/-- A lone error without a field is the only report exactly when no dict has the keys of a leaf. -/
lemma reports_eq_singleton_iff {details : ErrorDetails} {leaf : Located ErrorDetail}
    (h : LoneUnnamed details leaf) :
    reports details = [⟨leaf.path, .error leaf.value⟩] ↔ Unmistaken details := by
  refine ⟨fun hreports => ?_, reports_of_single h.1⟩
  rw [unmistaken_iff]
  intro r hr
  rw [hreports] at hr
  exact ⟨leaf.value, by rw [List.mem_singleton.1 hr]⟩

/-- On a path without other keys than the non-field key, the segments are the indices. -/
lemma exists_truthy_iff_of_unnamed {path : List PathStep}
    (h : ∀ k, PathStep.key k ∈ path → k = nonFieldErrorsKey) :
    (∃ s ∈ segments path, s.truthy = true) ↔ ∃ i, PathStep.index i ∈ path := by
  constructor
  · rintro ⟨s, hs, -⟩
    obtain ⟨step, hstep, hsegment⟩ := List.mem_filterMap.1 hs
    cases step with
    | key k =>
        have hnone : (PathStep.key k).segment = none := if_pos (h k hstep)
        rw [hnone] at hsegment
        cases hsegment
    | index i => exact ⟨i, hstep⟩
  · rintro ⟨i, hi⟩
    exact ⟨.str (toString i), List.mem_filterMap.2 ⟨.index i, hi, rfl⟩, truthy_str_toString i⟩

/-- A dict that is read as a leaf contains none. -/
def HidesNothing (r : Located ErrorDetails) : Prop :=
  ∀ entries, r.value = .dict entries → leaves r.value = []

lemma hidesNothing_append {rs rs' : List (Located ErrorDetails)} :
    (∀ r ∈ rs ++ rs', HidesNothing r) ↔ (∀ r ∈ rs, HidesNothing r) ∧ ∀ r ∈ rs', HidesNothing r :=
  List.forall_mem_append

lemma hidesNothing_under {step : PathStep} {rs : List (Located ErrorDetails)} :
    (∀ r ∈ rs.map (Located.under [step]), HidesNothing r) ↔ ∀ r ∈ rs, HidesNothing r :=
  List.forall_mem_map

mutual

theorem noneHidden_iff : ∀ details : ErrorDetails,
    details.NoneHidden ↔ ∀ r ∈ reports details, HidesNothing r
  | .error e => by
      refine iff_of_true trivial fun r hr entries hvalue => ?_
      rw [List.mem_singleton.1 hr] at hvalue
      cases hvalue
  | .list items => by
      rw [ErrorDetails.NoneHidden, reports]
      exact noneHiddenItems_iff items 0
  | .dict entries => by
      rw [ErrorDetails.NoneHidden, reports]
      split
      · refine ⟨fun hnone r hr _ _ => ?_, fun h => h _ (List.mem_singleton_self _) entries rfl⟩
        rw [List.mem_singleton.1 hr]
        exact hnone
      · exact noneHiddenEntries_iff entries

theorem noneHiddenItems_iff : ∀ (items : List ErrorDetails) (index : ℕ),
    ErrorDetails.NoneHiddenItems items ↔ ∀ r ∈ reportsItems index items, HidesNothing r
  | [], _ => iff_of_true trivial (by simp [reportsItems])
  | item :: rest, index => by
      rw [ErrorDetails.NoneHiddenItems, reportsItems, hidesNothing_append, hidesNothing_under,
        noneHidden_iff item, noneHiddenItems_iff rest]

theorem noneHiddenEntries_iff : ∀ entries : List (FieldKey × ErrorDetails),
    ErrorDetails.NoneHiddenEntries entries ↔ ∀ r ∈ reportsEntries entries, HidesNothing r
  | [] => iff_of_true trivial (by simp [reportsEntries])
  | (key, value) :: rest => by
      rw [ErrorDetails.NoneHiddenEntries, reportsEntries, hidesNothing_append, hidesNothing_under,
        noneHidden_iff value, noneHiddenEntries_iff rest]

end

/-- No path goes on below another one. -/
def PrefixFree (rs : List (Located ErrorDetails)) : Prop :=
  ∀ r ∈ rs, ∀ r' ∈ rs, r.path <+: r'.path → r.path = r'.path

/-- Every path begins with one of the steps. -/
def BeginsIn (steps : PathStep → Prop) (rs : List (Located ErrorDetails)) : Prop :=
  ∀ r ∈ rs, ∃ step rest, steps step ∧ r.path = step :: rest

lemma beginsIn_under (step : PathStep) (rs : List (Located ErrorDetails)) :
    BeginsIn (· = step) (rs.map (Located.under [step])) := by
  intro r hr
  obtain ⟨r', -, rfl⟩ := List.mem_map.1 hr
  exact ⟨step, r'.path, rfl, rfl⟩

lemma PrefixFree.under {rs : List (Located ErrorDetails)} (h : PrefixFree rs) (step : PathStep) :
    PrefixFree (rs.map (Located.under [step])) := by
  intro r hr r' hr' hgoes
  obtain ⟨r₁, hr₁, rfl⟩ := List.mem_map.1 hr
  obtain ⟨r₂, hr₂, rfl⟩ := List.mem_map.1 hr'
  exact congrArg (List.cons step) (h r₁ hr₁ r₂ hr₂ (List.cons_prefix_cons.1 hgoes).2)

/-- Behind other first steps there are other paths. -/
lemma PrefixFree.append {rs rs' : List (Located ErrorDetails)} (h : PrefixFree rs)
    (h' : PrefixFree rs') {steps : PathStep → Prop} {step : PathStep}
    (hfirst : BeginsIn (· = step) rs) (hlater : BeginsIn steps rs') (hstep : ¬ steps step) :
    PrefixFree (rs ++ rs') := by
  intro r hr r' hr' hgoes
  obtain hr | hr := List.mem_append.1 hr
  · obtain hr' | hr' := List.mem_append.1 hr'
    · exact h r hr r' hr' hgoes
    · obtain ⟨_, rest, rfl, hpath⟩ := hfirst r hr
      obtain ⟨step', rest', hstep', hpath'⟩ := hlater r' hr'
      rw [hpath, hpath', List.cons_prefix_cons] at hgoes
      exact absurd (hgoes.1 ▸ hstep') hstep
  · obtain hr' | hr' := List.mem_append.1 hr'
    · obtain ⟨_, rest', rfl, hpath'⟩ := hfirst r' hr'
      obtain ⟨step', rest, hstep', hpath⟩ := hlater r hr
      rw [hpath, hpath', List.cons_prefix_cons] at hgoes
      exact absurd (hgoes.1 ▸ hstep') hstep
    · exact h' r hr r' hr' hgoes

lemma beginsIn_reportsItems (items : List ErrorDetails) (index : ℕ) :
    BeginsIn (fun step => ∃ i, index ≤ i ∧ step = .index i) (reportsItems index items) := by
  induction items generalizing index with
  | nil => exact fun r hr => by cases hr
  | cons item rest ih =>
      intro r hr
      rw [reportsItems, List.mem_append] at hr
      obtain hr | hr := hr
      · obtain ⟨step, below, rfl, hpath⟩ := beginsIn_under _ _ r hr
        exact ⟨_, below, ⟨index, Nat.le_refl index, rfl⟩, hpath⟩
      · obtain ⟨step, below, ⟨i, hi, rfl⟩, hpath⟩ := ih (index + 1) r hr
        exact ⟨_, below, ⟨i, Nat.le_of_succ_le hi, rfl⟩, hpath⟩

lemma beginsIn_reportsEntries (entries : List (FieldKey × ErrorDetails)) :
    BeginsIn (fun step => ∃ key ∈ entries.map Prod.fst, step = .key key)
      (reportsEntries entries) := by
  induction entries with
  | nil => exact fun r hr => by cases hr
  | cons entry rest ih =>
      intro r hr
      rw [reportsEntries, List.mem_append] at hr
      obtain hr | hr := hr
      · obtain ⟨step, below, rfl, hpath⟩ := beginsIn_under _ _ r hr
        exact ⟨_, below, ⟨_, List.mem_cons_self, rfl⟩, hpath⟩
      · obtain ⟨step, below, ⟨key, hkey, rfl⟩, hpath⟩ := ih r hr
        exact ⟨_, below, ⟨key, List.mem_cons_of_mem _ hkey, rfl⟩, hpath⟩

mutual

/-- A node that is read as a leaf is not below another one. -/
theorem prefixFree_reports : ∀ details : ErrorDetails, details.DistinctKeys →
    PrefixFree (reports details)
  | .error e, _ => by
      intro r hr r' hr' _
      rw [List.mem_singleton.1 hr, List.mem_singleton.1 hr']
  | .list items, h => by
      rw [reports]
      exact prefixFree_reportsItems items 0 h
  | .dict entries, h => by
      rw [reports]
      split
      · intro r hr r' hr' _
        rw [List.mem_singleton.1 hr, List.mem_singleton.1 hr']
      · exact prefixFree_reportsEntries entries h.1 h.2

theorem prefixFree_reportsItems : ∀ (items : List ErrorDetails) (index : ℕ),
    ErrorDetails.DistinctKeysItems items → PrefixFree (reportsItems index items)
  | [], _, _ => fun r hr => by cases hr
  | item :: rest, index, h => by
      rw [reportsItems]
      refine ((prefixFree_reports item h.1).under _).append
        (prefixFree_reportsItems rest (index + 1) h.2) (beginsIn_under _ _)
        (beginsIn_reportsItems rest (index + 1)) ?_
      rintro ⟨i, hi, heq⟩
      cases heq
      exact absurd hi (Nat.not_succ_le_self index)

theorem prefixFree_reportsEntries : ∀ entries : List (FieldKey × ErrorDetails),
    (entries.map Prod.fst).Nodup → ErrorDetails.DistinctKeysEntries entries →
      PrefixFree (reportsEntries entries)
  | [], _, _ => fun r hr => by cases hr
  | (key, value) :: rest, hkeys, h => by
      rw [reportsEntries]
      obtain ⟨hkey, hrest⟩ := List.nodup_cons.1 hkeys
      refine ((prefixFree_reports value h.1).under _).append
        (prefixFree_reportsEntries rest hrest h.2) (beginsIn_under _ _)
        (beginsIn_reportsEntries rest) ?_
      rintro ⟨key', hkey', heq⟩
      cases heq
      exact hkey hkey'

end

end Reports

/-! ## The response -/

section Response

variable {nestedText : FullDetails → String} {exc : ApiException} {request : Option HandlerRequest}

lemma problemDetails_errors :
    (problemDetails nestedText exc request).errors =
      if singleUnnamedError (flatErrors nestedText exc.detail) then []
      else flatErrors nestedText exc.detail := by
  unfold problemDetails
  simp only [flattenFullDetails_eq]
  rfl

lemma problemDetails_code :
    (problemDetails nestedText exc request).code =
      problemCode (flatErrors nestedText exc.detail) exc.defaultCode := by
  unfold problemDetails
  simp only [flattenFullDetails_eq]
  rfl

/-- A lone error surfaces exactly when it is the single unnamed one. -/
lemma surfaces_lone_iff {leaf : Located ErrorDetail} (h : LoneUnnamed exc.detail leaf) :
    ((problemDetails nestedText exc request).code = leaf.value.code ∧
      (problemDetails nestedText exc request).errors = []) ↔
      Unmistaken exc.detail ∧ ∀ i, PathStep.index i ∉ leaf.path := by
  have hmem := report_of_loneUnnamed h
  have hsingle : singleUnnamedError (flatErrors nestedText exc.detail) = true ↔
      Unmistaken exc.detail ∧ ∀ i, PathStep.index i ∉ leaf.path := by
    rw [singleUnnamedError_iff, ← reports_eq_singleton_iff h]
    constructor
    · rintro ⟨r, hr, hfalsy⟩
      rw [hr] at hmem ⊢
      obtain rfl := List.mem_singleton.1 hmem
      rw [exists_truthy_iff_of_unnamed h.2] at hfalsy
      exact ⟨rfl, not_exists.1 hfalsy⟩
    · rintro ⟨hreports, hindex⟩
      refine ⟨_, hreports, ?_⟩
      rw [exists_truthy_iff_of_unnamed h.2]
      exact not_exists.2 hindex
  rw [← hsingle, problemDetails_errors, problemDetails_code]
  constructor
  · rintro ⟨-, herrors⟩
    by_contra hnot
    rw [if_neg hnot] at herrors
    rw [List.map_eq_nil_iff.1 herrors] at hmem
    cases hmem
  · intro hunnamed
    refine ⟨?_, if_pos hunnamed⟩
    obtain ⟨r, hr, -⟩ := (singleUnnamedError_iff exc.detail).1 hunnamed
    rw [hr] at hmem
    obtain rfl := List.mem_singleton.1 hmem
    rw [problemCode, if_pos hunnamed, flatErrors, hr]
    rfl

/-- A leaf outside the dicts that are read as leaves has an entry of its own. -/
lemma listed_of_report {leaf : Located ErrorDetail}
    (h : ⟨leaf.path, .error leaf.value⟩ ∈ reports exc.detail) :
    Listed nestedText exc.detail (flatErrors nestedText exc.detail) leaf :=
  ⟨_, List.mem_map_of_mem h, List.mem_map_of_mem h, rfl, rfl⟩

/-- Where no leaf is in such a dict, every leaf is reported at its own path. -/
lemma report_of_leaf {details : ErrorDetails} (hhidden : details.NoneHidden)
    {leaf : Located ErrorDetail} (hleaf : leaf ∈ leaves details) :
    ⟨leaf.path, .error leaf.value⟩ ∈ reports details := by
  rw [leaves_eq] at hleaf
  obtain ⟨r, hr, hbelow⟩ := List.mem_flatMap.1 hleaf
  obtain ⟨e, he⟩ | ⟨entries, hvalue, -⟩ := isReport_reports details r hr
  · rw [leavesOf_of_error he] at hbelow
    rw [List.mem_singleton.1 hbelow, ← he]
    exact hr
  · rw [leavesOf, (noneHidden_iff details).1 hhidden r hr entries hvalue] at hbelow
    cases hbelow

/-- A leaf in a dict that is read as a leaf has none. -/
lemma not_listed_of_hidden {errors : List FlatError} (hkeys : exc.detail.DistinctKeys)
    {r : Located ErrorDetails} (hr : r ∈ reports exc.detail)
    {entries : List (FieldKey × ErrorDetails)} (hvalue : r.value = .dict entries)
    {leaf : Located ErrorDetail} (hleaf : leaf ∈ leaves r.value) :
    ¬ Listed nestedText exc.detail errors (leaf.under r.path) := by
  rintro ⟨error, -, hown, -⟩
  obtain ⟨r', hr', hlocated⟩ := List.mem_map.1 hown
  have hpath : r'.path = r.path ++ leaf.path := congrArg Located.path hlocated
  have hsame : r.path = r'.path :=
    prefixFree_reports exc.detail hkeys r hr r' hr' (hpath ▸ List.prefix_append r.path leaf.path)
  rw [hvalue] at hleaf
  obtain ⟨key, -, rest, hbelow⟩ := exists_key_of_mem_leavesEntries hleaf
  rw [← hsame, hbelow] at hpath
  exact absurd (List.append_cancel_left (hpath.symm.trans (List.append_nil _).symm))
    (List.cons_ne_nil _ _)

/-- A single leaf with a key that is listed was not taken for the unnamed error. -/
lemma named_of_surfaces
    (h : Surfaces nestedText exc.detail (problemDetails nestedText exc request))
    {leaf : Located ErrorDetail} (hnot : ¬ LoneUnnamed exc.detail leaf)
    (hleaves : leaves exc.detail = [leaf]) (hunmistaken : Unmistaken exc.detail) :
    ∃ s ∈ segments leaf.path, s.truthy = true := by
  by_contra hfalsy
  have hsingle : singleUnnamedError (flatErrors nestedText exc.detail) = true :=
    (singleUnnamedError_iff exc.detail).2 ⟨_, reports_of_single hleaves hunmistaken, hfalsy⟩
  have hnone : ¬ ∃ leaf, LoneUnnamed exc.detail leaf := by
    rintro ⟨leaf', hleaves', hunnamed⟩
    obtain rfl := List.singleton_inj.1 (hleaves.symm.trans hleaves')
    exact hnot ⟨hleaves, hunnamed⟩
  have hleaf : leaf ∈ leaves exc.detail := hleaves ▸ List.mem_singleton_self leaf
  obtain ⟨error, herror, -⟩ := h.listed hnone leaf hleaf
  rw [problemDetails_errors, if_pos hsingle] at herror
  cases herror

/-- Where every leaf of such a tree is listed, none is in a dict that is read as a leaf. -/
lemma noneHidden_of_surfaces (hkeys : exc.detail.DistinctKeys)
    (h : Surfaces nestedText exc.detail (problemDetails nestedText exc request))
    (hnone : ¬ ∃ leaf, LoneUnnamed exc.detail leaf) : exc.detail.NoneHidden := by
  rw [noneHidden_iff]
  intro r hr entries hvalue
  refine List.eq_nil_iff_forall_not_mem.2 fun leaf hleaf => ?_
  have hbelow : leaf.under r.path ∈ leaves exc.detail := by
    rw [leaves_eq]
    exact List.mem_flatMap.2 ⟨r, hr, List.mem_map_of_mem hleaf⟩
  exact not_listed_of_hidden hkeys hr hvalue hleaf (h.listed hnone _ hbelow)

/-- A leaf that is reported in such a tree is not taken for the unnamed error. -/
lemma SurfacesWhen.not_single (h : SurfacesWhen exc.detail)
    (hnone : ¬ ∃ leaf, LoneUnnamed exc.detail leaf) {leaf : Located ErrorDetail}
    (hr : ⟨leaf.path, .error leaf.value⟩ ∈ reports exc.detail) :
    ¬ singleUnnamedError (flatErrors nestedText exc.detail) = true := by
  rw [singleUnnamedError_iff]
  rintro ⟨r', hr', hfalsy⟩
  rw [hr'] at hr
  obtain rfl := List.mem_singleton.1 hr
  have hleaves : leaves exc.detail = [leaf] := by
    rw [leaves_eq, hr', List.flatMap_singleton, leavesOf_of_error rfl]
  have hunmistaken : Unmistaken exc.detail := by
    rw [unmistaken_iff, hr']
    exact List.forall_mem_singleton.2 ⟨leaf.value, rfl⟩
  exact hfalsy (h.named leaf (fun hlone => hnone ⟨leaf, hlone⟩) hleaves hunmistaken)

/-- The code of a lone error without a field is the code of the response, with nothing listed, and
every leaf of every other tree is listed, exactly when `SurfacesWhen` holds of the tree. -/
theorem surfaces_iff (nestedText : FullDetails → String) (exc : ApiException)
    (hkeys : exc.detail.DistinctKeys) (request : Option HandlerRequest) :
    (∃ response, exceptionHandler nestedText (.api exc) request = some response ∧
      Surfaces nestedText exc.detail response.body) ↔ SurfacesWhen exc.detail := by
  constructor
  · rintro ⟨response, hresponse, hsurfaces⟩
    obtain rfl := Option.some.inj hresponse
    exact {
      lone := fun leaf h => (surfaces_lone_iff h).1 (hsurfaces.lone leaf h)
      named := fun _ => named_of_surfaces hsurfaces
      hidden := noneHidden_of_surfaces hkeys hsurfaces }
  · intro h
    refine ⟨_, rfl, fun leaf hlone => (surfaces_lone_iff hlone).2 (h.lone leaf hlone), ?_⟩
    intro hnone leaf hleaf
    have hreport := report_of_leaf (h.hidden hnone) hleaf
    change Listed nestedText exc.detail (problemDetails nestedText exc request).errors leaf
    rw [problemDetails_errors, if_neg (h.not_single hnone hreport)]
    exact listed_of_report hreport

end Response

/-! ### A validation error without a field and an error under the key zero -/

section Example

/-- `ValidationError(detail)`. -/
def validationError (detail : ErrorDetails) : ApiException where
  className := "ValidationError"
  statusCode := 400
  defaultCode := "invalid"
  defaultDetail := "Invalid input."
  detail := detail

/-- `ValidationError("Too many.", code="max_value")`: the detail is made a list. -/
def tooManyError : ApiException := validationError (.list [.error ⟨"Too many.", "max_value"⟩])

/-- `ValidationError({0: "Too many."}, code="max_value")`. -/
def keyZeroError : ApiException :=
  validationError (.dict [(.int 0, .error ⟨"Too many.", "max_value"⟩)])

/-- `ValidationError({"email": ["Taken."]})`. -/
def namedError : ApiException :=
  validationError (.dict [(.str "email", .list [.error ⟨"Taken.", "invalid"⟩])])

/-- An error with a field surfaces. -/
theorem surfaces_iff_namedError : ∃ response,
    exceptionHandler (fun _ => "") (.api namedError) none = some response ∧
      Surfaces (fun _ => "") namedError.detail response.body := by
  have hkeys : namedError.detail.DistinctKeys :=
    ⟨by decide, ⟨trivial, trivial⟩, trivial⟩
  have hpath : leaves namedError.detail =
    [⟨[.key (.str "email"), .index 0], ⟨"Taken.", "invalid"⟩⟩] := rfl
  have hnone : ¬ ∃ leaf, LoneUnnamed namedError.detail leaf := by
    rintro ⟨leaf, hleaves, hunnamed⟩
    obtain rfl := List.singleton_inj.1 (hpath.symm.trans hleaves)
    exact absurd (hunnamed (.str "email") List.mem_cons_self) (by decide)
  refine (surfaces_iff (fun _ => "") namedError hkeys none).2 ⟨?_, ?_, fun _ => ?_⟩
  · exact fun leaf hlone => absurd ⟨leaf, hlone⟩ hnone
  · intro leaf _ hleaves _
    obtain rfl := List.singleton_inj.1 (hpath.symm.trans hleaves)
    exact ⟨.str "email", by decide, by decide⟩
  · exact ⟨⟨trivial, trivial⟩, trivial⟩

/-- The first response has the code `invalid` and a list; the second has no list. -/
theorem not_surfaces_examples :
    ¬ Surfaces (fun _ => "") tooManyError.detail
      (problemDetails (fun _ => "") tooManyError none) ∧
    ¬ Surfaces (fun _ => "") keyZeroError.detail
      (problemDetails (fun _ => "") keyZeroError none) := by
  constructor
  · intro h
    have hlone : LoneUnnamed tooManyError.detail ⟨[.index 0], ⟨"Too many.", "max_value"⟩⟩ :=
      ⟨rfl, by simp⟩
    exact absurd (h.lone _ hlone).1 (by decide)
  · intro h
    have hnot : ¬ ∃ leaf, LoneUnnamed keyZeroError.detail leaf := by
      rintro ⟨leaf, hleaves, hkeys⟩
      have hleaf : ⟨[.key (.int 0)], ⟨"Too many.", "max_value"⟩⟩ = leaf :=
        List.singleton_inj.1 hleaves
      subst hleaf
      exact absurd (hkeys (.int 0) List.mem_cons_self) (by decide)
    obtain ⟨error, herror, -⟩ := h.listed hnot _ (List.mem_singleton_self _)
    have hempty : (problemDetails (fun _ => "") keyZeroError none).errors = [] := by decide
    rw [hempty] at herror
    cases herror

end Example

end BePyEco
