import BePyEco.Common.Exceptions
import Mathlib.Algebra.GroupWithZero.Nat

/-!
# Flattened errors

`_flatten_full_details` returns one entry for every node that `_is_leaf` accepts
(`flattenFullDetails_eq`), with a field that is joined along the path.  A dict of the tree that has
the keys of a leaf is reported in place of the leaves below it, and a key that is empty or zero is
skipped in the field.  The list of a tree is faithful exactly when neither happens
(`flattensFaithfully_iff`).
-/

namespace BePyEco

/-! ## Leaves and their paths -/

/-- One step down a tree. -/
inductive PathStep
  | key (k : FieldKey)
  | index (i : ℕ)
  deriving DecidableEq, Repr

/-- What a step contributes to the field of an error. -/
def PathStep.segment : PathStep → Option FieldKey
  | key k => if k = nonFieldErrorsKey then none else some k
  | index i => some (.str (toString i))

/-- The segments of a path: its keys other than the non-field key, and its indices. -/
def segments (path : List PathStep) : List FieldKey := path.filterMap PathStep.segment

/-- Segments joined by dots. -/
def dotted (segs : List FieldKey) : String := ".".intercalate (segs.map FieldKey.text)

/-- A value with the path to it. -/
structure Located (α : Type) where
  path : List PathStep
  value : α
  deriving DecidableEq, Repr

/-- The same value seen from further up. -/
def Located.under {α : Type} (steps : List PathStep) (x : Located α) : Located α :=
  ⟨steps ++ x.path, x.value⟩

mutual

/-- The leaves of a tree in the order of a traversal. -/
def leaves : ErrorDetails → List (Located ErrorDetail)
  | .error e => [⟨[], e⟩]
  | .list items => leavesItems 0 items
  | .dict entries => leavesEntries entries

def leavesItems (index : ℕ) : List ErrorDetails → List (Located ErrorDetail)
  | [] => []
  | item :: rest => (leaves item).map (Located.under [.index index]) ++ leavesItems (index + 1) rest

def leavesEntries : List (FieldKey × ErrorDetails) → List (Located ErrorDetail)
  | [] => []
  | (key, value) :: rest => (leaves value).map (Located.under [.key key]) ++ leavesEntries rest

end

/-- The entry that a leaf should have. -/
def expectedError (leaf : Located ErrorDetail) : FlatError where
  field := .str (dotted (segments leaf.path))
  code := leaf.value.code
  message := leaf.value.message

/-- One entry for each leaf, in order, with its code, its message and its path. -/
def FlattensFaithfully (nestedText : FullDetails → String) (details : ErrorDetails) : Prop :=
  flattenFullDetails nestedText (getFullDetails details) (.str "") =
    (leaves details).map expectedError

mutual

/-- No dict of the tree has the keys of a leaf. -/
def Unmistaken : ErrorDetails → Prop
  | .error _ => True
  | .list items => UnmistakenItems items
  | .dict entries => isLeafKeys (entries.map Prod.fst) = false ∧ UnmistakenEntries entries

def UnmistakenItems : List ErrorDetails → Prop
  | [] => True
  | item :: rest => Unmistaken item ∧ UnmistakenItems rest

def UnmistakenEntries : List (FieldKey × ErrorDetails) → Prop
  | [] => True
  | (_, value) :: rest => Unmistaken value ∧ UnmistakenEntries rest

end

/-- No segment is empty or zero and an integer is not alone, or there is one segment, which is
empty. -/
def PlainSegments (segs : List FieldKey) : Prop :=
  ((∀ s ∈ segs, s.truthy = true) ∧ ∀ n, segs ≠ [.int n]) ∨ segs = [.str ""]

/-! ## What is reported -/

mutual

/-- The nodes that are read as a leaf. -/
def reports : ErrorDetails → List (Located ErrorDetails)
  | .error e => [⟨[], .error e⟩]
  | .list items => reportsItems 0 items
  | .dict entries =>
      if isLeafKeys (entries.map Prod.fst) then [⟨[], .dict entries⟩] else reportsEntries entries

def reportsItems (index : ℕ) : List ErrorDetails → List (Located ErrorDetails)
  | [] => []
  | item :: rest =>
      (reports item).map (Located.under [.index index]) ++ reportsItems (index + 1) rest

def reportsEntries : List (FieldKey × ErrorDetails) → List (Located ErrorDetails)
  | [] => []
  | (key, value) :: rest => (reports value).map (Located.under [.key key]) ++ reportsEntries rest

end

/-- `next_prefix`. -/
def nextPrefix (before : FieldKey) : PathStep → FieldKey
  | .key k => keyPrefix before k
  | .index i => indexPrefix before i

/-- The field that the recursion arrives with. -/
def fieldAt (path : List PathStep) (before : FieldKey) : FieldKey := path.foldl nextPrefix before

/-- The dict that a node becomes. -/
def fullEntries (details : ErrorDetails) : List (FieldKey × FullDetails) :=
  match getFullDetails details with
  | .dict entries => entries
  | _ => []

/-- The entry for a node that is read as a leaf. -/
def reportEntry (nestedText : FullDetails → String) (before : FieldKey)
    (report : Located ErrorDetails) : FlatError :=
  leafEntry nestedText (fullEntries report.value) (fieldAt report.path before)

section Reports

variable {nestedText : FullDetails → String}

lemma map_fst_getFullDetailsEntries (entries : List (FieldKey × ErrorDetails)) :
    (getFullDetailsEntries entries).map Prod.fst = entries.map Prod.fst := by
  induction entries with
  | nil => rfl
  | cons entry rest ih => simp [getFullDetailsEntries, ih]

mutual

/-- One entry for every node that is read as a leaf. -/
theorem flattenFullDetails_eq : ∀ (details : ErrorDetails) (before : FieldKey),
    flattenFullDetails nestedText (getFullDetails details) before =
      (reports details).map (reportEntry nestedText before)
  | .error e, before => rfl
  | .list items, before => by
      rw [getFullDetails, flattenFullDetails, reports]
      exact flattenItems_eq items 0 before
  | .dict entries, before => by
      rw [getFullDetails, flattenFullDetails, reports, isLeaf, map_fst_getFullDetailsEntries]
      split
      · rfl
      · exact flattenEntries_eq entries before

theorem flattenItems_eq : ∀ (items : List ErrorDetails) (index : ℕ) (before : FieldKey),
    flattenItems nestedText (getFullDetailsItems items) index before =
      (reportsItems index items).map (reportEntry nestedText before)
  | [], _, _ => rfl
  | item :: rest, index, before => by
      rw [getFullDetailsItems, flattenItems, reportsItems, List.map_append, List.map_map,
        flattenFullDetails_eq item, flattenItems_eq rest]
      rfl

theorem flattenEntries_eq : ∀ (entries : List (FieldKey × ErrorDetails)) (before : FieldKey),
    flattenEntries nestedText (getFullDetailsEntries entries) before =
      (reportsEntries entries).map (reportEntry nestedText before)
  | [], _ => rfl
  | (key, value) :: rest, before => by
      rw [getFullDetailsEntries, flattenEntries, reportsEntries, List.map_append, List.map_map,
        flattenFullDetails_eq value, flattenEntries_eq rest]
      rfl

end

/-- The leaves below a node, seen from the root. -/
def leavesOf (report : Located ErrorDetails) : List (Located ErrorDetail) :=
  (leaves report.value).map (Located.under report.path)

lemma leavesOf_under (step : PathStep) (report : Located ErrorDetails) :
    leavesOf (report.under [step]) = (leavesOf report).map (Located.under [step]) := by
  rw [leavesOf, leavesOf, List.map_map]
  rfl

lemma flatMap_leavesOf_under (step : PathStep) (rs : List (Located ErrorDetails)) :
    (rs.map (Located.under [step])).flatMap leavesOf =
      (rs.flatMap leavesOf).map (Located.under [step]) := by
  rw [List.flatMap_map, List.map_flatMap]
  exact congrArg (rs.flatMap ·) (funext fun report => leavesOf_under step report)

lemma leavesOf_root (details : ErrorDetails) : leavesOf ⟨[], details⟩ = leaves details :=
  List.map_id _

mutual

/-- Every leaf lies below exactly one of the reported nodes. -/
theorem leaves_eq : ∀ details : ErrorDetails,
    leaves details = (reports details).flatMap leavesOf
  | .error e => rfl
  | .list items => by
      rw [leaves, reports]
      exact leavesItems_eq items 0
  | .dict entries => by
      rw [reports]
      split
      · rw [List.flatMap_singleton, leavesOf_root]
      · rw [leaves]
        exact leavesEntries_eq entries

theorem leavesItems_eq : ∀ (items : List ErrorDetails) (index : ℕ),
    leavesItems index items = (reportsItems index items).flatMap leavesOf
  | [], _ => rfl
  | item :: rest, index => by
      rw [leavesItems, reportsItems, List.flatMap_append, flatMap_leavesOf_under, ← leaves_eq item,
        ← leavesItems_eq rest]

theorem leavesEntries_eq : ∀ entries : List (FieldKey × ErrorDetails),
    leavesEntries entries = (reportsEntries entries).flatMap leavesOf
  | [] => rfl
  | (key, value) :: rest => by
      rw [leavesEntries, reportsEntries, List.flatMap_append, flatMap_leavesOf_under,
        ← leaves_eq value, ← leavesEntries_eq rest]

end

end Reports

/-! ## The field of a path -/

/-- `next_prefix` for a segment. -/
def joinSegment (before s : FieldKey) : FieldKey :=
  if s.truthy then
    if before.truthy then .str (before.text ++ "." ++ s.text) else s
  else before

lemma toString_ne_empty (i : ℕ) : toString i ≠ "" := by
  intro h
  have hlist := congrArg String.toList h
  simp at hlist

lemma truthy_str_toString (i : ℕ) : (FieldKey.str (toString i)).truthy = true :=
  decide_eq_true (toString_ne_empty i)

lemma fieldAt_eq (path : List PathStep) (before : FieldKey) :
    fieldAt path before = (segments path).foldl joinSegment before := by
  induction path generalizing before with
  | nil => rfl
  | cons step rest ih =>
      rw [fieldAt, List.foldl_cons, ← fieldAt, ih]
      cases step with
      | key k =>
          by_cases hk : k = nonFieldErrorsKey
          · have hsegment : (PathStep.key k).segment = none := if_pos hk
            rw [segments, segments, List.filterMap_cons_none hsegment]
            simp [nextPrefix, keyPrefix, hk, FieldKey.truthy]
          · have hsegment : (PathStep.key k).segment = some k := if_neg hk
            rw [segments, segments, List.filterMap_cons_some hsegment, List.foldl_cons]
            congr 1
            change keyPrefix before k = joinSegment before k
            unfold keyPrefix joinSegment
            simp only [if_neg hk]
            cases before.truthy <;> cases k.truthy <;> rfl
      | index i =>
          have hsegment : (PathStep.index i).segment = some (.str (toString i)) := rfl
          rw [segments, segments, List.filterMap_cons_some hsegment, List.foldl_cons]
          congr 1
          unfold nextPrefix indexPrefix joinSegment
          rw [if_pos (truthy_str_toString i)]
          rfl

/-- A segment that is empty or zero is skipped. -/
lemma foldl_joinSegment_filter (segs : List FieldKey) (before : FieldKey) :
    segs.foldl joinSegment before = (segs.filter FieldKey.truthy).foldl joinSegment before := by
  induction segs generalizing before with
  | nil => rfl
  | cons s rest ih =>
      by_cases hs : s.truthy = true
      · rw [List.filter_cons_of_pos hs, List.foldl_cons, List.foldl_cons, ih]
      · rw [List.filter_cons_of_neg hs, List.foldl_cons, ih]
        congr 1
        exact if_neg hs

/-- Behind a text, truthy segments are appended to it. -/
lemma foldl_joinSegment_of_truthy {segs : List FieldKey} (hsegs : ∀ s ∈ segs, s.truthy = true)
    {text : String} (htext : text ≠ "") :
    segs.foldl joinSegment (.str text) = .str (dotted (.str text :: segs)) := by
  induction segs generalizing text with
  | nil => rw [dotted, List.map_singleton, String.intercalate_singleton]; rfl
  | cons s rest ih =>
      have hs : s.truthy = true := hsegs s List.mem_cons_self
      have hjoin : joinSegment (.str text) s = .str (text ++ "." ++ s.text) := by
        have hbefore : (FieldKey.str text).truthy = true := decide_eq_true htext
        rw [joinSegment, if_pos hs, if_pos hbefore]
        rfl
      have hne : text ++ "." ++ s.text ≠ "" := by simp
      rw [List.foldl_cons, hjoin, ih (fun t ht => hsegs t (List.mem_cons_of_mem s ht)) hne]
      simp only [dotted, List.map_cons, FieldKey.text]
      rw [String.intercalate_cons_append, String.intercalate_cons_cons]

/-- From the root, truthy segments are joined, but a single one stays what it is. -/
lemma foldl_joinSegment_root {segs : List FieldKey} (hsegs : ∀ s ∈ segs, s.truthy = true) :
    segs.foldl joinSegment (.str "") = .str (dotted segs) ∨
      ∃ n, segs = [.int n] ∧ segs.foldl joinSegment (.str "") = .int n := by
  have hfirst : ∀ s : FieldKey, s.truthy = true → joinSegment (.str "") s = s := fun s hs => by
    rw [joinSegment, if_pos hs]
    rfl
  cases segs with
  | nil => exact Or.inl rfl
  | cons s rest =>
      have hs := hsegs s List.mem_cons_self
      have hrest : ∀ t ∈ rest, t.truthy = true := fun t ht => hsegs t (List.mem_cons_of_mem s ht)
      rw [List.foldl_cons, hfirst s hs]
      cases s with
      | str text =>
          exact Or.inl (foldl_joinSegment_of_truthy hrest (of_decide_eq_true hs))
      | int n =>
          cases rest with
          | nil => exact Or.inr ⟨n, rfl, rfl⟩
          | cons t rest =>
              have ht := hrest t List.mem_cons_self
              have hjoin : joinSegment (.int n) t = .str (toString n ++ "." ++ t.text) := by
                rw [joinSegment, if_pos ht, if_pos hs]
                rfl
              have hne : toString n ++ "." ++ t.text ≠ "" := by simp
              rw [List.foldl_cons, hjoin, foldl_joinSegment_of_truthy
                (fun u hu => hrest u (List.mem_cons_of_mem t hu)) hne]
              refine Or.inl ?_
              simp only [dotted, List.map_cons, FieldKey.text]
              rw [String.intercalate_cons_append, String.intercalate_cons_cons]

/-! ## Lengths -/

/-- The letters of segments, with one dot for each. -/
def weight (segs : List FieldKey) : ℕ := (segs.map fun s => s.text.length + 1).sum

@[simp] lemma weight_nil : weight [] = 0 := rfl

@[simp] lemma weight_cons (s : FieldKey) (segs : List FieldKey) :
    weight (s :: segs) = s.text.length + 1 + weight segs := rfl

lemma weight_append (segs segs' : List FieldKey) :
    weight (segs ++ segs') = weight segs + weight segs' := by
  simp [weight]

lemma length_dotted {segs : List FieldKey} (h : segs ≠ []) :
    (dotted segs).length + 1 = weight segs := by
  induction segs with
  | nil => exact absurd rfl h
  | cons s rest ih =>
      cases rest with
      | nil => simp [dotted]
      | cons t rest =>
          have hrest := ih (List.cons_ne_nil t rest)
          simp only [dotted, List.map_cons] at hrest ⊢
          rw [String.intercalate_cons_cons, String.length_append, String.length_append, weight_cons,
            ← hrest]
          have hdot : ".".length = 1 := rfl
          omega

lemma length_dotted_le (segs : List FieldKey) : (dotted segs).length ≤ weight segs := by
  by_cases h : segs = []
  · rw [h]
    exact Nat.zero_le 0
  · have := length_dotted h
    omega

/-- Skipping segments makes a path shorter. -/
lemma weight_filter_le (segs : List FieldKey) :
    weight (segs.filter FieldKey.truthy) ≤ weight segs := by
  induction segs with
  | nil => exact Nat.le_refl 0
  | cons s rest ih =>
      by_cases hs : s.truthy = true
      · rw [List.filter_cons_of_pos hs, weight_cons, weight_cons]
        omega
      · rw [List.filter_cons_of_neg hs, weight_cons]
        omega

lemma truthy_of_weight_filter {segs : List FieldKey}
    (h : weight (segs.filter FieldKey.truthy) = weight segs) : ∀ s ∈ segs, s.truthy = true := by
  induction segs with
  | nil => simp
  | cons s rest ih =>
      have hle := weight_filter_le rest
      by_cases hs : s.truthy = true
      · rw [List.filter_cons_of_pos hs, weight_cons, weight_cons] at h
        exact List.forall_mem_cons.2 ⟨hs, ih (by omega)⟩
      · rw [List.filter_cons_of_neg hs, weight_cons] at h
        omega

/-- The text of a field is the joined path without the segments that are skipped. -/
lemma text_fieldAt (path : List PathStep) :
    (fieldAt path (.str "")).text = dotted ((segments path).filter FieldKey.truthy) := by
  have htruthy : ∀ s ∈ (segments path).filter FieldKey.truthy, s.truthy = true :=
    fun s hs => (List.mem_filter.1 hs).2
  rw [fieldAt_eq, foldl_joinSegment_filter]
  obtain hstr | ⟨n, hsegs, hint⟩ := foldl_joinSegment_root htruthy
  · rw [hstr]
    rfl
  · rw [hint, hsegs, dotted, List.map_singleton, String.intercalate_singleton]

/-- The field of a node is the joined path exactly when its segments are plain. -/
lemma fieldAt_eq_dotted_iff (path : List PathStep) :
    fieldAt path (.str "") = .str (dotted (segments path)) ↔ PlainSegments (segments path) := by
  constructor
  · intro hfield
    have htext := text_fieldAt path
    rw [hfield] at htext
    change dotted (segments path) = _ at htext
    have hlengths := congrArg String.length htext
    by_cases hfilter : (segments path).filter FieldKey.truthy = []
    · -- nothing is left of the path, so the joined path is empty
      rw [hfilter] at hlengths
      change (dotted (segments path)).length = 0 at hlengths
      match hsegs : segments path with
      | [] => exact Or.inl ⟨by simp, by simp⟩
      | s :: rest =>
          rw [hsegs] at hlengths hfilter
          have hweight := length_dotted (List.cons_ne_nil s rest)
          rw [weight_cons] at hweight
          have hrest : rest = [] := by
            cases rest with
            | nil => rfl
            | cons t rest =>
                rw [weight_cons] at hweight
                omega
          have hempty : s.text = "" := String.length_eq_zero_iff.1 (by omega)
          have hfalsy : ¬ s.truthy = true := fun hs => by
            rw [List.filter_cons_of_pos hs] at hfilter
            exact List.cons_ne_nil _ _ hfilter
          cases s with
          | str text =>
              have htext : text = "" := hempty
              rw [hrest, htext]
              exact Or.inr rfl
          | int n =>
              have hzero : n = 0 := by
                by_contra hn
                exact hfalsy (decide_eq_true hn)
              rw [hzero] at hempty
              exact absurd hempty (by decide)
    · have hsegs : segments path ≠ [] := fun h => hfilter (by rw [h]; rfl)
      have hweights : weight ((segments path).filter FieldKey.truthy) = weight (segments path) := by
        rw [← length_dotted hfilter, ← length_dotted hsegs, hlengths]
      refine Or.inl ⟨truthy_of_weight_filter hweights, fun n hsingle => ?_⟩
      have htruthy := truthy_of_weight_filter hweights
      rw [fieldAt_eq, hsingle] at hfield
      rw [hsingle] at htruthy
      have hjoin : [FieldKey.int n].foldl joinSegment (.str "") = .int n := by
        have hn := htruthy _ (List.mem_singleton_self _)
        rw [List.foldl_cons, List.foldl_nil, joinSegment, if_pos hn]
        rfl
      rw [hjoin] at hfield
      cases hfield
  · rintro (⟨htruthy, hsingle⟩ | hempty)
    · rw [fieldAt_eq]
      obtain hstr | ⟨n, hsegs, -⟩ := foldl_joinSegment_root htruthy
      · exact hstr
      · exact absurd hsegs (hsingle n)
    · rw [fieldAt_eq, hempty]
      rfl

/-! ## Faithful lists -/

/-- When every element has one entry, and an entry among the parts of its own element is the only
one of them, the entries are all the parts in order only if every element has its entry as its
single part. -/
lemma parts_eq_singleton {ι α : Type} {entry : ι → α} {parts : ι → List α} {xs : List ι}
    {early : List α} (h : early ++ xs.map entry = xs.flatMap parts)
    (hown : ∀ x ∈ xs, entry x ∈ parts x → parts x = [entry x]) :
    early = [] ∧ ∀ x ∈ xs, parts x = [entry x] := by
  -- `early` holds the entries that are ahead of the parts, and there are never fewer of them
  induction xs generalizing early with
  | nil =>
      rw [List.map_nil, List.append_nil, List.flatMap_nil] at h
      exact ⟨h, by simp⟩
  | cons x rest ih =>
      have hrest : ∀ y ∈ rest, entry y ∈ parts y → parts y = [entry y] :=
        fun y hy => hown y (List.mem_cons_of_mem x hy)
      rw [List.map_cons, List.flatMap_cons, List.append_eq_append_iff] at h
      rcases h with ⟨own, hparts, hafter⟩ | ⟨still, hearly, hafter⟩
      · cases own with
        | nil =>
            rw [List.nil_append] at hafter
            have hahead : [entry x] ++ rest.map entry = rest.flatMap parts := hafter
            exact absurd (ih hahead hrest).1 (List.cons_ne_nil _ _)
        | cons a own =>
            obtain ⟨rfl, htail⟩ := List.cons.inj hafter
            have hmem : entry x ∈ parts x := by
              rw [hparts]
              exact List.mem_append_right _ List.mem_cons_self
            have hsingle := hown x List.mem_cons_self hmem
            rw [hsingle] at hparts
            obtain ⟨hnil, hown'⟩ : early = [] ∧ own = [] := by
              have hlength := congrArg List.length hparts
              simp only [List.length_append, List.length_cons, List.length_nil] at hlength
              exact ⟨List.length_eq_zero_iff.1 (by omega), List.length_eq_zero_iff.1 (by omega)⟩
            rw [hown'] at htail
            exact ⟨hnil, List.forall_mem_cons.2 ⟨hsingle, (@ih [] htail hrest).2⟩⟩
      · have hahead : (still ++ [entry x]) ++ rest.map entry = rest.flatMap parts := by
          rw [List.append_assoc]
          exact hafter.symm
        exact absurd (ih hahead hrest).1 (by simp)

section Faithful

variable {nestedText : FullDetails → String}

/-- A node that is reported is a leaf or a dict with the keys of one. -/
def IsReport (report : Located ErrorDetails) : Prop :=
  (∃ e, report.value = .error e) ∨
    ∃ entries, report.value = .dict entries ∧ isLeafKeys (entries.map Prod.fst) = true

lemma isReport_under {step : PathStep} {rs : List (Located ErrorDetails)}
    (h : ∀ r ∈ rs, IsReport r) : ∀ r ∈ rs.map (Located.under [step]), IsReport r := by
  intro r hr
  obtain ⟨r', hr', rfl⟩ := List.mem_map.1 hr
  exact h r' hr'

mutual

theorem isReport_reports : ∀ details : ErrorDetails, ∀ r ∈ reports details, IsReport r
  | .error e => by
      intro r hr
      obtain rfl := List.mem_singleton.1 hr
      exact Or.inl ⟨e, rfl⟩
  | .list items => by
      rw [reports]
      exact isReport_reportsItems items 0
  | .dict entries => by
      rw [reports]
      split
      · rename_i hkeys
        intro r hr
        obtain rfl := List.mem_singleton.1 hr
        exact Or.inr ⟨entries, rfl, hkeys⟩
      · exact isReport_reportsEntries entries

theorem isReport_reportsItems : ∀ (items : List ErrorDetails) (index : ℕ),
    ∀ r ∈ reportsItems index items, IsReport r
  | [], _ => by simp [reportsItems]
  | item :: rest, index => by
      rw [reportsItems]
      exact List.forall_mem_append.2
        ⟨isReport_under (isReport_reports item), isReport_reportsItems rest (index + 1)⟩

theorem isReport_reportsEntries : ∀ entries : List (FieldKey × ErrorDetails),
    ∀ r ∈ reportsEntries entries, IsReport r
  | [] => by simp [reportsEntries]
  | (key, value) :: rest => by
      rw [reportsEntries]
      exact List.forall_mem_append.2
        ⟨isReport_under (isReport_reports value), isReport_reportsEntries rest⟩

end

/-- Every node that is reported is a leaf. -/
def AllLeaves (rs : List (Located ErrorDetails)) : Prop := ∀ r ∈ rs, ∃ e, r.value = .error e

lemma allLeaves_append {rs rs' : List (Located ErrorDetails)} :
    AllLeaves (rs ++ rs') ↔ AllLeaves rs ∧ AllLeaves rs' := List.forall_mem_append

lemma allLeaves_under {step : PathStep} {rs : List (Located ErrorDetails)} :
    AllLeaves (rs.map (Located.under [step])) ↔ AllLeaves rs := List.forall_mem_map

mutual

theorem unmistaken_iff : ∀ details : ErrorDetails, Unmistaken details ↔ AllLeaves (reports details)
  | .error e => iff_of_true trivial fun r hr => ⟨e, by rw [List.mem_singleton.1 hr]⟩
  | .list items => by
      rw [Unmistaken, reports]
      exact unmistakenItems_iff items 0
  | .dict entries => by
      rw [Unmistaken, reports]
      split
      · rename_i hkeys
        refine iff_of_false (fun h => ?_) fun h => ?_
        · rw [h.1] at hkeys
          cases hkeys
        · obtain ⟨e, he⟩ := h _ (List.mem_singleton_self _)
          cases he
      · rename_i hkeys
        rw [unmistakenEntries_iff entries]
        exact and_iff_right (Bool.not_eq_true _ ▸ hkeys)

theorem unmistakenItems_iff : ∀ (items : List ErrorDetails) (index : ℕ),
    UnmistakenItems items ↔ AllLeaves (reportsItems index items)
  | [], _ => iff_of_true trivial (by simp [AllLeaves, reportsItems])
  | item :: rest, index => by
      rw [UnmistakenItems, reportsItems, allLeaves_append, allLeaves_under, unmistaken_iff item,
        unmistakenItems_iff rest]

theorem unmistakenEntries_iff : ∀ entries : List (FieldKey × ErrorDetails),
    UnmistakenEntries entries ↔ AllLeaves (reportsEntries entries)
  | [] => iff_of_true trivial (by simp [AllLeaves, reportsEntries])
  | (key, value) :: rest => by
      rw [UnmistakenEntries, reportsEntries, allLeaves_append, allLeaves_under,
        unmistaken_iff value, unmistakenEntries_iff rest]

end

/-- A leaf below the entries of a dict has a key of the dict on its path. -/
lemma exists_key_of_mem_leavesEntries {entries : List (FieldKey × ErrorDetails)}
    {leaf : Located ErrorDetail} (h : leaf ∈ leavesEntries entries) :
    ∃ key ∈ entries.map Prod.fst, ∃ rest, leaf.path = .key key :: rest := by
  induction entries with
  | nil => cases h
  | cons entry rest ih =>
      obtain ⟨key, value⟩ := entry
      rw [leavesEntries, List.mem_append] at h
      rcases h with hhere | hthere
      · obtain ⟨below, -, rfl⟩ := List.mem_map.1 hhere
        exact ⟨key, List.mem_cons_self, below.path, rfl⟩
      · obtain ⟨k, hk, hpath⟩ := ih hthere
        exact ⟨k, List.mem_cons_of_mem key hk, hpath⟩

/-- The leaves that a mistaken dict swallows have longer fields than its entry. -/
lemma length_text_fieldAt_lt {path : List PathStep} {entries : List (FieldKey × ErrorDetails)}
    (hkeys : isLeafKeys (entries.map Prod.fst) = true) {leaf : Located ErrorDetail}
    (h : leaf ∈ leaves (.dict entries)) :
    (fieldAt path (.str "")).text.length < (dotted (segments (path ++ leaf.path))).length := by
  obtain ⟨key, hkey, rest, hpath⟩ := exists_key_of_mem_leavesEntries h
  have hname : key = .str "message" ∨ key = .str "code" := by
    have hall := (Bool.and_eq_true _ _ ▸ hkeys).2
    exact of_decide_eq_true (List.all_eq_true.1 hall key hkey)
  have hsegments : segments leaf.path = key :: segments rest := by
    rw [hpath]
    rcases hname with rfl | rfl
    · rfl
    · rfl
  have hlong : 4 ≤ key.text.length := by
    rcases hname with rfl | rfl
    · decide
    · decide
  have hfield : (fieldAt path (.str "")).text.length ≤ weight (segments path) := by
    rw [text_fieldAt]
    exact Nat.le_trans (length_dotted_le _) (weight_filter_le _)
  have happend : segments (path ++ leaf.path) = segments path ++ key :: segments rest := by
    rw [← hsegments]
    exact List.filterMap_append
  have hne : segments (path ++ leaf.path) ≠ [] := by simp [happend]
  have hlength := length_dotted hne
  rw [happend, weight_append, weight_cons] at hlength
  rw [happend]
  omega

/-- A mistaken dict has no leaf with its entry. -/
lemma reportEntry_not_mem {report : Located ErrorDetails}
    {entries : List (FieldKey × ErrorDetails)} (hvalue : report.value = .dict entries)
    (hkeys : isLeafKeys (entries.map Prod.fst) = true) :
    reportEntry nestedText (.str "") report ∉ (leavesOf report).map expectedError := by
  intro hmem
  rw [leavesOf, List.map_map] at hmem
  obtain ⟨leaf, hleaf, hentry⟩ := List.mem_map.1 hmem
  have hfield : FieldKey.str (dotted (segments (report.path ++ leaf.path))) =
      fieldAt report.path (.str "") := congrArg FlatError.field hentry
  rw [hvalue] at hleaf
  have hlt := @length_text_fieldAt_lt report.path _ hkeys _ hleaf
  rw [← hfield] at hlt
  exact Nat.lt_irrefl _ hlt

/-- A leaf is reported as it should be exactly when its segments are plain. -/
lemma expectedError_eq_iff {report : Located ErrorDetails} {e : ErrorDetail}
    (hvalue : report.value = .error e) :
    (leavesOf report).map expectedError = [reportEntry nestedText (.str "") report] ↔
      PlainSegments (segments report.path) := by
  obtain ⟨path, value⟩ := report
  cases hvalue
  have hleaves : leavesOf ⟨path, .error e⟩ = [⟨path, e⟩] := by
    simp [leavesOf, leaves, Located.under]
  rw [hleaves, List.map_singleton, List.singleton_inj, ← fieldAt_eq_dotted_iff]
  constructor
  · intro h
    exact (congrArg FlatError.field h).symm
  · intro h
    change (⟨_, _, _⟩ : FlatError) = ⟨fieldAt path (.str ""), _, _⟩
    rw [h]
    rfl

lemma flattensFaithfully_iff_reports (details : ErrorDetails) :
    FlattensFaithfully nestedText details ↔ ∀ r ∈ reports details,
      (leavesOf r).map expectedError = [reportEntry nestedText (.str "") r] := by
  unfold FlattensFaithfully
  rw [flattenFullDetails_eq, leaves_eq, List.map_flatMap]
  constructor
  · intro h
    refine (@parts_eq_singleton _ _ _ _ _ [] h fun r hr hmem => ?_).2
    rcases isReport_reports details r hr with ⟨e, he⟩ | ⟨entries, hvalue, hkeys⟩
    · have hleaves : leavesOf r = [⟨r.path, e⟩] := by
        simp [leavesOf, he, leaves, Located.under]
      rw [hleaves, List.map_singleton, List.mem_singleton] at hmem
      rw [hleaves, List.map_singleton, hmem]
    · exact absurd hmem (reportEntry_not_mem hvalue hkeys)
  · intro h
    generalize reports details = rs at h
    induction rs with
    | nil => rfl
    | cons r rest ih =>
        rw [List.map_cons, List.flatMap_cons, h r List.mem_cons_self,
          ih fun r' hr' => h r' (List.mem_cons_of_mem r hr')]
        rfl

/-- The flat list has one entry for each leaf, with its code, message and path, exactly when no
dict of the tree has the keys of a leaf and the segments of every path are plain. -/
theorem flattensFaithfully_iff (details : ErrorDetails) :
    FlattensFaithfully nestedText details ↔
      Unmistaken details ∧ ∀ leaf ∈ leaves details, PlainSegments (segments leaf.path) := by
  rw [flattensFaithfully_iff_reports, unmistaken_iff, leaves_eq]
  constructor
  · intro h
    have hall : AllLeaves (reports details) := by
      intro r hr
      rcases isReport_reports details r hr with herror | ⟨entries, hvalue, hkeys⟩
      · exact herror
      · refine absurd ?_ (@reportEntry_not_mem nestedText r entries hvalue hkeys)
        rw [h r hr]
        exact List.mem_singleton_self _
    refine ⟨hall, fun leaf hleaf => ?_⟩
    obtain ⟨r, hr, hbelow⟩ := List.mem_flatMap.1 hleaf
    obtain ⟨e, he⟩ := hall r hr
    have hleaves : leavesOf r = [⟨r.path, e⟩] := by simp [leavesOf, he, leaves, Located.under]
    rw [hleaves] at hbelow
    rw [List.mem_singleton.1 hbelow]
    exact (expectedError_eq_iff he).1 (h r hr)
  · rintro ⟨hall, hplain⟩ r hr
    obtain ⟨e, he⟩ := hall r hr
    refine (expectedError_eq_iff he).2 (hplain ⟨r.path, e⟩ (List.mem_flatMap.2 ⟨r, hr, ?_⟩))
    simp [leavesOf, he, leaves, Located.under]

end Faithful

/-! ### A list field and a field called `message` -/

section Example

/-- What a `ListField` raises for its first element. -/
def firstElementError : ErrorDetails :=
  .dict [(.str "tags", .dict [(.int 0, .list [.error ⟨"Not a valid string.", "invalid"⟩])])]

/-- A field `message` that is missing. -/
def missingMessageError : ErrorDetails :=
  .dict [(.str "message", .list [.error ⟨"This field is required.", "required"⟩])]

/-- The index of the element is missing from the first field, and the second list has no entry
for its leaf. -/
theorem not_flattensFaithfully_examples :
    ¬ FlattensFaithfully (fun _ => "[]") firstElementError ∧
      ¬ FlattensFaithfully (fun _ => "[]") missingMessageError := by
  constructor
  · intro h
    have hfields := congrArg (List.map FlatError.field) h
    exact absurd hfields (by decide)
  · intro h
    have hcodes := congrArg (List.map FlatError.code) h
    exact absurd hcodes (by decide)

end Example

end BePyEco
