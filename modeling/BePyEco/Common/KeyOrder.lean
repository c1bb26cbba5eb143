import BePyEco.Common.Values

/-!
# Documents up to the order of their keys

Two requests have the same body when their documents differ in the order of object keys at most.
`Json.canonical_eq_iff` says that the canonical document, which is what `_hash_request` digests,
tells exactly the other bodies apart.
-/

namespace BePyEco.Json

mutual

/-- Equal up to the order of the keys of objects, at every depth. -/
def SameBody : Json → Json → Prop
  | .arr items, .arr items' => SameItems items items'
  | .obj fields, .obj fields' => ∃ reordered, reordered.Perm fields' ∧ SameFields fields reordered
  | document, document' => document = document'

def SameItems : List Json → List Json → Prop
  | [], [] => True
  | x :: xs, y :: ys => x.SameBody y ∧ SameItems xs ys
  | [], _ :: _ => False
  | _ :: _, [] => False

def SameFields : List (String × Json) → List (String × Json) → Prop
  | [], [] => True
  | (k, x) :: xs, (l, y) :: ys => k = l ∧ x.SameBody y ∧ SameFields xs ys
  | [], _ :: _ => False
  | _ :: _, [] => False

end

mutual

/-- No object has a key twice, as in a Python dictionary. -/
def DistinctKeys : Json → Prop
  | .arr items => DistinctKeysItems items
  | .obj fields => (fields.map Prod.fst).Nodup ∧ DistinctKeysFields fields
  | _ => True

def DistinctKeysItems : List Json → Prop
  | [] => True
  | x :: xs => x.DistinctKeys ∧ DistinctKeysItems xs

def DistinctKeysFields : List (String × Json) → Prop
  | [] => True
  | (_, x) :: xs => x.DistinctKeys ∧ DistinctKeysFields xs

end

lemma distinctKeysFields_iff {fields : List (String × Json)} :
    DistinctKeysFields fields ↔ ∀ f ∈ fields, f.2.DistinctKeys := by
  induction fields with
  | nil => simp [DistinctKeysFields]
  | cons f rest ih => simp [DistinctKeysFields, ih]

lemma canonicalFields_eq_map (fields : List (String × Json)) :
    canonicalFields fields = fields.map fun f => (f.1, f.2.canonical) := by
  induction fields with
  | nil => rfl
  | cons f rest ih => rw [canonicalFields, ih, List.map_cons]

/-- A permutation of images is the image of a permutation. -/
lemma exists_perm_map {α β : Type} (f : α → β) {bs : List β} {as : List α}
    (h : bs.Perm (as.map f)) : ∃ as' : List α, as'.Perm as ∧ as'.map f = bs := by
  induction bs generalizing as with
  | nil =>
      refine ⟨[], ?_, rfl⟩
      have hnil : as.map f = [] := List.nil_perm.1 h
      rw [List.map_eq_nil_iff.1 hnil]
  | cons b bs ih =>
      have hmem : b ∈ as.map f := h.subset List.mem_cons_self
      obtain ⟨a, ha, rfl⟩ := List.mem_map.1 hmem
      obtain ⟨before, after, rfl⟩ := List.append_of_mem ha
      have hrest : bs.Perm ((before ++ after).map f) := by
        refine List.Perm.cons_inv (a := f a) (h.trans ?_)
        rw [← List.map_cons]
        exact List.perm_middle.map f
      obtain ⟨as', hperm, hmap⟩ := ih hrest
      exact ⟨a :: as', (hperm.cons a).trans List.perm_middle.symm, by rw [List.map_cons, hmap]⟩

/-- With distinct keys, sorting by key forgets the order and nothing else. -/
lemma insertionSort_eq_iff {fs gs : List (String × Json)} (hfs : (fs.map Prod.fst).Nodup) :
    (fs.insertionSort fun f g => f.1 ≤ g.1) = (gs.insertionSort fun f g => f.1 ≤ g.1) ↔
      fs.Perm gs := by
  have htotal : Std.Total fun f g : String × Json => f.1 ≤ g.1 :=
    ⟨fun f g => String.le_total f.1 g.1⟩
  have htrans : IsTrans (String × Json) fun f g => f.1 ≤ g.1 := ⟨fun _ _ _ => String.le_trans⟩
  constructor
  · intro h
    refine (List.perm_insertionSort (fun f g : String × Json => f.1 ≤ g.1) fs).symm.trans ?_
    rw [h]
    exact List.perm_insertionSort _ gs
  · intro h
    have hsorted : (fs.insertionSort fun f g => f.1 ≤ g.1).Perm
        (gs.insertionSort fun f g => f.1 ≤ g.1) :=
      ((List.perm_insertionSort _ fs).trans h).trans (List.perm_insertionSort _ gs).symm
    refine List.Perm.eq_of_pairwise (fun f g hf hg hle hge => ?_)
      (List.pairwise_insertionSort _ fs) (List.pairwise_insertionSort _ gs) hsorted
    have hf' : f ∈ fs := (List.perm_insertionSort _ fs).subset hf
    have hg' : g ∈ fs := h.symm.subset ((List.perm_insertionSort _ gs).subset hg)
    exact List.inj_on_of_nodup_map hfs hf' hg' (String.le_antisymm hle hge)

mutual

/-- The canonical documents are equal exactly when the bodies are the same. -/
theorem canonical_eq_iff : ∀ (a b : Json), a.DistinctKeys → b.DistinctKeys →
    (a.canonical = b.canonical ↔ a.SameBody b)
  | .arr items, .arr items', ha, hb => by
      rw [canonical, canonical, Json.arr.injEq, SameBody]
      exact canonicalItems_eq_iff items items' ha hb
  | .obj fields, .obj fields', ha, hb => by
      have hkeys : ((canonicalFields fields).map Prod.fst).Nodup := by
        have hmap : (canonicalFields fields).map Prod.fst = fields.map Prod.fst := by
          rw [canonicalFields_eq_map, List.map_map]
          rfl
        rw [hmap]
        exact ha.1
      have hfields := distinctKeysFields_iff.1 hb.2
      rw [canonical, canonical, Json.obj.injEq, insertionSort_eq_iff hkeys, SameBody,
        canonicalFields_eq_map fields']
      constructor
      · intro h
        obtain ⟨reordered, hperm, hmap⟩ := exists_perm_map _ h
        have hreordered : DistinctKeysFields reordered :=
          distinctKeysFields_iff.2 fun f hf => hfields f (hperm.subset hf)
        rw [← canonicalFields_eq_map] at hmap
        exact ⟨reordered, hperm,
          (canonicalFields_eq_iff fields reordered ha.2 hreordered).1 hmap.symm⟩
      · rintro ⟨reordered, hperm, hsame⟩
        have hreordered : DistinctKeysFields reordered :=
          distinctKeysFields_iff.2 fun f hf => hfields f (hperm.subset hf)
        rw [(canonicalFields_eq_iff fields reordered ha.2 hreordered).2 hsame,
          canonicalFields_eq_map]
        exact hperm.map _
  | .null, b, _, _ => by cases b <;> simp [canonical, SameBody]
  | .bool _, b, _, _ => by cases b <;> simp [canonical, SameBody]
  | .int _, b, _, _ => by cases b <;> simp [canonical, SameBody]
  | .float _, b, _, _ => by cases b <;> simp [canonical, SameBody]
  | .str _, b, _, _ => by cases b <;> simp [canonical, SameBody]
  | .arr _, .null, _, _ => by simp [canonical, SameBody]
  | .arr _, .bool _, _, _ => by simp [canonical, SameBody]
  | .arr _, .int _, _, _ => by simp [canonical, SameBody]
  | .arr _, .float _, _, _ => by simp [canonical, SameBody]
  | .arr _, .str _, _, _ => by simp [canonical, SameBody]
  | .arr _, .obj _, _, _ => by simp [canonical, SameBody]
  | .obj _, .null, _, _ => by simp [canonical, SameBody]
  | .obj _, .bool _, _, _ => by simp [canonical, SameBody]
  | .obj _, .int _, _, _ => by simp [canonical, SameBody]
  | .obj _, .float _, _, _ => by simp [canonical, SameBody]
  | .obj _, .str _, _, _ => by simp [canonical, SameBody]
  | .obj _, .arr _, _, _ => by simp [canonical, SameBody]

theorem canonicalItems_eq_iff : ∀ xs ys : List Json, DistinctKeysItems xs → DistinctKeysItems ys →
    (canonicalItems xs = canonicalItems ys ↔ SameItems xs ys)
  | [], [], _, _ => by simp [canonicalItems, SameItems]
  | [], _ :: _, _, _ => by simp [canonicalItems, SameItems]
  | _ :: _, [], _, _ => by simp [canonicalItems, SameItems]
  | x :: xs, y :: ys, hxs, hys => by
      rw [canonicalItems, canonicalItems, List.cons.injEq, SameItems,
        canonical_eq_iff x y hxs.1 hys.1, canonicalItems_eq_iff xs ys hxs.2 hys.2]

theorem canonicalFields_eq_iff : ∀ xs ys : List (String × Json), DistinctKeysFields xs →
    DistinctKeysFields ys → (canonicalFields xs = canonicalFields ys ↔ SameFields xs ys)
  | [], [], _, _ => by simp [canonicalFields, SameFields]
  | [], _ :: _, _, _ => by simp [canonicalFields, SameFields]
  | _ :: _, [], _, _ => by simp [canonicalFields, SameFields]
  | (k, x) :: xs, (l, y) :: ys, hxs, hys => by
      rw [canonicalFields, canonicalFields, List.cons.injEq, Prod.mk.injEq, SameFields,
        canonical_eq_iff x y hxs.1 hys.1, canonicalFields_eq_iff xs ys hxs.2 hys.2, and_assoc]

end

end BePyEco.Json
