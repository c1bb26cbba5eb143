import Mathlib.Data.List.Induction
import Mathlib.Data.List.Sort
import Mathlib.Data.String.Basic
import Mathlib.Order.Monotone.Basic
import Mathlib.Tactic.Common
import Mathlib.Tactic.Ring

/-!
# Numerals of fixed width

Texts that write numbers with a fixed number of digits are ordered as the numbers
(`numeral_lt_numeral`), and so are the texts with separators at fixed places (`cut_lt_cut`).
Lists of such texts can be joined and read back (`intercalate_inj`).
-/

namespace BePyEco.Library

variable {α : Type} [LinearOrder α]

/-! ## Lists of one length -/

/-- The first difference of two lists of one length decides, whatever follows. -/
lemma append_lt_append {xs ys as bs : List α} (hlength : xs.length = ys.length) (h : xs < ys) :
    xs ++ as < ys ++ bs := by
  induction xs generalizing ys with
  | nil =>
      cases ys with
      | nil => exact absurd h (lt_irrefl _)
      | cons y ys => simp at hlength
  | cons x xs ih =>
      cases ys with
      | nil => simp at hlength
      | cons y ys =>
          rw [List.cons_append, List.cons_append]
          rw [List.cons_lt_cons_iff] at h ⊢
          obtain hlt | ⟨heq, hlt⟩ := h
          · exact Or.inl hlt
          · exact Or.inr ⟨heq, ih (by simpa using hlength) hlt⟩

/-- The difference of two lists of one length is in their heads or in their tails. -/
lemma take_lt_or_drop_lt {xs ys : List α} (hlength : xs.length = ys.length) (h : xs < ys)
    (k : ℕ) : xs.take k < ys.take k ∨ xs.take k = ys.take k ∧ xs.drop k < ys.drop k := by
  induction k generalizing xs ys with
  | zero => exact Or.inr ⟨rfl, h⟩
  | succ k ih =>
      cases xs with
      | nil =>
          cases ys with
          | nil => exact absurd h (lt_irrefl _)
          | cons y ys => simp at hlength
      | cons x xs =>
          cases ys with
          | nil => simp at hlength
          | cons y ys =>
              simp only [List.take_succ_cons, List.drop_succ_cons]
              rw [List.cons_lt_cons_iff] at h ⊢
              obtain hlt | ⟨rfl, hlt⟩ := h
              · exact Or.inl (Or.inl hlt)
              · obtain htake | ⟨htake, hdrop⟩ := ih (by simpa using hlength) hlt
                · exact Or.inl (Or.inr ⟨rfl, htake⟩)
                · exact Or.inr ⟨by rw [htake], hdrop⟩

/-! ## Numerals -/

/-- The last `width` digits of a number, the most significant one first. -/
def numeral (digit : ℕ → α) (base : ℕ) : ℕ → ℕ → List α
  | 0, _ => []
  | width + 1, n => numeral digit base width (n / base) ++ [digit (n % base)]

section Numeral

variable {digit : ℕ → α} {base : ℕ}

omit [LinearOrder α] in
@[simp] lemma length_numeral (width n : ℕ) : (numeral digit base width n).length = width := by
  induction width generalizing n with
  | zero => rfl
  | succ width ih => simp [numeral, ih]

omit [LinearOrder α] in
lemma exists_of_mem_numeral (hbase : 0 < base) {width n : ℕ} {x : α}
    (h : x ∈ numeral digit base width n) : ∃ i < base, x = digit i := by
  induction width generalizing n with
  | zero => simp [numeral] at h
  | succ width ih =>
      simp only [numeral, List.mem_append, List.mem_singleton] at h
      obtain h | h := h
      · exact ih h
      · exact ⟨n % base, Nat.mod_lt n hbase, h⟩

/-- Numerals are ordered as the numbers that they write. -/
theorem numeral_lt_numeral (hdigit : StrictMonoOn digit (Set.Iio base)) {width m n : ℕ}
    (hmn : m < n) (hn : n < base ^ width) :
    numeral digit base width m < numeral digit base width n := by
  induction width generalizing m n with
  | zero =>
      rw [pow_zero] at hn
      omega
  | succ width ih =>
      have hbase : 0 < base := by
        by_contra hzero
        have hbase : base = 0 := by omega
        simp [hbase] at hn
      have hquotient : n / base < base ^ width := by
        rw [Nat.div_lt_iff_lt_mul hbase, ← pow_succ]
        exact hn
      have hm := Nat.div_add_mod m base
      have hn' := Nat.div_add_mod n base
      simp only [numeral]
      obtain hlt | heq := Nat.lt_or_eq_of_le (Nat.div_le_div_right (c := base) hmn.le)
      · exact append_lt_append (by simp) (ih hlt hquotient)
      · have hmod : m % base < n % base := by
          rw [heq] at hm
          omega
        have hdigits : digit (m % base) < digit (n % base) :=
          hdigit (Nat.mod_lt m hbase) (Nat.mod_lt n hbase) hmod
        rw [heq]
        exact List.append_left_lt (List.cons_lt_cons_iff.2 (Or.inl hdigits))

omit [LinearOrder α] in
/-- Other digits. -/
lemma map_numeral {β : Type} (f : α → β) (width n : ℕ) :
    (numeral digit base width n).map f = numeral (fun i => f (digit i)) base width n := by
  induction width generalizing n with
  | zero => rfl
  | succ width ih => simp [numeral, ih]

omit [LinearOrder α] in
/-- Only the digits below the base are used. -/
lemma numeral_congr {digit' : ℕ → α} (hbase : 0 < base)
    (h : ∀ i < base, digit i = digit' i) (width n : ℕ) :
    numeral digit base width n = numeral digit' base width n := by
  induction width generalizing n with
  | zero => rfl
  | succ width ih => rw [numeral, numeral, ih, h _ (Nat.mod_lt n hbase)]

end Numeral

/-! ## The number that digits write -/

/-- The number with these digits, the most significant one first. -/
def value (base : ℕ) (digits : List ℕ) : ℕ := digits.foldl (fun n digit => n * base + digit) 0

section Value

variable {base : ℕ}

@[simp] lemma value_nil : value base [] = 0 := rfl

lemma value_concat (digits : List ℕ) (digit : ℕ) :
    value base (digits ++ [digit]) = value base digits * base + digit := by
  simp [value]

lemma value_append (digits lower : List ℕ) :
    value base (digits ++ lower) = value base digits * base ^ lower.length + value base lower := by
  induction lower generalizing digits with
  | nil => simp
  | cons digit lower ih =>
      have hcons : value base (digit :: lower) =
          digit * base ^ lower.length + value base lower := by
        have h := ih [digit]
        simpa [value] using h
      rw [List.append_cons, ih, value_concat, hcons, List.length_cons, pow_succ]
      ring

lemma value_lt {digits : List ℕ} (h : ∀ digit ∈ digits, digit < base) :
    value base digits < base ^ digits.length := by
  induction digits using List.reverseRecOn with
  | nil => simp
  | append_singleton digits digit ih =>
      have hhigh : value base digits < base ^ digits.length := ih fun d hd =>
        h d (List.mem_append_left [digit] hd)
      have hlow : digit < base := h digit (List.mem_append_right digits (List.mem_singleton_self _))
      rw [value_concat, List.length_append, List.length_singleton, pow_succ]
      calc value base digits * base + digit
          < value base digits * base + base := Nat.add_lt_add_left hlow _
        _ = (value base digits + 1) * base := by ring
        _ ≤ base ^ digits.length * base := Nat.mul_le_mul_right base hhigh

/-- A numeral writes its number. -/
theorem value_numeral {width n : ℕ} (hn : n < base ^ width) :
    value base (numeral (fun i => i % base) base width n) = n := by
  induction width generalizing n with
  | zero =>
      rw [pow_zero] at hn
      simp only [numeral, value_nil]
      omega
  | succ width ih =>
      have hbase : 0 < base := by
        by_contra hzero
        have hbase : base = 0 := by omega
        simp [hbase] at hn
      have hquotient : n / base < base ^ width := by
        rw [Nat.div_lt_iff_lt_mul hbase, ← pow_succ]
        exact hn
      rw [numeral, value_concat, ih hquotient, Nat.mod_mod]
      exact Nat.div_add_mod' n base

end Value

/-- Decimal numerals determine the number. -/
lemma toString_nat_injective : Function.Injective (toString : ℕ → String) := by
  intro m n h
  have hdigits : Nat.toDigits 10 m = Nat.toDigits 10 n := by
    rw [← Nat.toList_repr, ← Nat.toList_repr]
    exact congrArg String.toList h
  rw [← @Nat.ofDigitChars_ten_toDigits m, hdigits, Nat.ofDigitChars_ten_toDigits]

/-! ## Separators at fixed places -/

/-- Put a separator after the first `k` elements, for each `k` in turn. -/
def cut (separator : α) : List ℕ → List α → List α
  | [], xs => xs
  | k :: ks, xs => xs.take k ++ separator :: cut separator ks (xs.drop k)

section Cut

variable {separator : α}

omit [LinearOrder α] in
@[simp] lemma length_cut (ks : List ℕ) (xs : List α) :
    (cut separator ks xs).length = xs.length + ks.length := by
  induction ks generalizing xs with
  | nil => rfl
  | cons k ks ih =>
      simp only [cut, List.length_append, List.length_cons, ih, List.length_take,
        List.length_drop]
      omega

omit [LinearOrder α] in
lemma mem_of_mem_cut {ks : List ℕ} {xs : List α} {x : α} (h : x ∈ cut separator ks xs) :
    x = separator ∨ x ∈ xs := by
  induction ks generalizing xs with
  | nil => exact Or.inr h
  | cons k ks ih =>
      simp only [cut, List.mem_append, List.mem_cons] at h
      obtain h | h | h := h
      · exact Or.inr (List.mem_of_mem_take h)
      · exact Or.inl h
      · obtain h | h := ih h
        · exact Or.inl h
        · exact Or.inr (List.mem_of_mem_drop h)

omit [LinearOrder α] in
/-- The separators are taken out again. -/
lemma filter_cut [DecidableEq α] {ks : List ℕ} {xs : List α} (h : separator ∉ xs) :
    (cut separator ks xs).filter (fun x => x ≠ separator) = xs := by
  induction ks generalizing xs with
  | nil => exact List.filter_eq_self.2 fun x hx => decide_eq_true fun heq => h (heq ▸ hx)
  | cons k ks ih =>
      have hfront : separator ∉ xs.take k := fun hs => h (List.mem_of_mem_take hs)
      have hback : separator ∉ xs.drop k := fun hs => h (List.mem_of_mem_drop hs)
      have hkept : (xs.take k).filter (fun x => x ≠ separator) = xs.take k :=
        List.filter_eq_self.2 fun x hx => decide_eq_true fun heq => hfront (heq ▸ hx)
      rw [cut, List.filter_append, List.filter_cons_of_neg (by simp), hkept, ih hback,
        List.take_append_drop]

theorem cut_lt_cut (ks : List ℕ) {xs ys : List α} (hlength : xs.length = ys.length)
    (h : xs < ys) : cut separator ks xs < cut separator ks ys := by
  induction ks generalizing xs ys with
  | nil => exact h
  | cons k ks ih =>
      obtain htake | ⟨htake, hdrop⟩ := take_lt_or_drop_lt hlength h k
      · exact append_lt_append (by simp [hlength]) htake
      · simp only [cut, htake]
        refine List.append_left_lt (List.cons_lt_cons_iff.2 (Or.inr ⟨rfl, ih ?_ hdrop⟩))
        simp [hlength]

end Cut

/-! ## Sorted and joined texts -/

/-- Sorting forgets the order. -/
lemma insertionSort_eq_of_perm {xs ys : List α} (h : xs.Perm ys) :
    xs.insertionSort (· ≤ ·) = ys.insertionSort (· ≤ ·) := by
  have hsorted : (xs.insertionSort (· ≤ ·)).Perm (ys.insertionSort (· ≤ ·)) :=
    ((List.perm_insertionSort _ _).trans h).trans (List.perm_insertionSort _ _).symm
  exact hsorted.eq_of_pairwise (fun _ _ _ _ hle hge => le_antisymm hle hge)
    (List.pairwise_insertionSort _ _) (List.pairwise_insertionSort _ _)

omit [LinearOrder α] in
/-- Nonempty texts without the separator can be read back from the joined text. -/
theorem intercalate_inj [BEq α] [LawfulBEq α] {separator : α} {xss yss : List (List α)}
    (hxs : ∀ xs ∈ xss, xs ≠ [] ∧ separator ∉ xs) (hys : ∀ ys ∈ yss, ys ≠ [] ∧ separator ∉ ys)
    (h : [separator].intercalate xss = [separator].intercalate yss) : xss = yss := by
  have hnil : ∀ zss : List (List α), (∀ zs ∈ zss, zs ≠ [] ∧ separator ∉ zs) →
      [separator].intercalate zss = [] → zss = [] := by
    intro zss hzs hempty
    cases zss with
    | nil => rfl
    | cons zs rest =>
        exfalso
        cases rest with
        | nil =>
            rw [List.intercalate_singleton] at hempty
            exact (hzs zs List.mem_cons_self).1 hempty
        | cons zs' rest =>
            rw [List.intercalate_cons_cons] at hempty
            simp at hempty
  by_cases hx : xss = []
  · rw [hx] at h ⊢
    exact (hnil yss hys h.symm).symm
  · have hy : yss ≠ [] := by
      intro hy
      rw [hy] at h
      exact hx (hnil xss hxs h)
    have hsplit := List.splitOn_intercalate separator (fun xs hmem => (hxs xs hmem).2) hx
    rw [h, List.splitOn_intercalate separator (fun ys hmem => (hys ys hmem).2) hy] at hsplit
    exact hsplit.symm

/-- The joined text of texts of one length. -/
lemma length_intercalate {α : Type} {separator : α} {width : ℕ} {xss : List (List α)}
    (h : ∀ xs ∈ xss, xs.length = width) :
    ([separator].intercalate xss).length = (width + 1) * xss.length - 1 := by
  induction xss with
  | nil => simp
  | cons xs rest ih =>
      have hxs : xs.length = width := h xs List.mem_cons_self
      cases rest with
      | nil => simp [hxs]
      | cons xs' rest =>
          have hrest := ih fun ys hys => h ys (List.mem_cons_of_mem xs hys)
          rw [List.intercalate_cons_cons, List.length_append, List.length_append, hrest, hxs]
          simp only [List.length_cons, List.length_nil]
          rw [Nat.mul_add_one (width + 1) (rest.length + 1)]
          have hpos : 1 ≤ (width + 1) * (rest.length + 1) := Nat.mul_pos (by omega) (by omega)
          omega

/-- Two relations that agree where a third one holds agree along its chains. -/
lemma isChain_congr {α : Type} {P Q R : α → α → Prop} (h : ∀ a b, P a b → (Q a b ↔ R a b))
    {as : List α} (hP : as.IsChain P) : as.IsChain Q ↔ as.IsChain R := by
  induction as with
  | nil => simp
  | cons a as ih =>
      cases as with
      | nil => simp
      | cons b as =>
          rw [List.isChain_cons_cons] at hP ⊢
          rw [List.isChain_cons_cons, h a b hP.1, ih hP.2]

/-- A function that is injective on the elements of two lists tells the lists apart. -/
lemma eq_of_map_eq {α β : Type} {f : α → β} {s : Set α} (hf : Set.InjOn f s) {as bs : List α}
    (has : ∀ a ∈ as, a ∈ s) (hbs : ∀ b ∈ bs, b ∈ s) (h : as.map f = bs.map f) : as = bs := by
  induction as generalizing bs with
  | nil =>
      cases bs with
      | nil => rfl
      | cons b bs => simp at h
  | cons a as ih =>
      cases bs with
      | nil => simp at h
      | cons b bs =>
          simp only [List.map_cons, List.cons.injEq] at h
          rw [hf (has a List.mem_cons_self) (hbs b List.mem_cons_self) h.1,
            ih (fun x hx => has x (List.mem_cons_of_mem a hx))
              (fun x hx => hbs x (List.mem_cons_of_mem b hx)) h.2]

end BePyEco.Library
