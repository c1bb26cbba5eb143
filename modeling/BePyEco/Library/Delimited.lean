import Mathlib.Data.List.Basic
import Mathlib.Data.Set.Basic
import Mathlib.Tactic.Common

/-!
# Texts that are read off the front

A writer of texts is unambiguous in a context when the front of a longer text tells which value was
written there and what follows.  `ReadsOff` says this of one value against all others, for rests
that may follow; the rules build it up along the structure of the value: a word ends where a
delimiter begins (`ReadsOff.word`), a pair is read from left to right (`ReadsOff.pair`), and a list
of readable elements is readable between separators and a closing delimiter
(`ReadsOff.intercalate`).
-/

namespace BePyEco.Library

variable {α β σ : Type}

/-- The text of this value, followed by a possible rest, is the text of no other value, and has no
other rest. -/
def ReadsOff (values : Set α) (rests : Set (List σ)) (text : α → List σ) (a : α) : Prop :=
  ∀ b ∈ values, ∀ r ∈ rests, ∀ r' ∈ rests, text a ++ r = text b ++ r' → a = b ∧ r = r'

namespace ReadsOff

variable {values : Set α} {rests : Set (List σ)} {text : α → List σ} {a : α}

/-- A decoder that finds the value and the rest makes the writer readable. -/
lemma of_decode {decode : List σ → Option (α × List σ)} (hvalue : a ∈ values)
    (h : ∀ b ∈ values, ∀ r ∈ rests, decode (text b ++ r) = some (b, r)) :
    ReadsOff values rests text a := by
  intro b hb r hr r' hr' heq
  have hsame := h a hvalue r hr
  rw [heq, h b hb r' hr', Option.some.injEq, Prod.mk.injEq] at hsame
  exact ⟨hsame.1.symm, hsame.2.symm⟩

/-- Nothing follows: the text belongs to one value. -/
lemma eq_of_text_eq (h : ReadsOff values rests text a) (hrests : [] ∈ rests) {b : α}
    (hb : b ∈ values) (heq : text a = text b) : a = b := by
  refine (h b hb [] hrests [] hrests ?_).1
  rw [heq]

lemma mono {values' : Set α} {rests' : Set (List σ)} (h : ReadsOff values rests text a)
    (hvalues : values' ⊆ values) (hrests : rests' ⊆ rests) : ReadsOff values' rests' text a :=
  fun b hb r hr r' hr' heq => h b (hvalues hb) r (hrests hr) r' (hrests hr') heq

/-- A fixed text in front changes nothing. -/
lemma prepend (start : List σ) (h : ReadsOff values rests text a) :
    ReadsOff values rests (fun b => start ++ text b) a := by
  intro b hb r hr r' hr' heq
  rw [List.append_assoc, List.append_assoc, List.append_cancel_left_eq] at heq
  exact h b hb r hr r' hr' heq

/-! ## Words -/

/-- The rests that begin with none of the letters of a word. -/
def delimited (letter : σ → Bool) : Set (List σ) := { r | ∀ x ∈ r.head?, letter x = false }

lemma takeWhile_append {letter : σ → Bool} {word r : List σ} (hword : ∀ x ∈ word, letter x = true)
    (hr : r ∈ delimited letter) : (word ++ r).takeWhile letter = word := by
  rw [List.takeWhile_append_of_pos hword]
  cases r with
  | nil => simp
  | cons x r => simp [hr x rfl]

/-- A word is read up to the first character that is no letter. -/
lemma word {letter : σ → Bool} (hvalue : a ∈ values)
    (hwords : ∀ b ∈ values, ∀ x ∈ text b, letter x = true) (hinj : Set.InjOn text values) :
    ReadsOff values (delimited letter) text a := by
  intro b hb r hr r' hr' heq
  have htext : text a = text b := by
    rw [← takeWhile_append (hwords a hvalue) hr, heq, takeWhile_append (hwords b hb) hr']
  rw [htext, List.append_cancel_left_eq] at heq
  exact ⟨hinj hvalue hb htext, heq⟩

/-! ## Pairs -/

/-- A pair is read from left to right. -/
lemma pair {values' : Set β} {text' : β → List σ} {rests' : Set (List σ)} {separator : List σ}
    {p : α × β} (h : ReadsOff values rests text p.1) (h' : ReadsOff values' rests' text' p.2)
    (hseparator : ∀ r, separator ++ r ∈ rests) :
    ReadsOff { q | q.1 ∈ values ∧ q.2 ∈ values' } rests'
      (fun q => text q.1 ++ separator ++ text' q.2) p := by
  rintro q ⟨hq, hq'⟩ r hr r' hr' heq
  simp only [List.append_assoc] at heq
  obtain ⟨hfst, hrest⟩ := h q.1 hq _ (hseparator _) _ (hseparator _) heq
  rw [List.append_cancel_left_eq] at hrest
  obtain ⟨hsnd, hrest⟩ := h' q.2 hq' r hr r' hr' hrest
  exact ⟨Prod.ext hfst hsnd, hrest⟩

/-! ## Lists -/

/-- The lists of such values. -/
def lists (values : Set α) : Set (List α) := { xs | ∀ x ∈ xs, x ∈ values }

lemma mem_lists_cons {x : α} {xs : List α} :
    x :: xs ∈ lists values ↔ x ∈ values ∧ xs ∈ lists values := List.forall_mem_cons

/-- No text of an element begins with the closing delimiter. -/
def Opens (close : σ) (text : α → List σ) (a : α) : Prop :=
  ∃ x rest, text a = x :: rest ∧ x ≠ close

lemma Opens.ne {close : σ} (h : Opens close text a) (r r' : List σ) :
    text a ++ r ≠ close :: r' := by
  obtain ⟨x, rest, htext, hx⟩ := h
  rw [htext, List.cons_append]
  intro heq
  exact hx (List.cons.inj heq).1

/-- Readable elements one after the other, up to a delimiter that none of them begins with. -/
theorem flatMap {close : σ} {xs : List α} (h : ∀ x ∈ xs, ReadsOff values rests text x)
    (hopens : ∀ b ∈ values, Opens close text b) (hxs : xs ∈ lists values)
    (hrests : ∀ ys ∈ lists values, ∀ r, ys.flatMap text ++ close :: r ∈ rests) :
    ReadsOff (lists values) Set.univ (fun ys => ys.flatMap text ++ [close]) xs := by
  intro ys hys r _ r' _ heq
  simp only [List.append_assoc, List.singleton_append] at heq
  induction xs generalizing ys with
  | nil =>
      cases ys with
      | nil => exact ⟨rfl, (List.cons.inj heq).2⟩
      | cons y ys =>
          rw [List.flatMap_cons, List.append_assoc] at heq
          exact absurd heq.symm ((hopens y (mem_lists_cons.1 hys).1).ne _ _)
  | cons x xs ih =>
      obtain ⟨hx, hxs⟩ := mem_lists_cons.1 hxs
      cases ys with
      | nil =>
          rw [List.flatMap_cons, List.append_assoc] at heq
          exact absurd heq ((hopens x hx).ne _ _)
      | cons y ys =>
          obtain ⟨hy, hys⟩ := mem_lists_cons.1 hys
          rw [List.flatMap_cons, List.flatMap_cons, List.append_assoc, List.append_assoc] at heq
          obtain ⟨hhead, hrest⟩ := h x List.mem_cons_self y hy _ (hrests xs hxs r) _
            (hrests ys hys r') heq
          obtain ⟨htail, hrest⟩ := ih (fun z hz => h z (List.mem_cons_of_mem x hz)) hxs ys hys hrest
          exact ⟨by rw [hhead, htail], hrest⟩

lemma intercalate_cons (separator : List σ) (x : α) (xs : List α) :
    separator.intercalate ((x :: xs).map text) =
      text x ++ xs.flatMap fun y => separator ++ text y := by
  induction xs generalizing x with
  | nil => simp
  | cons y xs ih =>
      rw [List.map_cons, List.map_cons, List.intercalate_cons_cons, ← List.map_cons, ih,
        List.flatMap_cons, List.append_assoc, List.append_assoc]

/-- Readable elements between separators, up to a delimiter: the separator and the delimiter begin
with different characters, and either may follow an element. -/
theorem intercalate {close first : σ} {separator : List σ} {xs : List α}
    (h : ∀ x ∈ xs, ReadsOff values rests text x) (hopens : ∀ b ∈ values, Opens close text b)
    (hxs : xs ∈ lists values) (hfirst : first ≠ close)
    (hseparator : ∀ r, first :: separator ++ r ∈ rests) (hclose : ∀ r, close :: r ∈ rests) :
    ReadsOff (lists values) Set.univ
      (fun ys => (first :: separator).intercalate (ys.map text) ++ [close]) xs := by
  let tail : α → List σ := fun y => (first :: separator) ++ text y
  have htail : ∀ b ∈ values, Opens close tail b := fun b _ => ⟨first, _, rfl, hfirst⟩
  have hrests : ∀ ys ∈ lists values, ∀ r, ys.flatMap tail ++ close :: r ∈ rests := by
    intro ys _ r
    cases ys with
    | nil => exact hclose r
    | cons y ys =>
        rw [List.flatMap_cons, List.append_assoc, List.append_assoc]
        exact hseparator _
  intro ys hys r hr r' hr' heq
  cases xs with
  | nil =>
      cases ys with
      | nil => exact ⟨rfl, (List.cons.inj heq).2⟩
      | cons y ys =>
          simp only [intercalate_cons, List.append_assoc] at heq
          exact absurd heq.symm ((hopens y (mem_lists_cons.1 hys).1).ne _ _)
  | cons x xs =>
      obtain ⟨hx, hxs⟩ := mem_lists_cons.1 hxs
      cases ys with
      | nil =>
          simp only [intercalate_cons, List.append_assoc] at heq
          exact absurd heq ((hopens x hx).ne _ _)
      | cons y ys =>
          obtain ⟨hy, hys⟩ := mem_lists_cons.1 hys
          simp only [intercalate_cons, List.append_assoc, List.singleton_append] at heq
          obtain ⟨hhead, hrest⟩ := h x List.mem_cons_self y hy _ (hrests xs hxs r) _
            (hrests ys hys r') heq
          have hlist : ReadsOff (lists values) Set.univ (fun zs => zs.flatMap tail ++ [close]) xs :=
            flatMap (fun z hz => (h z (List.mem_cons_of_mem x hz)).prepend (first :: separator))
              htail hxs hrests
          obtain ⟨hrests', hrest⟩ := hlist ys hys r hr r' hr' (by simpa using hrest)
          exact ⟨by rw [hhead, hrests'], hrest⟩

end ReadsOff

end BePyEco.Library
