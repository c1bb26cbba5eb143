import Mathlib.Data.List.DropRight
import Mathlib.Tactic.Common

/-!
# Taking parts out of texts

`without old` takes every occurrence of a text out, from the left to the right, and `trim p` what
satisfies `p` at both ends.  A text that is put in front, or a frame around a text, is taken off
again (`without_append_self`, `trim_frame`).
-/

namespace BePyEco.Library

variable {α : Type}

section Without

variable [DecidableEq α]

/-- The rest of a text without the occurrences of another one, when so many characters of the last
occurrence are still to be skipped. -/
def withoutFrom (old : List α) : ℕ → List α → List α
  | _, [] => []
  | skip + 1, _ :: rest => withoutFrom old skip rest
  | 0, c :: rest =>
    if old <+: c :: rest then withoutFrom old (old.length - 1) rest
    else c :: withoutFrom old 0 rest

/-- A text without the occurrences of a nonempty one. -/
def without (old text : List α) : List α := withoutFrom old 0 text

variable {old : List α}

lemma withoutFrom_append (skipped text : List α) :
    withoutFrom old skipped.length (skipped ++ text) = without old text := by
  induction skipped with
  | nil => rfl
  | cons c skipped ih => exact ih

/-- What is put in front is taken off again. -/
lemma without_append_self (hne : old ≠ []) (text : List α) :
    without old (old ++ text) = without old text := by
  cases old with
  | nil => exact absurd rfl hne
  | cons c rest =>
      have hprefix : c :: rest <+: c :: (rest ++ text) := List.prefix_append (c :: rest) text
      rw [without, List.cons_append, withoutFrom, if_pos hprefix]
      exact withoutFrom_append rest text

lemma without_cons {c : α} {text : List α} (h : ¬ old <+: c :: text) :
    without old (c :: text) = c :: without old text := if_neg h

/-- Where the first character does not occur, nothing is taken out. -/
lemma without_append_left {c : α} {rest : List α} {front : List α} (h : c ∉ front)
    (text : List α) :
    without (c :: rest) (front ++ text) = front ++ without (c :: rest) text := by
  induction front with
  | nil => rfl
  | cons d front ih =>
      have hd : c ≠ d := fun heq => h (heq ▸ List.mem_cons_self)
      have hfront : c ∉ front := fun hc => h (List.mem_cons_of_mem d hc)
      have hprefix : ¬ c :: rest <+: d :: (front ++ text) := fun hle =>
        hd (List.cons_prefix_cons.1 hle).1
      rw [List.cons_append, without_cons hprefix, ih hfront, List.cons_append]

lemma without_eq_self {c : α} {rest text : List α} (h : c ∉ text) :
    without (c :: rest) text = text := by
  have htext : without (c :: rest) (text ++ []) = text ++ [] := without_append_left h []
  rwa [List.append_nil] at htext

end Without

/-! ## Both ends -/

section Trim

variable {p : α → Bool}

/-- A text without what satisfies `p` at its ends. -/
def trim (p : α → Bool) (text : List α) : List α := (text.dropWhile p).rdropWhile p

lemma dropWhile_eq_self {text : List α} (h : ∀ c ∈ text, p c = false) :
    text.dropWhile p = text := by
  cases text with
  | nil => rfl
  | cons c text => exact List.dropWhile_cons_of_neg (by simp [h c List.mem_cons_self])

/-- A frame of what satisfies `p` is taken off. -/
lemma trim_frame {lead text trail : List α} (hlead : ∀ c ∈ lead, p c = true)
    (htrail : ∀ c ∈ trail, p c = true) (h : ∀ c ∈ text, p c = false) :
    trim p (lead ++ (text ++ trail)) = text := by
  rw [trim, List.dropWhile_append_of_pos hlead]
  have hfront : ((text ++ trail).dropWhile p).rdropWhile p = (text ++ trail).rdropWhile p := by
    cases text with
    | nil => simp [List.dropWhile_eq_nil_iff.2 htrail, List.rdropWhile_eq_nil_iff.2 htrail]
    | cons c text =>
        rw [List.cons_append, List.dropWhile_cons_of_neg (by simp [h c List.mem_cons_self])]
  have hreverse : ∀ c ∈ text.reverse, p c = false := fun c hc => h c (List.mem_reverse.1 hc)
  have htrail' : ∀ c ∈ trail.reverse, p c = true := fun c hc => htrail c (List.mem_reverse.1 hc)
  rw [hfront, List.rdropWhile, List.reverse_append, List.dropWhile_append_of_pos htrail',
    dropWhile_eq_self hreverse, List.reverse_reverse]

lemma trim_eq_self {text : List α} (h : ∀ c ∈ text, p c = false) : trim p text = text := by
  have hframe : trim p ([] ++ (text ++ [])) = text := trim_frame (by simp) (by simp) h
  rwa [List.nil_append, List.append_nil] at hframe

end Trim

end BePyEco.Library
