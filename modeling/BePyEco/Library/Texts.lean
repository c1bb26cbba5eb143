import Mathlib.Data.String.Basic
import Mathlib.Tactic.Common

/-!
# Splitting texts

Splitting a text at a character splits the list of its characters (`splitOn_singleton`).  Texts
that were joined with a character that none of them contains are read back (`splitOn_intercalate`),
and the first part of a text ends where the character occurs first (`headD_splitOn`).
-/

namespace BePyEco.Library

open String (ofList utf8Len)

/-! ## The search -/

/-- A separator of one character is read in one step. -/
lemma separator_spec (c : Char) :
    String.Pos.Raw.get (String.singleton c) 0 = c ∧
      String.Pos.Raw.next (String.singleton c) 0 = ⟨c.utf8Size⟩ ∧
      String.Pos.Raw.atEnd (String.singleton c) ⟨c.utf8Size⟩ = true := by
  have hget := String.get_of_valid [] [c]
  have hnext := String.next_of_valid [] c []
  have hend := (String.atEnd_of_valid [c] []).2 rfl
  have hlist : ofList [c] = String.singleton c := by
    rw [← String.toList_inj]
    simp
  simp only [List.nil_append, List.append_nil, hlist, String.utf8Len_nil, String.utf8Len_cons,
    Nat.zero_add] at hget hnext hend
  exact ⟨hget, hnext, hend⟩

/-- The search has cut off the characters `before`, is in the middle of a part and has `rest` still
to read. -/
lemma splitOnAux_eq (c : Char) (before part rest : List Char) (parts : List String) :
    String.splitOnAux (ofList (before ++ part ++ rest)) (String.singleton c) ⟨utf8Len before⟩
        ⟨utf8Len before + utf8Len part⟩ 0 parts =
      parts.reverse ++ ((rest.splitOn c).modifyHead (part ++ ·)).map ofList := by
  obtain ⟨hget, hnext, hend⟩ := separator_spec c
  induction rest generalizing before part parts with
  | nil =>
      have hfinished := (String.atEnd_of_valid (before ++ part) []).2 rfl
      have hpart := String.extract_of_valid before part []
      rw [String.utf8Len_append] at hfinished
      rw [String.splitOnAux, if_pos hfinished, hpart, List.splitOn_nil]
      simp
  | cons x rest ih =>
      have hunfinished : ¬ String.Pos.Raw.atEnd (ofList (before ++ part ++ x :: rest))
          ⟨utf8Len before + utf8Len part⟩ = true := by
        rw [← String.utf8Len_append, String.atEnd_of_valid]
        exact List.cons_ne_nil x rest
      have hx : String.Pos.Raw.get (ofList (before ++ part ++ x :: rest))
          ⟨utf8Len before + utf8Len part⟩ = x := by
        rw [← String.utf8Len_append]
        exact String.get_of_valid (before ++ part) (x :: rest)
      have hafter : String.Pos.Raw.next (ofList (before ++ part ++ x :: rest))
          ⟨utf8Len before + utf8Len part⟩ = ⟨utf8Len before + utf8Len part + x.utf8Size⟩ := by
        rw [← String.utf8Len_append]
        exact String.next_of_valid (before ++ part) x rest
      have hpart := String.extract_of_valid before part (x :: rest)
      rw [String.splitOnAux, if_neg hunfinished, hx, hget, hnext,
        List.splitOn_cons_eq_if_modifyHead]
      by_cases hxc : x = c
      · -- the part ends here
        have hback : String.Pos.Raw.unoffsetBy ⟨utf8Len before + utf8Len part + x.utf8Size⟩
            ⟨c.utf8Size⟩ = ⟨utf8Len before + utf8Len part⟩ := by
          simp [String.Pos.Raw.unoffsetBy, hxc]
        have hrest := ih (before ++ part ++ [x]) [] (ofList part :: parts)
        simp only [String.utf8Len_append, String.utf8Len_cons, String.utf8Len_nil, Nat.zero_add,
          Nat.add_zero, List.append_nil, ← List.append_cons] at hrest
        rw [if_pos (beq_iff_eq.2 hxc), if_pos (beq_iff_eq.2 hxc), hafter]
        simp only [hend, if_true, hback, hpart]
        rw [hrest]
        simp only [List.reverse_cons, List.append_assoc, List.nil_append, List.modifyHead_cons,
          List.append_nil, List.map_cons, List.cons_append]
        cases rest.splitOn c <;> rfl
      · -- one more character of the part
        have hrest := ih before (part ++ [x]) parts
        simp only [String.utf8Len_append, String.utf8Len_cons, String.utf8Len_nil, Nat.zero_add,
          ← Nat.add_assoc, ← List.append_assoc before, ← List.append_cons] at hrest
        rw [if_neg fun h => hxc (beq_iff_eq.1 h), if_neg fun h => hxc (beq_iff_eq.1 h)]
        have hstay : String.Pos.Raw.unoffsetBy ⟨utf8Len before + utf8Len part⟩ 0 =
            ⟨utf8Len before + utf8Len part⟩ := by
          simp [String.Pos.Raw.unoffsetBy]
        rw [hstay, hafter, hrest, List.modifyHead_modifyHead]
        congr 3

/-! ## The parts -/

theorem splitOn_singleton (s : String) (c : Char) :
    s.splitOn (String.singleton c) = (s.toList.splitOn c).map ofList := by
  have hne : (String.singleton c == "") = false := by
    rw [beq_eq_false_iff_ne, Ne, ← String.toList_inj]
    simp
  have hparts := splitOnAux_eq c [] [] s.toList []
  simp only [List.nil_append, String.ofList_toList, String.utf8Len_nil, Nat.add_zero,
    List.reverse_nil] at hparts
  rw [String.splitOn, hne]
  refine hparts.trans ?_
  cases s.toList.splitOn c <;> rfl

/-- What was joined is read back. -/
theorem splitOn_intercalate {c : Char} {parts : List String} (hne : parts ≠ [])
    (h : ∀ part ∈ parts, c ∉ part.toList) :
    ((String.singleton c).intercalate parts).splitOn (String.singleton c) = parts := by
  have hparts : ∀ part ∈ parts.map String.toList, c ∉ part := by
    intro part hpart
    obtain ⟨s, hs, rfl⟩ := List.mem_map.1 hpart
    exact h s hs
  have hmap : parts.map String.toList ≠ [] := by simpa using hne
  rw [splitOn_singleton, String.toList_intercalate, String.toList_singleton,
    List.splitOn_intercalate c hparts hmap, List.map_map]
  simp

theorem headD_splitOn (s d : String) (c : Char) :
    (s.splitOn (String.singleton c)).headD d = ofList (s.toList.takeWhile (· != c)) := by
  have hhead : ∀ xs : List Char, ∃ rest, xs.splitOn c = xs.takeWhile (· != c) :: rest := by
    intro xs
    induction xs with
    | nil => exact ⟨[], List.splitOn_nil c⟩
    | cons x xs ih =>
        obtain ⟨rest, hrest⟩ := ih
        rw [List.splitOn_cons_eq_if_modifyHead]
        by_cases hxc : x = c
        · exact ⟨xs.splitOn c, by simp [hxc]⟩
        · exact ⟨rest, by simp [hxc, hrest]⟩
  obtain ⟨rest, hrest⟩ := hhead s.toList
  rw [splitOn_singleton, hrest]
  rfl

end BePyEco.Library
