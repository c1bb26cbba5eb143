import BePyEco.Common.Values
import BePyEco.Library.Numerals
import BePyEco.Library.Preferences
import BePyEco.Library.Texts
import Mathlib.Data.List.TakeWhile

/-!
# The Accept-Language header

A header lists language ranges, each with an optional weight.  The services read the primary subtag
of each entry in lower case and nothing else (`languageOf`); from the text of a header they read
back the languages that it lists (`languagesOf_headerText`).
-/

namespace BePyEco

open Library

/-! ## Reading -/

/-- `text.split(separator)[0]`. -/
def firstPart (separator text : String) : String := (text.splitOn separator).headD text

/-- The language of one entry of `Accept-Language`. -/
def languageOf [PyText] (part : String) : String :=
  PyText.lower (firstPart "-" (PyText.strip (firstPart ";" part)))

/-! ## The grammar -/

/-- Optional whitespace consists of spaces and tabs. -/
inductive Blank
  | space
  | tab
  deriving DecidableEq, Repr

def Blank.toChar : Blank → Char
  | space => ' '
  | tab => '\t'

/-- A subtag of a language range: letters and digits, or the wildcard. -/
structure Subtag where
  chars : List Char
  ne_nil : chars ≠ []
  plain : (chars.all fun c => c.isAlphanum || c == '*') = true

/-- A q-value: zero or one, with at most three decimals and at most one. -/
structure QValue where
  isOne : Bool
  decimals : Option (List (Fin 10)) := none
  short : ∀ digits ∈ decimals, digits.length ≤ 3
  le_one : isOne = true → ∀ digits ∈ decimals, ∀ digit ∈ digits, digit = 0

namespace QValue

def chars (q : QValue) : List Char :=
  (if q.isOne then '1' else '0') ::
    (q.decimals.map fun digits => '.' :: digits.map fun digit => Nat.digitChar digit).getD []

/-- The value in thousandths. -/
def thousandths (q : QValue) : ℕ :=
  (if q.isOne then 1000 else 0) +
    (q.decimals.map fun digits =>
      value 10 (digits.map Fin.val) * 10 ^ (3 - digits.length)).getD 0

end QValue

/-- A weight with the blanks around its semicolon; the `q` may be a capital. -/
structure Weight where
  before : List Blank := []
  after : List Blank := []
  isCapital : Bool := false
  q : QValue

def Weight.chars (w : Weight) : List Char :=
  w.before.map Blank.toChar ++ ';' :: (w.after.map Blank.toChar ++
    (if w.isCapital then 'Q' else 'q') :: '=' :: w.q.chars)

/-- One entry of a header, with the blanks around it. -/
structure LanguageRange where
  lead : List Blank := []
  primary : Subtag
  subtags : List Subtag := []
  weight : Option Weight := none
  trail : List Blank := []

namespace LanguageRange

/-- The language that the range names, in lower case. -/
def language (r : LanguageRange) : String := String.ofList (r.primary.chars.map Char.toLower)

/-- The q-value in thousandths; it is 1 where there is none. -/
def quality (r : LanguageRange) : ℕ := (r.weight.map fun w => w.q.thousandths).getD 1000

def rangeChars (r : LanguageRange) : List Char :=
  r.primary.chars ++ r.subtags.flatMap fun subtag => '-' :: subtag.chars

def text (r : LanguageRange) : String :=
  String.ofList (r.lead.map Blank.toChar ++ r.rangeChars ++
    (r.weight.map Weight.chars).getD [] ++ r.trail.map Blank.toChar)

end LanguageRange

/-- The text of a header. -/
def headerText (header : List LanguageRange) : String :=
  ",".intercalate (header.map LanguageRange.text)

/-- The languages that a header offers, with their q-values. -/
def offersOf (header : List LanguageRange) : List (String × ℕ) :=
  header.map fun r => (r.language, r.quality)

lemma map_fst_offersOf (header : List LanguageRange) :
    (offersOf header).map Prod.fst = header.map LanguageRange.language := by
  rw [offersOf, List.map_map]
  rfl

/-- `en`. -/
def english : LanguageRange where
  primary := ⟨['e', 'n'], by decide, by decide⟩

/-- `vi;q=0.5`. -/
def halfVietnamese : LanguageRange where
  primary := ⟨['v', 'i'], by decide, by decide⟩
  weight := some {
    q := {
      isOne := false
      decimals := some [5]
      short := by
        rintro digits ⟨⟩
        exact Nat.le_of_ble_eq_true rfl
      le_one := nofun } }

example : headerText [halfVietnamese, english] = "vi;q=0.5,en" := by decide

/-! ## Reading what a header writes -/

/-- A character of ASCII that is neither blank nor a control character. -/
def Visible (c : Char) : Prop := 33 ≤ c.toNat ∧ c.toNat ≤ 126

/-- What `strip` and `lower` do with visible ASCII text: blanks around it are removed, and its
capitals are replaced. -/
class AsciiText [PyText] : Prop where
  strip : ∀ (lead trail : List Blank) (chars : List Char), (∀ c ∈ chars, Visible c) →
    PyText.strip (String.ofList
      (lead.map Blank.toChar ++ chars ++ trail.map Blank.toChar)) = String.ofList chars
  lower : ∀ chars : List Char, (∀ c ∈ chars, Visible c) →
    PyText.lower (String.ofList chars) = String.ofList (chars.map Char.toLower)

lemma Blank.toChar_ne (b : Blank) : b.toChar ≠ ',' ∧ b.toChar ≠ ';' := by
  cases b <;> decide

/-- Subtags are written with visible characters other than the separators. -/
lemma Subtag.char_spec {subtag : Subtag} {c : Char} (h : c ∈ subtag.chars) :
    Visible c ∧ c ≠ ',' ∧ c ≠ ';' ∧ c ≠ '-' := by
  have hplain : c.isAlphanum = true ∨ c = '*' := by
    simpa using List.all_eq_true.1 subtag.plain c h
  obtain halnum | rfl := hplain
  · have hne : c ≠ ',' ∧ c ≠ ';' ∧ c ≠ '-' := by
      refine ⟨?_, ?_, ?_⟩ <;> rintro rfl <;> exact absurd halnum (by decide)
    refine ⟨?_, hne⟩
    delta Char.isAlphanum Char.isAlpha Char.isUpper Char.isLower Char.isDigit at halnum
    simp only [Bool.or_eq_true, Bool.and_eq_true, decide_eq_true_eq, ge_iff_le, Char.reduceVal,
      UInt32.le_iff_toNat_le, UInt32.reduceToNat] at halnum
    have hcode : c.val.toNat = c.toNat := rfl
    unfold Visible
    omega
  · exact ⟨⟨by decide, by decide⟩, by decide⟩

namespace LanguageRange

variable (r : LanguageRange)

lemma language_ne_empty : r.language ≠ "" := by
  intro h
  have hchars := congrArg String.toList h
  simp only [language, String.toList_ofList, String.toList_empty, List.map_eq_nil_iff] at hchars
  exact r.primary.ne_nil hchars

lemma rangeChar_spec {c : Char} (h : c ∈ r.rangeChars) : Visible c ∧ c ≠ ',' ∧ c ≠ ';' := by
  simp only [rangeChars, List.mem_append, List.mem_flatMap, List.mem_cons] at h
  obtain h | ⟨subtag, -, rfl | h⟩ := h
  · obtain ⟨hvisible, hcomma, hsemicolon, -⟩ := Subtag.char_spec h
    exact ⟨hvisible, hcomma, hsemicolon⟩
  · exact ⟨⟨by decide, by decide⟩, by decide⟩
  · obtain ⟨hvisible, hcomma, hsemicolon, -⟩ := Subtag.char_spec h
    exact ⟨hvisible, hcomma, hsemicolon⟩

/-- Up to its semicolon an entry is the range with blanks around it. -/
lemma firstPart_text : ∃ trail : List Blank, firstPart ";" r.text =
    String.ofList (r.lead.map Blank.toChar ++ r.rangeChars ++ trail.map Blank.toChar) := by
  have hblanks : ∀ bs : List Blank, ∀ c ∈ bs.map Blank.toChar, (c != ';') = true := by
    intro bs c hc
    obtain ⟨b, -, rfl⟩ := List.mem_map.1 hc
    exact bne_iff_ne.2 b.toChar_ne.2
  have hrange : ∀ c ∈ r.lead.map Blank.toChar ++ r.rangeChars, (c != ';') = true := by
    intro c hc
    obtain hc | hc := List.mem_append.1 hc
    · exact hblanks r.lead c hc
    · exact bne_iff_ne.2 (r.rangeChar_spec hc).2.2
  have hfirst : firstPart ";" r.text =
      String.ofList (r.text.toList.takeWhile (· != ';')) := headD_splitOn r.text r.text ';'
  rw [hfirst, text, String.toList_ofList]
  cases hweight : r.weight with
  | none =>
      refine ⟨r.trail, ?_⟩
      rw [Option.map_none, Option.getD_none, List.append_nil,
        List.takeWhile_append_of_pos hrange, List.takeWhile_eq_self_iff.2 (hblanks r.trail)]
  | some w =>
      refine ⟨w.before, ?_⟩
      rw [Option.map_some, Option.getD_some, List.append_assoc, List.takeWhile_append_of_pos hrange,
        Weight.chars, List.append_assoc, List.append_assoc,
        List.takeWhile_append_of_pos (hblanks w.before)]
      simp

/-- Up to its first hyphen a range is its primary subtag. -/
lemma firstPart_rangeChars :
    firstPart "-" (String.ofList r.rangeChars) = String.ofList r.primary.chars := by
  have hprimary : ∀ c ∈ r.primary.chars, (c != '-') = true :=
    fun c hc => bne_iff_ne.2 (Subtag.char_spec hc).2.2.2
  have hfirst : firstPart "-" (String.ofList r.rangeChars) =
      String.ofList ((String.ofList r.rangeChars).toList.takeWhile (· != '-')) :=
    headD_splitOn _ _ '-'
  rw [hfirst, String.toList_ofList, rangeChars, List.takeWhile_append_of_pos hprimary]
  cases r.subtags <;> simp

/-- The services read the language of an entry. -/
lemma languageOf_text [PyText] [AsciiText] : languageOf r.text = r.language := by
  obtain ⟨trail, hfirst⟩ := r.firstPart_text
  rw [languageOf, hfirst, AsciiText.strip r.lead trail _ fun c hc => (r.rangeChar_spec hc).1,
    firstPart_rangeChars, AsciiText.lower _ fun c hc => (Subtag.char_spec hc).1]
  rfl

lemma comma_not_mem_text : ',' ∉ r.text.toList := by
  have hblanks : ∀ bs : List Blank, ',' ∉ bs.map Blank.toChar := by
    intro bs hc
    obtain ⟨b, -, hb⟩ := List.mem_map.1 hc
    exact b.toChar_ne.1 hb
  have hq : ∀ q : QValue, ',' ∉ q.chars := by
    intro q hc
    cases hdecimals : q.decimals with
    | none => cases hone : q.isOne <;> simp [QValue.chars, hdecimals, hone] at hc
    | some digits =>
        cases hone : q.isOne <;> simp [QValue.chars, hdecimals, hone] at hc
  have hweight : ∀ w : Weight, ',' ∉ w.chars := by
    intro w hc
    simp only [Weight.chars, List.mem_append, List.mem_cons] at hc
    obtain hc | hc | hc | hc | hc | hc := hc
    · exact hblanks _ hc
    · exact absurd hc (by decide)
    · exact hblanks _ hc
    · cases hcapital : w.isCapital <;> simp [hcapital] at hc
    · exact absurd hc (by decide)
    · exact hq w.q hc
  rw [text, String.toList_ofList]
  simp only [List.mem_append, not_or]
  refine ⟨⟨⟨hblanks _, fun hc => (r.rangeChar_spec hc).2.1 rfl⟩, ?_⟩, hblanks _⟩
  cases hw : r.weight with
  | none => simp
  | some w => exact hweight w

end LanguageRange

section Header

variable [PyText] [AsciiText]

/-- The languages of a header are read back in its order. -/
theorem languagesOf_headerText {header : List LanguageRange} (h : header ≠ []) :
    ((headerText header).splitOn ",").map languageOf = header.map LanguageRange.language := by
  have hsplit : (headerText header).splitOn "," = header.map LanguageRange.text := by
    have hne : header.map LanguageRange.text ≠ [] := by simpa using h
    refine @splitOn_intercalate ',' _ hne fun part hpart => ?_
    obtain ⟨r, -, rfl⟩ := List.mem_map.1 hpart
    exact r.comma_not_mem_text
  rw [hsplit, List.map_map]
  exact List.map_congr_left fun r _ => r.languageOf_text

/-- The empty header has one entry, without a language. -/
lemma languagesOf_nil : ((headerText []).splitOn ",").map languageOf = [""] := by
  have hsplit : ∀ c : Char, "".splitOn (String.singleton c) = [""] := by
    intro c
    rw [splitOn_singleton]
    simp
  have hfirst : ∀ c : Char, firstPart (String.singleton c) "" = "" := by
    intro c
    rw [firstPart, hsplit]
    rfl
  have hstrip : PyText.strip "" = "" := AsciiText.strip [] [] [] (by simp)
  have hlower : PyText.lower "" = "" := AsciiText.lower [] (by simp)
  have hlanguage : languageOf "" = "" := by
    rw [languageOf, show firstPart ";" "" = "" from hfirst ';', hstrip,
      show firstPart "-" "" = "" from hfirst '-', hlower]
  rw [show (headerText []).splitOn "," = [""] from hsplit ',', List.map_singleton, hlanguage]

end Header

/-! ## ASCII -/

def isBlank (c : Char) : Bool := c == ' ' || c == '\t'

/-- Both functions of `PyText`, on visible ASCII text with blanks around it. -/
@[reducible] def asciiText : PyText where
  strip s := String.ofList ((s.toList.dropWhile isBlank).reverse.dropWhile isBlank).reverse
  lower s := String.ofList (s.toList.map Char.toLower)

lemma isBlank_of_mem {bs : List Blank} : ∀ c ∈ bs.map Blank.toChar, isBlank c = true := by
  intro c hc
  obtain ⟨b, -, rfl⟩ := List.mem_map.1 hc
  cases b <;> decide

lemma dropWhile_isBlank {chars : List Char} (h : ∀ c ∈ chars, Visible c) :
    chars.dropWhile isBlank = chars := by
  cases chars with
  | nil => rfl
  | cons c chars =>
      have hc : ¬ isBlank c = true := by
        obtain ⟨hlow, -⟩ := h c List.mem_cons_self
        intro hblank
        simp only [isBlank, Bool.or_eq_true, beq_iff_eq] at hblank
        obtain rfl | rfl := hblank
        · exact absurd hlow (by decide)
        · exact absurd hlow (by decide)
      exact List.dropWhile_cons_of_neg hc

instance : @AsciiText asciiText := by
  refine @AsciiText.mk asciiText (fun lead trail chars h => ?_) fun chars _ => ?_
  · have hreverse : ∀ c ∈ chars.reverse, Visible c := fun c hc => h c (List.mem_reverse.1 hc)
    have htrail : ∀ c ∈ (trail.map Blank.toChar).reverse, isBlank c = true :=
      fun c hc => isBlank_of_mem c (List.mem_reverse.1 hc)
    have hnil : (trail.map Blank.toChar).dropWhile isBlank = [] :=
      List.dropWhile_eq_nil_iff.2 isBlank_of_mem
    have hlead : (lead.map Blank.toChar ++ chars ++ trail.map Blank.toChar).dropWhile isBlank =
        if chars.isEmpty then [] else chars ++ trail.map Blank.toChar := by
      rw [List.append_assoc, List.dropWhile_append_of_pos isBlank_of_mem, List.dropWhile_append,
        dropWhile_isBlank h, hnil]
    simp only [PyText.strip, String.toList_ofList]
    rw [hlead]
    cases chars with
    | nil => rfl
    | cons c chars =>
        rw [List.isEmpty_cons, if_neg Bool.false_ne_true, List.reverse_append,
          List.dropWhile_append_of_pos htrail, dropWhile_isBlank hreverse, List.reverse_reverse]
  · simp only [PyText.lower, String.toList_ofList]

end BePyEco
