import BePyEco.Common.Idempotency
import BePyEco.Common.KeyOrder
import BePyEco.Library.Delimited
import BePyEco.Library.Numerals

/-!
# The text of a document

`Json.dumps` is the text that `json.dumps(data, sort_keys=True)` writes, with every character
outside printable ASCII escaped.  `Json.dumps_eq_iff` says that no quotation mark, bracket, escape
or digit makes one document look like another: two bodies have one text exactly when they are the
same up to the order of their keys.
-/

namespace BePyEco.Json

open Library

/-! ## Strings -/

def quote : Char := '\x22'

def backslash : Char := '\x5c'

/-- The characters that have an escape of two characters, with the second one. -/
def shortEscapes : List (Char × Char) :=
  [(backslash, backslash), (quote, quote), ('\x08', 'b'), ('\x0c', 'f'), ('\n', 'n'), ('\r', 'r'),
    ('\t', 't')]

/-- One UTF-16 unit, or a surrogate pair. -/
def utf16 (c : Char) : List ℕ :=
  if c.toNat < 0x10000 then [c.toNat]
  else [0xd800 + (c.toNat - 0x10000) / 0x400, 0xdc00 + (c.toNat - 0x10000) % 0x400]

/-- A unit as four digits after a backslash and the letter `u`. -/
def unitText (unit : ℕ) : List Char := backslash :: 'u' :: numeral Nat.digitChar 16 4 unit

def escape (c : Char) : List Char :=
  match shortEscapes.lookup c with
  | some e => [backslash, e]
  | none => if ' ' ≤ c ∧ c ≤ '~' then [c] else (utf16 c).flatMap unitText

/-- What follows the opening quotation mark. -/
def body (s : List Char) : List Char := s.flatMap escape ++ [quote]

def stringText (s : String) : List Char := quote :: body s.toList

section Strings

/-- The number that a digit stands for. -/
def digitValue (c : Char) : ℕ := if c.isDigit then c.toNat - 48 else c.toNat - 87

/-- The unit that the first four digits write. -/
def readUnit (text : List Char) : ℕ := value 16 ((text.take 4).map digitValue)

/-- The first character of an escaped text, and the rest. -/
def unescape : List Char → Option (Char × List Char)
  | [] => none
  | c :: rest =>
    if c ≠ backslash then some (c, rest)
    else
      match (shortEscapes.find? fun p => p.2 == rest.headD c) with
      | some p => some (p.1, rest.drop 1)
      | none =>
        let unit := readUnit (rest.drop 1)
        if 0xd800 ≤ unit ∧ unit < 0xdc00 then
          let low := readUnit (rest.drop 7)
          some (Char.ofNat (0x10000 + (unit - 0xd800) * 0x400 + (low - 0xdc00)), rest.drop 11)
        else some (Char.ofNat unit, rest.drop 5)

lemma readUnit_numeral {unit : ℕ} (h : unit < 0x10000) (r : List Char) :
    readUnit (numeral Nat.digitChar 16 4 unit ++ r) = unit := by
  have hdigits : ∀ i < 16, digitValue (Nat.digitChar i) = i % 16 := by decide
  have hlength : (numeral Nat.digitChar 16 4 unit).length = 4 := length_numeral 4 unit
  rw [readUnit, List.take_left' hlength, map_numeral, numeral_congr (by decide) hdigits]
  exact value_numeral h

lemma drop_numeral (unit : ℕ) (r : List Char) :
    (numeral Nat.digitChar 16 4 unit ++ r).drop 4 = r :=
  List.drop_left' (length_numeral 4 unit)

/-- A unit that is no part of a pair. -/
lemma unescape_unit {unit : ℕ} (hunit : unit < 0x10000) (hpair : ¬(0xd800 ≤ unit ∧ unit < 0xdc00))
    (r : List Char) : unescape (unitText unit ++ r) = some (Char.ofNat unit, r) := by
  have hshort : shortEscapes.find? (fun p => p.2 == 'u') = none := by decide
  simp only [unescape, unitText, List.cons_append, ne_eq, not_true_eq_false, if_false,
    List.headD_cons, hshort, List.drop_succ_cons, List.drop_zero, readUnit_numeral hunit,
    if_neg hpair, drop_numeral]

/-- The two halves of a surrogate pair. -/
lemma unescape_pair {high low : ℕ} (hhigh : 0xd800 ≤ high ∧ high < 0xdc00) (hlow : low < 0x10000)
    (r : List Char) : unescape (unitText high ++ (unitText low ++ r)) =
      some (Char.ofNat (0x10000 + (high - 0xd800) * 0x400 + (low - 0xdc00)), r) := by
  have hshort : shortEscapes.find? (fun p => p.2 == 'u') = none := by decide
  have hunit : high < 0x10000 := by omega
  have hsecond (rest : List Char) (n : ℕ) :
      (numeral Nat.digitChar 16 4 high ++ rest).drop (n + 4) = rest.drop n := by
    rw [Nat.add_comm, ← List.drop_drop, drop_numeral]
  simp only [unescape, unitText, List.cons_append, ne_eq, not_true_eq_false, if_false,
    List.headD_cons, hshort, List.drop_succ_cons, List.drop_zero, readUnit_numeral hunit,
    if_pos hhigh]
  simp only [hsecond _ 2, hsecond _ 6, List.drop_succ_cons, List.drop_zero, readUnit_numeral hlow,
    drop_numeral]

/-- The escapes are read back. -/
lemma unescape_escape (c : Char) (r : List Char) : unescape (escape c ++ r) = some (c, r) := by
  cases hlookup : shortEscapes.lookup c with
  | some e =>
      have hshort : ∀ p ∈ shortEscapes, unescape ([backslash, p.2] ++ r) = some (p.1, r) := by
        simp only [shortEscapes, List.forall_mem_cons]
        exact ⟨rfl, rfl, rfl, rfl, rfl, rfl, rfl, List.forall_mem_nil _⟩
      have hmem : (c, e) ∈ shortEscapes := by
        obtain ⟨before, after, heq, -⟩ := List.lookup_eq_some_iff.1 hlookup
        rw [heq]
        exact List.mem_append_right before List.mem_cons_self
      rw [escape, hlookup]
      exact hshort (c, e) hmem
  | none =>
      have hne : c ≠ backslash := by
        rintro rfl
        exact absurd hlookup (by decide)
      have hvalid : c.toNat < 0xd800 ∨ 0xdfff < c.toNat ∧ c.toNat < 0x110000 := c.valid
      rw [escape, hlookup]
      dsimp only
      split
      · exact if_pos hne
      · rw [utf16]
        split
        · rename_i hunit
          have hpair : ¬(0xd800 ≤ c.toNat ∧ c.toNat < 0xdc00) := by omega
          rw [List.flatMap_singleton, unescape_unit hunit hpair, Char.ofNat_toNat]
        · rename_i hunit
          rw [List.flatMap_cons, List.flatMap_singleton, List.append_assoc,
            unescape_pair (by omega) (by omega)]
          have hback : 0x10000 + (0xd800 + (c.toNat - 0x10000) / 0x400 - 0xd800) * 0x400 +
              (0xdc00 + (c.toNat - 0x10000) % 0x400 - 0xdc00) = c.toNat := by omega
          rw [hback, Char.ofNat_toNat]

/-- No text of a character begins with a quotation mark. -/
lemma opens_escape (c : Char) : ReadsOff.Opens quote escape c := by
  cases hlookup : shortEscapes.lookup c with
  | some e => exact ⟨backslash, [e], by rw [escape, hlookup], by decide⟩
  | none =>
      have hne : c ≠ quote := by
        rintro rfl
        exact absurd hlookup (by decide)
      rw [ReadsOff.Opens, escape, hlookup]
      dsimp only
      split
      · exact ⟨c, [], rfl, hne⟩
      · rw [utf16]
        split <;> exact ⟨backslash, _, rfl, by decide⟩

/-- A string ends at the first quotation mark that is not escaped. -/
lemma body_readsOff (s : List Char) : ReadsOff Set.univ Set.univ body s := by
  have hescape : ∀ c ∈ s, ReadsOff Set.univ Set.univ escape c := fun c _ =>
    ReadsOff.of_decode trivial fun d _ r _ => unescape_escape d r
  have hlist := ReadsOff.flatMap hescape (fun c _ => opens_escape c) (fun _ _ => trivial)
    fun _ _ _ => trivial
  exact hlist.mono (fun _ _ _ _ => trivial) subset_rfl

lemma stringText_readsOff (s : String) : ReadsOff Set.univ Set.univ stringText s := by
  intro t _ r _ r' _ heq
  obtain ⟨hbody, hrest⟩ := body_readsOff s.toList t.toList trivial r trivial r' trivial
    (List.cons.inj heq).2
  exact ⟨String.toList_inj.1 hbody, hrest⟩

end Strings

/-! ## Words -/

/-- `float.__repr__`, or one of the three names that `json` has for other values. -/
def FloatRepr (literal : String) : Prop :=
  literal ∈ ["NaN", "Infinity", "-Infinity"] ∨
    (∀ c ∈ literal.toList, c.isDigit ∨ c ∈ ['-', '+', '.', 'e']) ∧
      ∃ c ∈ literal.toList, c ∈ ['.', 'e']

mutual

/-- Every float of the document is kept by what `json.dumps` writes for it. -/
def FloatReprs : Json → Prop
  | .float literal => FloatRepr literal
  | .arr items => FloatReprsItems items
  | .obj fields => FloatReprsFields fields
  | _ => True

def FloatReprsItems : List Json → Prop
  | [] => True
  | x :: xs => x.FloatReprs ∧ FloatReprsItems xs

def FloatReprsFields : List (String × Json) → Prop
  | [] => True
  | (_, x) :: xs => x.FloatReprs ∧ FloatReprsFields xs

end

/-- The text of a document that is no string, array or object. -/
def wordText : Json → List Char
  | .null => ['n', 'u', 'l', 'l']
  | .bool true => ['t', 'r', 'u', 'e']
  | .bool false => ['f', 'a', 'l', 's', 'e']
  | .int n => (toString n).toList
  | .float literal => literal.toList
  | _ => []

def IsWord : Json → Prop
  | .str _ | .arr _ | .obj _ => False
  | _ => True

section Words

/-- The characters of words. -/
def isLetter (c : Char) : Bool := c.isAlphanum || c ∈ ['-', '+', '.']

lemma isDigit_of_mem_nat {n : ℕ} {c : Char} (h : c ∈ (toString n).toList) : c.isDigit = true := by
  rw [Nat.toString_eq_ofList_toDigits, String.toList_ofList] at h
  exact Nat.isDigit_of_mem_toDigits (by decide) (by decide) h

lemma int_text (n : ℤ) : (toString n).toList =
    if 0 ≤ n then (toString n.toNat).toList else '-' :: (toString (-n).toNat).toList := by
  rw [Int.toString_eq_repr, Int.repr_eq_if]
  split <;> simp

lemma nat_text_ne_nil (n : ℕ) : (toString n).toList ≠ [] := by
  rw [Nat.toString_eq_ofList_toDigits, String.toList_ofList]
  exact Nat.toDigits_ne_nil

lemma int_text_ne (n : ℕ) (digits : List Char) : (toString n).toList ≠ '-' :: digits := by
  intro h
  have hminus : '-' ∈ (toString n).toList := by
    rw [h]
    exact List.mem_cons_self
  exact absurd (isDigit_of_mem_nat hminus) (by decide)

lemma int_text_injective : Function.Injective fun n : ℤ => (toString n).toList := by
  intro m n h
  simp only [int_text] at h
  split at h <;> split at h
  · have heq := toString_nat_injective (String.toList_inj.1 h)
    omega
  · exact absurd h (int_text_ne _ _)
  · exact absurd h.symm (int_text_ne _ _)
  · have heq := toString_nat_injective (String.toList_inj.1 (List.cons.inj h).2)
    omega

lemma mem_int_text {n : ℤ} {c : Char} (h : c ∈ (toString n).toList) : c.isDigit ∨ c = '-' := by
  rw [int_text] at h
  split at h
  · exact Or.inl (isDigit_of_mem_nat h)
  · obtain rfl | h := List.mem_cons.1 h
    · exact Or.inr rfl
    · exact Or.inl (isDigit_of_mem_nat h)

/-- What tells the kinds of words apart. -/
def shape (text : List Char) : Bool × Bool × Bool :=
  ('l' ∈ text, 'u' ∈ text, text.all fun c => c.isDigit || c == '-')

/-- The shape that the text of a document has. -/
def wordShape : Json → Bool × Bool × Bool
  | .null => (true, true, false)
  | .bool b => (!b, b, false)
  | .int _ => (false, false, true)
  | _ => (false, false, false)

lemma shape_wordText : ∀ {a : Json}, a.IsWord → a.FloatReprs → shape a.wordText = a.wordShape
  | .null, _, _ => by decide
  | .bool true, _, _ => by decide
  | .bool false, _, _ => by decide
  | .int n, _, _ => by
      have hl : 'l' ∉ (toString n).toList := fun h => absurd (mem_int_text h) (by decide)
      have hu : 'u' ∉ (toString n).toList := fun h => absurd (mem_int_text h) (by decide)
      have hall : ((toString n).toList.all fun c => c.isDigit || c == '-') = true := by
        simpa using fun c => mem_int_text
      rw [shape, wordText, hall, decide_eq_false hl, decide_eq_false hu]
      rfl
  | .float literal, _, h => by
      obtain hname | ⟨hletters, c, hc, hpoint⟩ := h
      · simp only [List.mem_cons, List.not_mem_nil, or_false] at hname
        obtain rfl | rfl | rfl := hname <;> decide
      · have hl : 'l' ∉ literal.toList := fun h => absurd (hletters _ h) (by decide)
        have hu : 'u' ∉ literal.toList := fun h => absurd (hletters _ h) (by decide)
        have hall : (literal.toList.all fun c => c.isDigit || c == '-') = false := by
          rw [List.all_eq_false]
          refine ⟨c, hc, ?_⟩
          simp only [List.mem_cons, List.not_mem_nil, or_false] at hpoint
          obtain rfl | rfl := hpoint <;> decide
        rw [shape, wordText, hall, decide_eq_false hl, decide_eq_false hu]
        rfl

/-- Words are told apart by their texts. -/
lemma wordText_injOn : Set.InjOn wordText { a | a.IsWord ∧ a.FloatReprs } := by
  rintro a ⟨ha, hfloats⟩ b ⟨hb, hfloats'⟩ heq
  have hshape : a.wordShape = b.wordShape := by
    rw [← shape_wordText ha hfloats, heq, shape_wordText hb hfloats']
  cases a <;> cases b <;> try first
    | exact ha.elim
    | exact hb.elim
    | simp [wordShape] at hshape
  case null.null => rfl
  case bool.bool b b' => rw [hshape]
  case int.int m n => rw [int_text_injective heq]
  case float.float literal literal' => rw [String.toList_inj.1 heq]

lemma all_isLetter_wordText : ∀ {a : Json}, a.FloatReprs → a.wordText.all isLetter = true
  | .null, _ => by decide
  | .bool true, _ => by decide
  | .bool false, _ => by decide
  | .int n, _ => by
      rw [wordText, List.all_eq_true]
      intro c hc
      obtain hdigit | rfl := mem_int_text hc
      · simp [isLetter, Char.isAlphanum, hdigit]
      · decide
  | .float literal, h => by
      rw [wordText]
      obtain hname | ⟨hletters, -⟩ := h
      · simp only [List.mem_cons, List.not_mem_nil, or_false] at hname
        obtain rfl | rfl | rfl := hname <;> decide
      · rw [List.all_eq_true]
        intro c hc
        obtain hdigit | hsign := hletters c hc
        · simp [isLetter, Char.isAlphanum, hdigit]
        · simp only [List.mem_cons, List.not_mem_nil, or_false] at hsign
          obtain rfl | rfl | rfl | rfl := hsign <;> decide
  | .str _, _ | .arr _, _ | .obj _, _ => rfl

lemma isLetter_of_mem_wordText {a : Json} (h : a.FloatReprs) :
    ∀ c ∈ a.wordText, isLetter c = true :=
  List.all_eq_true.1 (all_isLetter_wordText h)

lemma wordText_ne_nil : ∀ {a : Json}, a.IsWord → a.FloatReprs → a.wordText ≠ []
  | .null, _, _ => by decide
  | .bool true, _, _ => by decide
  | .bool false, _, _ => by decide
  | .int n, _, _ => by
      rw [wordText, int_text]
      split
      · exact nat_text_ne_nil _
      · exact List.cons_ne_nil _ _
  | .float literal, _, h => by
      obtain hname | ⟨-, c, hc, -⟩ := h
      · simp only [List.mem_cons, List.not_mem_nil, or_false] at hname
        obtain rfl | rfl | rfl := hname <;> decide
      · exact List.ne_nil_of_mem hc

/-- A word ends where its letters end. -/
lemma wordText_readsOff {a : Json} (ha : a.IsWord) (hfloats : a.FloatReprs) :
    ReadsOff { b | b.IsWord ∧ b.FloatReprs } (ReadsOff.delimited isLetter) wordText a :=
  ReadsOff.word ⟨ha, hfloats⟩ (fun _ hb => isLetter_of_mem_wordText hb.2) wordText_injOn

end Words

/-! ## Documents -/

mutual

/-- The text of a document, with its keys in the order that they have. -/
def text : Json → List Char
  | .str s => stringText s
  | .arr items => '[' :: ([',', ' '].intercalate (itemTexts items) ++ [']'])
  | .obj fields => '\x7b' :: ([',', ' '].intercalate (fieldTexts fields) ++ ['\x7d'])
  | word => word.wordText

def itemTexts : List Json → List (List Char)
  | [] => []
  | x :: xs => x.text :: itemTexts xs

def fieldTexts : List (String × Json) → List (List Char)
  | [] => []
  | (k, x) :: rest => (stringText k ++ [':', ' '] ++ x.text) :: fieldTexts rest

end

/-- `json.dumps(data, sort_keys=True)`. -/
def dumps (document : Json) : String := String.ofList document.canonical.text

section Documents

lemma itemTexts_eq_map (items : List Json) : itemTexts items = items.map text := by
  induction items with
  | nil => rfl
  | cons x xs ih => rw [itemTexts, ih, List.map_cons]

def fieldText (f : String × Json) : List Char := stringText f.1 ++ [':', ' '] ++ f.2.text

lemma fieldTexts_eq_map (fields : List (String × Json)) :
    fieldTexts fields = fields.map fieldText := by
  induction fields with
  | nil => rfl
  | cons f rest ih => rw [fieldTexts, ih, List.map_cons, fieldText]

lemma floatReprsItems_iff {items : List Json} :
    FloatReprsItems items ↔ ∀ x ∈ items, x.FloatReprs := by
  induction items with
  | nil => simp [FloatReprsItems]
  | cons x xs ih => simp [FloatReprsItems, ih]

lemma floatReprsFields_iff {fields : List (String × Json)} :
    FloatReprsFields fields ↔ ∀ f ∈ fields, f.2.FloatReprs := by
  induction fields with
  | nil => simp [FloatReprsFields]
  | cons f rest ih => simp [FloatReprsFields, ih]

/-- The character that a document begins with, unless it is a word. -/
def opening : Json → Option Char
  | .str _ => some quote
  | .arr _ => some '['
  | .obj _ => some '\x7b'
  | _ => none

lemma text_of_isWord : ∀ {a : Json}, a.IsWord → a.text = a.wordText
  | .null, _ | .bool _, _ | .int _, _ | .float _, _ => rfl

lemma isWord_iff {a : Json} : a.IsWord ↔ a.opening = none := by
  cases a <;> simp [IsWord, opening]

lemma exists_str {a : Json} (h : a.opening = some quote) : ∃ s, a = .str s := by
  cases a <;> simp [opening, quote] at h ⊢

lemma exists_arr {a : Json} (h : a.opening = some '[') : ∃ items, a = .arr items := by
  cases a <;> simp [opening, quote] at h ⊢

lemma exists_obj {a : Json} (h : a.opening = some '\x7b') : ∃ fields, a = .obj fields := by
  cases a <;> simp [opening, quote] at h ⊢

/-- A text begins with a letter, or with the opening of its kind. -/
lemma exists_text_cons {a : Json} (hfloats : a.FloatReprs) : ∃ x rest, a.text = x :: rest ∧
    a.opening = if isLetter x then none else some x := by
  by_cases ha : a.IsWord
  · obtain ⟨x, rest, hword⟩ := List.exists_cons_of_ne_nil (wordText_ne_nil ha hfloats)
    refine ⟨x, rest, (text_of_isWord ha).trans hword, ?_⟩
    rw [isWord_iff.1 ha, isLetter_of_mem_wordText hfloats x (hword ▸ List.mem_cons_self)]
    rfl
  · cases a with
    | str s => exact ⟨quote, _, rfl, rfl⟩
    | arr items => exact ⟨'[', _, rfl, rfl⟩
    | obj fields => exact ⟨'\x7b', _, rfl, rfl⟩
    | _ => exact absurd trivial ha

/-- Documents of two kinds have no text in common. -/
lemma opening_eq {a b : Json} (ha : a.FloatReprs) (hb : b.FloatReprs) {r r' : List Char}
    (h : a.text ++ r = b.text ++ r') : a.opening = b.opening := by
  obtain ⟨x, rest, htext, hopening⟩ := exists_text_cons ha
  obtain ⟨x', rest', htext', hopening'⟩ := exists_text_cons hb
  rw [htext, htext'] at h
  obtain rfl : x = x' := (List.cons.inj h).1
  rw [hopening, hopening']

lemma opens_text {close : Char} (hletter : isLetter close = false)
    (hclose : close ≠ quote ∧ close ≠ '[' ∧ close ≠ '\x7b') {a : Json} (hfloats : a.FloatReprs) :
    ReadsOff.Opens close text a := by
  obtain ⟨x, rest, htext, hopening⟩ := exists_text_cons hfloats
  refine ⟨x, rest, htext, ?_⟩
  rintro rfl
  rw [hletter] at hopening
  cases a <;> simp [opening] at hopening
  · exact hclose.1 hopening.symm
  · exact hclose.2.1 hopening.symm
  · exact hclose.2.2 hopening.symm

/-- What may follow a document: nothing, or what is no letter. -/
abbrev ends : Set (List Char) := ReadsOff.delimited isLetter

lemma mem_ends_cons {x : Char} (hx : isLetter x = false) (r : List Char) : x :: r ∈ ends := by
  rintro y ⟨⟩
  exact hx

lemma word_readsOff {a : Json} (ha : a.IsWord) (hfloats : a.FloatReprs) :
    ReadsOff { b | b.FloatReprs } ends text a := by
  intro b hb r hr r' hr' heq
  have hword : b.IsWord := by
    rw [isWord_iff] at ha ⊢
    rw [← opening_eq hfloats hb heq, ha]
  rw [text_of_isWord ha, text_of_isWord hword] at heq
  exact wordText_readsOff ha hfloats b ⟨hword, hb⟩ r hr r' hr' heq

/-- What follows the bracket of an array. -/
def itemsBody (items : List Json) : List Char :=
  [',', ' '].intercalate (items.map text) ++ [']']

lemma itemsBody_readsOff {items : List Json} (hfloats : ∀ x ∈ items, x.FloatReprs)
    (h : ∀ x ∈ items, ReadsOff { b | b.FloatReprs } ends text x) :
    ReadsOff (ReadsOff.lists { b | b.FloatReprs }) Set.univ itemsBody items :=
  ReadsOff.intercalate h (fun _ hx => opens_text (by decide) (by decide) hx) hfloats (by decide)
    (fun _ => mem_ends_cons (by decide) _) fun r => mem_ends_cons (by decide) r

/-- What follows the brace of an object. -/
def fieldsBody (fields : List (String × Json)) : List Char :=
  [',', ' '].intercalate (fields.map fieldText) ++ ['\x7d']

lemma fieldsBody_readsOff {fields : List (String × Json)} (hfloats : ∀ f ∈ fields, f.2.FloatReprs)
    (h : ∀ f ∈ fields, ReadsOff { b | b.FloatReprs } ends text f.2) :
    ReadsOff (ReadsOff.lists { f | f.1 ∈ Set.univ ∧ f.2.FloatReprs }) Set.univ fieldsBody
      fields := by
  have hfields : ∀ f ∈ fields,
      ReadsOff { g | g.1 ∈ Set.univ ∧ g.2.FloatReprs } ends fieldText f := fun f hf =>
    (stringText_readsOff f.1).pair (h f hf) fun _ => trivial
  exact ReadsOff.intercalate hfields (fun _ _ => ⟨quote, _, rfl, by decide⟩)
    (fun f hf => ⟨trivial, hfloats f hf⟩) (by decide) (fun _ => mem_ends_cons (by decide) _)
    fun r => mem_ends_cons (by decide) r

mutual

/-- A document can be told from all others by the front of a text. -/
theorem text_readsOff : ∀ {a : Json}, a.FloatReprs → ReadsOff { b | b.FloatReprs } ends text a
  | .str s, h => by
      intro b hb r _ r' _ heq
      obtain ⟨t, rfl⟩ := exists_str (opening_eq h hb heq).symm
      obtain ⟨rfl, hrest⟩ := stringText_readsOff s t trivial r trivial r' trivial heq
      exact ⟨rfl, hrest⟩
  | .arr items, h => by
      intro b hb r _ r' _ heq
      obtain ⟨items', rfl⟩ := exists_arr (opening_eq h hb heq).symm
      rw [text, text, itemTexts_eq_map, itemTexts_eq_map] at heq
      obtain ⟨rfl, hrest⟩ := itemsBody_readsOff (floatReprsItems_iff.1 h) (items_readsOff h) items'
        (floatReprsItems_iff.1 hb) r trivial r' trivial (List.cons.inj heq).2
      exact ⟨rfl, hrest⟩
  | .obj fields, h => by
      intro b hb r _ r' _ heq
      obtain ⟨fields', rfl⟩ := exists_obj (opening_eq h hb heq).symm
      have hb' : ∀ f ∈ fields', f.1 ∈ Set.univ ∧ f.2.FloatReprs := fun f hf =>
        ⟨trivial, floatReprsFields_iff.1 hb f hf⟩
      rw [text, text, fieldTexts_eq_map, fieldTexts_eq_map] at heq
      obtain ⟨rfl, hrest⟩ := fieldsBody_readsOff (floatReprsFields_iff.1 h) (fields_readsOff h)
        fields' hb' r trivial r' trivial (List.cons.inj heq).2
      exact ⟨rfl, hrest⟩
  | .null, h | .bool _, h | .int _, h | .float _, h => word_readsOff trivial h

theorem items_readsOff : ∀ {items : List Json}, FloatReprsItems items → ∀ x ∈ items,
    ReadsOff { b | b.FloatReprs } ends text x
  | [], _ => List.forall_mem_nil _
  | _ :: _, h => List.forall_mem_cons.2 ⟨text_readsOff h.1, items_readsOff h.2⟩

theorem fields_readsOff : ∀ {fields : List (String × Json)}, FloatReprsFields fields →
    ∀ f ∈ fields, ReadsOff { b | b.FloatReprs } ends text f.2
  | [], _ => List.forall_mem_nil _
  | (_, _) :: _, h => List.forall_mem_cons.2 ⟨text_readsOff h.1, fields_readsOff h.2⟩

end

lemma text_inj {a b : Json} (ha : a.FloatReprs) (hb : b.FloatReprs) : a.text = b.text ↔ a = b := by
  refine ⟨fun h => (text_readsOff ha).eq_of_text_eq ?_ hb h, fun h => by rw [h]⟩
  rintro x ⟨⟩

mutual

lemma floatReprs_canonical : ∀ {a : Json}, a.FloatReprs → a.canonical.FloatReprs
  | .arr _, h => floatReprsItems_canonical h
  | .obj fields, h => by
      rw [canonical, FloatReprs, floatReprsFields_iff]
      intro f hf
      rw [List.mem_insertionSort] at hf
      exact floatReprsFields_iff.1 (floatReprsFields_canonical h) f hf
  | .null, h | .bool _, h | .int _, h | .float _, h | .str _, h => h

lemma floatReprsItems_canonical : ∀ {items : List Json}, FloatReprsItems items →
    FloatReprsItems (canonicalItems items)
  | [], h => h
  | _ :: _, h => ⟨floatReprs_canonical h.1, floatReprsItems_canonical h.2⟩

lemma floatReprsFields_canonical : ∀ {fields : List (String × Json)}, FloatReprsFields fields →
    FloatReprsFields (canonicalFields fields)
  | [], h => h
  | (_, _) :: _, h => ⟨floatReprs_canonical h.1, floatReprsFields_canonical h.2⟩

end

variable {a b : Json}

/-- The digest of the document is the digest of its text. -/
lemma hashRequest_eq_iff (ha : a.FloatReprs) (hb : b.FloatReprs) :
    hashRequest a = hashRequest b ↔ sha256 a.dumps = sha256 b.dumps := by
  rw [hashRequest, hashRequest, sha256_injective.eq_iff, sha256_injective.eq_iff, dumps, dumps,
    String.ofList_inj, text_inj (floatReprs_canonical ha) (floatReprs_canonical hb)]

end Documents

section Example

end Example

end BePyEco.Json
