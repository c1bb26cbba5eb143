import BePyEco.Api.Authentication
import BePyEco.Common.GeneratedIds
import BePyEco.Library.Trimming

/-!
# Request ids

The middleware gives every request an id, which is a UUID: the one that the request brings in its
`X-Request-ID` header, however it is written, or else a new one.  The response carries its canonical
text.  `request_id_echoed` says that a service that passes this text on stays under the same id.
-/

namespace BePyEco

open Library

/-! ## Reading UUIDs -/

/-- What `int` skips at both ends of a text of Latin-1. -/
def isSpace (c : Char) : Bool :=
  (9 ≤ c.toNat && c.toNat ≤ 13) || c.toNat == 0x20 || c.toNat == 0x85 || c.toNat == 0xA0

/-- A hexadecimal digit, of either case. -/
def hexValue (c : Char) : Option ℕ :=
  let n := c.toNat
  if 48 ≤ n ∧ n ≤ 57 then some (n - 48)
  else if 97 ≤ n ∧ n ≤ 102 then some (n - 87)
  else if 65 ≤ n ∧ n ≤ 70 then some (n - 55)
  else none

/-- The digits of a part between underscores, which is not empty. -/
def hexPart (part : List Char) : Option (List ℕ) :=
  if part = [] then none else part.mapM hexValue

/-- The sign of a number, and the rest of the text. -/
def splitSign (text : List Char) : Int × List Char :=
  if text.head? = some '-' then (-1, text.tail)
  else if text.head? = some '+' then (1, text.tail)
  else (1, text)

/-- The digits may follow `0x`, and this an underscore. -/
def dropHexPrefix (text : List Char) : List Char :=
  if text.take 2 = ['0', 'x'] ∨ text.take 2 = ['0', 'X'] then
    if (text.drop 2).head? = some '_' then text.drop 3 else text.drop 2
  else text

/-- `int(text, 16)`. -/
def intOfHex (text : List Char) : Except ByteError Int :=
  let (sign, unsigned) := splitSign (trim isSpace text)
  match ((dropHexPrefix unsigned).splitOn '_').mapM hexPart with
  | some parts => .ok (sign * value 16 parts.flatten)
  | none => .error .valueError

/-- What is stripped from the ends of a UUID. -/
def isBrace (c : Char) : Bool := c == '{' || c == '}'

def urnPrefix : List Char := ['u', 'r', 'n', ':']

def uuidPrefix : List Char := ['u', 'u', 'i', 'd', ':']

/-- `uuid.UUID(int=int)`. -/
def uuidOfInt (int : Int) : Except ByteError Id :=
  if 0 ≤ int ∧ int < uuidBound then .ok int.toNat else .error .valueError

/-- `uuid.UUID(value)`. -/
def uuidOfText (value : String) : Except ByteError Id :=
  let hex := without uuidPrefix (without urnPrefix value.toList)
  let hex := (trim isBrace hex).filter (fun c => c ≠ '-')
  if hex.length ≠ 32 then .error .valueError else (intOfHex hex).bind uuidOfInt

lemma uuidOfInt_natCast {id : Id} (h : id < uuidBound) : uuidOfInt (id : ℕ) = .ok id := by
  rw [uuidOfInt, if_pos ⟨Int.natCast_nonneg id, Int.ofNat_lt.2 h⟩, Int.toNat_natCast]

/-! ## Texts that are read -/

/-- The digit that a character stands for. -/
def hexDigit (c : Char) : ℕ := (hexValue c).getD 0

lemma hexDigit_lt (c : Char) : hexDigit c < 16 := by
  simp only [hexDigit, hexValue]
  split_ifs <;> simp only [Option.getD_some, Option.getD_none] <;> omega

lemma isSpace_of_hexValue {c : Char} (h : (hexValue c).isSome = true) : isSpace c = false := by
  simp only [hexValue] at h
  split_ifs at h with hdigit hsmall hlarge
  · simp only [isSpace]
    grind
  · simp only [isSpace]
    grind
  · simp only [isSpace]
    grind
  · cases h

/-- A character that is no digit is not among digits. -/
lemma not_mem_of_hexValue {text : List Char} (h : ∀ c ∈ text, (hexValue c).isSome = true)
    {d : Char} (hd : hexValue d = none) : d ∉ text := by
  intro hmem
  have hsome := h d hmem
  rw [hd] at hsome
  cases hsome

lemma mapM_hexValue {text : List Char} (h : ∀ c ∈ text, (hexValue c).isSome = true) :
    text.mapM hexValue = some (text.map hexDigit) := by
  induction text with
  | nil => rfl
  | cons c text ih =>
      obtain ⟨digit, hdigit⟩ := Option.isSome_iff_exists.1 (h c List.mem_cons_self)
      have hfirst : hexDigit c = digit := by rw [hexDigit, hdigit, Option.getD_some]
      rw [List.mapM_cons, ih fun d hd => h d (List.mem_cons_of_mem c hd), hdigit, List.map_cons,
        hfirst]
      rfl

/-- Digits are read as the number that they write. -/
lemma intOfHex_digits {text : List Char} (hne : text ≠ [])
    (h : ∀ c ∈ text, (hexValue c).isSome = true) :
    intOfHex text = .ok (value 16 (text.map hexDigit) : ℕ) := by
  have htrim : trim isSpace text = text := trim_eq_self fun c hc => isSpace_of_hexValue (h c hc)
  have hhead : ∀ d, hexValue d = none → text.head? ≠ some d := fun d hd heq =>
    not_mem_of_hexValue h hd (List.mem_of_head? heq)
  have hsign : splitSign text = (1, text) := by
    rw [splitSign, if_neg (hhead '-' (by decide)), if_neg (hhead '+' (by decide))]
  have htake : ∀ d, hexValue d = none → text.take 2 ≠ ['0', d] := by
    intro d hd heq
    have hmem : d ∈ text.take 2 := by simp [heq]
    exact not_mem_of_hexValue h hd (List.mem_of_mem_take hmem)
  have hprefix : dropHexPrefix text = text :=
    if_neg (not_or.2 ⟨htake 'x' (by decide), htake 'X' (by decide)⟩)
  have hparts : text.splitOn '_' = [text] :=
    List.splitOn_eq_singleton (not_mem_of_hexValue h (by decide))
  have hpart : hexPart text = some (text.map hexDigit) := by
    rw [hexPart, if_neg hne, mapM_hexValue h]
  simp only [intOfHex, htrim, hsign, hprefix, hparts, List.mapM_cons, List.mapM_nil, hpart]
  simp

/-- A way to write a UUID: thirty-two digits of either case, with hyphens anywhere between them, and
around them braces, or the prefix of a URN. -/
structure UuidSpelling where
  lead : List Char := []
  urn : Bool := false
  digits : List Char
  trail : List Char := []
  lead_brace : lead.all isBrace = true := by rfl
  trail_brace : trail.all isBrace = true := by rfl
  hex : digits.all (fun c => c == '-' || (hexValue c).isSome) = true
  length : (digits.filter (fun c => c ≠ '-')).length = 32

namespace UuidSpelling

variable (s : UuidSpelling)

def text : String :=
  String.ofList
    (s.lead ++ ((if s.urn then urnPrefix ++ uuidPrefix else []) ++ (s.digits ++ s.trail)))

/-- The digits without the hyphens. -/
def hexDigits : List Char := s.digits.filter (fun c => c ≠ '-')

/-- The UUID that is written. -/
def id : Id := value 16 (s.hexDigits.map hexDigit)

lemma length_hexDigits : s.hexDigits.length = 32 := s.length

lemma isSome_of_mem {c : Char} (hc : c ∈ s.digits) (hne : c ≠ '-') :
    (hexValue c).isSome = true := by
  have hex := List.all_eq_true.1 s.hex c hc
  rw [Bool.or_eq_true, beq_iff_eq] at hex
  exact hex.resolve_left hne

lemma isSome_of_mem_hexDigits {c : Char} (hc : c ∈ s.hexDigits) : (hexValue c).isSome = true := by
  obtain ⟨hmem, hne⟩ := List.mem_filter.1 hc
  exact s.isSome_of_mem hmem (of_decide_eq_true hne)

lemma not_mem_digits {d : Char} (hd : hexValue d = none) (hne : d ≠ '-') : d ∉ s.digits := by
  intro hmem
  have hsome := s.isSome_of_mem hmem hne
  rw [hd] at hsome
  cases hsome

lemma id_lt : s.id < uuidBound := by
  have hlt : s.id < 16 ^ (s.hexDigits.map hexDigit).length := by
    refine value_lt fun digit hdigit => ?_
    obtain ⟨c, -, rfl⟩ := List.mem_map.1 hdigit
    exact hexDigit_lt c
  rw [List.length_map, s.length_hexDigits] at hlt
  exact hlt

/-- The prefix of a URN is taken out. -/
lemma without_urn : without uuidPrefix (without urnPrefix s.text.toList) =
    s.lead ++ (s.digits ++ s.trail) := by
  have hbraces : ∀ front : List Char, front.all isBrace = true → 'u' ∉ front :=
    fun front hfront hmem => absurd (List.all_eq_true.1 hfront 'u' hmem) (by decide)
  have hlead : 'u' ∉ s.lead := hbraces s.lead s.lead_brace
  have hrest : 'u' ∉ s.digits ++ s.trail := fun hmem =>
    (List.mem_append.1 hmem).elim (s.not_mem_digits (by decide) (by decide))
      (hbraces s.trail s.trail_brace)
  have hkept : without urnPrefix (uuidPrefix ++ (s.digits ++ s.trail)) =
      uuidPrefix ++ (s.digits ++ s.trail) := by
    -- the prefix of the name begins like that of the URN, but goes on otherwise
    have hname : 'u' ∉ ['i', 'd', ':'] ++ (s.digits ++ s.trail) := fun hmem =>
      (List.mem_append.1 hmem).elim (by decide) hrest
    have hself : without urnPrefix (['i', 'd', ':'] ++ (s.digits ++ s.trail)) =
        ['i', 'd', ':'] ++ (s.digits ++ s.trail) := without_eq_self hname
    simp only [urnPrefix, uuidPrefix, List.cons_append, List.nil_append] at hself ⊢
    rw [without_cons (by simp), without_cons (by simp), hself]
  rw [text, String.toList_ofList]
  cases s.urn with
  | false =>
      have hall : 'u' ∉ s.lead ++ (s.digits ++ s.trail) := fun hmem =>
        (List.mem_append.1 hmem).elim hlead hrest
      simp only [Bool.false_eq_true, if_false, List.nil_append]
      rw [urnPrefix, without_eq_self hall, uuidPrefix, without_eq_self hall]
  | true =>
      simp only [if_true]
      rw [List.append_assoc urnPrefix, urnPrefix, without_append_left hlead, ← urnPrefix,
        without_append_self (by decide), hkept, uuidPrefix, without_append_left hlead, ← uuidPrefix,
        without_append_self (by decide), uuidPrefix, without_eq_self hrest]

/-- A UUID is read however it is written. -/
lemma uuidOfText_text : uuidOfText s.text = .ok s.id := by
  have hbrace : ∀ c ∈ s.digits, isBrace c = false := by
    intro c hc
    have hopen : c ≠ '{' := fun heq => s.not_mem_digits (by decide) (by decide) (heq ▸ hc)
    have hclose : c ≠ '}' := fun heq => s.not_mem_digits (by decide) (by decide) (heq ▸ hc)
    simp [isBrace, hopen, hclose]
  have hne : s.hexDigits ≠ [] := by
    intro hempty
    have hlength := s.length_hexDigits
    rw [hempty] at hlength
    cases hlength
  have hint : intOfHex s.hexDigits = .ok (s.id : ℕ) :=
    intOfHex_digits hne fun _ hc => s.isSome_of_mem_hexDigits hc
  simp only [uuidOfText, without_urn, trim_frame (List.all_eq_true.1 s.lead_brace)
    (List.all_eq_true.1 s.trail_brace) hbrace]
  rw [← hexDigits, if_neg (not_not.2 s.length_hexDigits), hint, Except.bind,
    uuidOfInt_natCast s.id_lt]

end UuidSpelling

lemma isSome_hexValue_digitChar :
    ∀ i < 16, (hexValue (Nat.digitChar i)).isSome = true ∧ Nat.digitChar i ≠ '-' := by decide

lemma hyphen_not_mem_numeral (id : Id) : '-' ∉ numeral Nat.digitChar 16 32 id := by
  intro hmem
  obtain ⟨i, hi, heq⟩ := exists_of_mem_numeral (by decide) hmem
  exact (isSome_hexValue_digitChar i hi).2 heq.symm

/-- The text that `str` writes. -/
def canonicalSpelling (id : Id) : UuidSpelling where
  digits := cut '-' [8, 4, 4, 4] (numeral Nat.digitChar 16 32 id)
  hex := by
    refine List.all_eq_true.2 fun c hc => ?_
    rw [Bool.or_eq_true, beq_iff_eq]
    refine (mem_of_mem_cut hc).imp_right fun hmem => ?_
    obtain ⟨i, hi, rfl⟩ := exists_of_mem_numeral (by decide) hmem
    exact (isSome_hexValue_digitChar i hi).1
  length := by rw [filter_cut (hyphen_not_mem_numeral id), length_numeral]

lemma text_canonicalSpelling (id : Id) : (canonicalSpelling id).text = uuidText id := by
  simp [UuidSpelling.text, canonicalSpelling, uuidText]

lemma id_canonicalSpelling {id : Id} (h : id < uuidBound) : (canonicalSpelling id).id = id := by
  have hdigits : (canonicalSpelling id).hexDigits = numeral Nat.digitChar 16 32 id :=
    filter_cut (hyphen_not_mem_numeral id)
  have hdigit : ∀ i < 16, hexDigit (Nat.digitChar i) = i % 16 := by decide
  rw [UuidSpelling.id, hdigits, map_numeral, numeral_congr (by decide) hdigit]
  exact value_numeral h

lemma intOfHex_cases (text : List Char) :
    (∃ int, intOfHex text = .ok int) ∨ intOfHex text = .error .valueError := by
  simp only [intOfHex]
  split
  · exact Or.inl ⟨_, rfl⟩
  · exact Or.inr rfl

lemma uuidOfInt_cases (int : Int) :
    (∃ id < uuidBound, uuidOfInt int = .ok id) ∨ uuidOfInt int = .error .valueError := by
  by_cases hrange : 0 ≤ int ∧ int < uuidBound
  · exact Or.inl ⟨int.toNat, (Int.toNat_lt hrange.1).2 hrange.2, if_pos hrange⟩
  · exact Or.inr (if_neg hrange)

/-- Whatever the text, it is read as a UUID or is no UUID. -/
lemma uuidOfText_cases (value : String) :
    (∃ id < uuidBound, uuidOfText value = .ok id) ∨ uuidOfText value = .error .valueError := by
  simp only [uuidOfText]
  split_ifs with hlength
  · exact Or.inr rfl
  · obtain ⟨int, hint⟩ | herror := intOfHex_cases
      ((trim isBrace
        (without uuidPrefix (without urnPrefix value.toList))).filter fun c => c ≠ '-')
    · rw [hint, Except.bind]
      exact uuidOfInt_cases int
    · exact Or.inr (by rw [herror, Except.bind])

/-! ## The middleware -/

/-- The request with the id that the middleware sets. -/
def HttpRequest.withId (request : HttpRequest) (id : Id) : HttpRequest :=
  { request with context := { request.context with id := id } }

namespace RequestIDMiddleware

/-- `_parse(value)`, where `fresh` is the call of `uuid7`. -/
def parse (value : String) (fresh : Uuid7Call) : Except ByteError Id :=
  match uuidOfText value with
  | .error .valueError => uuid7 fresh
  | parsed => parsed

/-- The id of a request with this header. -/
def requestId (incoming : Option String) (fresh : Uuid7Call) : Except ByteError Id :=
  match incoming with
  | none => uuid7 fresh
  | some value => if value = "" then uuid7 fresh else parse value fresh

/-- `__call__(request)`: the response, and its `X-Request-ID` header. -/
def call {α : Type} (getResponse : HttpRequest → α) (incoming : Option String)
    (fresh : Uuid7Call) (request : HttpRequest) : Except ByteError (α × String) := do
  let id ← requestId incoming fresh
  return (getResponse (request.withId id), uuidText id)

variable {incoming : Option String} {fresh : Uuid7Call}

lemma uuid7_ok (hclock : fresh.unixMs < 2 ^ 48) : ∃ id < uuidBound, uuid7 fresh = .ok id :=
  ⟨fresh.id, Uuid7Call.id_lt_bound hclock, uuid7_eq hclock⟩

lemma requestId_ok (incoming : Option String) (hclock : fresh.unixMs < 2 ^ 48) :
    ∃ id < uuidBound, requestId incoming fresh = .ok id := by
  cases incoming with
  | none => exact uuid7_ok hclock
  | some value =>
      by_cases hempty : value = ""
      · rw [requestId, if_pos hempty]
        exact uuid7_ok hclock
      · rw [requestId, if_neg hempty]
        obtain ⟨id, hid, hparsed⟩ | herror := uuidOfText_cases value
        · exact ⟨id, hid, by rw [parse, hparsed]⟩
        · rw [parse, herror]
          exact uuid7_ok hclock

/-- A UUID in the header is the id, however it is written. -/
lemma requestId_text (s : UuidSpelling) (fresh : Uuid7Call) :
    requestId (some s.text) fresh = .ok s.id := by
  have hread := s.uuidOfText_text
  have hne : s.text ≠ "" := by
    intro hempty
    rw [hempty] at hread
    have herror : uuidOfText "" = .error .valueError := rfl
    rw [herror] at hread
    cases hread
  rw [requestId, if_neg hne, parse, hread]

lemma call_ok {α : Type} {getResponse : HttpRequest → α} {id : Id}
    (h : requestId incoming fresh = .ok id) (request : HttpRequest) :
    call getResponse incoming fresh request =
      .ok (getResponse (request.withId id), uuidText id) := by
  rw [call, h]
  rfl

/-- Every request gets an id, the one that its header gives in any of the spellings of a UUID, and
a request that is sent on with the id of the response, at whatever time, gets the same one. -/
theorem request_id_echoed {α : Type} (getResponse : HttpRequest → α) (incoming : Option String)
    (hclock : fresh.unixMs < 2 ^ 48) (request : HttpRequest) :
    ∃ id < uuidBound,
      call getResponse incoming fresh request =
          .ok (getResponse (request.withId id), uuidText id) ∧
        (∀ s : UuidSpelling, incoming = some s.text → id = s.id) ∧
        ∀ fresh' request', call getResponse (some (uuidText id)) fresh' request' =
          .ok (getResponse (request'.withId id), uuidText id) := by
  obtain ⟨id, hid, hset⟩ := requestId_ok incoming hclock
  refine ⟨id, hid, call_ok hset request, ?_, fun fresh' request' => call_ok ?_ request'⟩
  · rintro s rfl
    rw [requestId_text] at hset
    exact (Except.ok.inj hset).symm
  · have hsent := requestId_text (canonicalSpelling id) fresh'
    rwa [text_canonicalSpelling, id_canonicalSpelling hid] at hsent

/-- A request that writes its id in capitals and in braces. -/
def bracedSpelling : UuidSpelling where
  lead := ['{']
  digits := "0192F3C4-0000-7000-8000-00000000ABCD".toList
  trail := ['}']
  hex := by decide
  length := by decide

lemma request_id_echoed_braced :
    ∃ id < uuidBound, uuidText id = "0192f3c4-0000-7000-8000-00000000abcd" ∧
      call (fun request => request.context.id) (some bracedSpelling.text) (firstMillisecond 1)
        { data := .null, context := { remoteAddr := none, id := 0 } } = .ok (id, uuidText id) := by
  have hclock : (firstMillisecond 1).unixMs < 2 ^ 48 := by decide
  obtain ⟨id, hid, hcall, hspelled, -⟩ := request_id_echoed (fun request => request.context.id)
    (some bracedSpelling.text) hclock { data := .null, context := { remoteAddr := none, id := 0 } }
  refine ⟨id, hid, ?_, hcall⟩
  rw [hspelled bracedSpelling rfl]
  decide

end RequestIDMiddleware

end BePyEco
