import BePyEco.Common.Values
import BePyEco.Library.Numerals
import Mathlib.Data.Nat.Bitwise

/-!
# UUIDs

A UUID is the number of its 128 bits, `UUID.int`.  Its text has 32 digits and four hyphens, its
bytes are the digits to the base 256; numbers, texts and bytes are ordered alike
(`uuidText_strictMonoOn`, `uuidBytes_strictMonoOn`).
-/

namespace BePyEco

open Library

/-! ## Texts -/

/-- The number of UUIDs. -/
def uuidBound : ℕ := 16 ^ 32

/-- `str(id)`. -/
def uuidText (id : Id) : String :=
  String.ofList (cut '-' [8, 4, 4, 4] (numeral Nat.digitChar 16 32 id))

lemma digitChar_lt :
    ∀ i < 16, ∀ j < 16, i < j → Nat.digitChar i < Nat.digitChar j := by decide

lemma digitChar_ne_colon : ∀ i < 16, Nat.digitChar i ≠ ':' := by decide

lemma uuidText_strictMonoOn : StrictMonoOn uuidText (Set.Iio uuidBound) := by
  intro m _ n hn hmn
  have hdigit : StrictMonoOn Nat.digitChar (Set.Iio 16) :=
    fun i hi j hj hij => digitChar_lt i hi j hj hij
  rw [String.lt_iff_toList_lt]
  simp only [uuidText, String.toList_ofList]
  exact cut_lt_cut _ (by simp) (numeral_lt_numeral hdigit hmn hn)

lemma length_toList_uuidText (id : Id) : (uuidText id).toList.length = 36 := by
  simp [uuidText]

lemma colon_not_mem_uuidText (id : Id) : ':' ∉ (uuidText id).toList := by
  simp only [uuidText, String.toList_ofList]
  intro h
  obtain hhyphen | hdigit := mem_of_mem_cut h
  · exact absurd hhyphen (by decide)
  · obtain ⟨i, hi, heq⟩ := exists_of_mem_numeral (by decide) hdigit
    exact digitChar_ne_colon i hi heq.symm

/-! ## Bytes -/

/-- An element of a `bytes` object. -/
abbrev Byte := Fin 256

def byte (n : ℕ) : Byte := Fin.ofNat 256 n

/-- What a conversion between numbers and bytes raises. -/
inductive ByteError
  | overflowError
  | valueError
  deriving DecidableEq, Repr

/-- `n.to_bytes(length, byteorder="big")`. -/
def toBytes (n length : ℕ) : Except ByteError (List Byte) :=
  if n < 256 ^ length then .ok (numeral byte 256 length n) else .error .overflowError

/-- `uuid.UUID(bytes=bytes)`. -/
def uuidOfBytes (bytes : List Byte) : Except ByteError Id :=
  if bytes.length = 16 then .ok (value 256 (bytes.map Fin.val)) else .error .valueError

/-- `id.bytes`. -/
def uuidBytes (id : Id) : List Byte := numeral byte 256 16 id

lemma byte_strictMonoOn : StrictMonoOn byte (Set.Iio 256) := by
  intro i hi j hj hij
  have hvals : i % 256 < j % 256 := by
    rw [Nat.mod_eq_of_lt hi, Nat.mod_eq_of_lt hj]
    exact hij
  exact hvals

lemma uuidBytes_strictMonoOn : StrictMonoOn uuidBytes (Set.Iio uuidBound) :=
  fun _ _ _ hn hmn => numeral_lt_numeral byte_strictMonoOn hmn hn

/-- Numbers are read back from their bytes. -/
lemma value_of_toBytes {n length : ℕ} {bytes : List Byte} (h : toBytes n length = .ok bytes) :
    bytes.length = length ∧ value 256 (bytes.map Fin.val) = n := by
  unfold toBytes at h
  split at h
  · rename_i hn
    cases h
    refine ⟨length_numeral length n, ?_⟩
    rw [map_numeral]
    exact value_numeral hn
  · cases h

/-! ## Fields -/

/-- `UUID.variant`. -/
inductive UuidVariant
  | reservedNcs
  | rfc4122
  | reservedMicrosoft
  | reservedFuture
  deriving DecidableEq, Repr

/-- `id.variant`. -/
def uuidVariant (id : Id) : UuidVariant :=
  if id &&& (0x8000 <<< 48) = 0 then .reservedNcs
  else if id &&& (0x4000 <<< 48) = 0 then .rfc4122
  else if id &&& (0x2000 <<< 48) = 0 then .reservedMicrosoft
  else .reservedFuture

/-- `id.version`, which means something in the variant of RFC 4122 only. -/
def uuidVersion (id : Id) : Option ℕ :=
  if uuidVariant id = .rfc4122 then some ((id >>> 76) &&& 0xf) else none

section Fields

variable {n : ℕ}

lemma and_two_pow_eq_zero_iff {i : ℕ} : n &&& 2 ^ i = 0 ↔ n / 2 ^ i % 2 = 0 := by
  rw [Nat.and_two_pow, Nat.testBit_eq_decide_div_mod_eq]
  have hpos := Nat.two_pow_pos i
  by_cases h : n / 2 ^ i % 2 = 1
  · simp [h]
  · simp only [h, decide_false, Bool.toNat_false, Nat.zero_mul, true_iff]
    omega

/-- The variant of RFC 4122 has the bits 10. -/
lemma uuidVariant_eq_iff : uuidVariant n = .rfc4122 ↔ n / 2 ^ 62 % 4 = 2 := by
  have hhigh : n &&& (0x8000 <<< 48) = 0 ↔ n / 2 ^ 63 % 2 = 0 := @and_two_pow_eq_zero_iff n 63
  have hlow : n &&& (0x4000 <<< 48) = 0 ↔ n / 2 ^ 62 % 2 = 0 := @and_two_pow_eq_zero_iff n 62
  unfold uuidVariant
  split_ifs with hncs hrfc
  · rw [hhigh] at hncs
    simp only [false_iff]
    omega
  · rw [hhigh] at hncs
    rw [hlow] at hrfc
    simp only [true_iff]
    omega
  · rw [hlow] at hrfc
    simp only [false_iff]
    omega
  · rw [hlow] at hrfc
    simp only [false_iff]
    omega

lemma uuidVersion_eq (h : n / 2 ^ 62 % 4 = 2) : uuidVersion n = some (n / 2 ^ 76 % 16) := by
  rw [uuidVersion, if_pos (uuidVariant_eq_iff.2 h), Nat.shiftRight_eq_div_pow]
  exact congrArg some (Nat.and_two_pow_sub_one_eq_mod _ 4)

end Fields

end BePyEco
