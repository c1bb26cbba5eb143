import BePyEco.Common.Uuid
import Mathlib.Data.List.Chain

/-!
# Generated ids

`uuid7` puts the milliseconds of the clock above 74 random bits, with version and variant in
between (`uuid7_eq`).  Ids of different milliseconds are in the order of their calls; within one
millisecond nothing but the random bits decides.
-/

namespace BePyEco

open Library

/-! ## The generator -/

/-- A call of `uuid7`: what `time.time_ns()` and `os.urandom(10)` return to it. -/
structure Uuid7Call where
  timeNs : ℕ
  urandom : Vector Byte 10
  deriving DecidableEq, Repr

/-- `unix_ms`. -/
def Uuid7Call.unixMs (c : Uuid7Call) : ℕ := c.timeNs / 1000000

/-- The random bytes with version 7 in the high nibble of byte 6 of the id and the variant in the
high bits of byte 8. -/
def stamp (randBytes : Vector Byte 10) : Vector Byte 10 :=
  let first := randBytes.get ⟨0, Nat.zero_lt_succ 9⟩
  let versioned := randBytes.set 0 ((first &&& byte 0x0F) ||| byte 0x70) (Nat.zero_lt_succ 9)
  let third := versioned.get ⟨2, Nat.le_of_ble_eq_true rfl⟩
  versioned.set 2 ((third &&& byte 0x3F) ||| byte 0x80) (Nat.le_of_ble_eq_true rfl)

def uuid7 (c : Uuid7Call) : Except ByteError Id := do
  let timestampBytes ← toBytes c.unixMs 6
  uuidOfBytes (timestampBytes ++ (stamp c.urandom).toList)

/-! ## What an id consists of -/

/-- The random bytes without the bits that are stamped. -/
def mask (urandom : Vector Byte 10) : Vector Byte 10 :=
  let first := urandom.get ⟨0, Nat.zero_lt_succ 9⟩
  let masked := urandom.set 0 (first &&& byte 0x0F) (Nat.zero_lt_succ 9)
  let third := masked.get ⟨2, Nat.le_of_ble_eq_true rfl⟩
  masked.set 2 (third &&& byte 0x3F) (Nat.le_of_ble_eq_true rfl)

/-- The random bits of an id, as a number. -/
def tieBreaker (urandom : Vector Byte 10) : ℕ := value 256 ((mask urandom).toList.map Fin.val)

/-- A mask keeps the low bits of a byte. -/
lemma val_and (b : Byte) {i : ℕ} (hi : 2 ^ i ≤ 256) :
    (b &&& byte (2 ^ i - 1)).val = b.val % 2 ^ i := by
  have hmask : (2 ^ i - 1) % 256 = 2 ^ i - 1 := by
    have hpos := Nat.two_pow_pos i
    exact Nat.mod_eq_of_lt (by omega)
  have hlow : b.val % 2 ^ i < 256 := (Nat.mod_le _ _).trans_lt b.isLt
  show (b.val &&& (2 ^ i - 1) % 256) % 256 = _
  rw [hmask, Nat.and_two_pow_sub_one_eq_mod, Nat.mod_eq_of_lt hlow]

/-- Bits that are set above the low ones are added. -/
lemma val_or {low : Byte} {i high : ℕ} (hlow : low.val < 2 ^ i)
    (hhigh : 2 ^ i * high + low.val < 256) :
    (low ||| byte (2 ^ i * high)).val = 2 ^ i * high + low.val := by
  have hbits : 2 ^ i * high < 256 := by omega
  show (low.val ||| (2 ^ i * high) % 256) % 256 = _
  rw [Nat.mod_eq_of_lt hbits, Nat.or_comm, ← Nat.two_pow_add_eq_or_of_lt hlow,
    Nat.mod_eq_of_lt hhigh]

lemma exists_bytes (v : Vector Byte 10) :
    ∃ a b c d e f g h i j, v = #v[a, b, c, d, e, f, g, h, i, j] := by
  obtain ⟨⟨bytes⟩, hsize⟩ := v
  simp only [List.size_toArray] at hsize
  match bytes, hsize with
  | [a, b, c, d, e, f, g, h, i, j], _ => exact ⟨a, b, c, d, e, f, g, h, i, j, rfl⟩

section Bytes

variable (urandom : Vector Byte 10)

/-- Twelve random bits lie above the variant, and sixty-two below it. -/
lemma tieBreaker_eq :
    ∃ high < 2 ^ 12, ∃ low < 2 ^ 62, tieBreaker urandom = high * 2 ^ 64 + low := by
  obtain ⟨a, b, c, d, e, f, g, h, i, j, rfl⟩ := exists_bytes urandom
  have ha : (a &&& byte 0x0F).val = a.val % 16 := val_and a (i := 4) (by decide)
  have hc : (c &&& byte 0x3F).val = c.val % 64 := val_and c (i := 6) (by decide)
  have hmask : (mask #v[a, b, c, d, e, f, g, h, i, j]).toList =
      [a &&& byte 0x0F, b] ++ [c &&& byte 0x3F, d, e, f, g, h, i, j] := rfl
  refine ⟨value 256 ([a &&& byte 0x0F, b].map Fin.val), ?_,
    value 256 ([c &&& byte 0x3F, d, e, f, g, h, i, j].map Fin.val), ?_, ?_⟩
  · simp only [List.map_cons, List.map_nil, ha, value, List.foldl_cons, List.foldl_nil]
    omega
  · simp only [List.map_cons, List.map_nil, hc, value, List.foldl_cons, List.foldl_nil]
    omega
  · have hlength : ([c &&& byte 0x3F, d, e, f, g, h, i, j].map Fin.val).length = 8 := rfl
    have hbytes : 256 ^ 8 = 2 ^ 64 := by decide
    rw [tieBreaker, hmask, List.map_append, value_append, hlength, hbytes]

/-- The stamps are added to the random bits. -/
lemma value_stamp :
    value 256 ((stamp urandom).toList.map Fin.val) = 7 * 2 ^ 76 + 2 ^ 63 + tieBreaker urandom := by
  obtain ⟨a, b, c, d, e, f, g, h, i, j, rfl⟩ := exists_bytes urandom
  have ha : (a &&& byte 0x0F).val = a.val % 16 := val_and a (i := 4) (by decide)
  have hc : (c &&& byte 0x3F).val = c.val % 64 := val_and c (i := 6) (by decide)
  have hversion : ((a &&& byte 0x0F) ||| byte 0x70).val = 112 + (a &&& byte 0x0F).val :=
    @val_or (a &&& byte 0x0F) 4 7 (by omega) (by omega)
  have hvariant : ((c &&& byte 0x3F) ||| byte 0x80).val = 128 + (c &&& byte 0x3F).val :=
    @val_or (c &&& byte 0x3F) 6 2 (by omega) (by omega)
  have hstamp : (stamp #v[a, b, c, d, e, f, g, h, i, j]).toList =
      [(a &&& byte 0x0F) ||| byte 0x70, b,
        (c &&& byte 0x3F) ||| byte 0x80, d, e, f, g, h, i, j] := rfl
  have hmask : (mask #v[a, b, c, d, e, f, g, h, i, j]).toList =
      [a &&& byte 0x0F, b, c &&& byte 0x3F, d, e, f, g, h, i, j] := rfl
  rw [tieBreaker, hstamp, hmask]
  simp only [List.map_cons, List.map_nil, hversion, hvariant, value, List.foldl_cons,
    List.foldl_nil]
  omega

end Bytes

variable {c : Uuid7Call}

/-- The id of a call before the year 10889. -/
lemma uuid7_eq (hclock : c.unixMs < 2 ^ 48) :
    uuid7 c = .ok (c.unixMs * 2 ^ 80 + 7 * 2 ^ 76 + 2 ^ 63 + tieBreaker c.urandom) := by
  obtain ⟨timestampBytes, hbytes⟩ : ∃ bytes, toBytes c.unixMs 6 = .ok bytes := ⟨_, if_pos hclock⟩
  obtain ⟨hlength, hvalue⟩ := value_of_toBytes hbytes
  have hsixteen : (timestampBytes ++ (stamp c.urandom).toList).length = 16 := by
    simp [hlength]
  have hid : uuid7 c = uuidOfBytes (timestampBytes ++ (stamp c.urandom).toList) := by
    rw [uuid7, hbytes]
    rfl
  have hten : ((stamp c.urandom).toList.map Fin.val).length = 10 := by simp
  rw [hid, uuidOfBytes, if_pos hsixteen, List.map_append, value_append, hvalue, value_stamp, hten,
    ← Nat.add_assoc, ← Nat.add_assoc]
  rfl

/-! ## Sequences of calls -/

/-- The id of a call. -/
def Uuid7Call.id (c : Uuid7Call) : Id :=
  c.unixMs * 2 ^ 80 + 7 * 2 ^ 76 + 2 ^ 63 + tieBreaker c.urandom

/-- Ids that are in ascending order, as numbers, as bytes and as texts, and are of version 7 and of
the variant of RFC 4122. -/
structure SortedIds (ids : List Id) : Prop where
  ints : ids.Pairwise (· < ·)
  bytes : (ids.map uuidBytes).Pairwise (· < ·)
  texts : (ids.map uuidText).Pairwise (· < ·)
  version : ∀ id ∈ ids, uuidVersion id = some 7
  variant : ∀ id ∈ ids, uuidVariant id = .rfc4122

/-- The calls return ids in the order in which they are made. -/
def SortedByGeneration (calls : List Uuid7Call) : Prop :=
  ∃ ids, calls.mapM uuid7 = .ok ids ∧ SortedIds ids

lemma Uuid7Call.id_lt_bound (hclock : c.unixMs < 2 ^ 48) : c.id < uuidBound := by
  obtain ⟨high, hhigh, low, hlow, htie⟩ := tieBreaker_eq c.urandom
  show (c.unixMs * 2 ^ 80 + 7 * 2 ^ 76 + 2 ^ 63 + tieBreaker c.urandom : ℕ) < 16 ^ 32
  rw [htie]
  omega

/-- While the clock does not run back, the random bits decide within a millisecond only. -/
lemma Uuid7Call.id_lt_iff {a b : Uuid7Call} (h : a.unixMs ≤ b.unixMs) :
    a.id < b.id ↔ (a.unixMs = b.unixMs → tieBreaker a.urandom < tieBreaker b.urandom) := by
  obtain ⟨high, hhigh, low, hlow, htie⟩ := tieBreaker_eq a.urandom
  obtain ⟨high', hhigh', low', hlow', htie'⟩ := tieBreaker_eq b.urandom
  unfold Uuid7Call.id
  rw [htie, htie']
  show (_ : ℕ) < _ ↔ _
  omega

lemma Uuid7Call.variantBits (c : Uuid7Call) : c.id / 2 ^ 62 % 4 = 2 := by
  obtain ⟨high, hhigh, low, hlow, htie⟩ := tieBreaker_eq c.urandom
  show (c.unixMs * 2 ^ 80 + 7 * 2 ^ 76 + 2 ^ 63 + tieBreaker c.urandom) / 2 ^ 62 % 4 = 2
  rw [htie]
  omega

lemma Uuid7Call.versionBits (c : Uuid7Call) : c.id / 2 ^ 76 % 16 = 7 := by
  obtain ⟨high, hhigh, low, hlow, htie⟩ := tieBreaker_eq c.urandom
  show (c.unixMs * 2 ^ 80 + 7 * 2 ^ 76 + 2 ^ 63 + tieBreaker c.urandom) / 2 ^ 76 % 16 = 7
  rw [htie]
  omega

/-- While the clock can be written with six bytes, every call returns. -/
lemma mapM_uuid7 {calls : List Uuid7Call} (hclock : ∀ c ∈ calls, c.unixMs < 2 ^ 48) :
    calls.mapM uuid7 = .ok (calls.map Uuid7Call.id) := by
  induction calls with
  | nil => rfl
  | cons c calls ih =>
      rw [List.mapM_cons, uuid7_eq (hclock c List.mem_cons_self),
        ih fun c' hc' => hclock c' (List.mem_cons_of_mem c hc')]
      rfl

/-- The three orders of ids agree. -/
lemma sortedIds_iff {calls : List Uuid7Call} (hclock : ∀ c ∈ calls, c.unixMs < 2 ^ 48) :
    SortedIds (calls.map Uuid7Call.id) ↔ (calls.map Uuid7Call.id).Pairwise (· < ·) := by
  constructor
  · exact SortedIds.ints
  · intro hints
    have hbound : ∀ id ∈ calls.map Uuid7Call.id, id < uuidBound := by
      intro id hid
      obtain ⟨c, hc, rfl⟩ := List.mem_map.1 hid
      exact Uuid7Call.id_lt_bound (hclock c hc)
    have hmap : ∀ {β : Type} [Preorder β] {f : Id → β}, StrictMonoOn f (Set.Iio uuidBound) →
        ((calls.map Uuid7Call.id).map f).Pairwise (· < ·) := by
      intro β _ f hf
      rw [List.pairwise_map]
      exact hints.imp_of_mem fun ha hb hlt => hf (hbound _ ha) (hbound _ hb) hlt
    refine ⟨hints, hmap uuidBytes_strictMonoOn, hmap uuidText_strictMonoOn, ?_, ?_⟩
    · intro id hid
      obtain ⟨c, -, rfl⟩ := List.mem_map.1 hid
      rw [uuidVersion_eq c.variantBits, c.versionBits]
    · intro id hid
      obtain ⟨c, -, rfl⟩ := List.mem_map.1 hid
      exact uuidVariant_eq_iff.2 c.variantBits

/-- What sorts is the numbers of the ids. -/
lemma sortedByGeneration_iff_ids {calls : List Uuid7Call}
    (hclock : ∀ c ∈ calls, c.unixMs < 2 ^ 48) :
    SortedByGeneration calls ↔ (calls.map Uuid7Call.id).Pairwise (· < ·) := by
  constructor
  · rintro ⟨ids, hids, hsorted⟩
    rw [mapM_uuid7 hclock] at hids
    cases hids
    exact hsorted.ints
  · exact fun hints => ⟨_, mapM_uuid7 hclock, (sortedIds_iff hclock).2 hints⟩

/-- The ids of a sequence of calls sort in the order of the calls exactly when of every two calls
one after the other in one millisecond the second draws the larger random bits. -/
theorem sortedByGeneration_iff {calls : List Uuid7Call}
    (hordered : calls.IsChain fun a b => a.unixMs ≤ b.unixMs)
    (hclock : ∀ c ∈ calls, c.unixMs < 2 ^ 48) :
    SortedByGeneration calls ↔ calls.IsChain fun a b =>
      a.unixMs = b.unixMs → tieBreaker a.urandom < tieBreaker b.urandom := by
  rw [sortedByGeneration_iff_ids hclock, ← List.isChain_iff_pairwise, List.isChain_map]
  exact isChain_congr (fun _ _ h => Uuid7Call.id_lt_iff h) hordered

/-- A call in the first millisecond that draws one byte ten times. -/
def firstMillisecond (byte : Byte) : Uuid7Call := ⟨1000000, Vector.replicate 10 byte⟩

theorem sortedByGeneration_ascending :
    SortedByGeneration [firstMillisecond 1, firstMillisecond 2, ⟨2000000, Vector.replicate 10 0⟩] :=
  (sortedByGeneration_iff (by decide) (by decide)).2 (by decide)

/-- Two calls in one millisecond, the second with the smaller bytes. -/
theorem not_sortedByGeneration :
    ¬ ∀ calls : List Uuid7Call, calls.IsChain (fun a b => a.unixMs ≤ b.unixMs) →
      (∀ c ∈ calls, c.unixMs < 2 ^ 48) → (calls.map Uuid7Call.urandom).Nodup →
        SortedByGeneration calls := by
  intro h
  have hclock : ∀ c ∈ [firstMillisecond 2, firstMillisecond 1], c.unixMs < 2 ^ 48 := by decide
  have hsorted := h [firstMillisecond 2, firstMillisecond 1] (by decide) hclock (by decide)
  rw [sortedByGeneration_iff_ids hclock] at hsorted
  exact absurd hsorted (by decide)

end BePyEco
