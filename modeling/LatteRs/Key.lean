import LatteRs.Json
import LatteRs.Checked
import Mathlib.Data.List.Basic

/-!
# Licence keys: normalization and checksum

The module `key.rs`.  Uppercasing is `toUppercase`, the conversion of Unicode
strings in Rust's standard library.  A string is split at a byte, and a byte
inside a character is a panic.

* `normalizeKey`, `sanitizeKey`;
* `IsCharBoundary` and `splitAt_eq_panic`: where a split panics;
* `calculateChecksum`, `validateKey`, `validateKey_eq_panic`.
-/

namespace LatteRs

open Checked

/-! ### Normalization -/

/-- Uppercases and strips hyphens and spaces. -/
def normalizeKey (toUppercase : String → String) (input : String) : String :=
  String.ofList ((toUppercase input).toList.filter fun c => c ≠ '-' ∧ c ≠ ' ')

/-- The fold of visually ambiguous characters in the native key alphabet. -/
def foldAmbiguous (c : Char) : Char :=
  if c = 'O' then '0' else if c = 'I' then '1' else if c = 'L' then '1' else c

/-- `normalizeKey`, then the fold of `O`, `I` and `L`. -/
def sanitizeKey (toUppercase : String → String) (input : String) : String :=
  String.ofList (((toUppercase input).toList.filter fun c => c ≠ '-' ∧ c ≠ ' ').map foldAmbiguous)

/-! ### Splitting at a byte -/

/-- Byte `i` of `s` is where a character starts, or the end of `s`. -/
def IsCharBoundary (s : String) (i : ℕ) : Prop :=
  ∃ front back : String, s = front ++ back ∧ front.utf8ByteSize = i

/-- The characters before and after byte `mid`, if a character starts there. -/
def splitChars : List Char → ℕ → Option (List Char × List Char)
  | cs, 0 => some ([], cs)
  | [], _ + 1 => none
  | c :: cs, mid + 1 =>
    if c.utf8Size ≤ mid + 1 then
      (splitChars cs (mid + 1 - c.utf8Size)).map fun rest => (c :: rest.1, rest.2)
    else none

/-- `str::split_at`. -/
def splitAt {ε : Type} (s : String) (mid : ℕ) : Checked ε (String × String) :=
  match splitChars s.toList mid with
  | some (front, back) => .ok (String.ofList front, String.ofList back)
  | none => Checked.panic

theorem utf8ByteSize_ofList_cons (c : Char) (cs : List Char) :
    (String.ofList (c :: cs)).utf8ByteSize = c.utf8Size + (String.ofList cs).utf8ByteSize := by
  rw [String.ofList_cons, String.utf8ByteSize_append, String.utf8ByteSize_singleton]

theorem splitChars_eq_some {cs front back : List Char} {mid : ℕ} :
    splitChars cs mid = some (front, back) ↔
      cs = front ++ back ∧ (String.ofList front).utf8ByteSize = mid := by
  induction cs, mid using splitChars.induct generalizing front back with
  | case1 cs =>
    cases front with
    | nil => simp [splitChars]
    | cons c front =>
      have hpos := c.utf8Size_pos
      have hsize := utf8ByteSize_ofList_cons c front
      simp only [splitChars, Option.some.injEq, Prod.mk.injEq, List.nil_eq, reduceCtorEq,
        false_and, false_iff]
      omega
  | case2 mid =>
    cases front with
    | nil => simp [splitChars]
    | cons c front => simp [splitChars]
  | case3 c cs mid hle ih =>
    rw [splitChars, if_pos hle, Option.map_eq_some_iff]
    cases front with
    | nil => simp
    | cons d front =>
      have hsize := utf8ByteSize_ofList_cons d front
      constructor
      · rintro ⟨⟨front', back'⟩, hrest, heq⟩
        simp only [Prod.mk.injEq, List.cons.injEq] at heq
        obtain ⟨⟨rfl, rfl⟩, rfl⟩ := heq
        obtain ⟨rfl, hmid⟩ := ih.1 hrest
        exact ⟨rfl, by omega⟩
      · rintro ⟨hcs, hmid⟩
        cases hcs
        exact ⟨(front, back), ih.2 ⟨rfl, by omega⟩, rfl⟩
  | case4 c cs mid hle =>
    rw [splitChars, if_neg hle]
    cases front with
    | nil => simp
    | cons d front =>
      have hsize := utf8ByteSize_ofList_cons d front
      simp only [reduceCtorEq, false_iff, List.cons_append, List.cons.injEq, not_and]
      rintro ⟨rfl, -⟩
      omega

theorem splitAt_eq_ok {ε : Type} {s front back : String} {mid : ℕ} :
    (splitAt s mid : Checked ε _) = .ok (front, back) ↔
      s = front ++ back ∧ front.utf8ByteSize = mid := by
  have hchars : splitChars s.toList mid = some (front.toList, back.toList) ↔
      s = front ++ back ∧ front.utf8ByteSize = mid := by
    rw [splitChars_eq_some, String.ofList_toList, ← String.toList_append, String.toList_inj]
  rw [← hchars]
  unfold splitAt
  constructor
  · intro h
    split at h
    · next front' back' hsplit =>
      cases h
      simpa using hsplit
    · exact absurd h (by simp)
  · intro h
    rw [h]
    simp

/-- The split panics exactly when the byte is inside a character, or past the end. -/
theorem splitAt_eq_panic {ε : Type} {s : String} {mid : ℕ} :
    (splitAt s mid : Checked ε _) = .error .panic ↔ ¬ IsCharBoundary s mid := by
  constructor
  · rintro h ⟨front, back, hsplit⟩
    rw [splitAt_eq_ok.2 hsplit] at h
    cases h
  · intro h
    cases hchars : splitChars s.toList mid with
    | none => simp [splitAt, hchars, Checked.panic]
    | some split =>
      obtain ⟨hs, hsize⟩ := splitChars_eq_some.1 hchars
      refine absurd ⟨String.ofList split.1, String.ofList split.2, ?_, hsize⟩ h
      rw [← String.ofList_append, ← hs, String.ofList_toList]

/-! ### The checksum -/

/-- `ALPHABET`. -/
def alphabet : Bytes := asBytes "0123456789ABCDEFGHJKMNPQRSTVWXYZ"

def alphabetIndex (c : UInt8) : ℤ :=
  match alphabet.idxOf? c with
  | some i => i
  | none => -1

/-- The value of byte number `i`, which counts twice at an even index. -/
def checksumValue (i : ℕ) (c : UInt8) : ℤ :=
  if i % 2 = 0 then alphabetIndex c * 2 else alphabetIndex c

/-- The sum over the bytes from number `i` on. -/
def checksumSum : ℕ → ℤ → Bytes → ℤ
  | _, sum, [] => sum
  | i, sum, c :: bytes => checksumSum (i + 1) (sum + checksumValue i c) bytes

/-- Character number `i` of a checksum. -/
def checksumChar (sum : ℤ) (i : ℕ) : Char :=
  let idx := ((sum + i * 31) % alphabet.length).toNat
  Char.ofNat (alphabet.getD idx 0).toNat

/-- The sums are `i64`; `checksum_inI64` says that no key that fits in memory takes them out of
that range. -/
def calculateChecksum (data : String) (length : ℕ) : String :=
  String.ofList ((List.range length).map (checksumChar (checksumSum 0 0 (asBytes data))))

/-- Whether the last `checksumLen` bytes of `key` are the checksum of the bytes before them. -/
def validateKey {ε : Type} (key : String) (checksumLen : ℕ) : Checked ε Bool :=
  if key.utf8ByteSize < checksumLen then .ok false
  else do
    let (dataPart, provided) ← splitAt key (key.utf8ByteSize - checksumLen)
    .ok (calculateChecksum dataPart checksumLen = provided)

/-- `validate_key` panics exactly when the checksum would start inside a character. -/
theorem validateKey_eq_panic {ε : Type} {key : String} {checksumLen : ℕ} :
    (validateKey key checksumLen : Checked ε Bool) = .error .panic ↔
      checksumLen ≤ key.utf8ByteSize ∧
        ¬ IsCharBoundary key (key.utf8ByteSize - checksumLen) := by
  unfold validateKey
  split_ifs with hlen
  · simp [Nat.not_le.2 hlen]
  · rw [bind_eq_error, splitAt_eq_panic]
    simp [Nat.not_lt.1 hlen]

theorem alphabet_length : alphabet.length = 32 := by decide +kernel

theorem checksumValue_bounds (i : ℕ) (c : UInt8) :
    -2 ≤ checksumValue i c ∧ checksumValue i c ≤ 62 := by
  have hindex : -1 ≤ alphabetIndex c ∧ alphabetIndex c ≤ 31 := by
    unfold alphabetIndex
    split
    · next i hi =>
      have hlt := (List.idxOf?_eq_some_iff.1 hi).1
      rw [alphabet_length] at hlt
      omega
    · omega
  unfold checksumValue
  split_ifs <;> omega

theorem checksumSum_bounds (bytes : Bytes) (i : ℕ) (sum : ℤ) :
    sum - 2 * bytes.length ≤ checksumSum i sum bytes ∧
      checksumSum i sum bytes ≤ sum + 62 * bytes.length := by
  induction bytes generalizing i sum with
  | nil => simp [checksumSum]
  | cons c bytes ih =>
    have hvalue := checksumValue_bounds i c
    have hrest := ih (i + 1) (sum + checksumValue i c)
    simp only [checksumSum, List.length_cons, Nat.cast_add, Nat.cast_one]
    omega

/-- The sums that `calculate_checksum` forms stay in `i64` for a key below `2 ^ 57` bytes. -/
theorem checksum_inI64 {data : Bytes} {length : ℕ} (h : data.length + length < 2 ^ 57) :
    (∀ k, InI64 (checksumSum 0 0 (data.take k))) ∧
      ∀ i < length, InI64 (i * 31) ∧ InI64 (checksumSum 0 0 data + i * 31) := by
  constructor
  · intro k
    have hk : (data.take k).length ≤ data.length := by simp
    have hbounds := checksumSum_bounds (data.take k) 0 0
    unfold InI64 Binary64.i64Min Binary64.i64Max
    omega
  · intro i hi
    have hbounds := checksumSum_bounds data 0 0
    unfold InI64 Binary64.i64Min Binary64.i64Max
    omega

end LatteRs
