import LatteRs.AppId
import LatteRs.Ascii
import LatteRs.WeightedSum
import Mathlib.Data.ZMod.Basic

/-!
# What the checksum detects

The sum behind a checksum matters modulo 32, and there it is a weighted sum of
the values of the bytes.

* `total`, `calculateChecksum_inj`: two checksums agree when the totals do;
* `transpositions_caught`: the exchange of two neighbouring characters;
* `typo_caught_iff`: another character in one place.
-/

namespace LatteRs

open Checked WeightedSum

/-! ### The alphabet -/

/-- The characters of the key alphabet. -/
def alphabetChars : List Char := "0123456789ABCDEFGHJKMNPQRSTVWXYZ".toList

/-- What a byte counts for, modulo 32. -/
def residue (c : UInt8) : ZMod 32 := (alphabetIndex c : ZMod 32)

theorem isAscii_of_mem_alphabet {c : Char} (h : c ∈ alphabetChars) : IsAscii c := by
  have hall : alphabetChars.all (fun c => decide (IsAscii c)) = true := by decide +kernel
  exact of_decide_eq_true (List.all_eq_true.1 hall c h)

/-- What holds of all pairs of characters of the alphabet. -/
theorem alphabet_pairs {p : Char → Char → Prop} [∀ x y, Decidable (p x y)]
    (h : (alphabetChars.all fun x => alphabetChars.all fun y => decide (p x y)) = true)
    {x y : Char} (hx : x ∈ alphabetChars) (hy : y ∈ alphabetChars) : p x y :=
  of_decide_eq_true (List.all_eq_true.1 (List.all_eq_true.1 h x hx) y hy)

theorem residue_inj {c d : Char} (hc : c ∈ alphabetChars) (hd : d ∈ alphabetChars)
    (h : residue c.toUInt8 = residue d.toUInt8) : c = d :=
  alphabet_pairs (p := fun c d => residue c.toUInt8 = residue d.toUInt8 → c = d)
    (by decide +kernel) hc hd h

/-- Character number `idx` of the alphabet. -/
theorem alphabet_char : ∀ idx : Fin 32,
    Char.ofNat (alphabet.getD idx 0).toNat ∈ alphabetChars ∧
      residue (Char.ofNat (alphabet.getD idx 0).toNat).toUInt8 = (idx.val : ZMod 32) := by
  decide +kernel

theorem checksumChar_spec (sum : ℤ) (i : ℕ) :
    checksumChar sum i ∈ alphabetChars ∧
      residue (checksumChar sum i).toUInt8 = sum + 31 * i := by
  have hlt : (sum + i * 31) % 32 < 32 := Int.emod_lt_of_pos _ (by omega)
  have hpos : 0 ≤ (sum + i * 31) % 32 := Int.emod_nonneg _ (by omega)
  obtain ⟨n, hn⟩ := Int.eq_ofNat_of_zero_le hpos
  have hchar := alphabet_char ⟨n, by omega⟩
  have hvalue : (n : ZMod 32) = sum + 31 * i := by
    have hcast : (((sum + i * 31) % 32 : ℤ) : ZMod 32) = ((sum + i * 31 : ℤ) : ZMod 32) :=
      ZMod.intCast_mod _ 32
    rw [hn] at hcast
    push_cast at hcast
    rw [hcast, mul_comm]
  simp only [checksumChar, alphabet_length, Nat.cast_ofNat, hn, Int.toNat_natCast]
  exact ⟨hchar.1, hchar.2.trans hvalue⟩

/-! ### The total -/

/-- How often byte number `i` counts. -/
def checksumWeight (i : ℕ) : ZMod 32 := if i % 2 = 0 then 2 else 1

theorem cast_checksumSum (i : ℕ) (sum : ℤ) (bytes : Bytes) :
    (checksumSum i sum bytes : ZMod 32) =
      sum + weightedSum checksumWeight i (bytes.map residue) := by
  induction bytes generalizing i sum with
  | nil => simp [checksumSum, weightedSum]
  | cons c bytes ih =>
    have hvalue : (checksumValue i c : ZMod 32) = checksumWeight i * residue c := by
      unfold checksumValue checksumWeight residue
      by_cases hi : i % 2 = 0
      · rw [if_pos hi, if_pos hi]
        push_cast
        rw [mul_comm]
      · rw [if_neg hi, if_neg hi, one_mul]
    rw [checksumSum, ih, List.map_cons, weightedSum]
    push_cast
    rw [hvalue, add_assoc]

/-- The sum over the bytes, modulo 32. -/
def total (data : String) : ZMod 32 := weightedSum checksumWeight 0 ((asBytes data).map residue)

theorem total_eq (data : String) : (checksumSum 0 0 (asBytes data) : ZMod 32) = total data := by
  rw [cast_checksumSum, Int.cast_zero, zero_add, total]

/-- Character number `i` of the checksum of a string. -/
theorem residue_checksumChar (data : String) (i : ℕ) :
    residue (checksumChar (checksumSum 0 0 (asBytes data)) i).toUInt8 = total data + 31 * i := by
  rw [(checksumChar_spec _ i).2, total_eq]

theorem checksumChar_eq_iff {data data' : String} {i : ℕ} :
    checksumChar (checksumSum 0 0 (asBytes data)) i =
      checksumChar (checksumSum 0 0 (asBytes data')) i ↔ total data = total data' := by
  constructor
  · intro h
    have hresidue := congrArg (fun c => residue (Char.toUInt8 c)) h
    simpa only [residue_checksumChar, add_left_inj] using hresidue
  · intro h
    refine residue_inj (checksumChar_spec _ i).1 (checksumChar_spec _ i).1 ?_
    rw [residue_checksumChar, residue_checksumChar, h]

/-- Two checksums agree when the totals do. -/
theorem calculateChecksum_inj {data data' : String} {n : ℕ} (hn : 0 < n) :
    calculateChecksum data n = calculateChecksum data' n ↔ total data = total data' := by
  unfold calculateChecksum
  rw [String.ofList_inj, List.map_inj_left]
  constructor
  · exact fun h => checksumChar_eq_iff.1 (h 0 (List.mem_range.2 hn))
  · exact fun h i _ => checksumChar_eq_iff.2 h

/-! ### Keys that end in a checksum -/

theorem mem_calculateChecksum {data : String} {n : ℕ} {c : Char}
    (h : c ∈ (calculateChecksum data n).toList) : c ∈ alphabetChars := by
  rw [calculateChecksum, String.toList_ofList, List.mem_map] at h
  obtain ⟨i, -, rfl⟩ := h
  exact (checksumChar_spec _ i).1

theorem isAscii_of_mem_calculateChecksum {data : String} {n : ℕ} {c : Char}
    (h : c ∈ (calculateChecksum data n).toList) : IsAscii c :=
  isAscii_of_mem_alphabet (mem_calculateChecksum h)

theorem length_calculateChecksum (data : String) (n : ℕ) :
    (calculateChecksum data n).toList.length = n := by
  rw [calculateChecksum, String.toList_ofList, List.length_map, List.length_range]

theorem utf8ByteSize_calculateChecksum (data : String) (n : ℕ) :
    (calculateChecksum data n).utf8ByteSize = n := by
  rw [← String.ofList_toList (s := calculateChecksum data n),
    utf8ByteSize_ascii fun c => isAscii_of_mem_calculateChecksum, length_calculateChecksum]

/-- The last bytes are compared with the checksum of the rest. -/
theorem validateKey_append {ε : Type} {data suffix : String} {n : ℕ}
    (hsize : suffix.utf8ByteSize = n) :
    (validateKey (data ++ suffix) n : Checked ε Bool) =
      .ok (decide (calculateChecksum data n = suffix)) := by
  have hlength : (data ++ suffix).utf8ByteSize = data.utf8ByteSize + n := by
    rw [String.utf8ByteSize_append, hsize]
  have hsplit : (splitAt (data ++ suffix) data.utf8ByteSize : Checked ε _) =
      .ok (data, suffix) := splitAt_eq_ok.2 ⟨rfl, rfl⟩
  rw [validateKey, if_neg (by omega), hlength, Nat.add_sub_cancel, hsplit, ok_bind]

theorem validateKey_eq_true {ε : Type} {key : String} {n : ℕ} :
    (validateKey key n : Checked ε Bool) = .ok true ↔
      ∃ data, key = data ++ calculateChecksum data n := by
  constructor
  · intro h
    unfold validateKey at h
    split_ifs at h with hlen
    · cases h
    obtain ⟨⟨data, suffix⟩, hsplit, hvalid⟩ := bind_eq_ok.1 h
    obtain ⟨rfl, -⟩ := splitAt_eq_ok.1 hsplit
    exact ⟨data, by rw [of_decide_eq_true (Except.ok.inj hvalid)]⟩
  · rintro ⟨data, rfl⟩
    rw [validateKey_append (utf8ByteSize_calculateChecksum data n), decide_eq_true rfl]

/-! ### Another order and another character -/

theorem asBytes_append_cons {x : Char} (hx : IsAscii x) (front back : List Char) :
    asBytes (String.ofList (front ++ x :: back)) =
      asBytes (String.ofList front) ++ x.toUInt8 :: asBytes (String.ofList back) := by
  rw [String.ofList_append, asBytes_append, asBytes_ofList_cons, utf8EncodeChar_ascii hx]
  rfl

theorem total_swap {x y : Char} (hx : IsAscii x) (hy : IsAscii y) (front back : List Char) :
    total (String.ofList (front ++ y :: x :: back)) =
      total (String.ofList (front ++ x :: y :: back)) +
        (checksumWeight (String.ofList front).utf8ByteSize -
          checksumWeight ((String.ofList front).utf8ByteSize + 1)) *
          (residue y.toUInt8 - residue x.toUInt8) := by
  have hpair : ∀ {x y : Char}, IsAscii x → IsAscii y →
      asBytes (String.ofList (front ++ x :: y :: back)) =
        asBytes (String.ofList front) ++ x.toUInt8 :: y.toUInt8 ::
          asBytes (String.ofList back) := by
    intro x y hx hy
    rw [asBytes_append_cons hx, asBytes_ofList_cons, utf8EncodeChar_ascii hy]
    rfl
  unfold total
  rw [hpair hy hx, hpair hx hy]
  simp only [List.map_append, List.map_cons, weightedSum_swap _ _ _ _ (residue x.toUInt8)
    (residue y.toUInt8), List.length_map, length_asBytes, zero_add]

theorem total_replace {x y : Char} (hx : IsAscii x) (hy : IsAscii y) (front back : List Char) :
    total (String.ofList (front ++ y :: back)) =
      total (String.ofList (front ++ x :: back)) +
        checksumWeight (String.ofList front).utf8ByteSize *
          (residue y.toUInt8 - residue x.toUInt8) := by
  unfold total
  rw [asBytes_append_cons hx, asBytes_append_cons hy]
  simp only [List.map_append, List.map_cons, weightedSum_replace _ _ _ _ (residue x.toUInt8)
    (residue y.toUInt8), List.length_map, length_asBytes, zero_add]

/-- The weights of two neighbours differ by a unit. -/
theorem checksumWeight_sub_succ (i : ℕ) :
    checksumWeight i - checksumWeight (i + 1) = 1 ∨
      checksumWeight i - checksumWeight (i + 1) = -1 := by
  unfold checksumWeight
  by_cases hi : i % 2 = 0
  · rw [if_pos hi, if_neg (by omega)]
    exact Or.inl (by decide)
  · rw [if_neg hi, if_pos (by omega)]
    exact Or.inr (by decide)

/-- The exchange of two different neighbours changes the total. -/
theorem total_swap_ne {x y : Char} (hx : x ∈ alphabetChars) (hy : y ∈ alphabetChars)
    (hne : x ≠ y) (front back : List Char) :
    total (String.ofList (front ++ y :: x :: back)) ≠
      total (String.ofList (front ++ x :: y :: back)) := by
  rw [total_swap (isAscii_of_mem_alphabet hx) (isAscii_of_mem_alphabet hy), Ne, add_eq_left]
  intro h
  have hsub : residue y.toUInt8 - residue x.toUInt8 = 0 := by
    rcases checksumWeight_sub_succ (String.ofList front).utf8ByteSize with hw | hw
    · rwa [hw, one_mul] at h
    · rwa [hw, neg_one_mul, neg_eq_zero] at h
  exact hne (residue_inj hx hy (sub_eq_zero.1 hsub).symm)

/-- The first two characters of a checksum. -/
theorem calculateChecksum_cons_cons (data : String) {n : ℕ} (hn : 2 ≤ n) :
    ∃ rest, (calculateChecksum data n).toList =
      checksumChar (checksumSum 0 0 (asBytes data)) 0 ::
        checksumChar (checksumSum 0 0 (asBytes data)) 1 :: rest := by
  obtain ⟨m, rfl⟩ : ∃ m, n = m + 2 := ⟨n - 2, by omega⟩
  rw [calculateChecksum, String.toList_ofList, List.range_succ_eq_map, List.range_succ_eq_map]
  exact ⟨_, rfl⟩

/-- The exchange of the last character of the data with the first of the checksum. -/
theorem boundary_swap_ne {x y : Char} {front back : List Char} {n : ℕ} (hn : 2 ≤ n) (hne : x ≠ y)
    (hsum : (calculateChecksum (String.ofList (front ++ [x])) n).toList = y :: back) :
    (calculateChecksum (String.ofList (front ++ [y])) n).toList ≠ x :: back := by
  intro hsum'
  obtain ⟨rest, hrest⟩ := calculateChecksum_cons_cons (String.ofList (front ++ [x])) hn
  obtain ⟨rest', hrest'⟩ := calculateChecksum_cons_cons (String.ofList (front ++ [y])) hn
  rw [hsum] at hrest
  rw [hsum'] at hrest'
  obtain ⟨hy, hback⟩ := List.cons.inj hrest
  obtain ⟨hx', hback'⟩ := List.cons.inj hrest'
  -- the second characters agree, so the totals do, and so do the first characters
  have htotal := checksumChar_eq_iff.1 (List.cons.inj (hback.symm.trans hback')).1
  exact hne (hx'.trans ((checksumChar_eq_iff.2 htotal).symm.trans hy.symm))

/-- Another suffix of the same size is no checksum. -/
theorem validateKey_eq_false {ε : Type} {data : String} {n : ℕ} {suffix : List Char}
    (hascii : ∀ c ∈ suffix, IsAscii c) (hlength : suffix.length = n)
    (hne : (calculateChecksum data n).toList ≠ suffix) :
    (validateKey (String.ofList (data.toList ++ suffix)) n : Checked ε Bool) = .ok false := by
  have hsize : (String.ofList suffix).utf8ByteSize = n := by
    rw [utf8ByteSize_ascii hascii, hlength]
  rw [String.ofList_append, String.ofList_toList, validateKey_append hsize, decide_eq_false]
  intro heq
  rw [heq, String.toList_ofList] at hne
  exact hne rfl

/-- A key that differs from a valid one within its checksum. -/
theorem validateKey_other_checksum {ε : Type} {data : String} {n : ℕ} {mid tail tail' : List Char}
    (hsum : (calculateChecksum data n).toList = mid ++ tail) (hascii : ∀ c ∈ tail', IsAscii c)
    (hlength : tail'.length = tail.length) (hne : tail ≠ tail') :
    (validateKey (String.ofList (data.toList ++ mid ++ tail')) n : Checked ε Bool) =
      .ok false := by
  have hn := length_calculateChecksum data n
  rw [hsum, List.length_append] at hn
  rw [List.append_assoc]
  refine validateKey_eq_false (fun c hc => ?_) ?_ fun heq => ?_
  · rcases List.mem_append.1 hc with hmid | htail
    · have hmem : c ∈ (calculateChecksum data n).toList := by
        rw [hsum]
        exact List.mem_append_left _ hmid
      exact isAscii_of_mem_calculateChecksum hmem
    · exact hascii c htail
  · rw [List.length_append, hlength, hn]
  · rw [hsum] at heq
    exact hne (List.append_cancel_left heq)

/-- A key that differs from a valid one within its data. -/
theorem validateKey_other_data {ε : Type} {n : ℕ} (hn : 0 < n) (front mid mid' : List Char) :
    (validateKey (String.ofList (front ++ (mid' ++
        (calculateChecksum (String.ofList (front ++ mid)) n).toList))) n : Checked ε Bool) =
      .ok (decide
        (total (String.ofList (front ++ mid')) = total (String.ofList (front ++ mid)))) := by
  rw [← List.append_assoc, String.ofList_append, String.ofList_toList,
    validateKey_append (utf8ByteSize_calculateChecksum _ n), Except.ok.injEq, decide_eq_decide,
    calculateChecksum_inj hn]

/-- **Transpositions.**  A key over the alphabet with its checksum is valid, and no other suffix
of that length is accepted.  The exchange of two neighbouring characters that differ is
detected, wherever they are. -/
theorem transpositions_caught {ε : Type} (data : String) (n : ℕ)
    (hdata : ∀ c ∈ data.toList, c ∈ alphabetChars) (hn : 2 ≤ n) :
    (validateKey (data ++ calculateChecksum data n) n : Checked ε Bool) = .ok true ∧
      (∀ suffix : String, suffix.toList.length = n → (∀ c ∈ suffix.toList, IsAscii c) →
        (validateKey (data ++ suffix) n : Checked ε Bool) = .ok true →
        suffix = calculateChecksum data n) ∧
      ∀ front x y back, (data ++ calculateChecksum data n).toList = front ++ x :: y :: back →
        x ≠ y →
        (validateKey (String.ofList (front ++ y :: x :: back)) n : Checked ε Bool) =
          .ok false := by
  refine ⟨validateKey_eq_true.2 ⟨data, rfl⟩, fun suffix hlength hascii hvalid => ?_,
    fun front x y back hkey hne => ?_⟩
  · have hsize : suffix.utf8ByteSize = n := by
      rw [← String.ofList_toList (s := suffix), utf8ByteSize_ascii hascii, hlength]
    rw [validateKey_append hsize] at hvalid
    exact (of_decide_eq_true (Except.ok.inj hvalid)).symm
  · have hmem : ∀ c ∈ front ++ x :: y :: back, c ∈ alphabetChars := by
      rw [← hkey, String.toList_append]
      intro c hc
      exact (List.mem_append.1 hc).elim (hdata c) mem_calculateChecksum
    have hx : x ∈ alphabetChars := hmem x (by simp)
    have hy : y ∈ alphabetChars := hmem y (by simp)
    have hswapped : ∀ c ∈ y :: x :: back, IsAscii c := by
      intro c hc
      refine isAscii_of_mem_alphabet (hmem c (List.mem_append_right _ ?_))
      simp only [List.mem_cons] at hc ⊢
      tauto
    have inChecksum : ∀ mid, front = data.toList ++ mid →
        (calculateChecksum data n).toList = mid ++ x :: y :: back →
        (validateKey (String.ofList (front ++ y :: x :: back)) n : Checked ε Bool) =
          .ok false := by
      rintro mid rfl hsum
      exact validateKey_other_checksum hsum hswapped rfl fun h => hne (List.cons.inj h).1
    rw [String.toList_append, List.append_eq_append_iff] at hkey
    rcases hkey with ⟨mid, hfront, hsum⟩ | ⟨mid, hd, hback⟩
    · exact inChecksum mid hfront hsum
    · obtain rfl : data = String.ofList (front ++ mid) := by rw [← hd, String.ofList_toList]
      rcases mid with _ | ⟨z, _ | ⟨z', mid⟩⟩
      · exact inChecksum [] (by simp) hback.symm
      · -- across the boundary
        simp only [List.cons_append, List.nil_append, List.cons.injEq] at hback
        obtain ⟨rfl, hsum⟩ := hback
        have hlength := length_calculateChecksum (String.ofList (front ++ [x])) n
        rw [← hsum] at hlength
        have hkey' : front ++ y :: x :: back =
            (String.ofList (front ++ [y])).toList ++ x :: back := by simp
        rw [hkey']
        refine validateKey_eq_false (fun c hc => hswapped c (List.mem_cons_of_mem _ hc)) ?_
          (boundary_swap_ne hn hne hsum.symm)
        simpa using hlength
      · -- inside the data
        simp only [List.cons_append, List.cons.injEq] at hback
        obtain ⟨rfl, rfl, rfl⟩ := hback
        have hother := validateKey_other_data (ε := ε) (n := n) (by omega) front (x :: y :: mid)
          (y :: x :: mid)
        rwa [decide_eq_false (total_swap_ne hx hy hne front mid)] at hother

theorem transpositions_caught_sample :
    (validateKey "1021" 2 : Checked Unit Bool) = .ok true ∧
      (validateKey "0121" 2 : Checked Unit Bool) = .ok false ∧
      (validateKey "1201" 2 : Checked Unit Bool) = .ok false ∧
      (validateKey "1012" 2 : Checked Unit Bool) = .ok false := by
  have hkey : "10" ++ calculateChecksum "10" 2 = "1021" := by decide +kernel
  have hall : "10".toList.all (fun c => decide (c ∈ alphabetChars)) = true := by decide +kernel
  have hdata : ∀ c ∈ "10".toList, c ∈ alphabetChars := fun c hc =>
    of_decide_eq_true (List.all_eq_true.1 hall c hc)
  have h := transpositions_caught (ε := Unit) "10" 2 hdata (by decide)
  rw [hkey] at h
  exact ⟨h.1, h.2.2 [] '1' '0' ['2', '1'] rfl (by decide),
    h.2.2 ['1'] '0' '2' ['1'] rfl (by decide), h.2.2 ['1', '0'] '2' '1' [] rfl (by decide)⟩

/-! ### Typos -/

/-- The typo of `y` for `x` leaves the total as it is: it is in the data, where characters count
twice, and the two are half of the alphabet apart. -/
def Unseen (n : ℕ) (front : List Char) (x y : Char) (back : List Char) : Prop :=
  n ≤ (String.ofList back).utf8ByteSize ∧ (String.ofList front).utf8ByteSize % 2 = 0 ∧
    (alphabetIndex x.toUInt8 - alphabetIndex y.toUInt8).natAbs = 16

instance (n : ℕ) (front : List Char) (x y : Char) (back : List Char) :
    Decidable (Unseen n front x y back) := inferInstanceAs (Decidable (_ ∧ _ ∧ _))

theorem total_replace_iff {x y : Char} (hx : x ∈ alphabetChars) (hy : y ∈ alphabetChars)
    (hne : x ≠ y) (front back : List Char) :
    total (String.ofList (front ++ y :: back)) = total (String.ofList (front ++ x :: back)) ↔
      (String.ofList front).utf8ByteSize % 2 = 0 ∧
        (alphabetIndex x.toUInt8 - alphabetIndex y.toUInt8).natAbs = 16 := by
  have hhalf : 2 * (residue y.toUInt8 - residue x.toUInt8) = 0 ↔
      (alphabetIndex x.toUInt8 - alphabetIndex y.toUInt8).natAbs = 16 :=
    alphabet_pairs (p := fun x y => x ≠ y → (2 * (residue y.toUInt8 - residue x.toUInt8) = 0 ↔
      (alphabetIndex x.toUInt8 - alphabetIndex y.toUInt8).natAbs = 16))
      (by decide +kernel) hx hy hne
  rw [total_replace (isAscii_of_mem_alphabet hx) (isAscii_of_mem_alphabet hy), add_eq_left,
    checksumWeight]
  by_cases heven : (String.ofList front).utf8ByteSize % 2 = 0
  · rw [if_pos heven, hhalf]
    exact (and_iff_right heven).symm
  · rw [if_neg heven, one_mul, sub_eq_zero]
    refine iff_of_false (fun h => hne (residue_inj hx hy h.symm)) fun h => heven h.1

/-- A valid key with another character of the alphabet in one place. -/
theorem validateKey_typo {ε : Type} {key : String} {n : ℕ} (hn : 0 < n)
    (hvalid : (validateKey key n : Checked ε Bool) = .ok true) {front back : List Char}
    {x y : Char} (hkey : key.toList = front ++ x :: back) (hx : x ∈ alphabetChars)
    (hy : y ∈ alphabetChars) (hne : x ≠ y) :
    (validateKey (String.ofList (front ++ y :: back)) n : Checked ε Bool) =
      .ok (decide (Unseen n front x y back)) := by
  obtain ⟨data, rfl⟩ := validateKey_eq_true.1 hvalid
  have inChecksum : ∀ mid, front = data.toList ++ mid →
      (calculateChecksum data n).toList = mid ++ x :: back →
      (validateKey (String.ofList (front ++ y :: back)) n : Checked ε Bool) =
        .ok (decide (Unseen n front x y back)) := by
    rintro mid rfl hsum
    have hlength := length_calculateChecksum data n
    have hback : ∀ c ∈ back, IsAscii c := by
      intro c hc
      have hmem : c ∈ (calculateChecksum data n).toList := by
        rw [hsum]
        exact List.mem_append_right _ (List.mem_cons_of_mem _ hc)
      exact isAscii_of_mem_calculateChecksum hmem
    have hshort : ¬ Unseen n (data.toList ++ mid) x y back := by
      rintro ⟨hle, -⟩
      rw [utf8ByteSize_ascii hback] at hle
      rw [hsum, List.length_append, List.length_cons] at hlength
      omega
    rw [decide_eq_false hshort]
    refine validateKey_other_checksum hsum (fun c hc => ?_) rfl fun h => hne (List.cons.inj h).1
    rcases List.mem_cons.1 hc with rfl | hc
    · exact isAscii_of_mem_alphabet hy
    · exact hback c hc
  rw [String.toList_append, List.append_eq_append_iff] at hkey
  rcases hkey with ⟨mid, hfront, hsum⟩ | ⟨mid, hd, hback⟩
  · exact inChecksum mid hfront hsum
  · obtain rfl : data = String.ofList (front ++ mid) := by rw [← hd, String.ofList_toList]
    rcases mid with _ | ⟨z, mid⟩
    · exact inChecksum [] (by simp) hback.symm
    · simp only [List.cons_append, List.cons.injEq] at hback
      obtain ⟨rfl, rfl⟩ := hback
      have hlong : n ≤ (String.ofList (mid ++
          (calculateChecksum (String.ofList (front ++ x :: mid)) n).toList)).utf8ByteSize := by
        rw [String.ofList_append, String.utf8ByteSize_append, String.ofList_toList,
          utf8ByteSize_calculateChecksum]
        omega
      refine (validateKey_other_data hn front (x :: mid) (y :: mid)).trans ?_
      rw [Except.ok.injEq, decide_eq_decide, total_replace_iff hx hy hne, Unseen]
      exact (and_iff_right hlong).symm

theorem not_underscore_of_mem {c : Char} (h : c ∈ alphabetChars) : c ≠ '_' := by
  rintro rfl
  exact absurd h (by decide +kernel)

/-- An accepted app id with another character of the alphabet in one place of its key. -/
theorem parseAppId_typo {pre key : String} {env : Environment}
    (haccepted : parseAppId (pre ++ key) = .ok ⟨env, key⟩) {front back : List Char} {x y : Char}
    (hkey : key.toList = front ++ x :: back) (hx : x ∈ alphabetChars) (hy : y ∈ alphabetChars)
    (hne : x ≠ y) :
    parseAppId (pre ++ String.ofList (front ++ y :: back)) =
      if Unseen 4 front x y back then .ok ⟨env, String.ofList (front ++ y :: back)⟩
      else fail .invalidChecksum := by
  obtain ⟨segment, hsplit, hsegment, hsize, hvalid⟩ := parseAppId_eq_ok.1 haccepted
  have htypo := validateKey_typo (by omega) hvalid hkey hx hy hne
  obtain ⟨hcat, hpk, hseg, hno⟩ := splitUnderscores_eq.1 hsplit
  obtain rfl : pre = "pk" ++ "_" ++ segment ++ "_" := by
    have hlists := congrArg String.toList hcat
    simp only [String.toList_append] at hlists
    rw [← String.toList_inj]
    simpa only [String.toList_append] using List.append_cancel_right hlists
  have hsize' : (String.ofList (front ++ y :: back)).utf8ByteSize = 32 := by
    rw [← String.ofList_toList (s := key), hkey] at hsize
    simp only [String.ofList_append, String.utf8ByteSize_append, utf8ByteSize_ofList_cons,
      utf8Size_eq_one.2 (isAscii_of_mem_alphabet hx)] at hsize
    simp only [String.ofList_append, String.utf8ByteSize_append, utf8ByteSize_ofList_cons,
      utf8Size_eq_one.2 (isAscii_of_mem_alphabet hy)]
    exact hsize
  have hno' : '_' ∉ (String.ofList (front ++ y :: back)).toList := by
    rw [String.toList_ofList]
    rw [hkey] at hno
    intro hmem
    rcases List.mem_append.1 hmem with hmem | hmem
    · exact hno (List.mem_append_left _ hmem)
    · rcases List.mem_cons.1 hmem with heq | hmem
      · exact not_underscore_of_mem hy heq.symm
      · exact hno (List.mem_append_right _ (List.mem_cons_of_mem _ hmem))
  have hsplit' := splitUnderscores_eq.2 ⟨rfl, hpk, hseg, hno'⟩
  unfold parseAppId
  rw [hsplit']
  simp only [checkKeySegment, ensure, hsize', htypo, hsegment, ok_bind, if_true,
    decide_eq_true_eq]
  split_ifs <;> rfl

/-- **Typos.**  Another character of the alphabet in one place of a valid key is detected, and so
is an app id with it, unless the character is in the data, at an even index, and the two are 16
places of the alphabet apart. -/
theorem typo_caught_iff {ε : Type} {key : String} {n : ℕ} (hn : 0 < n)
    (hvalid : (validateKey key n : Checked ε Bool) = .ok true) (front back : List Char)
    (x y : Char) (hkey : key.toList = front ++ x :: back) (hx : x ∈ alphabetChars)
    (hy : y ∈ alphabetChars) (hne : x ≠ y) :
    ((validateKey (String.ofList (front ++ y :: back)) n : Checked ε Bool) = .ok false ↔
      ¬ Unseen n front x y back) ∧
    ∀ pre env, n = 4 → parseAppId (pre ++ key) = .ok ⟨env, key⟩ →
      ((∃ e, parseAppId (pre ++ String.ofList (front ++ y :: back)) = .error (.err e)) ↔
        ¬ Unseen n front x y back) := by
  constructor
  · rw [validateKey_typo hn hvalid hkey hx hy hne, Except.ok.injEq, decide_eq_false_iff_not]
  · rintro pre env rfl haccepted
    rw [parseAppId_typo haccepted hkey hx hy hne]
    by_cases hunseen : Unseen 4 front x y back
    · rw [if_pos hunseen]
      exact iff_of_false (by rintro ⟨e, h⟩; cases h) (not_not.2 hunseen)
    · rw [if_neg hunseen]
      exact iff_of_true ⟨_, rfl⟩ hunseen

theorem typo_caught_iff_sample :
    ((validateKey "1121" 2 : Checked Unit Bool) = .ok false ↔ ¬ Unseen 2 ['1'] '0' '1' ['2', '1']) ∧
    ((validateKey "H021" 2 : Checked Unit Bool) = .ok false ↔
      ¬ Unseen 2 [] '1' 'H' ['0', '2', '1']) := by
  have hvalid : (validateKey "1021" 2 : Checked Unit Bool) = .ok true := by decide +kernel
  exact ⟨(typo_caught_iff (by decide) hvalid ['1'] ['2', '1'] '0' '1' rfl (by decide) (by decide)
      (by decide)).1,
    (typo_caught_iff (by decide) hvalid [] ['0', '2', '1'] '1' 'H' rfl (by decide) (by decide)
      (by decide)).1⟩

/-- A `T` for the `A` at the beginning goes unnoticed. -/
theorem typo_unseen :
    (validateKey "AHAK85389VQYXYB6S4BW66SKE53TWVTS" 4 : Checked Unit Bool) = .ok true ∧
    ¬ (validateKey "THAK85389VQYXYB6S4BW66SKE53TWVTS" 4 : Checked Unit Bool) = .ok false ∧
    parseAppId "pk_live_AHAK85389VQYXYB6S4BW66SKE53TWVTS" =
      .ok ⟨.live, "AHAK85389VQYXYB6S4BW66SKE53TWVTS"⟩ ∧
    ¬ ∃ e, parseAppId "pk_live_THAK85389VQYXYB6S4BW66SKE53TWVTS" = .error (.err e) := by
  have haccepted : parseAppId "pk_live_THAK85389VQYXYB6S4BW66SKE53TWVTS" =
      .ok ⟨.live, "THAK85389VQYXYB6S4BW66SKE53TWVTS"⟩ := by decide +kernel
  refine ⟨by decide +kernel, by decide +kernel, by decide +kernel, ?_⟩
  rintro ⟨e, h⟩
  rw [haccepted] at h
  cases h

end LatteRs
