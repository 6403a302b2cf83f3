import LatteRs.Decimal
import LatteRs.Key

/-!
# ASCII characters in UTF-8

A character below 128 is one byte, equal to it, and every other character
begins with a byte from 128 on.  So where a byte is an ASCII character, a
character starts and ends there.

* `asBytes_head?`, `all_asBytes`, `takeWhile_asBytes`: what the bytes tell of
  the characters;
* `splitChars_ascii`: a split behind ASCII characters;
* `getRange`, `getRange_eq_some`.
-/

namespace LatteRs

/-! ### The bytes of a string -/

theorem asBytes_append (s t : String) : asBytes (s ++ t) = asBytes s ++ asBytes t := by
  simp [asBytes, String.toUTF8_eq_toByteArray]

theorem asBytes_ofList_cons (c : Char) (cs : List Char) :
    asBytes (String.ofList (c :: cs)) = String.utf8EncodeChar c ++ asBytes (String.ofList cs) := by
  have hone : asBytes (String.singleton c) = String.utf8EncodeChar c := by
    simp [asBytes, String.toUTF8_eq_toByteArray, List.utf8Encode_singleton,
      List.data_toByteArray]
  rw [String.ofList_cons, asBytes_append, hone]

theorem length_asBytes (s : String) : (asBytes s).length = s.utf8ByteSize := by
  simp [asBytes, String.toUTF8_eq_toByteArray]

/-- The character is encoded in one byte. -/
def IsAscii (c : Char) : Prop := c.toNat < 128

instance (c : Char) : Decidable (IsAscii c) := inferInstanceAs (Decidable (_ < _))

theorem utf8Size_eq_one {c : Char} : c.utf8Size = 1 ↔ IsAscii c := by
  rw [Char.utf8Size_eq_one_iff, UInt32.le_iff_toNat_le]
  exact Nat.lt_succ_iff.symm

theorem utf8EncodeChar_ascii {c : Char} (h : IsAscii c) :
    String.utf8EncodeChar c = [c.toUInt8] :=
  String.utf8EncodeChar_eq_singleton (utf8Size_eq_one.2 h)

theorem le_or (b m : UInt8) : m.toNat ≤ (b ||| m).toNat := by
  rw [UInt8.toNat_or]
  exact Nat.right_le_or

/-- The first byte of a longer encoding has its highest bit set. -/
theorem utf8EncodeChar_not_ascii {c : Char} (h : ¬ IsAscii c) :
    ∃ b bs, String.utf8EncodeChar c = b :: bs ∧ 128 ≤ b.toNat := by
  have hne : c.utf8Size ≠ 1 := fun h1 => h (utf8Size_eq_one.1 h1)
  have hpos := c.utf8Size_pos
  have hle := c.utf8Size_le_four
  have hcases : c.utf8Size = 2 ∨ c.utf8Size = 3 ∨ c.utf8Size = 4 := by omega
  rcases hcases with h2 | h3 | h4
  · exact ⟨_, _, String.utf8EncodeChar_eq_cons_cons h2, le_trans (by decide) (le_or _ _)⟩
  · exact ⟨_, _, String.utf8EncodeChar_eq_cons_cons_cons h3, le_trans (by decide) (le_or _ _)⟩
  · exact ⟨_, _, String.utf8EncodeChar_eq_cons_cons_cons_cons h4,
      le_trans (by decide) (le_or _ _)⟩

theorem toNat_toUInt8 {c : Char} (h : IsAscii c) : c.toUInt8.toNat = c.toNat := by
  unfold IsAscii at h
  rw [Char.toUInt8, UInt32.toNat_toUInt8]
  exact Nat.mod_eq_of_lt (Nat.lt_trans h (by omega))

theorem toUInt8_inj {c d : Char} (hc : IsAscii c) (hd : IsAscii d) :
    c.toUInt8 = d.toUInt8 ↔ c = d := by
  rw [← UInt8.toNat_inj, toNat_toUInt8 hc, toNat_toUInt8 hd, Char.toNat_inj]

/-- The first byte tells an ASCII character. -/
theorem asBytes_head? {c : Char} (hc : IsAscii c) (cs : List Char) :
    (asBytes (String.ofList cs)).head? = some c.toUInt8 ↔ ∃ rest, cs = c :: rest := by
  cases cs with
  | nil => simp [asBytes]
  | cons d rest =>
    by_cases hd : IsAscii d
    · rw [asBytes_ofList_cons, utf8EncodeChar_ascii hd, List.singleton_append, List.head?_cons,
        Option.some.injEq, toUInt8_inj hd hc]
      simp
    · obtain ⟨b, bs, heq, hb⟩ := utf8EncodeChar_not_ascii hd
      rw [asBytes_ofList_cons, heq, List.cons_append, List.head?_cons, Option.some.injEq]
      constructor
      · rintro rfl
        rw [toNat_toUInt8 hc] at hb
        exact absurd hc (Nat.not_lt.2 hb)
      · rintro ⟨rest', heq'⟩
        cases heq'
        exact absurd hc hd

theorem utf8ByteSize_ascii {cs : List Char} (h : ∀ c ∈ cs, IsAscii c) :
    (String.ofList cs).utf8ByteSize = cs.length := by
  induction cs with
  | nil => rfl
  | cons c cs ih =>
    rw [utf8ByteSize_ofList_cons, utf8Size_eq_one.2 (h c List.mem_cons_self),
      ih fun d hd => h d (List.mem_cons_of_mem _ hd), List.length_cons, add_comm]

theorem length_le_utf8ByteSize (cs : List Char) :
    cs.length ≤ (String.ofList cs).utf8ByteSize := by
  induction cs with
  | nil => exact Nat.zero_le _
  | cons c cs ih =>
    have hpos := c.utf8Size_pos
    rw [utf8ByteSize_ofList_cons, List.length_cons]
    omega

/-! ### Digits -/

/-- `u8::is_ascii_digit`. -/
def isAsciiDigit (b : UInt8) : Bool := 48 ≤ b ∧ b ≤ 57

theorem isAscii_of_isDigit {c : Char} (h : c.isDigit = true) : IsAscii c :=
  Nat.lt_of_le_of_lt (Decimal.isDigit_bounds h).2 (by omega)

theorem isAsciiDigit_toUInt8 {c : Char} (hc : IsAscii c) :
    isAsciiDigit c.toUInt8 = c.isDigit := by
  have hle : (48 ≤ c.toUInt8 ∧ c.toUInt8 ≤ 57) ↔ 48 ≤ c.toNat ∧ c.toNat ≤ 57 := by
    rw [UInt8.le_iff_toNat_le, UInt8.le_iff_toNat_le, toNat_toUInt8 hc]
    exact Iff.rfl
  have hchar : c.isDigit = true ↔ 48 ≤ c.toNat ∧ c.toNat ≤ 57 := by
    rw [Char.isDigit, Bool.and_eq_true, decide_eq_true_eq, decide_eq_true_eq, ge_iff_le,
      UInt32.le_iff_toNat_le, UInt32.le_iff_toNat_le]
    exact Iff.rfl
  rw [isAsciiDigit, Bool.eq_iff_iff, decide_eq_true_eq, hle, hchar]

/-- The first byte of a string is a digit when its first character is, which is then that
byte. -/
theorem asBytes_cons_digit (c : Char) (cs : List Char) :
    ∃ b bs, asBytes (String.ofList (c :: cs)) = b :: bs ∧ isAsciiDigit b = c.isDigit ∧
      (c.isDigit = true → bs = asBytes (String.ofList cs)) := by
  rw [asBytes_ofList_cons]
  by_cases hc : IsAscii c
  · rw [utf8EncodeChar_ascii hc]
    exact ⟨_, _, rfl, isAsciiDigit_toUInt8 hc, fun _ => rfl⟩
  · obtain ⟨b, bs, heq, hb⟩ := utf8EncodeChar_not_ascii hc
    have hdigit : c.isDigit = false := by
      rw [Bool.eq_false_iff]
      exact fun h => hc (isAscii_of_isDigit h)
    refine ⟨b, _, by rw [heq]; rfl, ?_, fun h => absurd h (by rw [hdigit]; decide)⟩
    rw [hdigit, isAsciiDigit, decide_eq_false_iff_not]
    rintro ⟨-, hle⟩
    have hle' : b.toNat ≤ 57 := UInt8.le_iff_toNat_le.1 hle
    omega

theorem takeWhile_asBytes (cs : List Char) :
    ((asBytes (String.ofList cs)).takeWhile isAsciiDigit).length =
      (cs.takeWhile Char.isDigit).length := by
  induction cs with
  | nil => rfl
  | cons c cs ih =>
    obtain ⟨b, bs, heq, hb, hrest⟩ := asBytes_cons_digit c cs
    rw [heq, List.takeWhile_cons, List.takeWhile_cons, hb]
    by_cases hc : c.isDigit = true
    · rw [if_pos hc, if_pos hc, hrest hc, List.length_cons, List.length_cons, ih]
    · rw [if_neg hc, if_neg hc]
      rfl

theorem all_asBytes (cs : List Char) :
    (asBytes (String.ofList cs)).all isAsciiDigit = cs.all Char.isDigit := by
  induction cs with
  | nil => rfl
  | cons c cs ih =>
    obtain ⟨b, bs, heq, hb, hrest⟩ := asBytes_cons_digit c cs
    rw [heq, List.all_cons, List.all_cons, hb]
    by_cases hc : c.isDigit = true
    · rw [hrest hc, ih]
    · rw [Bool.not_eq_true] at hc
      rw [hc, Bool.false_and, Bool.false_and]

/-! ### Positions behind ASCII characters -/

theorem splitChars_ascii {front : List Char} (hfront : ∀ c ∈ front, IsAscii c)
    (cs : List Char) : splitChars (front ++ cs) front.length = some (front, cs) :=
  splitChars_eq_some.2 ⟨rfl, utf8ByteSize_ascii hfront⟩

theorem asBytes_getElem? {front : List Char} (hfront : ∀ c ∈ front, IsAscii c)
    (cs : List Char) :
    (asBytes (String.ofList (front ++ cs)))[front.length]? =
      (asBytes (String.ofList cs)).head? := by
  have hlength : (asBytes (String.ofList front)).length = front.length := by
    rw [length_asBytes, utf8ByteSize_ascii hfront]
  rw [String.ofList_append, asBytes_append, ← hlength,
    List.getElem?_append_right le_rfl, Nat.sub_self, List.head?_eq_getElem?]

/-- `str::get` of the bytes from `lo` to `hi`. -/
def getRange (s : String) (lo hi : ℕ) : Option String :=
  (splitChars s.toList lo).bind fun p =>
    (splitChars p.2 (hi - lo)).map fun q => String.ofList q.1

/-- What a range behind ASCII characters holds. -/
theorem getRange_eq_some {front : List Char} (hfront : ∀ c ∈ front, IsAscii c)
    {cs : List Char} {n : ℕ} {d : String} :
    getRange (String.ofList (front ++ cs)) front.length (front.length + n) = some d ↔
      ∃ rest, cs = d.toList ++ rest ∧ d.utf8ByteSize = n := by
  unfold getRange
  rw [String.toList_ofList, splitChars_ascii hfront, Option.bind_some, Option.map_eq_some_iff,
    Nat.add_sub_cancel_left]
  constructor
  · rintro ⟨⟨d', rest⟩, hsplit, rfl⟩
    obtain ⟨rfl, hsize⟩ := splitChars_eq_some.1 hsplit
    exact ⟨rest, by rw [String.toList_ofList], hsize⟩
  · rintro ⟨rest, rfl, hsize⟩
    exact ⟨(d.toList, rest), splitChars_eq_some.2 ⟨rfl, by rw [String.ofList_toList, hsize]⟩,
      String.ofList_toList⟩

end LatteRs
