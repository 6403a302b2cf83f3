import Mathlib.Algebra.Order.Ring.Nat
import Mathlib.Data.List.Induction

/-!
# Decimal numerals of fixed width

* `fixedDigits`, the last `w` decimal digits of a number, and
  `ofDigitChars_fixedDigits`, `fixedDigits_ofDigitChars`: it and
  `Nat.ofDigitChars` are inverse to each other;
* `ofDigitChars_take`: the front of a numeral is its value truncated.
-/

namespace Decimal

/-- The last `w` decimal digits of `n`, with zeros in front. -/
def fixedDigits : ℕ → ℕ → List Char
  | 0, _ => []
  | w + 1, n => fixedDigits w (n / 10) ++ [(n % 10).digitChar]

@[simp] theorem length_fixedDigits (w n : ℕ) : (fixedDigits w n).length = w := by
  induction w generalizing n with
  | zero => rfl
  | succ w ih => rw [fixedDigits, List.length_append, ih, List.length_singleton]

theorem isDigit_of_mem_fixedDigits {w n : ℕ} {c : Char} (h : c ∈ fixedDigits w n) :
    c.isDigit = true := by
  induction w generalizing n with
  | zero => cases h
  | succ w ih =>
    rw [fixedDigits, List.mem_append, List.mem_singleton] at h
    rcases h with h | rfl
    · exact ih h
    · have hlt : n % 10 < 10 := Nat.mod_lt n (by omega)
      rw [Nat.isDigit_digitChar, decide_eq_true hlt]

theorem ofDigitChars_fixedDigits {w n : ℕ} (h : n < 10 ^ w) :
    Nat.ofDigitChars 10 (fixedDigits w n) 0 = n := by
  induction w generalizing n with
  | zero =>
    have hn : n = 0 := by simpa using h
    rw [hn, fixedDigits, Nat.ofDigitChars_nil]
  | succ w ih =>
    have hn : n / 10 < 10 ^ w := by
      rw [pow_succ] at h
      omega
    rw [fixedDigits, Nat.ofDigitChars_append, ih hn,
      Nat.ofDigitChars_cons_digitChar_of_lt_ten (Nat.mod_lt n (by omega)), Nat.ofDigitChars_nil]
    omega

theorem isDigit_bounds {c : Char} (h : c.isDigit = true) : 48 ≤ c.toNat ∧ c.toNat ≤ 57 := by
  rw [Char.isDigit, Bool.and_eq_true, decide_eq_true_eq, decide_eq_true_eq] at h
  exact ⟨UInt32.le_iff_toNat_le.1 h.1, UInt32.le_iff_toNat_le.1 h.2⟩

theorem digitChar_toNat {c : Char} (h : c.isDigit = true) :
    (c.toNat - 48).digitChar = c := by
  have hbounds := isDigit_bounds h
  apply Char.toNat_inj.1
  rw [Nat.toNat_digitChar_of_lt_ten (by omega)]
  omega

/-- The value of a numeral without its last digit, ten times, and that digit. -/
theorem ofDigitChars_concat (ds : List Char) (c : Char) :
    Nat.ofDigitChars 10 (ds ++ [c]) 0 = 10 * Nat.ofDigitChars 10 ds 0 + (c.toNat - 48) := by
  rw [Nat.ofDigitChars_append, Nat.ofDigitChars_cons, Nat.ofDigitChars_nil]
  rfl

theorem ofDigitChars_lt {ds : List Char} (h : ∀ c ∈ ds, c.isDigit = true) :
    Nat.ofDigitChars 10 ds 0 < 10 ^ ds.length := by
  induction ds using List.reverseRecOn with
  | nil => rw [Nat.ofDigitChars_nil]; exact Nat.one_pos
  | append_singleton ds c ih =>
    have hds := ih fun d hd => h d (List.mem_append_left _ hd)
    have hc := isDigit_bounds (h c (by simp))
    rw [ofDigitChars_concat, List.length_append, List.length_singleton, pow_succ]
    omega

theorem fixedDigits_ofDigitChars {ds : List Char} (h : ∀ c ∈ ds, c.isDigit = true) :
    fixedDigits ds.length (Nat.ofDigitChars 10 ds 0) = ds := by
  induction ds using List.reverseRecOn with
  | nil => rfl
  | append_singleton ds c ih =>
    have hc := isDigit_bounds (h c (by simp))
    have hmod : (10 * Nat.ofDigitChars 10 ds 0 + (c.toNat - 48)) % 10 = c.toNat - 48 := by omega
    have hdiv : (10 * Nat.ofDigitChars 10 ds 0 + (c.toNat - 48)) / 10 =
        Nat.ofDigitChars 10 ds 0 := by omega
    rw [List.length_append, List.length_singleton, fixedDigits, ofDigitChars_concat, hmod, hdiv,
      ih fun d hd => h d (List.mem_append_left _ hd), digitChar_toNat (h c (by simp))]

/-- A list of digits is the numeral of its value. -/
theorem exists_fixedDigits {ds : List Char} {w : ℕ} (hw : ds.length = w)
    (h : ∀ c ∈ ds, c.isDigit = true) :
    ∃ n < 10 ^ w, ds = fixedDigits w n ∧ Nat.ofDigitChars 10 ds 0 = n := by
  subst hw
  exact ⟨_, ofDigitChars_lt h, (fixedDigits_ofDigitChars h).symm, rfl⟩

/-- The first `k` digits of a numeral are its value without the digits after them. -/
theorem ofDigitChars_take {ds : List Char} (h : ∀ c ∈ ds, c.isDigit = true) (k : ℕ) :
    Nat.ofDigitChars 10 (ds.take k) 0 =
      Nat.ofDigitChars 10 ds 0 / 10 ^ (ds.length - k) := by
  have hdrop : Nat.ofDigitChars 10 (ds.drop k) 0 < 10 ^ (ds.length - k) := by
    rw [← List.length_drop]
    exact ofDigitChars_lt fun c hc => h c (List.mem_of_mem_drop hc)
  have hsplit : Nat.ofDigitChars 10 ds 0 =
      10 ^ (ds.length - k) * Nat.ofDigitChars 10 (ds.take k) 0 +
        Nat.ofDigitChars 10 (ds.drop k) 0 := by
    conv_lhs => rw [← List.take_append_drop k ds]
    rw [Nat.ofDigitChars_append, Nat.ofDigitChars_eq_ofDigitChars_zero, List.length_drop]
  rw [hsplit, Nat.mul_add_div (Nat.pow_pos (by omega)), Nat.div_eq_of_lt hdrop, add_zero]

end Decimal
