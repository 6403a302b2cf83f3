import Mathlib.Data.Nat.Log
import Mathlib.Algebra.Order.Ring.Int
import Mathlib.Algebra.Order.Field.Power
import Mathlib.Algebra.Field.Rat
import Mathlib.Algebra.Order.Field.Rat
import Mathlib.Tactic.Positivity
import Mathlib.Tactic.Linarith
import Mathlib.Tactic.FieldSimp
import Mathlib.Tactic.NormNum

/-!
# Finite binary64 values

A finite IEEE 754 binary64 value is `± mant * 2 ^ exp` with a 53-bit
significand.  The module has what a program needs that receives such values
from a JSON parser and turns them into machine integers:

* `Finite`, the finite values (the zero sign is kept, the coding of one value
  is not unique);
* `ofNat64`, the conversion of an unsigned 64-bit integer, rounding to nearest
  with ties to even;
* `trunc`, the integer part, and `toI64`, the conversion to a signed 64-bit
  integer that truncates and then saturates;
* `ofInt64`, the conversion of a signed integer;
* `value`, the number that a finite value stands for: `value_eq_intCast` says
  when it is a given integer, and `trunc_ofNat64` and `le_trunc_ofNat64` what
  the conversion does to small and to large integers.
-/

namespace Binary64

/-- A finite binary64 value: `mant * 2 ^ exp`, negated when `neg`. -/
structure Finite where
  neg : Bool
  mant : ℕ
  exp : ℤ
  mant_lt : mant < 2 ^ 53
  le_exp : -1074 ≤ exp
  exp_le : exp ≤ 971
  deriving DecidableEq

namespace Finite

/-- The magnitude of the integer part. -/
def magnitude (f : Finite) : ℕ :=
  if 0 ≤ f.exp then f.mant * 2 ^ f.exp.toNat else f.mant / 2 ^ (-f.exp).toNat

/-- The value without its fraction: truncation toward zero. -/
def trunc (f : Finite) : ℤ := if f.neg then -f.magnitude else f.magnitude

/-- Whether the value is an integer. -/
def isInteger (f : Finite) : Bool := decide (0 ≤ f.exp ∨ f.mant % 2 ^ (-f.exp).toNat = 0)

/-- The value with the sign flipped. -/
def negate (f : Finite) : Finite := { f with neg := !f.neg }

end Finite

/-! ### Conversion to a signed 64-bit integer -/

/-- The least signed 64-bit integer. -/
def i64Min : ℤ := -2 ^ 63

/-- The greatest signed 64-bit integer. -/
def i64Max : ℤ := 2 ^ 63 - 1

/-- Truncate, then saturate at the ends of the signed 64-bit range. -/
def Finite.toI64 (f : Finite) : ℤ := max i64Min (min i64Max f.trunc)

theorem Finite.i64Min_le_toI64 (f : Finite) : i64Min ≤ f.toI64 := le_max_left _ _

theorem Finite.toI64_le_i64Max (f : Finite) : f.toI64 ≤ i64Max :=
  max_le (by decide) (min_le_left _ _)

/-! ### Conversion from an unsigned 64-bit integer -/

/-- The number of low bits of `n` that do not fit a 53-bit significand. -/
def excess (n : ℕ) : ℕ := n.log2 - 52

/-- The significand of `n` rounded to nearest, ties to even, before renormalization. -/
def rounded (n : ℕ) : ℕ :=
  let q := n / 2 ^ excess n
  let r := n % 2 ^ excess n
  if 2 ^ excess n < 2 * r ∨ (2 * r = 2 ^ excess n ∧ q % 2 = 1) then q + 1 else q

theorem excess_le {n : ℕ} (h : n < 2 ^ 64) : excess n ≤ 11 := by
  unfold excess
  rcases Nat.eq_zero_or_pos n with rfl | hpos
  · decide
  · have : n.log2 < 64 := (Nat.log2_lt (by omega)).2 h
    omega

/-- An unsigned 64-bit integer as a binary64 value, rounded to nearest with ties to even.
Rounding up may carry into the next power of two. -/
def ofNat64 (n : ℕ) (h : n < 2 ^ 64) : Finite :=
  if hc : rounded n < 2 ^ 53 then
    { neg := false, mant := rounded n, exp := excess n, mant_lt := hc
      le_exp := by omega
      exp_le := by have := excess_le h; omega }
  else
    { neg := false, mant := 2 ^ 52, exp := excess n + 1, mant_lt := by norm_num
      le_exp := by omega
      exp_le := by have := excess_le h; omega }

/-- A signed integer as a binary64 value. -/
def ofInt64 (z : ℤ) (h : z.natAbs < 2 ^ 64) : Finite :=
  if z < 0 then (ofNat64 z.natAbs h).negate else ofNat64 z.natAbs h

/-! ### The exact value -/

namespace Finite

/-- The number that a finite value stands for. -/
def value (f : Finite) : ℚ := (if f.neg then -1 else 1) * f.mant * 2 ^ f.exp

/-- A significand over a power of two is a natural number exactly when the division leaves no
remainder. -/
theorem mant_div_eq {m k : ℕ} {z : ℤ} :
    (m : ℚ) / 2 ^ k = z ↔ m % 2 ^ k = 0 ∧ ((m / 2 ^ k : ℕ) : ℤ) = z := by
  have hpos : (0 : ℚ) < 2 ^ k := by positivity
  have hcast : (m : ℚ) / 2 ^ k = z ↔ (m : ℤ) = z * 2 ^ k := by
    rw [div_eq_iff hpos.ne']
    exact_mod_cast Iff.rfl
  have hmod : ((2 ^ k : ℕ) : ℤ) * ((m / 2 ^ k : ℕ) : ℤ) + ((m % 2 ^ k : ℕ) : ℤ) = m := by
    exact_mod_cast Nat.div_add_mod m (2 ^ k)
  push_cast at hmod
  rw [hcast]
  constructor
  · intro h
    have hdvd : (2 ^ k : ℕ) ∣ m := by
      rw [← Int.natCast_dvd_natCast, h]
      push_cast
      exact Dvd.intro_left z rfl
    have hzero : (m : ℤ) % 2 ^ k = 0 := by exact_mod_cast Nat.mod_eq_zero_of_dvd hdvd
    refine ⟨Nat.mod_eq_zero_of_dvd hdvd, ?_⟩
    rw [hzero, add_zero, h, mul_comm] at hmod
    push_cast
    rw [h]
    exact mul_right_cancel₀ (show (2 : ℤ) ^ k ≠ 0 by positivity) hmod
  · rintro ⟨hzero, rfl⟩
    have hzero' : (m : ℤ) % 2 ^ k = 0 := by exact_mod_cast hzero
    rw [hzero', add_zero, mul_comm] at hmod
    push_cast
    exact hmod.symm

/-- The magnitude of a finite value is a given integer exactly when it has no fraction and the
integer is its integer part. -/
theorem mant_mul_eq (f : Finite) {z : ℤ} :
    (f.mant : ℚ) * 2 ^ f.exp = z ↔ f.isInteger = true ∧ (f.magnitude : ℤ) = z := by
  unfold isInteger magnitude
  by_cases h : 0 ≤ f.exp
  · obtain ⟨k, hk⟩ := Int.eq_ofNat_of_zero_le h
    rw [hk]
    simp only [Int.natCast_nonneg, true_or, decide_true, true_and, if_true, Int.toNat_natCast,
      zpow_natCast]
    exact_mod_cast Iff.rfl
  · obtain ⟨k, hk⟩ := Int.eq_ofNat_of_zero_le (show 0 ≤ -f.exp by omega)
    have hexp : f.exp = -(k : ℤ) := by omega
    rw [if_neg h, hk, hexp]
    simp only [zpow_neg, zpow_natCast, Int.toNat_natCast, ← div_eq_mul_inv, mant_div_eq,
      decide_eq_true_eq]
    refine and_congr_left fun _ => ⟨Or.inr, fun hor => hor.resolve_left ?_⟩
    omega

/-- **When a finite value is a given integer.** -/
theorem value_eq_intCast (f : Finite) {z : ℤ} :
    f.value = z ↔ f.isInteger = true ∧ f.trunc = z := by
  unfold value trunc
  cases f.neg with
  | false => simpa using f.mant_mul_eq
  | true =>
    have hneg : (-1 : ℚ) * f.mant * 2 ^ f.exp = z ↔ (f.mant : ℚ) * 2 ^ f.exp = ((-z : ℤ) : ℚ) := by
      push_cast
      rw [neg_one_mul, neg_mul, neg_eq_iff_eq_neg]
    rw [if_pos rfl, if_pos rfl, hneg, f.mant_mul_eq]
    exact and_congr_right fun _ => by omega

@[simp] theorem trunc_negate (f : Finite) : f.negate.trunc = -f.trunc := by
  unfold trunc negate magnitude
  cases f.neg <;> simp

/-- A value that truncates into the signed 64-bit range converts to its integer part. -/
theorem toI64_of_trunc {f : Finite} (h : i64Min ≤ f.trunc ∧ f.trunc ≤ i64Max) :
    f.toI64 = f.trunc := by
  unfold toI64
  rw [min_eq_right h.2, max_eq_right h.1]

end Finite

/-! ### What the conversion keeps -/

theorem rounded_of_excess {n : ℕ} (h : excess n = 0) : rounded n = n := by
  unfold rounded
  simp [h, Nat.mod_one]

theorem excess_of_lt {n : ℕ} (h : n < 2 ^ 53) : excess n = 0 := by
  unfold excess
  rcases Nat.eq_zero_or_pos n with rfl | hpos
  · decide
  · have : n.log2 < 53 := (Nat.log2_lt (by omega)).2 h
    omega

/-- An integer of at most 53 bits, or `2 ^ 53` itself, is converted exactly. -/
theorem trunc_ofNat64 {n : ℕ} (h : n < 2 ^ 64) (hn : n ≤ 2 ^ 53) :
    (ofNat64 n h).trunc = n := by
  rcases Nat.lt_or_ge n (2 ^ 53) with hlt | hge
  · have he := excess_of_lt hlt
    have hr := rounded_of_excess he
    unfold ofNat64
    rw [dif_pos (by rw [hr]; exact hlt)]
    simp [Finite.trunc, Finite.magnitude, he, hr]
  · have heq := Nat.le_antisymm hn hge
    have hexc : excess n = 1 := by rw [heq]; decide +kernel
    have hround : rounded n = 2 ^ 52 := by rw [heq]; decide +kernel
    unfold ofNat64
    rw [dif_pos (by rw [hround]; norm_num)]
    simp only [Finite.trunc, Finite.magnitude, hexc, hround]
    rw [heq]
    norm_num

/-- An integer from `2 ^ 63` on is converted to a value that is not below `2 ^ 63`. -/
theorem le_trunc_ofNat64 {n : ℕ} (h : n < 2 ^ 64) (hn : 2 ^ 63 ≤ n) :
    2 ^ 63 ≤ (ofNat64 n h).trunc := by
  have hlog : n.log2 = 63 := (Nat.log2_eq_iff (by omega)).2 ⟨hn, h⟩
  have hexc : excess n = 11 := by
    unfold excess
    rw [hlog]
  have hq : 2 ^ 52 ≤ rounded n := by
    unfold rounded
    simp only [hexc]
    split_ifs <;> omega
  unfold ofNat64
  split_ifs with hc
  · simp [Finite.trunc, Finite.magnitude, hexc]
    omega
  · simp [Finite.trunc, Finite.magnitude, hexc]

end Binary64
