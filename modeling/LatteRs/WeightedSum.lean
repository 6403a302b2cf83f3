import Mathlib.Algebra.Ring.Defs
import Mathlib.Tactic.Ring

/-!
# Weighted sums of digits

The sums of check-digit schemes: digit number `i` counts `w i` times, in any
commutative ring.

* `weightedSum_append`;
* `weightedSum_swap`, `weightedSum_replace`: what the exchange of two
  neighbours, or another digit in one place, adds to the sum.
-/

namespace WeightedSum

variable {R : Type} [CommRing R] (w : ℕ → R)

/-- The sum over digits of which the first is number `i`. -/
def weightedSum : ℕ → List R → R
  | _, [] => 0
  | i, x :: xs => w i * x + weightedSum (i + 1) xs

theorem weightedSum_append (i : ℕ) (xs ys : List R) :
    weightedSum w i (xs ++ ys) = weightedSum w i xs + weightedSum w (i + xs.length) ys := by
  induction xs generalizing i with
  | nil => simp [weightedSum]
  | cons x xs ih =>
    have hindex : i + 1 + xs.length = i + (x :: xs).length := by
      rw [List.length_cons]
      omega
    rw [List.cons_append, weightedSum, weightedSum, ih, hindex, add_assoc]

theorem weightedSum_swap (i : ℕ) (xs ys : List R) (x y : R) :
    weightedSum w i (xs ++ y :: x :: ys) = weightedSum w i (xs ++ x :: y :: ys) +
      (w (i + xs.length) - w (i + xs.length + 1)) * (y - x) := by
  simp only [weightedSum_append, weightedSum]
  ring

theorem weightedSum_replace (i : ℕ) (xs ys : List R) (x y : R) :
    weightedSum w i (xs ++ y :: ys) = weightedSum w i (xs ++ x :: ys) +
      w (i + xs.length) * (y - x) := by
  simp only [weightedSum_append, weightedSum]
  ring

end WeightedSum
