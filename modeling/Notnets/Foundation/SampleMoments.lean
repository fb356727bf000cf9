import Mathlib.Algebra.BigOperators.Group.List.Basic
import Mathlib.Algebra.BigOperators.Ring.List
import Mathlib.Algebra.CharZero.Defs
import Mathlib.Tactic.FieldSimp
import Mathlib.Tactic.Ring

/-!
# Mean and squared deviation of a sample

Both can be kept up to date value by value.  The squared deviation grows by the
product of the distances of the new value from the old mean and from the new one.
-/

namespace Notnets
namespace Foundation

section Moments

variable {K : Type} [Field K]

def mean (xs : List K) : K :=
  xs.sum / xs.length

def squaredDeviation (xs : List K) : K :=
  (xs.map fun x => (x - mean xs) ^ 2).sum

theorem sum_sq_sub (xs : List K) (m : K) :
    (xs.map fun x => (x - m) ^ 2).sum =
      (xs.map fun x => x ^ 2).sum - 2 * m * xs.sum + xs.length * m ^ 2 := by
  induction xs with
  | nil => simp
  | cons x rest ih =>
      rw [List.map_cons, List.sum_cons, ih, List.map_cons, List.sum_cons, List.sum_cons,
        List.length_cons]
      push_cast
      ring

theorem mean_singleton (x : K) : mean [x] = x := by
  simp [mean]

theorem squaredDeviation_singleton (x : K) : squaredDeviation [x] = 0 := by
  simp [squaredDeviation, mean]

variable [CharZero K]

theorem mean_snoc (xs : List K) (x : K) :
    mean (xs ++ [x]) = mean xs + (x - mean xs) / (xs.length + 1) := by
  have hnext : (xs.length : K) + 1 ≠ 0 := Nat.cast_add_one_ne_zero xs.length
  unfold mean
  rw [List.sum_append, List.sum_singleton, List.length_append, List.length_singleton]
  push_cast
  by_cases hxs : xs = []
  · subst hxs
    simp
  · have hcount : (xs.length : K) ≠ 0 := by
      exact_mod_cast (List.length_pos_iff.mpr hxs).ne'
    field_simp
    ring

theorem squaredDeviation_snoc (xs : List K) (x : K) :
    squaredDeviation (xs ++ [x]) =
      squaredDeviation xs + (x - mean xs) * (x - mean (xs ++ [x])) := by
  have hnext : (xs.length : K) + 1 ≠ 0 := Nat.cast_add_one_ne_zero xs.length
  unfold squaredDeviation
  rw [sum_sq_sub, sum_sq_sub, mean_snoc, List.map_append, List.sum_append, List.sum_append,
    List.length_append]
  simp only [List.map_cons, List.map_nil, List.sum_singleton, List.length_singleton]
  push_cast
  by_cases hxs : xs = []
  · subst hxs
    simp [mean]
    ring
  · have hcount : (xs.length : K) ≠ 0 := by
      exact_mod_cast (List.length_pos_iff.mpr hxs).ne'
    have hsum : xs.sum = xs.length * mean xs := by
      unfold mean
      field_simp
    rw [hsum]
    field_simp
    ring

end Moments

end Foundation
end Notnets
