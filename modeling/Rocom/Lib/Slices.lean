import Mathlib.Data.List.Basic

/-! A list cut into slices of one size, the last one shorter and possibly empty. The first
`k` slices together are a prefix of the list. -/
namespace Slices

variable {α : Type*}

/-- Slices are counted from 0. -/
def slice (size : Nat) (xs : List α) (i : Nat) : List α := (xs.drop (size * i)).take size

def upTo (size : Nat) (xs : List α) (k : Nat) : List α := (List.range k).flatMap (slice size xs)

/-- The slices that are sent: the last one is shorter than the others. -/
def count (size : Nat) (xs : List α) : Nat := xs.length / size + 1

theorem take_succ (size : Nat) (xs : List α) (k : Nat) :
    xs.take (size * (k + 1)) = xs.take (size * k) ++ slice size xs k := by
  rw [slice, Nat.mul_succ, List.take_add]

theorem upTo_eq_take (size : Nat) (xs : List α) (k : Nat) :
    upTo size xs k = xs.take (size * k) := by
  induction k with
  | zero => simp [upTo]
  | succ k ih =>
    rw [take_succ, ← ih, upTo, List.range_succ, List.flatMap_append]
    simp [upTo]

theorem upTo_prefix (size : Nat) (xs : List α) {j k : Nat} (h : j ≤ k) :
    upTo size xs j <+: upTo size xs k := by
  rw [upTo_eq_take, upTo_eq_take]
  exact List.take_prefix_take_left (Nat.mul_le_mul_left size h)

theorem length_slice (size : Nat) (xs : List α) (i : Nat) :
    (slice size xs i).length = min size (xs.length - size * i) := by
  rw [slice, List.length_take, List.length_drop]

/-- After a short slice there is nothing left. -/
theorem upTo_of_short (size : Nat) (xs : List α) (i : Nat)
    (short : (slice size xs i).length < size) : upTo size xs (i + 1) = xs := by
  rw [length_slice] at short
  rw [upTo_eq_take, List.take_of_length_le]
  rw [Nat.mul_succ]
  omega

theorem lt_count_of_le {size : Nat} (positive : 0 < size) (xs : List α) (i : Nat)
    (h : size * i ≤ xs.length) : i < count size xs := by
  have within : i ≤ xs.length / size :=
    (Nat.le_div_iff_mul_le positive).mpr (by rw [Nat.mul_comm]; exact h)
  exact Nat.lt_succ_of_le within

end Slices
