import Mathlib.Data.BitVec
import Mathlib.SetTheory.Cardinal.Finite

/-! Words that are mixed by steps which lose nothing: multiplication by an invertible constant,
rotation, and the exclusive or with a shifted copy. -/
namespace Mixing

variable {w : ℕ}

theorem mul_injective {c d : BitVec w} (inverse : c * d = 1#w) :
    Function.Injective fun x : BitVec w => x * c := by
  intro x y same
  have undone : ∀ z : BitVec w, z * c * d = z := by
    intro z
    rw [BitVec.mul_assoc, inverse, BitVec.mul_one]
  have same : x * c = y * c := same
  rw [← undone x, same, undone y]

/-- A word that equals its own shifted copy is zero. -/
theorem eq_zero_of_shift {r : ℕ} (positive : 0 < r) {z : BitVec w} (same : z = z >>> r) :
    z = 0#w := by
  have shrinks : z.toNat = z.toNat / 2 ^ r := by
    conv_lhs => rw [same]
    rw [BitVec.toNat_ushiftRight, Nat.shiftRight_eq_div_pow]
  apply BitVec.eq_of_toNat_eq
  by_contra nonzero
  have nonzero : 0 < z.toNat := Nat.pos_of_ne_zero nonzero
  have smaller := Nat.div_lt_self nonzero (Nat.one_lt_two_pow (Nat.pos_iff_ne_zero.mp positive))
  omega

theorem xorShift_injective {r : ℕ} (positive : 0 < r) :
    Function.Injective fun x : BitVec w => x ^^^ x >>> r := by
  intro x y same
  have same : x ^^^ x >>> r = y ^^^ y >>> r := same
  apply BitVec.xor_eq_zero_iff.mp
  apply eq_zero_of_shift positive
  rw [BitVec.ushiftRight_xor_distrib, ← BitVec.xor_eq_zero_iff]
  calc (x ^^^ y) ^^^ (x >>> r ^^^ y >>> r)
      = (x ^^^ x >>> r) ^^^ (y ^^^ y >>> r) := by ac_rfl
    _ = 0#w := by rw [same, BitVec.xor_self]

/-- Bit `i` goes to bit `i + r`, and around at the end. -/
theorem getLsbD_rotated (x : BitVec w) {r i : ℕ} (inside : r < w) (here : i < w) :
    (x.rotateLeft r).getLsbD ((i + r) % w) = x.getLsbD i := by
  rw [BitVec.getLsbD_rotateLeft_of_le inside]
  by_cases around : i + r < w
  · rw [Nat.mod_eq_of_lt around]
    simp [around]
  · have wrapped : (i + r) % w = i + r - w := by
      rw [Nat.mod_eq_sub_mod (by omega), Nat.mod_eq_of_lt (by omega)]
    rw [wrapped]
    have low : i + r - w < r := by omega
    have back : w - r + (i + r - w) = i := by omega
    simp [low, back]

theorem rotateLeft_injective {r : ℕ} (inside : r < w) :
    Function.Injective fun x : BitVec w => x.rotateLeft r := by
  intro x y same
  have same : x.rotateLeft r = y.rotateLeft r := same
  apply BitVec.eq_of_getLsbD_eq
  intro i here
  rw [← getLsbD_rotated x inside here, same, getLsbD_rotated y inside here]

theorem affine_injective {c d : BitVec w} (inverse : c * d = 1#w) (a : BitVec w) :
    Function.Injective fun x : BitVec w => x * c + a := by
  intro x y same
  exact mul_injective inverse ((BitVec.add_left_inj a).mp same)

theorem append_inj {m k : ℕ} {a b : BitVec m} {c d : BitVec k} (same : a ++ c = b ++ d) :
    a = b ∧ c = d := by
  constructor
  · have high := congrArg (BitVec.extractLsb' k m) same
    rwa [BitVec.extractLsb'_append_eq_left, BitVec.extractLsb'_append_eq_left] at high
  · have low := congrArg (BitVec.extractLsb' 0 k) same
    rwa [BitVec.extractLsb'_append_eq_right, BitVec.extractLsb'_append_eq_right] at low

instance instFiniteBitVec : Finite (BitVec w) :=
  .of_equiv (Fin (2 ^ w)) BitVec.equivFin.symm.toEquiv

/-- The words with given low bits are one for each choice of the high bits. -/
def lowBitsEquiv (m k : ℕ) (v : BitVec k) :
    { x : BitVec (m + k) // x.setWidth k = v } ≃ BitVec m where
  toFun x := x.val.extractLsb' k m
  invFun high := ⟨high ++ v, BitVec.setWidth_append_eq_right⟩
  left_inv x := by
    obtain ⟨x, rfl⟩ := x
    apply Subtype.ext
    show x.extractLsb' k m ++ x.setWidth k = x
    rw [BitVec.setWidth_eq_extractLsb' (Nat.le_add_left k m), BitVec.extractLsb'_append_extractLsb']
  right_inv _ := BitVec.extractLsb'_append_eq_left

/-- An injective map of words gives every choice of the low bits equally often. -/
theorem card_low_bits {m k : ℕ} {f : BitVec (m + k) → BitVec (m + k)}
    (injective : Function.Injective f) (v : BitVec k) :
    Nat.card { x // (f x).setWidth k = v } = 2 ^ m := by
  have bijective : Function.Bijective f := injective.bijective_of_finite
  have pulled : { x // (f x).setWidth k = v } ≃ { y : BitVec (m + k) // y.setWidth k = v } :=
    (Equiv.ofBijective f bijective).subtypeEquiv fun x => Iff.rfl
  rw [Nat.card_congr (pulled.trans (lowBitsEquiv m k v)), Nat.card_congr BitVec.equivFin.toEquiv,
    Nat.card_fin]

end Mixing
