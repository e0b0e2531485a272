import Mathlib.Algebra.GroupWithZero.Nat
import Mathlib.Tactic.Common

/-! # Halving a distance

A distance that is halved, the larger half being kept, until it is no more than a given one, and how
often that takes.
-/

namespace Xwr100.Lib

variable {u g : Nat}

/-- How often the distance has to be halved until it is at most `u + 1`. -/
def halvings (u g : Nat) : Nat := if g ≤ u + 1 then 0 else halvings u (g - g / 2) + 1
termination_by g
decreasing_by omega

theorem halvings_of_le (h : g ≤ u + 1) : halvings u g = 0 := by
  rw [halvings, if_pos h]

theorem halvings_of_lt (h : u + 1 < g) : halvings u g = halvings u (g - g / 2) + 1 := by
  rw [halvings, if_neg (Nat.not_le_of_lt h)]

/-- A distance below a multiple of the given one by a power of two takes no more than the exponent. -/
theorem halvings_le {j : Nat} (h : g ≤ 2 ^ j * (u + 1)) : halvings u g ≤ j := by
  induction j generalizing g with
  | zero => exact Nat.le_of_eq (halvings_of_le (by omega))
  | succ j ih =>
      by_cases hle : g ≤ u + 1
      · rw [halvings_of_le hle]
        exact Nat.zero_le _
      · have hdouble : 2 ^ (j + 1) * (u + 1) = 2 * (2 ^ j * (u + 1)) := by
          rw [Nat.pow_succ, Nat.mul_comm (2 ^ j) 2, Nat.mul_assoc]
        rw [halvings_of_lt (Nat.lt_of_not_le hle)]
        exact Nat.succ_le_succ (ih (by omega))

/-- Halving from below: the far end stays where it is. -/
theorem toNat_sub_halved {w : Nat} (near far : BitVec w) :
    (far - ((far - near) / 2 + near)).toNat =
      (far - near).toNat - (far - near).toNat / (2 : BitVec w).toNat := by
  have hsub : far - ((far - near) / 2 + near) = (far - near) - (far - near) / 2 := by
    rw [BitVec.add_comm, ← BitVec.sub_sub]
  have hle : (far - near) / 2 ≤ far - near := by
    rw [BitVec.le_def, BitVec.toNat_udiv]
    exact Nat.div_le_self _ _
  rw [hsub, BitVec.toNat_sub_of_le hle, BitVec.toNat_udiv]

end Xwr100.Lib
