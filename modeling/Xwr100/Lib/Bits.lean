import Mathlib.Algebra.GroupWithZero.Nat
import Mathlib.Tactic.Common

/-! # Rows of bits

A number as a row of bits, the most significant first, and rows of ones followed by zeros.
-/

namespace Xwr100.Lib

/-- The `width` low bits of a number. -/
def bits : Nat → Nat → List Bool
  | 0, _ => []
  | width + 1, v => bits width (v / 2) ++ [v % 2 == 1]

@[simp] theorem length_bits (width v : Nat) : (bits width v).length = width := by
  induction width generalizing v with
  | zero => rfl
  | succ width ih => simp [bits, ih]

theorem bits_mul_add (m n v : Nat) {w : Nat} (hw : w < 2 ^ n) :
    bits (m + n) (v * 2 ^ n + w) = bits m v ++ bits n w := by
  induction n generalizing w with
  | zero =>
      obtain rfl : w = 0 := by simpa using hw
      simp [bits]
  | succ n ih =>
      rw [Nat.pow_succ] at hw ⊢
      have hdouble : v * (2 ^ n * 2) + w = 2 * (v * 2 ^ n + w / 2) + w % 2 := by
        rw [← Nat.mul_assoc]
        omega
      have hhalf : (v * (2 ^ n * 2) + w) / 2 = v * 2 ^ n + w / 2 := by omega
      have hlast : (v * (2 ^ n * 2) + w) % 2 = w % 2 := by omega
      rw [← Nat.add_assoc, bits, hhalf, hlast, ih (by omega), bits, List.append_assoc]

def OnesThenZeros (l : List Bool) (ones : Nat) : Prop :=
  ones ≤ l.length ∧ l = List.replicate ones true ++ List.replicate (l.length - ones) false

def IsMask (l : List Bool) : Prop := ∃ ones, OnesThenZeros l ones

def leadingOnes : List Bool → Nat
  | true :: l => leadingOnes l + 1
  | _ => 0

theorem eq_replicate_false {l : List Bool} (h : true ∉ l) : l = List.replicate l.length false :=
  List.eq_replicate_of_mem fun b hb => by
    cases b with
    | true => contradiction
    | false => rfl

theorem onesThenZeros_zero {l : List Bool} : OnesThenZeros l 0 ↔ true ∉ l := by
  constructor
  · intro h hmem
    rw [h.2] at hmem
    simp at hmem
  · intro h
    exact ⟨Nat.zero_le _, eq_replicate_false h⟩

theorem onesThenZeros_cons {b : Bool} {l : List Bool} {ones : Nat} :
    OnesThenZeros (b :: l) (ones + 1) ↔ b = true ∧ OnesThenZeros l ones := by
  simp [OnesThenZeros, List.replicate_succ]
  tauto

/-- The ones of a row are those it starts with, and none comes later. -/
theorem onesThenZeros_iff {l : List Bool} {ones : Nat} :
    OnesThenZeros l ones ↔ leadingOnes l = ones ∧ true ∉ l.drop (leadingOnes l + 1) := by
  induction l generalizing ones with
  | nil =>
      simp [OnesThenZeros, leadingOnes]
      omega
  | cons b l ih =>
      cases ones with
      | zero =>
          rw [onesThenZeros_zero]
          cases b <;> simp [leadingOnes]
      | succ ones =>
          rw [onesThenZeros_cons, ih]
          cases b <;> simp [leadingOnes]

theorem isMask_iff {l : List Bool} : IsMask l ↔ true ∉ l.drop (leadingOnes l + 1) := by
  constructor
  · intro h
    obtain ⟨ones, h⟩ := h
    exact (onesThenZeros_iff.mp h).2
  · intro h
    exact ⟨leadingOnes l, onesThenZeros_iff.mpr ⟨rfl, h⟩⟩

instance (l : List Bool) : Decidable (IsMask l) := decidable_of_iff _ isMask_iff.symm

theorem isMask_of_zeros {l : List Bool} (h : true ∉ l) : IsMask l := ⟨0, onesThenZeros_zero.mpr h⟩

theorem isMask_cons {b : Bool} {l : List Bool} :
    IsMask (b :: l) ↔ (b = true ∧ IsMask l) ∨ (b = false ∧ true ∉ l) := by
  cases b <;> simp [isMask_iff, leadingOnes]

/-- Two rows side by side: the ones end in the first or in the second. -/
theorem isMask_append {l m : List Bool} :
    IsMask (l ++ m) ↔ (false ∉ l ∧ IsMask m) ∨ (IsMask l ∧ true ∉ m) := by
  induction l with
  | nil =>
      have hnil : IsMask [] := isMask_of_zeros List.not_mem_nil
      have hzeros : true ∉ m → IsMask m := isMask_of_zeros
      simp only [List.nil_append, List.not_mem_nil, not_false_eq_true, true_and, hnil]
      tauto
  | cons b l ih =>
      rw [List.cons_append, isMask_cons, isMask_cons, ih]
      cases b <;> simp

end Xwr100.Lib
