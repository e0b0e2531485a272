import Mathlib.Algebra.GroupWithZero.Nat
import Mathlib.Tactic.Common

/-! # Sums with an end-around carry

Addition of words below a base where a carry out of the top is added in at the bottom, and what it
has to do with the plain sum.
-/

namespace Xwr100.Lib

def endAround (base a b : Nat) : Nat := if a + b < base then a + b else a + b + 1 - base

def onesSum (base : Nat) (words : List Nat) : Nat := words.foldl (endAround base) 0

/-- The word a plain sum stands for: only the sum zero is zero. -/
def wordOf (base total : Nat) : Nat := if total = 0 then 0 else (total - 1) % (base - 1) + 1

variable {base : Nat}

theorem wordOf_lt (hbase : 1 < base) (total : Nat) : wordOf base total < base := by
  unfold wordOf
  split
  · omega
  · have hmod := Nat.mod_lt (total - 1) (show 0 < base - 1 by omega)
    omega

theorem wordOf_of_lt {n : Nat} (h : n < base) : wordOf base n = n := by
  unfold wordOf
  split
  · next hzero => exact hzero.symm
  · rw [Nat.mod_eq_of_lt (by omega)]
    omega

/-- A whole number of the largest word can be taken off as long as something is left. -/
theorem wordOf_add_mul {n : Nat} (hn : n ≠ 0) (k : Nat) :
    wordOf base (n + k * (base - 1)) = wordOf base n := by
  have hshift : n + k * (base - 1) - 1 = n - 1 + k * (base - 1) := by omega
  rw [wordOf, wordOf, if_neg (by omega), if_neg hn, hshift, Nat.add_mul_mod_self_right]

theorem endAround_eq {a b : Nat} (ha : a < base) (hb : b < base) :
    endAround base a b = wordOf base (a + b) := by
  unfold endAround
  split
  · next hlt => exact (wordOf_of_lt hlt).symm
  · have hsplit : a + b = a + b + 1 - base + 1 * (base - 1) := by omega
    rw [hsplit, wordOf_add_mul (by omega), wordOf_of_lt (by omega)]
    omega

/-- Folding in a word before the others or after them is the same. -/
theorem wordOf_add (m n : Nat) :
    wordOf base (wordOf base m + n) = wordOf base (m + n) := by
  by_cases hm : m = 0
  · have hzero : wordOf base 0 = 0 := rfl
    rw [hm, hzero]
  · have hdiv := Nat.div_add_mod' (m - 1) (base - 1)
    have hword : wordOf base m = (m - 1) % (base - 1) + 1 := if_neg hm
    have hsplit : m + n = (m - 1) % (base - 1) + 1 + n + (m - 1) / (base - 1) * (base - 1) := by
      omega
    rw [hword, hsplit, wordOf_add_mul (by omega)]

theorem onesSum_eq (hbase : 1 < base) {words : List Nat} (h : ∀ w ∈ words, w < base) :
    onesSum base words = wordOf base words.sum := by
  have hfold : ∀ (words : List Nat) (acc : Nat), (∀ w ∈ words, w < base) → acc < base →
      words.foldl (endAround base) acc = wordOf base (acc + words.sum) := by
    intro words
    induction words with
    | nil =>
        intro acc _ hacc
        exact (wordOf_of_lt hacc).symm
    | cons w words ih =>
        intro acc hall hacc
        have hw := hall w List.mem_cons_self
        rw [List.foldl_cons, endAround_eq hacc hw,
          ih _ (fun v hv => hall v (List.mem_cons_of_mem w hv)) (wordOf_lt hbase _),
          wordOf_add, List.sum_cons, Nat.add_assoc]
  rw [onesSum, hfold words 0 h (by omega), Nat.zero_add]

theorem wordOf_add_complement (hbase : 1 < base) (total : Nat) :
    wordOf base (total + (base - 1 - wordOf base total)) = base - 1 := by
  have hlt := wordOf_lt hbase total
  by_cases hzero : total = 0
  · rw [hzero, wordOf_of_lt (show 0 < base by omega), Nat.zero_add, Nat.sub_zero,
      wordOf_of_lt (by omega)]
  · rw [← wordOf_add]
    have hsum : wordOf base total + (base - 1 - wordOf base total) = base - 1 := by omega
    rw [hsum, wordOf_of_lt (by omega)]

end Xwr100.Lib
