import Mathlib.Data.Nat.ModEq
import Mathlib.Logic.Function.Iterate
import Mathlib.Tactic.Common

/-! # Rings of slots

A ring of `n` slots is walked by indices that wrap to zero.  Proofs count instead: a
position is any number, its slot the remainder by `n`.  Two positions less than `n`
apart share a slot only if they are equal.
-/

namespace Xwr100.Lib.Ring

variable {n : Nat}

def incr (n i : Nat) : Nat := if i + 1 = n then 0 else i + 1

theorem incr_mod (hn : 0 < n) (a : Nat) : incr n (a % n) = (a + 1) % n := by
  have hlt := Nat.mod_lt a hn
  unfold incr
  rw [Nat.add_mod a 1 n]
  by_cases hlast : a % n + 1 = n
  · rw [if_pos hlast]
    by_cases hone : n = 1
    · subst hone
      omega
    · rw [Nat.mod_eq_of_lt (show 1 < n by omega), hlast, Nat.mod_self]
  · rw [if_neg hlast, Nat.mod_eq_of_lt (show 1 < n by omega),
      Nat.mod_eq_of_lt (show a % n + 1 < n by omega)]

theorem iterate_incr_mod (hn : 0 < n) (a k : Nat) : (incr n)^[k] (a % n) = (a + k) % n := by
  induction k with
  | zero => rfl
  | succ k ih => rw [Function.iterate_succ_apply', ih, incr_mod hn, Nat.add_assoc]

theorem eq_of_mod_eq {start a b : Nat} (ha : start ≤ a) (ha' : a < start + n) (hb : start ≤ b)
    (hb' : b < start + n) (h : a % n = b % n) : a = b := by
  have hdvd : ∀ x y : Nat, x ≤ y → y < x + n → x % n = y % n → x = y := by
    intro x y hxy hlt heq
    obtain ⟨k, hk⟩ := (Nat.modEq_iff_dvd' hxy).mp heq
    cases k with
    | zero => omega
    | succ k =>
        have hge : n ≤ n * (k + 1) := Nat.le_mul_of_pos_right n (Nat.succ_pos k)
        omega
  rcases Nat.le_total a b with hab | hba
  · exact hdvd a b hab (by omega) h
  · exact (hdvd b a hba (by omega) h.symm).symm

theorem add_mod_ne {i j : Nat} (start : Nat) (hi : i < n) (hj : j < n) (hne : i ≠ j) :
    (start + i) % n ≠ (start + j) % n := by
  intro heq
  have hsame : start + i = start + j :=
    eq_of_mod_eq (Nat.le_add_right _ _) (by omega) (Nat.le_add_right _ _) (by omega) heq
  omega

theorem exists_mod_eq {i : Nat} (hi : i < n) (start : Nat) :
    ∃ a, start ≤ a ∧ a < start + n ∧ a % n = i := by
  have hlt := Nat.mod_lt start (show n > 0 by omega)
  have hdiv := Nat.div_add_mod start n
  by_cases hle : start % n ≤ i
  · refine ⟨start - start % n + i, by omega, by omega, ?_⟩
    rw [show start - start % n = n * (start / n) by omega, Nat.mul_add_mod, Nat.mod_eq_of_lt hi]
  · refine ⟨start - start % n + n + i, by omega, by omega, ?_⟩
    rw [show start - start % n = n * (start / n) by omega, Nat.add_assoc, Nat.mul_add_mod,
      Nat.add_mod_left, Nat.mod_eq_of_lt hi]

def unused (n head tail : Nat) : Nat := (if tail > head then 0 else n) + tail - head

theorem unused_mod {tail head : Nat} (hle : tail ≤ head) (hlt : head < tail + n) :
    unused n (head % n) (tail % n) = n - (head - tail) := by
  have hn : 0 < n := by omega
  have hh := Nat.div_add_mod head n
  have ht := Nat.div_add_mod tail n
  have hhm := Nat.mod_lt head hn
  have htm := Nat.mod_lt tail hn
  -- the head is on the tail's lap or on the next one
  have hlap : head / n = tail / n ∨ head / n = tail / n + 1 := by
    have hlow : tail / n ≤ head / n := Nat.div_le_div_right hle
    have hhigh : head / n ≤ (tail + n) / n := Nat.div_le_div_right (Nat.le_of_lt hlt)
    rw [Nat.add_div_right tail hn] at hhigh
    omega
  unfold unused
  rcases hlap with hsame | hnext
  · rw [hsame] at hh
    rw [if_neg (by omega)]
    omega
  · rw [hnext, Nat.mul_add, Nat.mul_one] at hh
    rw [if_pos (by omega)]
    omega

end Xwr100.Lib.Ring
