import Mathlib.Logic.Function.Basic
import Mathlib.Tactic.Common

/-! # Tables with partial keys

A table is a function on slot numbers of which the first `n` count.  An entry may
have a key or none; the tables of interest never hold a key twice.  The rules below
say which changes of a table keep its keys distinct.
-/

namespace Xwr100.Lib

variable {α κ : Type*} {key : α → Option κ} {n : Nat} {t t' : Nat → α}

/-- No two of the first `n` entries have the same key. -/
def KeysDistinct (key : α → Option κ) (n : Nat) (t : Nat → α) : Prop :=
  ∀ i < n, ∀ j < n, ∀ k, key (t i) = some k → key (t j) = some k → i = j

namespace KeysDistinct

/-- A table in which no entry has a key. -/
theorem of_none (h : ∀ i < n, key (t i) = none) : KeysDistinct key n t := by
  intro i hi j _ k hki
  rw [h i hi] at hki
  cases hki

theorem drop (h : KeysDistinct key n t)
    (hkeep : ∀ i < n, key (t' i) = none ∨ key (t' i) = key (t i)) :
    KeysDistinct key n t' := by
  intro i hi j hj k hki hkj
  rcases hkeep i hi with hnone | hsame
  · rw [hnone] at hki
    cases hki
  · rcases hkeep j hj with hnone | hsame'
    · rw [hnone] at hkj
      cases hkj
    · rw [hsame] at hki
      rw [hsame'] at hkj
      exact h i hi j hj k hki hkj

/-- One entry may change, if every other entry has no key or keeps one that differs from
the new entry's. -/
theorem replace (h : KeysDistinct key n t) (r : Nat)
    (hkeep : ∀ i < n, i ≠ r →
      key (t' i) = none ∨ (key (t' i) = key (t i) ∧ key (t' i) ≠ key (t' r))) :
    KeysDistinct key n t' := by
  intro i hi j hj k hki hkj
  by_cases hir : i = r
  · by_cases hjr : j = r
    · rw [hir, hjr]
    · rcases hkeep j hj hjr with hnone | ⟨-, hne⟩
      · rw [hnone] at hkj
        cases hkj
      · rw [hir] at hki
        exact absurd (hkj.trans hki.symm) hne
  · rcases hkeep i hi hir with hnone | ⟨hsame, hne⟩
    · rw [hnone] at hki
      cases hki
    · by_cases hjr : j = r
      · rw [hjr] at hkj
        exact absurd (hki.trans hkj.symm) hne
      · rcases hkeep j hj hjr with hnone | ⟨hsame', -⟩
        · rw [hnone] at hkj
          cases hkj
        · rw [hsame] at hki
          rw [hsame'] at hkj
          exact h i hi j hj k hki hkj

/-- Filling an entry that has no key: the new key must be one that no entry has. -/
theorem update_iff {r : Nat} {a : α} {k : κ} (hr : r < n) (hfree : key (t r) = none)
    (hkey : key a = some k) :
    KeysDistinct key n (Function.update t r a) ↔
      KeysDistinct key n t ∧ ∀ i < n, key (t i) ≠ some k := by
  constructor
  · intro h
    constructor
    · apply h.drop
      intro i _
      by_cases hir : i = r
      · left
        rw [hir, hfree]
      · right
        rw [Function.update_of_ne hir]
    · intro i hi hki
      have hir : i ≠ r := by
        intro heq
        rw [heq, hfree] at hki
        cases hki
      apply hir
      apply h i hi r hr k
      · rw [Function.update_of_ne hir, hki]
      · rw [Function.update_self, hkey]
  · intro h
    apply h.1.replace r
    intro i hi hir
    right
    rw [Function.update_of_ne hir, Function.update_self, hkey]
    exact ⟨rfl, h.2 i hi⟩

/-- Keys may be renamed, if the renaming tells the keys of the table apart. -/
theorem rename {f : κ → κ} (h : KeysDistinct key n t)
    (hmap : ∀ i < n, key (t' i) = (key (t i)).map f)
    (hinj : ∀ i < n, ∀ j < n, ∀ a b, key (t i) = some a → key (t j) = some b →
      f a = f b → a = b) :
    KeysDistinct key n t' := by
  intro i hi j hj k hki hkj
  rw [hmap i hi, Option.map_eq_some_iff] at hki
  rw [hmap j hj, Option.map_eq_some_iff] at hkj
  obtain ⟨a, ha, hfa⟩ := hki
  obtain ⟨b, hb, hfb⟩ := hkj
  have hab : a = b := hinj i hi j hj a b ha hb (hfa.trans hfb.symm)
  rw [← hab] at hb
  exact h i hi j hj a ha hb

end KeysDistinct

end Xwr100.Lib
