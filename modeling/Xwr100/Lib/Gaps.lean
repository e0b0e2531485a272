import Mathlib.Data.List.Induction
import Mathlib.Data.List.TakeWhile

/-! # Gaps in a history

A history is a list, oldest entry first.  Some entries are marks, some are ticks; a mark
answers for the time until `n` ticks have passed without another.  The rules say how the
time since the last mark grows, and when a history is free of gaps of `n` ticks.
-/

namespace Xwr100.Lib

variable {α : Type*} (mark tick : α → Bool)

/-- The ticks after the last mark; all of them, if there is no mark. -/
def quietFor (l : List α) : Nat := (l.reverse.takeWhile fun x => !mark x).countP tick

/-- No stretch without a mark has `n` ticks. -/
def NeverQuiet (n : Nat) (l : List α) : Prop :=
  ∀ before gap after, l = before ++ gap ++ after → (∀ x ∈ gap, mark x = false) →
    gap.countP tick < n

variable {mark tick}

@[simp] theorem quietFor_nil : quietFor mark tick ([] : List α) = 0 := rfl

theorem quietFor_append_mark {x : α} (h : mark x = true) (l : List α) :
    quietFor mark tick (l ++ [x]) = 0 := by
  simp [quietFor, h]

theorem quietFor_append {x : α} (h : mark x = false) (l : List α) :
    quietFor mark tick (l ++ [x]) = quietFor mark tick l + if tick x then 1 else 0 := by
  simp [quietFor, h, List.countP_cons]

/-- What comes before a mark does not count. -/
theorem quietFor_after_mark {x : α} (h : mark x = true) (before after : List α) :
    quietFor mark tick (before ++ x :: after) = quietFor mark tick after := by
  induction after using List.reverseRecOn with
  | nil => exact quietFor_append_mark h before
  | append_singleton after y ih =>
      rw [← List.cons_append, ← List.append_assoc]
      by_cases hy : mark y = true
      · rw [quietFor_append_mark hy, quietFor_append_mark hy]
      · rw [quietFor_append (by simpa using hy), quietFor_append (by simpa using hy), ih]

/-- Without a mark all ticks count. -/
theorem quietFor_append_unmarked {before after : List α} (h : ∀ x ∈ after, mark x = false) :
    quietFor mark tick (before ++ after) =
      quietFor mark tick before + after.countP tick := by
  induction after using List.reverseRecOn with
  | nil => rw [List.append_nil, List.countP_nil, Nat.add_zero]
  | append_singleton after x ih =>
      have hx : mark x = false := h x (by simp)
      have hafter : ∀ y ∈ after, mark y = false := fun y hy => h y (by simp [hy])
      rw [← List.append_assoc, quietFor_append hx, ih hafter, List.countP_append,
        List.countP_singleton, Nat.add_assoc]

theorem quietFor_le_countP (l : List α) : quietFor mark tick l ≤ l.countP tick := by
  have hsub : (l.reverse.takeWhile fun x => !mark x).Sublist l.reverse :=
    List.takeWhile_sublist _
  rw [← List.countP_reverse]
  exact hsub.countP_le

/-- Behind a mark at most the ticks behind it count. -/
theorem quietFor_le_of_mark {before after : List α} {x : α} (hx : x ∈ after)
    (h : mark x = true) : quietFor mark tick (before ++ after) ≤ after.countP tick := by
  obtain ⟨first, rest, rfl⟩ := List.append_of_mem hx
  rw [← List.append_assoc, quietFor_after_mark h, List.countP_append, List.countP_cons]
  have hle : quietFor mark tick rest ≤ rest.countP tick := quietFor_le_countP rest
  omega

theorem neverQuiet_nil {n : Nat} (h : 0 < n) : NeverQuiet mark tick n [] := by
  intro before gap after heq _
  have hnil : gap = [] := by simp_all
  simpa [hnil] using h

/-- Only the stretch at the end can become a gap. -/
theorem neverQuiet_append {n : Nat} {x : α} {l : List α} :
    NeverQuiet mark tick n (l ++ [x]) ↔
      NeverQuiet mark tick n l ∧ quietFor mark tick (l ++ [x]) < n := by
  constructor
  · intro h
    constructor
    · intro before gap after heq hgap
      exact h before gap (after ++ [x]) (by rw [heq, List.append_assoc]) hgap
    · let tail := (l ++ [x]).reverse.takeWhile fun y => !mark y
      let rest := (l ++ [x]).reverse.dropWhile fun y => !mark y
      have hsplit : l ++ [x] = rest.reverse ++ tail.reverse ++ [] := by
        rw [List.append_nil, ← List.reverse_append, List.takeWhile_append_dropWhile,
          List.reverse_reverse]
      have hmark : ∀ y ∈ tail.reverse, mark y = false := by
        intro y hy
        simpa using List.mem_takeWhile_imp (List.mem_reverse.mp hy)
      have hlt := h rest.reverse tail.reverse [] hsplit hmark
      rwa [List.countP_reverse] at hlt
  · rintro ⟨hl, hquiet⟩ before gap after heq hgap
    rcases List.eq_nil_or_concat after with rfl | ⟨after, y, rfl⟩
    · rw [List.append_nil] at heq
      have hall : ∀ y ∈ gap.reverse, (fun y => !mark y) y = true := by
        intro y hy
        simp [hgap y (List.mem_reverse.mp hy)]
      rw [quietFor, heq, List.reverse_append, List.takeWhile_append_of_pos hall,
        List.countP_append, List.countP_reverse] at hquiet
      omega
    · rw [List.concat_eq_append, ← List.append_assoc] at heq
      exact hl before gap after (List.append_inj' heq rfl).1 hgap

end Xwr100.Lib
