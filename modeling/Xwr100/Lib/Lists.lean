import Mathlib.Data.List.Perm.Basic
import Mathlib.Data.Multiset.AddSub

/-! # Lists whose elements are told apart by a label

Removing the element with a given label, and erasing the members of one list from a
multiset that was built from several.
-/

namespace Xwr100.Lib

variable {α β : Type*}

theorem perm_cons_filter_label [DecidableEq β] {f : α → β} {l : List α}
    (h : (l.map f).Nodup) {a : α} (ha : a ∈ l) :
    l.Perm (a :: l.filter fun b => f b ≠ f a) := by
  induction l with
  | nil => cases ha
  | cons b rest ih =>
      rw [List.map_cons, List.nodup_cons] at h
      obtain ⟨hb, hrest⟩ := h
      rcases List.mem_cons.mp ha with rfl | hmem
      · have hkeep : rest.filter (fun b => f b ≠ f a) = rest := by
          rw [List.filter_eq_self]
          intro c hc
          have hne : f c ≠ f a := by
            intro heq
            exact hb (List.mem_map.mpr ⟨c, hc, heq⟩)
          simp [hne]
        simp only [List.filter_cons, ne_eq, not_true_eq_false, decide_false, Bool.false_eq_true,
          if_false]
        rw [hkeep]
      · have hne : f b ≠ f a := by
          intro heq
          exact hb (List.mem_map.mpr ⟨a, hmem, heq.symm⟩)
        rw [List.filter_cons_of_pos (by simp [hne])]
        exact ((ih hrest hmem).cons b).trans (List.Perm.swap a b _)

theorem foldl_cons_accepted {ρ : Type*} (accept : ρ → Bool) (l : List ρ) (s : Multiset ρ) :
    l.foldl (fun acc r => if accept r then r ::ₘ acc else acc) s =
      (l.filter accept : Multiset ρ) + s := by
  induction l generalizing s with
  | nil => simp
  | cons r rest ih =>
      rw [List.foldl_cons, ih]
      by_cases hr : accept r
      · rw [if_pos hr, List.filter_cons_of_pos hr, ← Multiset.cons_coe, Multiset.add_cons,
          Multiset.cons_add]
      · rw [if_neg hr, List.filter_cons_of_neg hr]

theorem foldl_erase_accepted {ρ : Type*} [DecidableEq ρ] (accept : ρ → Bool) (l : List ρ)
    (s : Multiset ρ) :
    l.foldl (fun acc r => if accept r then acc.erase r else acc) s =
      s - (l.filter accept : Multiset ρ) := by
  induction l generalizing s with
  | nil => simp
  | cons r rest ih =>
      rw [List.foldl_cons, ih]
      by_cases hr : accept r
      · rw [if_pos hr, List.filter_cons_of_pos hr, ← Multiset.cons_coe, Multiset.sub_cons]
      · rw [if_neg hr, List.filter_cons_of_neg hr]

end Xwr100.Lib
