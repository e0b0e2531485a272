import Mathlib.Tactic.Common

/-! # Buffers of a fixed size

A buffer is the list of what it holds.  Reading and writing a range of it gives nothing when the
range does not lie in the buffer.
-/

namespace Xwr100.Lib.Buffer

variable {α : Type*} {l l' : List α} {pos at_ n : Nat} {x : List α}

def slice (l : List α) (pos n : Nat) : Option (List α) :=
  if pos + n ≤ l.length then some ((l.drop pos).take n) else none

def store (l : List α) (pos : Nat) (x : List α) : Option (List α) :=
  if pos + x.length ≤ l.length then some (l.take pos ++ x ++ l.drop (pos + x.length)) else none

/-! ## Ranges -/

theorem slice_of_le (h : pos + n ≤ l.length) : slice l pos n = some ((l.drop pos).take n) := if_pos h

theorem length_of_slice (h : slice l pos n = some x) : x.length = n ∧ pos + n ≤ l.length := by
  unfold slice at h
  split at h
  · next hle =>
    obtain rfl := Option.some.inj h
    refine ⟨?_, hle⟩
    rw [List.length_take, List.length_drop]
    omega
  · cases h

/-- A range of what stands behind a prefix. -/
theorem slice_append_right (front rest : List α) (pos n : Nat) :
    slice (front ++ rest) (front.length + pos) n = slice rest pos n := by
  unfold slice
  rw [List.length_append, List.drop_append]
  by_cases h : pos + n ≤ rest.length
  · have hdrop : front.drop (front.length + pos) = [] := List.drop_eq_nil_of_le (by omega)
    rw [if_pos h, if_pos (by omega), hdrop, List.nil_append, Nat.add_sub_cancel_left]
  · rw [if_neg h, if_neg (by omega)]

theorem slice_append_left {front : List α} (h : pos + n ≤ front.length) (rest : List α) :
    slice (front ++ rest) pos n = slice front pos n := by
  unfold slice
  rw [List.length_append, if_pos h, if_pos (by omega), List.drop_append_of_le_length (by omega),
    List.take_append_of_le_length (by rw [List.length_drop]; omega)]

/-! ## Writes -/

theorem store_isSome_iff (l : List α) (pos : Nat) (x : List α) :
    (∃ l', store l pos x = some l') ↔ pos + x.length ≤ l.length := by
  unfold store
  by_cases h : pos + x.length ≤ l.length
  · rw [if_pos h]
    exact iff_of_true ⟨_, rfl⟩ h
  · rw [if_neg h]
    exact iff_of_false (fun ⟨_, heq⟩ => by cases heq) h

theorem store_eq_none : store l pos x = none ↔ l.length < pos + x.length := by
  unfold store
  by_cases h : pos + x.length ≤ l.length
  · rw [if_pos h]
    exact iff_of_false (Option.some_ne_none _) (Nat.not_lt.mpr h)
  · rw [if_neg h]
    exact iff_of_true rfl (Nat.lt_of_not_le h)

theorem store_eq_some (h : store l pos x = some l') :
    pos + x.length ≤ l.length ∧ l' = l.take pos ++ x ++ l.drop (pos + x.length) := by
  unfold store at h
  split at h
  · next hle => exact ⟨hle, (Option.some.inj h).symm⟩
  · cases h

theorem length_of_store (h : store l pos x = some l') : l'.length = l.length := by
  obtain ⟨hle, rfl⟩ := store_eq_some h
  simp only [List.length_append, List.length_take, List.length_drop]
  omega

theorem slice_store_self (h : store l pos x = some l') : slice l' pos x.length = some x := by
  obtain ⟨hle, rfl⟩ := store_eq_some h
  have hfront : (l.take pos).length = pos := by
    rw [List.length_take]
    omega
  have hright := slice_append_right (l.take pos) (x ++ l.drop (pos + x.length)) 0 x.length
  rw [hfront, Nat.add_zero] at hright
  rw [List.append_assoc, hright, slice_append_left (by omega), slice_of_le (by omega),
    List.drop_zero, List.take_length]

theorem slice_store (h : store l pos x = some l') (hbeside : at_ + n ≤ pos ∨ pos + x.length ≤ at_) :
    slice l' at_ n = slice l at_ n := by
  obtain ⟨hle, rfl⟩ := store_eq_some h
  have hfront : (l.take pos).length = pos := by
    rw [List.length_take]
    omega
  rcases hbeside with hbefore | hbehind
  · have hsplit : slice l at_ n = slice (l.take pos ++ l.drop pos) at_ n := by
      rw [List.take_append_drop]
    rw [hsplit, List.append_assoc, slice_append_left (by omega), slice_append_left (by omega)]
  · obtain ⟨k, rfl⟩ := Nat.exists_eq_add_of_le hbehind
    have hlength : (l.take pos ++ x).length = pos + x.length := by
      rw [List.length_append, hfront]
    have hnew := slice_append_right (l.take pos ++ x) (l.drop (pos + x.length)) k n
    have hfront : (l.take (pos + x.length)).length = pos + x.length := by
      rw [List.length_take]
      omega
    have hold := slice_append_right (l.take (pos + x.length)) (l.drop (pos + x.length)) k n
    rw [hlength] at hnew
    rw [hfront, List.take_append_drop] at hold
    rw [hnew, hold]

/-! ## Texts that end with a mark -/

section Marked

variable [DecidableEq α] (mark : α)

/-- What stands before the first mark. -/
def marked (l : List α) : Option (List α) :=
  if mark ∈ l then some (l.takeWhile (· ≠ mark)) else none

theorem marked_append {t : List α} (ht : mark ∉ t) (rest : List α) :
    marked mark (t ++ mark :: rest) = some t := by
  rw [marked, if_pos (List.mem_append_right t List.mem_cons_self), List.takeWhile_append_of_pos,
    List.takeWhile_cons_of_neg (by simp), List.append_nil]
  intro a ha
  exact decide_eq_true fun heq => ht (heq ▸ ha)

end Marked

end Xwr100.Lib.Buffer
