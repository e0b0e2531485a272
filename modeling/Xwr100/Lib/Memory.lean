import Mathlib.Tactic.Common

/-! # Byte strings in memory

Memory is a function of the position.  `Spells` says what stands at a place, `writeAt` puts
something there; the rules cut byte strings in pieces and say what a write leaves alone.
-/

namespace Xwr100.Lib

variable {α : Type*} {mem : Nat → α} {pos : Nat} {bytes bytes' : List α}

/-- The bytes from `pos` on are these. -/
def Spells (mem : Nat → α) (pos : Nat) (bytes : List α) : Prop :=
  ∀ k, ∀ h : k < bytes.length, mem (pos + k) = bytes.get ⟨k, h⟩

/-- Memory with these bytes put at `pos`. -/
def writeAt (mem : Nat → α) (pos : Nat) (bytes : List α) : Nat → α := fun p =>
  if p < pos then mem p else (bytes[p - pos]?).getD (mem p)

theorem Spells.nil : Spells mem pos [] := fun _ h => absurd h (Nat.not_lt_zero _)

theorem spells_cons {b : α} :
    Spells mem pos (b :: bytes) ↔ mem pos = b ∧ Spells mem (pos + 1) bytes := by
  constructor
  · intro h
    refine ⟨h 0 (Nat.succ_pos _), fun k hk => ?_⟩
    have hnext := h (k + 1) (Nat.succ_lt_succ hk)
    rwa [← Nat.add_assoc, Nat.add_right_comm] at hnext
  · rintro ⟨hhead, htail⟩ k hk
    cases k with
    | zero => exact hhead
    | succ k =>
        have hnext := htail k (Nat.lt_of_succ_lt_succ hk)
        rw [← Nat.add_assoc, Nat.add_right_comm]
        exact hnext

theorem spells_append :
    Spells mem pos (bytes ++ bytes') ↔
      Spells mem pos bytes ∧ Spells mem (pos + bytes.length) bytes' := by
  induction bytes generalizing pos with
  | nil => simp [Spells.nil]
  | cons b rest ih =>
      rw [List.cons_append, spells_cons, spells_cons, ih, and_assoc, List.length_cons,
        Nat.add_assoc, Nat.add_comm 1]

theorem spells_writeAt : Spells (writeAt mem pos bytes) pos bytes := by
  intro k hk
  have hnot : ¬ pos + k < pos := by omega
  simp [writeAt, hnot, List.getElem?_eq_getElem hk]

theorem writeAt_before {p : Nat} (h : p < pos) : writeAt mem pos bytes p = mem p := if_pos h

theorem writeAt_behind {p : Nat} (h : pos + bytes.length ≤ p) : writeAt mem pos bytes p = mem p := by
  have hnot : ¬p < pos := by omega
  have hnone : bytes[p - pos]? = none := List.getElem?_eq_none (by omega)
  simp [writeAt, hnot, hnone]

theorem Spells.writeAt {at_ : Nat} (h : Spells mem pos bytes) (hbefore : pos + bytes.length ≤ at_) :
    Spells (writeAt mem at_ bytes') pos bytes := by
  intro k hk
  rw [writeAt_before (by omega)]
  exact h k hk

end Xwr100.Lib
