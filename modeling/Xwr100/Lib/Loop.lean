import Mathlib.Tactic.Common

/-! # Loops that may not end

A loop is given by its turn, which either goes on from another state or ends with a result.
`Ends` is the loop without a bound on its turns.  A sequence that follows the loop as long as
it goes on, and continues in any way after it, says when and with what the loop ends.
-/

namespace Xwr100.Lib

variable {σ ρ : Type*} {turn : σ → σ ⊕ ρ} {s : σ} {r r' : ρ}

inductive Ends (turn : σ → σ ⊕ ρ) : σ → ρ → Prop
  | last {s : σ} {r : ρ} (h : turn s = .inr r) : Ends turn s r
  | next {s s' : σ} {r : ρ} (h : turn s = .inl s') (rest : Ends turn s' r) : Ends turn s r

theorem Ends.unique (h : Ends turn s r) (h' : Ends turn s r') : r = r' := by
  induction h with
  | last hturn =>
      cases h' with
      | last hturn' => exact Sum.inr.inj (hturn.symm.trans hturn')
      | next hturn' _ => cases hturn.symm.trans hturn'
  | next hturn _ ih =>
      cases h' with
      | last hturn' => cases hturn.symm.trans hturn'
      | next hturn' rest =>
          cases Sum.inl.inj (hturn.symm.trans hturn')
          exact ih rest

/-- Whenever the loop goes on from a state of the sequence, it goes on from the next one. -/
def Follows (turn : σ → σ ⊕ ρ) (seq : Nat → σ) : Prop :=
  ∀ k s, turn (seq k) = .inl s → seq (k + 1) = s

theorem Follows.tail {seq : Nat → σ} (h : Follows turn seq) :
    Follows turn fun k => seq (k + 1) := fun k => h (k + 1)

theorem Follows.ends {seq : Nat → σ} (h : Follows turn seq) {k : Nat}
    (hgo : ∀ j < k, ∃ s, turn (seq j) = .inl s) (hlast : turn (seq k) = .inr r) :
    Ends turn (seq 0) r := by
  induction k generalizing seq with
  | zero => exact .last hlast
  | succ k ih =>
      obtain ⟨s, hs⟩ := hgo 0 (Nat.succ_pos k)
      have hrest := ih h.tail (fun j hj => hgo (j + 1) (Nat.succ_lt_succ hj)) hlast
      rw [h 0 s hs] at hrest
      exact .next hs hrest

theorem Follows.of_ends {seq : Nat → σ} (h : Follows turn seq) (hends : Ends turn (seq 0) r) :
    ∃ k, (∀ j < k, ∃ s, turn (seq j) = .inl s) ∧ turn (seq k) = .inr r := by
  generalize hstart : seq 0 = s₀ at hends
  induction hends generalizing seq with
  | last hturn =>
      subst hstart
      exact ⟨0, fun j hj => absurd hj j.not_lt_zero, hturn⟩
  | @next _ s' _ hturn _ ih =>
      subst hstart
      obtain ⟨k, hgo, hlast⟩ := ih h.tail (h 0 s' hturn)
      refine ⟨k + 1, fun j hj => ?_, hlast⟩
      cases j with
      | zero => exact ⟨s', hturn⟩
      | succ j => exact hgo j (Nat.lt_of_succ_lt_succ hj)

/-- The loop ends at the first state of the sequence it does not go on from. -/
theorem Follows.ends_iff {seq : Nat → σ} (h : Follows turn seq) :
    Ends turn (seq 0) r ↔
      ∃ k, (∀ j < k, ∃ s, turn (seq j) = .inl s) ∧ turn (seq k) = .inr r := by
  constructor
  · exact h.of_ends
  · intro hindex
    obtain ⟨k, hgo, hlast⟩ := hindex
    exact h.ends hgo hlast

end Xwr100.Lib
