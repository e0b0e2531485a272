import Mathlib.Data.List.Basic

/-! # Runs of a deterministic machine

A machine is a total step function; everything it does not decide by itself
(packets, clocks, interrupts, allocation outcomes) is in the input it consumes.
`Along` says that every step of a run meets a condition in its own pre-state,
so a conditional invariant needs one step lemma and one induction, done here.
-/

namespace Xwr100.Lib

variable {σ ι : Type*} {step : σ → ι → σ}

def exec (step : σ → ι → σ) (s : σ) (inputs : List ι) : σ := inputs.foldl step s

/-- Every step of the run from `s` satisfies `C` at the state it starts from. -/
def Along (step : σ → ι → σ) (C : σ → ι → Prop) : σ → List ι → Prop
  | _, [] => True
  | s, i :: rest => C s i ∧ Along step C (step s i) rest

instance Along.decidable {C : σ → ι → Prop} [∀ s i, Decidable (C s i)] :
    ∀ (s : σ) (inputs : List ι), Decidable (Along step C s inputs)
  | _, [] => isTrue trivial
  | s, i :: rest =>
      have := Along.decidable (C := C) (step s i) rest
      inferInstanceAs (Decidable (_ ∧ _))

theorem along_of_forall {C : ι → Prop} {s : σ} {inputs : List ι} (h : ∀ i ∈ inputs, C i) :
    Along step (fun _ i => C i) s inputs := by
  induction inputs generalizing s with
  | nil => trivial
  | cons i rest ih =>
      exact ⟨h i List.mem_cons_self, ih fun i' hi' => h i' (List.mem_cons_of_mem i hi')⟩

/-- The invariant rule: what a step meeting `C` preserves, a run meeting `C`
throughout preserves. -/
theorem Along.invariant {C : σ → ι → Prop} {Inv : σ → Prop}
    (hstep : ∀ s i, Inv s → C s i → Inv (step s i)) {s : σ} {inputs : List ι}
    (h : Along step C s inputs) (hs : Inv s) : Inv (exec step s inputs) := by
  induction inputs generalizing s with
  | nil => exact hs
  | cons i rest ih => exact ih h.2 (hstep s i hs h.1)

/-- A run meets a condition throughout if its two parts do. -/
theorem along_append {C : σ → ι → Prop} {s : σ} {inputs more : List ι} :
    Along step C s (inputs ++ more) ↔
      Along step C s inputs ∧ Along step C (exec step s inputs) more := by
  induction inputs generalizing s with
  | nil => exact (Iff.of_eq (true_and _)).symm
  | cons i rest ih =>
      rw [List.cons_append, Along, Along, ih, and_assoc]
      rfl

theorem Along.mono {C P : σ → ι → Prop} (hstep : ∀ s i, C s i → P s i) {s : σ} {inputs : List ι}
    (h : Along step C s inputs) : Along step P s inputs := by
  induction inputs generalizing s with
  | nil => trivial
  | cons i rest ih => exact ⟨hstep s i h.1, ih h.2⟩

/-- The observation rule: if an invariant and the step condition give `P` at
each step, `P` holds along the whole run. -/
theorem Along.observe {C P : σ → ι → Prop} {Inv : σ → Prop}
    (hstep : ∀ s i, Inv s → C s i → Inv (step s i) ∧ P s i) {s : σ} {inputs : List ι}
    (h : Along step C s inputs) (hs : Inv s) : Along step P s inputs := by
  induction inputs generalizing s with
  | nil => trivial
  | cons i rest ih =>
      obtain ⟨hinv, hp⟩ := hstep s i hs h.1
      exact ⟨hp, ih h.2 hinv⟩

/-- The equivalence rule: if under the invariant `P` and `C` say the same of a step, and `C`
keeps the invariant, they say the same of a run. -/
theorem along_congr {C P : σ → ι → Prop} {Inv : σ → Prop}
    (hiff : ∀ s i, Inv s → (P s i ↔ C s i)) (hstep : ∀ s i, Inv s → C s i → Inv (step s i))
    {s : σ} {inputs : List ι} (hs : Inv s) : Along step P s inputs ↔ Along step C s inputs := by
  induction inputs generalizing s with
  | nil => exact Iff.rfl
  | cons i rest ih =>
      constructor
      · rintro ⟨hp, hrest⟩
        have hc := (hiff s i hs).mp hp
        exact ⟨hc, (ih (hstep s i hs hc)).mp hrest⟩
      · rintro ⟨hc, hrest⟩
        exact ⟨(hiff s i hs).mpr hc, (ih (hstep s i hs hc)).mpr hrest⟩

end Xwr100.Lib
