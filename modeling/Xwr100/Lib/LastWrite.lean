import Xwr100.Lib.Run

/-! # Stores seen through their reads

A machine holds a value for every key.  If each input leaves at a key what it writes there, or
else what was there before, a run leaves what was written last.
-/

namespace Xwr100.Lib

variable {σ ι κ β : Type*} {step : σ → ι → σ} {view : σ → κ → β} {writes : ι → κ → Option β}

/-- The last of the values that the inputs write to the key. -/
def lastWrite (writes : ι → κ → Option β) (k : κ) (inputs : List ι) : Option β :=
  (inputs.filterMap fun i => writes i k).getLast?

theorem lastWrite_cons (k : κ) (i : ι) (rest : List ι) (b : β) :
    (lastWrite writes k (i :: rest)).getD b =
      (lastWrite writes k rest).getD ((writes i k).getD b) := by
  rw [lastWrite, List.filterMap_cons]
  cases writes i k with
  | none => rfl
  | some c =>
      dsimp only
      rw [List.getLast?_cons, Option.getD_some]
      rfl

theorem view_exec (hstep : ∀ s i k, view (step s i) k = (writes i k).getD (view s k)) (s : σ)
    (inputs : List ι) (k : κ) :
    view (exec step s inputs) k = (lastWrite writes k inputs).getD (view s k) := by
  induction inputs generalizing s with
  | nil => rfl
  | cons i rest ih =>
      rw [lastWrite_cons, ← hstep]
      exact ih (step s i)

end Xwr100.Lib
