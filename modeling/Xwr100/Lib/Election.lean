import Xwr100.Lib.Gaps
import Xwr100.Lib.Run

/-! # Leading until overruled

A station that leads calls at intervals.  One that hears a call it has to give way to stops leading
and waits; it leads again when it has heard none for as long as its patience lasts.  Whether it leads
is read off the history.  If the calls of one station reach all others in time and it hears none
itself, in the end it is the only one that leads.
-/

namespace Xwr100.Lib

/-- What a station takes for a call that overrules it and what for a tick, how many ticks it lets
pass between two calls of its own, and how many without a call of another before it leads again. -/
structure Rules (α : Type*) where
  hears : α → Bool
  tick : α → Bool
  interval : Nat
  patience : Nat
  interval_pos : 0 < interval
  patience_pos : 0 < patience

/-- Whether the station leads, the ticks until its next call, and the ticks it still waits. -/
structure Station where
  leads : Bool
  due : Nat
  wait : Nat
deriving DecidableEq, Repr

namespace Station

def Calls (s : Station) : Prop := s.leads = true ∧ s.due ≤ 1

def yield (patience : Nat) (s : Station) : Station :=
  { s with leads := false, wait := patience }

/-- A tick: the next call comes nearer, or the end of the waiting. -/
def count (interval : Nat) (s : Station) : Station :=
  if s.leads = true then { s with due := if s.due ≤ 1 then interval else s.due - 1 }
  else { s with leads := decide (s.wait - 1 = 0), wait := s.wait - 1 }

theorem count_of_leads {interval : Nat} {s : Station} (h : s.leads = true) :
    s.count interval = { s with due := if s.due ≤ 1 then interval else s.due - 1 } := if_pos h

theorem count_of_waits {interval : Nat} {s : Station} (h : s.leads = false) :
    s.count interval = { s with leads := decide (s.wait - 1 = 0), wait := s.wait - 1 } :=
  if_neg (by simp [h])

end Station

namespace Rules

variable {α : Type*} (ρ : Rules α) {s : Station} {l : List α}

def step (s : Station) (x : α) : Station :=
  if ρ.hears x then s.yield ρ.patience else if ρ.tick x then s.count ρ.interval else s

def Speaks (s : Station) (l : List α) : Prop :=
  ∃ before x after, l = before ++ x :: after ∧ ρ.hears x = false ∧ ρ.tick x = true ∧
    (exec ρ.step s before).Calls

variable {ρ}

theorem step_of_hears {x : α} (h : ρ.hears x = true) : ρ.step s x = s.yield ρ.patience := if_pos h

theorem step_of_tick {x : α} (h : ρ.hears x = false) (ht : ρ.tick x = true) :
    ρ.step s x = s.count ρ.interval := by
  simp [step, h, ht]

theorem step_of_neither {x : α} (h : ρ.hears x = false) (ht : ρ.tick x = false) :
    ρ.step s x = s := by
  simp [step, h, ht]

/-! ## Who leads -/

variable (ρ) in
/-- A station that led at first leads unless it has been overruled not long ago, and then what is
left to wait is what the last call has left of its patience. -/
structure After (l : List α) (s : Station) : Prop where
  leads_iff : s.leads = true ↔
    (∀ x ∈ l, ρ.hears x = false) ∨ ρ.patience ≤ quietFor ρ.hears ρ.tick l
  waits : s.leads = false → s.wait + quietFor ρ.hears ρ.tick l = ρ.patience

theorem After.start (h : s.leads = true) : ρ.After [] s where
  leads_iff := iff_of_true h (Or.inl fun _ hx => absurd hx List.not_mem_nil)
  waits hno := Bool.noConfusion (h.symm.trans hno)

theorem unheard_append {x : α} (hx : ρ.hears x = false) :
    (∀ y ∈ l ++ [x], ρ.hears y = false) ↔ ∀ y ∈ l, ρ.hears y = false := by
  simp [or_imp, forall_and, hx]

theorem After.hear (l : List α) (s : Station) {x : α} (hx : ρ.hears x = true) :
    ρ.After (l ++ [x]) (s.yield ρ.patience) := by
  have hquiet : quietFor ρ.hears ρ.tick (l ++ [x]) = 0 := quietFor_append_mark hx l
  have hpatience := ρ.patience_pos
  have hheard : ¬∀ y ∈ l ++ [x], ρ.hears y = false := by simp [hx]
  constructor
  · rw [hquiet]
    refine iff_of_false Bool.false_ne_true (not_or.mpr ⟨hheard, by omega⟩)
  · simp [hquiet, Station.yield]

theorem After.tick (h : ρ.After l s) {x : α} (hx : ρ.hears x = false) (ht : ρ.tick x = true) :
    ρ.After (l ++ [x]) (s.count ρ.interval) := by
  have hquiet : quietFor ρ.hears ρ.tick (l ++ [x]) = quietFor ρ.hears ρ.tick l + 1 := by
    simp [quietFor_append hx, ht]
  cases hleads : s.leads with
  | true =>
      rw [Station.count_of_leads hleads]
      constructor
      · refine iff_of_true hleads ?_
        rw [hquiet, unheard_append hx]
        exact (h.leads_iff.mp hleads).imp_right (Nat.le_add_right_of_le)
      · exact fun hno => Bool.noConfusion (hleads.symm.trans hno)
  | false =>
      have hwait := h.waits hleads
      have hheard : ¬((∀ y ∈ l, ρ.hears y = false) ∨
          ρ.patience ≤ quietFor ρ.hears ρ.tick l) := by
        simp [← h.leads_iff, hleads]
      rw [not_or] at hheard
      rw [Station.count_of_waits hleads]
      constructor
      · simp only [hquiet, unheard_append hx, hheard.1, false_or, decide_eq_true_iff]
        omega
      · intro _
        rw [hquiet]
        dsimp only
        omega

theorem After.other (h : ρ.After l s) {x : α} (hx : ρ.hears x = false) (ht : ρ.tick x = false) :
    ρ.After (l ++ [x]) s := by
  have hquiet : quietFor ρ.hears ρ.tick (l ++ [x]) = quietFor ρ.hears ρ.tick l := by
    simp [quietFor_append hx, ht]
  constructor
  · rw [h.leads_iff, hquiet, unheard_append hx]
  · rw [hquiet]
    exact h.waits

theorem After.step (h : ρ.After l s) (x : α) : ρ.After (l ++ [x]) (ρ.step s x) := by
  cases hx : ρ.hears x with
  | true =>
      rw [step_of_hears hx]
      exact .hear l s hx
  | false =>
      cases ht : ρ.tick x with
      | true =>
          rw [step_of_tick hx ht]
          exact h.tick hx ht
      | false =>
          rw [step_of_neither hx ht]
          exact h.other hx ht

theorem After.run (hs : s.leads = true) (l : List α) : ρ.After l (exec ρ.step s l) := by
  induction l using List.reverseRecOn with
  | nil => exact After.start hs
  | append_singleton l x ih =>
      rw [exec, List.foldl_append, List.foldl_cons, List.foldl_nil]
      exact ih.step x

/-! ## When it calls -/

theorem step_due_le (h : s.due ≤ ρ.interval) (x : α) : (ρ.step s x).due ≤ ρ.interval := by
  unfold step Station.yield Station.count
  split
  · exact h
  · split
    · split
      · dsimp only
        split <;> omega
      · exact h
    · exact h

theorem due_le (h : s.due ≤ ρ.interval) (l : List α) : (exec ρ.step s l).due ≤ ρ.interval := by
  induction l generalizing s with
  | nil => exact h
  | cons x l ih => exact ih (step_due_le h x)

/-- A leader that is not overruled calls when its time has come. -/
theorem speaks_of_leads (hleads : s.leads = true) (hnone : ∀ x ∈ l, ρ.hears x = false)
    (hsome : 0 < l.countP ρ.tick) (hdue : s.due ≤ l.countP ρ.tick) : ρ.Speaks s l := by
  induction l generalizing s with
  | nil => exact absurd hsome (Nat.lt_irrefl 0)
  | cons x l ih =>
      have hx := hnone x List.mem_cons_self
      have hnone' : ∀ y ∈ l, ρ.hears y = false := fun y hy => hnone y (List.mem_cons_of_mem x hy)
      have hlater : ρ.Speaks (ρ.step s x) l → ρ.Speaks s (x :: l) := by
        rintro ⟨before, y, after, rfl, hcalls⟩
        exact ⟨x :: before, y, after, rfl, hcalls⟩
      cases ht : ρ.tick x with
      | false =>
          rw [List.countP_cons_of_neg (by simp [ht])] at hsome hdue
          apply hlater
          rw [step_of_neither hx ht]
          exact ih hleads hnone' hsome hdue
      | true =>
          by_cases hnow : s.due ≤ 1
          · exact ⟨[], x, l, rfl, hx, ht, hleads, hnow⟩
          · rw [List.countP_cons_of_pos ht] at hdue
            apply hlater
            rw [step_of_tick hx ht, Station.count_of_leads hleads, if_neg hnow]
            exact ih hleads hnone' (by omega) (Nat.sub_le_iff_le_add.mpr hdue)

/-- What it says in one history and then another it says in one of them. -/
theorem speaks_append {l₁ l₂ : List α} (h : ρ.Speaks s (l₁ ++ l₂)) :
    ρ.Speaks s l₁ ∨ ρ.Speaks (exec ρ.step s l₁) l₂ := by
  obtain ⟨before, x, after, heq, hx, ht, hcalls⟩ := h
  rcases List.append_eq_append_iff.mp heq with ⟨first, rfl, hsecond⟩ | ⟨first, hfirst, hsecond⟩
  · right
    refine ⟨first, x, after, hsecond, hx, ht, ?_⟩
    rwa [exec, List.foldl_append] at hcalls
  · cases first with
    | nil =>
        right
        refine ⟨[], x, after, hsecond.symm, hx, ht, ?_⟩
        rw [hfirst, List.append_nil]
        exact hcalls
    | cons y first =>
        left
        rw [List.cons_append, List.cons.injEq] at hsecond
        exact ⟨before, x, first, by rw [hfirst, hsecond.1], hx, ht, hcalls⟩

end Rules

/-! ## Rounds -/

section Rounds

variable {α : Type*} {tick : α → Bool} {past : List α} {rounds : Nat → List α}

/-- What happens in `k` rounds from round `t` on. -/
def during (rounds : Nat → List α) (t k : Nat) : List α := (List.range' t k).flatMap rounds

/-- What has happened before round `t`. -/
def history (past : List α) (rounds : Nat → List α) (t : Nat) : List α :=
  past ++ during rounds 0 t

theorem during_add (t j k : Nat) :
    during rounds t (j + k) = during rounds t j ++ during rounds (t + j) k := by
  rw [during, ← List.range'_append_1, List.flatMap_append]
  rfl

theorem history_add (t k : Nat) :
    history past rounds (t + k) = history past rounds t ++ during rounds t k := by
  rw [history, during_add, Nat.zero_add, ← List.append_assoc]
  rfl

theorem during_one (t : Nat) : during rounds t 1 = rounds t := by
  simp [during]

theorem mem_during {x : α} {t k : Nat} :
    x ∈ during rounds t k ↔ ∃ u, t ≤ u ∧ u < t + k ∧ x ∈ rounds u := by
  simp [during, List.mem_flatMap, and_assoc]

theorem countP_during (hticks : ∀ t, (rounds t).countP tick = 1) (t k : Nat) :
    (during rounds t k).countP tick = k := by
  induction k with
  | zero => rfl
  | succ k ih => rw [during_add, List.countP_append, ih, during_one, hticks]

namespace Rules

variable {ρ : Rules α} {s : Station} {t₀ t : Nat} (hleads : s.leads = true)
  (hticks : ∀ t, (rounds t).countP ρ.tick = 1)

include hleads hticks

/-- A station that was overruled not long ago does not lead. -/
theorem not_leads_of_heard {u : Nat} (hut : u < t) (ht : t < u + ρ.patience)
    {x : α} (hx : x ∈ rounds u) (h : ρ.hears x = true) :
    (exec ρ.step s (history past rounds t)).leads = false := by
  obtain ⟨k, rfl⟩ := Nat.exists_eq_add_of_le hut.le
  have hrun : ρ.After _ _ := .run hleads (history past rounds (u + k))
  have hmem : x ∈ during rounds u k := mem_during.mpr ⟨u, Nat.le_refl u, hut, hx⟩
  have hquiet : quietFor ρ.hears ρ.tick (history past rounds (u + k)) ≤ k := by
    rw [history_add]
    exact (quietFor_le_of_mark hmem h).trans (countP_during hticks u k).le
  have hheard : ¬∀ y ∈ history past rounds (u + k), ρ.hears y = false := by
    intro hnone
    have hno := hnone x (by rw [history_add]; exact List.mem_append_right _ hmem)
    exact Bool.noConfusion (h.symm.trans hno)
  rw [← Bool.not_eq_true, hrun.leads_iff, not_or]
  exact ⟨hheard, by omega⟩

variable (hnone : ∀ t, t₀ ≤ t → ∀ x ∈ rounds t, ρ.hears x = false)
  (ht : t₀ + ρ.patience ≤ t)

include hnone ht

/-- When all calls that overrule it are long past, the station leads. -/
theorem leads_of_unheard : (exec ρ.step s (history past rounds t)).leads = true := by
  obtain ⟨k, rfl⟩ := Nat.exists_eq_add_of_le (Nat.le_of_add_right_le ht)
  have hrun : ρ.After _ _ := .run hleads (history past rounds (t₀ + k))
  have hunheard : ∀ x ∈ during rounds t₀ k, ρ.hears x = false := by
    intro x hx
    obtain ⟨u, hu, -, hxu⟩ := mem_during.mp hx
    exact hnone u hu x hxu
  rw [hrun.leads_iff, history_add, quietFor_append_unmarked hunheard, countP_during hticks]
  right
  omega

/-- From then on it calls in every stretch of `interval` rounds. -/
theorem speaks_within (hdue : s.due ≤ ρ.interval) :
    ∃ u, t ≤ u ∧ u < t + ρ.interval ∧
      ρ.Speaks (exec ρ.step s (history past rounds u)) (rounds u) := by
  have hlead : (exec ρ.step s (history past rounds t)).leads = true :=
    leads_of_unheard hleads hticks hnone ht
  have hunheard : ∀ x ∈ during rounds t ρ.interval, ρ.hears x = false := by
    intro x hx
    obtain ⟨u, hu, -, hxu⟩ := mem_during.mp hx
    exact hnone u (by omega) x hxu
  have hcount := countP_during hticks t ρ.interval
  have hspeaks : ρ.Speaks _ (during rounds t ρ.interval) :=
    speaks_of_leads hlead hunheard (hcount.symm ▸ ρ.interval_pos) (hcount.symm ▸ due_le hdue _)
  -- the call falls into one of the rounds
  have hround : ∀ k, ρ.Speaks (exec ρ.step s (history past rounds t)) (during rounds t k) →
      ∃ u, t ≤ u ∧ u < t + k ∧
        ρ.Speaks (exec ρ.step s (history past rounds u)) (rounds u) := by
    intro k
    induction k with
    | zero =>
        rintro ⟨before, x, after, heq, -⟩
        simp [during] at heq
    | succ k ih =>
        intro h
        rw [during_add, during_one] at h
        rcases speaks_append h with h | h
        · obtain ⟨u, htu, hu, hspeaks⟩ := ih h
          exact ⟨u, htu, by omega, hspeaks⟩
        · refine ⟨t + k, Nat.le_add_right t k, by omega, ?_⟩
          rwa [history_add, exec, List.foldl_append]
  exact hround ρ.interval hspeaks

end Rules

/-! ## Elections -/

section Elections

variable {ι : Type*} {ρ : ι → Rules α} {start : ι → Station} {past : ι → List α}
  {rounds : ι → Nat → List α} {lowest : ι} {t₀ w t : Nat}

/-- From round `t₀` on one station hears no call that overrules it, and each of its calls is
followed within `w` rounds by one that overrules another station: after its patience, its interval
and these `w` rounds it is the only one that leads. -/
theorem elected (hleads : ∀ i, (start i).leads = true)
    (hticks : ∀ i t, (rounds i t).countP (ρ i).tick = 1)
    (hdue : (start lowest).due ≤ (ρ lowest).interval)
    (hunheard : ∀ t, t₀ ≤ t → ∀ x ∈ rounds lowest t, (ρ lowest).hears x = false)
    (hheard : ∀ t, t₀ ≤ t →
      (ρ lowest).Speaks
        (exec (ρ lowest).step (start lowest) (history (past lowest) (rounds lowest) t))
        (rounds lowest t) →
      ∀ i ≠ lowest, ∃ u, t ≤ u ∧ u ≤ t + w ∧ ∃ x ∈ rounds i u, (ρ i).hears x = true)
    (hw : ∀ i, (ρ lowest).interval + w < (ρ i).patience)
    (ht : t₀ + (ρ lowest).patience + (ρ lowest).interval + w ≤ t) (i : ι) :
    (exec (ρ i).step (start i) (history (past i) (rounds i) t)).leads = true ↔ i = lowest := by
  constructor
  · intro hlead
    by_contra hother
    obtain ⟨u, hu, hu', hspeaks⟩ := @Rules.speaks_within _ (past lowest) _ _ _ _
      (t - w - (ρ lowest).interval) (hleads lowest) (hticks lowest) hunheard (by omega) hdue
    obtain ⟨v, huv, hv, x, hx, hhears⟩ := hheard u (by omega) hspeaks i hother
    have hno : (exec (ρ i).step (start i) (history (past i) (rounds i) t)).leads = false :=
      Rules.not_leads_of_heard (hleads i) (hticks i) (by omega) (by have := hw i; omega) hx hhears
    exact Bool.noConfusion (hlead.symm.trans hno)
  · rintro rfl
    exact Rules.leads_of_unheard (hleads i) (hticks i) hunheard (by omega)

end Elections

end Rounds

end Xwr100.Lib
