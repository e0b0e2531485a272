import Mathlib.Algebra.GroupWithZero.Nat
import Xwr100.Gpio.Monitor

/-! # What the reset button is taken for

The counter of pressed samples goes on over a release, so a call signals what all presses
together amount to.  It is right where they say what the last press says.
-/

namespace Xwr100.Gpio

open Lib Monitor

variable {watchdogStatus stopClock : Bool} {flag res : BitVec 32}

/-! ## One sample -/

/-- What is counted after the samples, in a run from `start`. -/
structure Counted (m : Monitor) (past : List Sample) : Prop where
  startMonitor_eq : m.startMonitor = true
  buttonTest_eq : m.buttonTest = false
  btick_eq : m.btick = BitVec.ofNat 32 (pressedTotal past)

theorem counted_start :
    Counted (start watchdogStatus stopClock flag res) [] := ⟨rfl, rfl, rfl⟩

/-- A call in normal mode, apart from the watchdog and the security button. -/
theorem hwctlGpiomonitor_normal {m : Monitor} {past : List Sample} (h : Counted m past)
    (s : Sample) :
    m.hwctlGpiomonitor s = ((m.watchdogClock.1.resetButton s).1,
      m.watchdogClock.2 ++ (m.watchdogClock.1.resetButton s).2 ++ securityButton s) := by
  have htest : m.watchdogClock.1.buttonTest = false := by
    unfold watchdogClock
    split <;> exact h.buttonTest_eq
  unfold hwctlGpiomonitor
  rw [if_pos h.startMonitor_eq]
  simp only [h.buttonTest_eq, Bool.false_eq_true, if_false]

theorem watchdogClock_frame (m : Monitor) :
    m.watchdogClock.1.startMonitor = m.startMonitor ∧
      m.watchdogClock.1.buttonTest = m.buttonTest ∧ m.watchdogClock.1.btick = m.btick := by
  unfold watchdogClock
  split <;> exact ⟨rfl, rfl, rfl⟩

theorem resetButton_frame (m : Monitor) (s : Sample) :
    (m.resetButton s).1.startMonitor = m.startMonitor ∧
      (m.resetButton s).1.buttonTest = m.buttonTest ∧
      (m.resetButton s).1.btick = if s.reset then m.btick else m.btick + 1 := by
  unfold resetButton
  dsimp only
  split <;> split <;> [split; skip; skip; skip] <;> exact ⟨rfl, rfl, rfl⟩

theorem counted_step {m : Monitor} {past : List Sample} (h : Counted m past) (s : Sample) :
    Counted (m.step s) (past ++ [s]) := by
  obtain ⟨hstart, htest, hbtick⟩ := watchdogClock_frame m
  obtain ⟨hstart', htest', hbtick'⟩ := resetButton_frame m.watchdogClock.1 s
  unfold step
  rw [hwctlGpiomonitor_normal h]
  refine ⟨hstart'.trans (hstart.trans h.startMonitor_eq), htest'.trans (htest.trans h.buttonTest_eq),
    hbtick'.trans ?_⟩
  rw [hbtick, h.btick_eq, pressedTotal_concat]
  split
  · rfl
  · rw [BitVec.ofNat_add]
    rfl

theorem counted_exec (past : List Sample) :
    Counted (exec step (start watchdogStatus stopClock flag res) past) past := by
  induction past using List.reverseRecOn with
  | nil => exact counted_start
  | append_singleton past s ih =>
      rw [exec, List.foldl_append]
      exact counted_step ih s

/-! ## The signals of a sample -/

theorem count_burst (sig sig' : Nat) :
    (burst sig).count (.killProc sig') = if sig = sig' then 3 else 0 := by
  rw [burst, List.count_replicate]
  simp

/-- Only the reset button sends the two signals. -/
theorem sends_eq_resetButton {m : Monitor} {past : List Sample} (h : Counted m past) (s : Sample)
    {sig : Nat} (hsig : sig = sigusr1 ∨ sig = sigusr2) :
    m.sends s sig = (m.watchdogClock.1.resetButton s).2.count (.killProc sig) := by
  have hclock : m.watchdogClock.2.count (.killProc sig) = 0 := by
    unfold watchdogClock
    split <;> simp
  have hsecurity : (securityButton s).count (.killProc sig) = 0 := by
    unfold securityButton
    rcases hsig with rfl | rfl <;> split <;> decide
  rw [sends, hwctlGpiomonitor_normal h, List.count_append, List.count_append, hclock, hsecurity]
  omega

/-- How often the two signals are sent, in terms of all pressed samples. -/
theorem sends_eq {m : Monitor} {past : List Sample} (h : Counted m past) (s : Sample) :
    (m.sends s sigusr1 =
      if s.reset ∧ 1 ≤ pressedTotal past % 2 ^ 32 ∧ pressedTotal past % 2 ^ 32 ≤ 45 then 3 else 0) ∧
    (m.sends s sigusr2 =
      if (if s.reset then 45 < pressedTotal past % 2 ^ 32 else 45 < (pressedTotal past + 1) % 2 ^ 32)
        then 3 else 0) := by
  obtain ⟨-, -, hbtick⟩ := watchdogClock_frame m
  rw [h.btick_eq] at hbtick
  rw [sends_eq_resetButton h s (Or.inl rfl), sends_eq_resetButton h s (Or.inr rfl)]
  generalize m.watchdogClock.1 = m' at hbtick
  have hzero : m'.btick ≠ 0 ↔ 1 ≤ pressedTotal past % 2 ^ 32 := by
    have hnone : (0 : BitVec 32).toNat = 0 := rfl
    rw [hbtick, ne_eq, ← BitVec.toNat_inj, BitVec.toNat_ofNat, hnone]
    omega
  have hle : m'.btick ≤ hwctlRestdelay ↔ pressedTotal past % 2 ^ 32 ≤ 45 := by
    rw [hbtick, BitVec.le_def]
    rfl
  have hlt : hwctlRestdelay < m'.btick + 1 ↔ 45 < (pressedTotal past + 1) % 2 ^ 32 := by
    rw [hbtick, BitVec.lt_def, BitVec.toNat_add, BitVec.toNat_ofNat, Nat.mod_add_mod]
    rfl
  unfold resetButton
  dsimp only
  cases hs : s.reset with
  | true =>
      simp only [if_true, true_and, hzero, hle]
      by_cases hone : 1 ≤ pressedTotal past % 2 ^ 32
      · by_cases hmost : pressedTotal past % 2 ^ 32 ≤ 45
        · rw [if_pos hone, if_pos hmost, if_pos ⟨hone, hmost⟩, if_neg (Nat.not_lt_of_le hmost),
            count_burst, count_burst]
          decide
        · rw [if_pos hone, if_neg hmost, if_neg (mt And.right hmost), if_pos (Nat.lt_of_not_le hmost),
            count_burst, count_burst]
          decide
      · rw [if_neg hone, if_neg (mt And.left hone), if_neg (by omega)]
        exact ⟨rfl, rfl⟩
  | false =>
      simp only [Bool.false_eq_true, if_false, false_and, hlt]
      by_cases hmore : 45 < (pressedTotal past + 1) % 2 ^ 32
      · rw [if_pos hmore, if_pos hmore, count_burst, count_burst]
        decide
      · rw [if_neg hmore, if_neg hmore]
        exact ⟨rfl, rfl⟩

/-! ## What a sample should be taken for -/

/-- The defaults are asked for only in a press of more than 45 samples or at its release, and a
reboot exactly at the release of a shorter one. -/
structure SignalsRight (m : Monitor) (past : List Sample) (s : Sample) : Prop where
  default : 0 < m.sends s sigusr2 →
    if s.reset then 45 < pressLength past else 45 < pressLength (past ++ [s])
  reboot : m.sends s sigusr1 =
    if s.reset ∧ 1 ≤ pressLength past ∧ pressLength past ≤ 45 then 3 else 0

def Honest (m : Monitor) (samples : List Sample) : Prop :=
  ∀ past s rest, samples = past ++ s :: rest → SignalsRight (exec step m past) past s

/-- All pressed samples, counted with 32 bits, say of the sample what the press does. -/
structure TotalsRight (past : List Sample) (s : Sample) : Prop where
  pressed : s.reset = false → 45 < (pressedTotal past + 1) % 2 ^ 32 → 45 < pressLength past + 1
  released : s.reset = true →
    (1 ≤ pressedTotal past % 2 ^ 32 ∧ pressedTotal past % 2 ^ 32 ≤ 45 ↔
      1 ≤ pressLength past ∧ pressLength past ≤ 45)
  long : s.reset = true → 45 < pressedTotal past % 2 ^ 32 → 45 < pressLength past

theorem three_pos_iff {p : Prop} [Decidable p] : 0 < (if p then 3 else 0) ↔ p := by
  split <;> simp [*]

theorem three_eq_iff {p q : Prop} [Decidable p] [Decidable q] :
    (if p then 3 else 0) = (if q then 3 else 0) ↔ (p ↔ q) := by
  by_cases hp : p <;> by_cases hq : q <;> simp [hp, hq]

theorem signalsRight_iff {m : Monitor} {past : List Sample} (h : Counted m past) (s : Sample) :
    SignalsRight m past s ↔ TotalsRight past s := by
  obtain ⟨hreboot, hdefault⟩ := sends_eq h s
  have hdef : 0 < m.sends s sigusr2 ↔
      if s.reset then 45 < pressedTotal past % 2 ^ 32
      else 45 < (pressedTotal past + 1) % 2 ^ 32 := by
    rw [hdefault, three_pos_iff]
  have hlength := pressLength_concat past s
  cases hs : s.reset with
  | true =>
      simp only [hs, if_true, true_and] at hreboot hdef
      constructor
      · rintro ⟨hdefault, hreb⟩
        simp only [hs, if_true, true_and] at hdefault hreb
        rw [hreboot, three_eq_iff] at hreb
        refine ⟨fun hnot => ?_, fun _ => hreb, fun _ hlong => hdefault (hdef.mpr hlong)⟩
        rw [hs] at hnot
        contradiction
      · intro ht
        constructor
        · intro hpos
          rw [if_pos hs]
          exact ht.long hs (hdef.mp hpos)
        · simp only [hs, true_and]
          rw [hreboot, three_eq_iff]
          exact ht.released hs
  | false =>
      simp only [hs, Bool.false_eq_true, if_false, false_and] at hreboot hdef hlength
      constructor
      · rintro ⟨hdefault, -⟩
        refine ⟨fun _ hmore => ?_, fun hnot => ?_, fun hnot => ?_⟩
        · have hlong := hdefault (hdef.mpr hmore)
          simp only [hs, Bool.false_eq_true, if_false] at hlong
          rwa [hlength] at hlong
        · rw [hs] at hnot
          contradiction
        · rw [hs] at hnot
          contradiction
      · intro ht
        constructor
        · intro hpos
          simp only [hs, Bool.false_eq_true, if_false]
          rw [hlength]
          exact ht.pressed hs (hdef.mp hpos)
        · rw [hreboot]
          simp [hs]

/-- For every run: the signals are right exactly where the presses together say what the last
one says. -/
theorem run_signals_iff (watchdogStatus stopClock : Bool) (flag res : BitVec 32)
    (samples : List Sample) :
    Honest (start watchdogStatus stopClock flag res) samples ↔
      ∀ past s rest, samples = past ++ s :: rest → TotalsRight past s := by
  constructor
  · intro h past s rest hsplit
    exact (signalsRight_iff (counted_exec past) s).mp (h past s rest hsplit)
  · intro h past s rest hsplit
    exact (signalsRight_iff (counted_exec past) s).mpr (h past s rest hsplit)

/-- A short press signals a reboot at every sample after it; and two presses of six seconds ask for
the defaults. -/
theorem run_missignals :
    ¬Honest (start false false 0 0) [⟨false, true⟩, ⟨true, true⟩, ⟨true, true⟩] ∧
    ¬Honest (start false false 0 0)
      (List.replicate 30 ⟨false, true⟩ ++ ⟨true, true⟩ :: List.replicate 30 ⟨false, true⟩) := by
  constructor
  · intro h
    have hsecond := (h [⟨false, true⟩, ⟨true, true⟩] ⟨true, true⟩ [] rfl).reboot
    revert hsecond
    decide
  · intro h
    have hdefault := (h (List.replicate 30 ⟨false, true⟩ ++ ⟨true, true⟩ ::
      List.replicate 15 ⟨false, true⟩) ⟨false, true⟩ (List.replicate 14 ⟨false, true⟩) rfl).default
    revert hdefault
    decide +kernel

/-! ## The runs with right signals -/

/-- Whatever has been pressed belongs to the press that goes on or has just been released. -/
def OnePress (samples : List Sample) : Prop :=
  ∀ past s rest, samples = past ++ s :: rest → pressedTotal past = pressLength past

/-- Behind the first press, only single samples are released. -/
def Gapless (samples : List Sample) : Prop :=
  ∀ past s rest, samples = past ++ s :: rest → s.reset = true →
    pressedTotal past = 0 ∨ 0 < pressLength past

theorem pressedTotal_append (past rest : List Sample) :
    pressedTotal (past ++ rest) = pressedTotal past + pressedTotal rest := List.countP_append

/-- While the totals are right, they stay small once a press does not say everything. -/
theorem small_of_totalsRight {past rest : List Sample} (hpast : pressLength past < pressedTotal past)
    (hle : pressedTotal past ≤ 45) (hlt : pressedTotal (past ++ rest) < 2 ^ 32)
    (h : ∀ more s rest', rest = more ++ s :: rest' → TotalsRight (past ++ more) s) :
    pressedTotal (past ++ rest) ≤ 45 := by
  induction rest generalizing past with
  | nil => rwa [List.append_nil]
  | cons s rest ih =>
      have hfirst : TotalsRight past s := by
        have := h [] s rest rfl
        rwa [List.append_nil] at this
      have hlength := pressLength_concat past s
      have htotal := pressedTotal_concat past s
      have happend : past ++ s :: rest = past ++ [s] ++ rest := by simp
      have hmore := pressedTotal_append (past ++ [s]) rest
      rw [happend] at hlt ⊢
      have hnext : pressLength (past ++ [s]) < pressedTotal (past ++ [s]) ∧
          pressedTotal (past ++ [s]) ≤ 45 := by
        cases hs : s.reset with
        | true =>
            simp only [hs, if_true] at hlength htotal
            omega
        | false =>
            simp only [hs, Bool.false_eq_true, if_false] at hlength htotal
            -- the sample that makes the total long would have to make the press long
            have hlong := hfirst.pressed hs
            omega
      refine ih hnext.1 hnext.2 hlt ?_
      intro more s' rest' hsplit
      have hthere := h (s :: more) s' rest' (by rw [hsplit, List.cons_append])
      rwa [List.append_assoc, List.singleton_append]

theorem pressedTotal_split (past : List Sample) (s : Sample) (rest : List Sample) :
    pressedTotal past + (if s.reset then 0 else 1) ≤ pressedTotal (past ++ s :: rest) := by
  have hcons : s :: rest = [s] ++ rest := rfl
  have hone : pressedTotal [s] = if s.reset then 0 else 1 := by
    cases hs : s.reset <;> simp [pressedTotal, hs]
  rw [hcons, pressedTotal_append, pressedTotal_append, hone]
  omega

theorem one_or_small {past : List Sample} {s : Sample} {rest : List Sample}
    (hlt : pressedTotal (past ++ s :: rest) < 2 ^ 32)
    (h : ∀ past' s' rest', past ++ s :: rest = past' ++ s' :: rest' → TotalsRight past' s') :
    pressedTotal past = pressLength past ∨ pressedTotal past ≤ 45 := by
  induction past using List.reverseRecOn generalizing s rest with
  | nil => exact Or.inl rfl
  | append_singleton past s' ih =>
      have happend : past ++ [s'] ++ s :: rest = past ++ s' :: s :: rest := by simp
      have hthere : TotalsRight (past ++ [s']) s := h (past ++ [s']) s rest rfl
      have hsplit := pressedTotal_split (past ++ [s']) s rest
      rw [happend] at hlt h hsplit
      have hbefore := ih hlt h
      have hhere : TotalsRight past s' := h past s' (s :: rest) rfl
      have hlength := pressLength_concat past s'
      have htotal := pressedTotal_concat past s'
      have hle := pressLength_le_total past
      cases hs' : s'.reset with
      | false =>
          simp only [hs', Bool.false_eq_true, if_false] at hlength htotal
          have hlong := hhere.pressed hs'
          omega
      | true =>
          simp only [hs', if_true] at hlength htotal
          cases hs : s.reset with
          | false =>
              simp only [hs, Bool.false_eq_true, if_false] at hsplit
              have hlong := hthere.pressed hs
              omega
          | true =>
              have hlong := hthere.long hs
              omega

/-- For runs with fewer than 2 ^ 32 pressed samples, the totals are right where there is one press
and at most one sample behind it, or where at most 45 samples are pressed in all and no two
samples in a row are released behind the first press. -/
theorem totalsRight_iff {samples : List Sample} (hlt : pressedTotal samples < 2 ^ 32) :
    (∀ past s rest, samples = past ++ s :: rest → TotalsRight past s) ↔
      OnePress samples ∨ (pressedTotal samples ≤ 45 ∧ Gapless samples) := by
  constructor
  · intro h
    by_cases hone : OnePress samples
    · exact Or.inl hone
    · right
      simp only [OnePress, not_forall] at hone
      obtain ⟨past, s, rest, hsplit, hne⟩ := hone
      have hle := pressLength_le_total past
      have hfew : pressedTotal samples ≤ 45 := by
        rw [hsplit] at hlt h ⊢
        have hsmall := (one_or_small hlt h).resolve_left hne
        apply small_of_totalsRight (by omega) hsmall hlt
        intro more s' rest' hmore
        apply h _ s' rest'
        rw [hmore, List.append_assoc]
      refine ⟨hfew, ?_⟩
      intro past' s' rest' hsplit' hs'
      have hright := (h past' s' rest' hsplit').released hs'
      have hbound := pressedTotal_split past' s' rest'
      rw [← hsplit'] at hbound
      omega
  · rintro (hone | ⟨hfew, hgap⟩) past s rest hsplit
    · have hsame := hone past s rest hsplit
      have hbound := pressedTotal_split past s rest
      rw [← hsplit] at hbound
      have hmod : pressedTotal past % 2 ^ 32 = pressLength past := by
        rw [hsame] at hbound ⊢
        exact Nat.mod_eq_of_lt (by omega)
      refine ⟨fun _ hmore => ?_, fun _ => by rw [hmod], fun _ hlong => by rwa [hmod] at hlong⟩
      rw [hsame] at hmore
      exact Nat.lt_of_lt_of_le hmore (Nat.mod_le _ _)
    · have hbound := pressedTotal_split past s rest
      rw [← hsplit] at hbound
      have hpress := pressLength_le_total past
      refine ⟨fun hs hmore => ?_, fun hs => ?_, fun hs hlong => ?_⟩
      · simp only [hs, Bool.false_eq_true, if_false] at hbound
        omega
      · have hafter := hgap past s rest hsplit hs
        omega
      · omega

end Xwr100.Gpio
