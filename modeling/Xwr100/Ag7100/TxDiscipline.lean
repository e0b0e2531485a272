import Xwr100.Ag7100.Tx

/-!
# The TX interrupt and the queue

The transmit path takes no lock against the interrupt because the interrupt is to be
enabled only while the queue is stopped.  Filling the ring and reaping keep to that; the
link timer restarts the queue without a look at the interrupt mask.
-/

namespace Xwr100.Ag7100

open Lib TxMac

variable {c : TxConf} {s : TxMac}

/-- The TX interrupt is enabled only while the queue is stopped, its handler runs only while
`ag7100_hard_start` does not, and the ring-full path never finds the queue stopped. -/
def TxDiscipline (s : TxMac) : Prop :=
  (s.txIntr = true → s.queueStopped = true) ∧ (s.intr ≠ none → s.task = .idle) ∧
  s.bug ≠ some .queueStopped

instance (s : TxMac) : Decidable (TxDiscipline s) := inferInstanceAs (Decidable (_ ∧ _ ∧ _))

/-- When the link timer runs and restarts the queue, the TX interrupt is masked. -/
def RestartMasked (s : TxMac) : Input → Prop
  | .checkLink (some l) =>
      s.bug = none → s.quiet = true → s.linkChanged l = true → s.txIntr = false
  | _ => True

instance (s : TxMac) : ∀ i, Decidable (RestartMasked s i)
  | .hardStart _ => isTrue trivial
  | .run => isTrue trivial
  | .txInterrupt => isTrue trivial
  | .dma => isTrue trivial
  | .checkLink none => isTrue trivial
  | .checkLink (some l) => inferInstanceAs
      (Decidable (s.bug = none → s.quiet = true → s.linkChanged l = true → s.txIntr = false))

/-! ## Control state -/

structure Control (s : TxMac) : Prop where
  masked : s.txIntr = true → s.queueStopped = true ∧ s.task = .idle
  handler : s.intr ≠ none → s.txIntr = true
  started : s.task ≠ .idle → s.task ≠ .enableTx → s.queueStopped = false
  full : s.task = .enableTx → s.queueStopped = true
  bug : s.bug ≠ some .queueStopped

theorem Control.init (queueStopped carrier : Bool) (speed fdx : Int) :
    Control (TxMac.init queueStopped carrier speed fdx) := by
  constructor <;> simp [TxMac.init]

theorem Control.discipline (h : Control s) : TxDiscipline s :=
  ⟨fun hi => (h.masked hi).1, fun hh => (h.masked (h.handler hh)).2, h.bug⟩

structure SameControl (s s' : TxMac) : Prop where
  txIntr : s'.txIntr = s.txIntr
  queueStopped : s'.queueStopped = s.queueStopped
  task : s'.task = s.task
  intr : s'.intr = s.intr
  bug : s'.bug = s.bug ∨ s'.bug = some .noPacket ∨ s'.bug = some .nullLastds

theorem Control.of_same {s' : TxMac} (h : Control s) (hs : SameControl s s') : Control s' := by
  obtain ⟨hi, hq, ht, hh, hb⟩ := hs
  constructor
  · rw [hi, hq, ht]
    exact h.masked
  · rw [hh, hi]
    exact h.handler
  · rw [ht, hq]
    exact h.started
  · rw [ht, hq]
    exact h.full
  · rcases hb with hsame | hnew | hnew
    · rw [hsame]
      exact h.bug
    · simp [hnew]
    · simp [hnew]

/-! ## Reaping -/

theorem reapLoop_same (head tail : Nat) : SameControl s (s.reapLoop c head tail).1 := by
  unfold reapLoop
  split
  · exact ⟨rfl, rfl, rfl, rfl, .inl rfl⟩
  · split
    · exact ⟨rfl, rfl, rfl, rfl, .inl rfl⟩
    · split
      · exact ⟨rfl, rfl, rfl, rfl, .inr (.inl rfl)⟩
      · split
        · exact ⟨rfl, rfl, rfl, rfl, .inr (.inr rfl)⟩
        · split
          · exact ⟨rfl, rfl, rfl, rfl, .inl rfl⟩
          · exact ⟨rfl, rfl, rfl, rfl, .inl rfl⟩

/-- Reaping changes mask and queue only at its end, and then restarts a stopped queue with the
interrupt masked. -/
theorem txReap_cases (r : Reap) :
    SameControl s (s.txReap c r).1 ∨
    ((s.txReap c r).2 = none ∧ s.queueStopped = true ∧
      (s.txReap c r).1 = { s with txIntr := false, queueStopped := false }) := by
  cases r with
  | enter => exact .inl ⟨rfl, rfl, rfl, rfl, .inl rfl⟩
  | lock head tail => exact .inl ⟨rfl, rfl, rfl, rfl, .inl rfl⟩
  | loop head tail => exact .inl (reapLoop_same head tail)
  | wake =>
      unfold txReap reapWake
      by_cases hwake : (s.queueStopped && decide (4 * c.txMaxDescPerDsPkt ≤ s.ndescUnused c) &&
          s.carrier) = true
      · right
        rw [if_pos hwake]
        simp only [Bool.and_eq_true] at hwake
        exact ⟨rfl, hwake.1.1, rfl⟩
      · left
        rw [if_neg hwake]
        exact ⟨rfl, rfl, rfl, rfl, .inl rfl⟩

/-! ## Steps -/

theorem Control.hardStart (h : Control s) (hq : s.quiet = true) (hrun : s.queueStopped = false)
    (f : Frame) : Control (s.hardStart c f) := by
  simp only [quiet, Bool.and_eq_true, decide_eq_true_eq, Option.isNone_iff_eq_none] at hq
  have hmask : s.txIntr = false := by
    cases hi : s.txIntr with
    | false => rfl
    | true =>
        have hstop := (h.masked hi).1
        rw [hrun] at hstop
        cases hstop
  unfold TxMac.hardStart
  split
  · exact h
  · split <;> constructor <;> simp [hmask, hrun, hq.2, h.bug]

theorem Control.runReap (h : Control s) {f : Frame} {r : Reap} (ht : s.task = .reaping f r) :
    Control (s.runReap c f r) := by
  have hrun : s.queueStopped = false := h.started (by simp [ht]) (by simp [ht])
  have hmask : s.txIntr ≠ true := fun hi => by simp [(h.masked hi).2] at ht
  unfold TxMac.runReap
  rcases @txReap_cases c s r with hsame | ⟨-, hstop, -⟩
  · have hs' := h.of_same hsame
    have hi := hsame.txIntr
    have hq := hsame.queueStopped
    have hh := hs'.handler
    rw [hi] at hh
    rcases hreap : s.txReap c r with ⟨s', next⟩
    rw [hreap] at hs' hi hq hh
    cases next with
    | some r' =>
        constructor
        · exact fun hi' => absurd (hi.symm.trans hi') hmask
        · exact fun hi' => absurd (hh hi') hmask
        · exact fun _ _ => hq.trans hrun
        · exact fun hf => by cases hf
        · exact hs'.bug
    | none =>
        constructor
        · exact fun hi' => absurd (hi.symm.trans hi') hmask
        · exact fun hi' => absurd (hh hi') hmask
        · exact fun _ _ => hq.trans hrun
        · exact fun hf => by cases hf
        · exact hs'.bug
  · rw [hrun] at hstop
    cases hstop

theorem nextDs_ne (x : Xmit) : nextDs x ≠ .idle ∧ nextDs x ≠ .enableTx := by
  unfold nextDs
  split <;> simp

/-- A step inside `ag7100_hard_start` that leaves mask, queue and handler alone. -/
theorem Control.inside {s' : TxMac} (h : Control s) (ht : s.task ≠ .idle)
    (ht' : s.task ≠ .enableTx) (hi : s'.txIntr = s.txIntr)
    (hq : s'.queueStopped = s.queueStopped) (hh : s'.intr = s.intr)
    (hne : s'.task ≠ .enableTx) (hb : s'.bug ≠ some .queueStopped) : Control s' := by
  have hrun : s.queueStopped = false := h.started ht ht'
  have hmask : s.txIntr ≠ true := fun hm => ht (h.masked hm).2
  constructor
  · exact fun hi' => absurd (hi.symm.trans hi') hmask
  · exact fun hh' => absurd (h.handler (by rw [← hh]; exact hh')) hmask
  · exact fun _ _ => hq.trans hrun
  · exact fun hf => absurd hf hne
  · exact hb

theorem Control.runTask (h : Control s) (hintr : s.intr = none) : Control (s.runTask c) := by
  unfold TxMac.runTask
  split
  · exact h
  · rename_i f r ht
    exact h.runReap ht
  · rename_i f ht
    unfold TxMac.begin
    split
    · exact h.inside (by simp [ht]) (by simp [ht]) rfl rfl rfl (by simp [ht]) (by simp)
    · exact h.inside (by simp [ht]) (by simp [ht]) rfl rfl rfl (by simp) h.bug
  · rename_i x ht
    unfold TxMac.getTxDs
    split
    · exact h.inside (by simp [ht]) (by simp [ht]) rfl rfl rfl (by simp [ht]) (by simp)
    · refine h.inside (by simp [ht]) (by simp [ht]) rfl rfl rfl ?_ h.bug
      dsimp only
      split
      · exact (nextDs_ne _).2
      · simp
  · rename_i x ht
    exact h.inside (by simp [ht]) (by simp [ht]) rfl rfl rfl (nextDs_ne x).2 h.bug
  · rename_i x ht
    exact h.inside (by simp [ht]) (by simp [ht]) rfl rfl rfl (by simp [giveFirst, giveToDma]) h.bug
  · rename_i x ht
    exact h.inside (by simp [ht]) (by simp [ht]) rfl rfl rfl (by simp [book]) h.bug
  · rename_i ht
    have hrun : s.queueStopped = false := h.started (by simp [ht]) (by simp [ht])
    have hmask : s.txIntr = false := by
      cases hi : s.txIntr with
      | false => rfl
      | true => simp [(h.masked hi).2] at ht
    unfold TxMac.start
    split
    · rw [hrun]
      constructor <;> simp [hmask, hintr, h.bug]
    · constructor <;> simp [hmask, hintr, h.bug]
  · rename_i ht
    have hstop := h.full ht
    constructor <;> simp [hstop, hintr, h.bug]

theorem Control.txInterrupt (h : Control s) : Control (s.txInterrupt c) := by
  unfold TxMac.txInterrupt
  split
  · rename_i r hr
    have hmask := h.handler (by simp [hr])
    obtain ⟨hstop, hidle⟩ := h.masked hmask
    rcases @txReap_cases c s r with hsame | ⟨hnone, -, heq⟩
    · have hs' := h.of_same hsame
      constructor
      · exact hs'.masked
      · exact fun _ => hsame.txIntr.trans hmask
      · exact hs'.started
      · exact hs'.full
      · exact hs'.bug
    · constructor
      · intro hi
        simp only [heq] at hi
        cases hi
      · exact fun hne => absurd hnone hne
      · intro ht
        simp only [heq] at ht
        exact absurd hidle ht
      · intro ht
        simp only [heq, hidle] at ht
        cases ht
      · simp only [heq]
        exact h.bug
  · split
    · rename_i hraise
      simp only [Bool.and_eq_true] at hraise
      exact ⟨h.masked, fun _ => hraise.1, h.started, h.full, h.bug⟩
    · exact h

theorem Control.dmaComplete (h : Control s) : Control (s.dmaComplete c) := by
  unfold TxMac.dmaComplete
  split
  · exact h.of_same ⟨rfl, rfl, rfl, rfl, .inl rfl⟩
  · exact h

theorem Control.checkLink (h : Control s) (hq : s.quiet = true) {l : Option LinkStatus}
    (hmask : ∀ l', l = some l' → s.linkChanged l' = true → s.txIntr = false) :
    Control (s.checkLink l) := by
  simp only [quiet, Bool.and_eq_true, decide_eq_true_eq, Option.isNone_iff_eq_none] at hq
  obtain ⟨hidle, hintr⟩ := hq
  unfold TxMac.checkLink
  split
  · exact h
  · rename_i l'
    split
    · split
      · constructor <;> simp [hidle, hintr, h.bug]
      · exact h
    · split
      · rename_i hchanged
        constructor <;> simp [hidle, hintr, h.bug, hmask l' rfl hchanged]
      · exact h

theorem step_control (c : TxConf) (s : TxMac) (i : Input) (h : Control s)
    (hkeep : RestartMasked s i) : Control (s.step c i) := by
  unfold TxMac.step
  cases hbug : s.bug with
  | some b => exact h
  | none =>
      simp only [Option.isSome_none, Bool.false_eq_true, if_false]
      cases i with
      | hardStart f =>
          dsimp only
          split
          · rename_i hok
            simp only [Bool.and_eq_true, Bool.not_eq_eq_eq_not, Bool.not_true] at hok
            exact h.hardStart hok.1 hok.2 f
          · exact h
      | run =>
          dsimp only
          split
          · rename_i hok
            exact h.runTask (Option.isNone_iff_eq_none.mp hok)
          · exact h
      | txInterrupt => exact h.txInterrupt
      | dma => exact h.dmaComplete
      | checkLink l =>
          dsimp only
          split
          · rename_i hok
            refine h.checkLink hok fun l' hl hchanged => ?_
            rw [hl] at hkeep
            exact hkeep hbug hok hchanged
          · exact h

/-! ## Runs -/

/-- A restart with the interrupt enabled breaks the discipline at once. -/
theorem restartMasked_of_discipline {i : Input} (h : TxDiscipline (s.step c i)) :
    RestartMasked s i := by
  cases i with
  | checkLink l =>
      cases l with
      | none => trivial
      | some l =>
          intro hbug hq hchanged
          have hup : l.phyUp = true := by
            simp only [linkChanged, Bool.and_eq_true] at hchanged
            exact hchanged.1.1
          obtain ⟨hmask, -, -⟩ := h
          simp only [TxMac.step, hbug, Option.isSome_none, Bool.false_eq_true, if_false, hq, if_true,
            TxMac.checkLink, hup, Bool.not_true, hchanged, imp_false, Bool.not_eq_true] at hmask
          exact hmask
  | hardStart f => trivial
  | run => trivial
  | txInterrupt => trivial
  | dma => trivial

/-- A run keeps the discipline at every step exactly if every restart by the link timer finds
the TX interrupt masked. -/
theorem run_txDiscipline_iff (c : TxConf) (queueStopped carrier : Bool) (speed fdx : Int)
    (inputs : List Input) :
    Along (step c) (fun s i => TxDiscipline (s.step c i)) (.init queueStopped carrier speed fdx)
      inputs ↔
    Along (step c) RestartMasked (.init queueStopped carrier speed fdx) inputs := by
  refine along_congr ?_ (step_control c) (Control.init queueStopped carrier speed fdx)
  intro s i hs
  constructor
  · exact restartMasked_of_discipline
  · exact fun hkeep => (step_control c s i hs hkeep).discipline

/-- Segments of 512 bytes and a ring for four packets. -/
def fourPackets : TxConf := ⟨512, 4, 1518, by decide, by decide⟩

/-- A frame of full length, sent without anything coming between. -/
def sendFrame (skb : Nat) : List Input := .hardStart ⟨skb, 0, 1518⟩ :: List.replicate 15 .run

def flap : List Input := [.checkLink (some ⟨false, 1, 2⟩), .checkLink (some ⟨true, 1, 2⟩)]

/-- Four frames fill the ring; when the link has gone down and come back, the queue runs with
the TX interrupt enabled. -/
theorem flap_starts_queue :
    ¬ TxDiscipline (exec (step fourPackets) (.init false true 2 1)
      (sendFrame 0 ++ sendFrame 1 ++ sendFrame 2 ++ sendFrame 3 ++ flap)) := by
  decide +kernel

end Xwr100.Ag7100
