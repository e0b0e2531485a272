import Xwr100.Ag7100.RxRing

/-!
# Safety of the receive ring

Poll, timer and interrupt take turns, and each round of the receive loop finds a frame,
so replenishing starts at an empty slot.  The loop itself is bounded by quota and
ownership only: when the last buffer is passed up with quota left, it goes on into the
empty slots.
-/

namespace Xwr100.Ag7100

open Lib Lib.Ring RxMac

variable {c : RxConf} {s s' : RxMac}

/-! ## Ring safety -/

/-- The three ring assertions have not failed; between calls the slots from tail to head are
those without a buffer, and not the engine's; and the frames passed up are the first ones
received, in order, with the others in the ring from the head on. -/
structure RxSafe (c : RxConf) (s : RxMac) : Prop where
  noSkb : s.bug ≠ some .noSkb
  replenishOwned : s.bug ≠ some .replenishOwnedByDma
  replenishPkt : s.bug ≠ some .replenishBufPkt
  empties : s.task = .idle → ∃ e ≤ c.descCnt, s.head = (s.tail + e) % c.descCnt ∧
    ∀ j < c.descCnt, (s.bufPkt ((s.tail + j) % c.descCnt) = none ↔ j < e) ∧
      (j < e → s.owned ((s.tail + j) % c.descCnt) = false)
  passed : ∃ delivered pending, s.received = delivered ++ pending ∧
    s.passed = delivered.map RxFrame.putUp ∧
    (s.task = .idle → ∀ k f, pending[k]? = some f →
      (s.desc ((s.head + k) % c.descCnt)).frame = f)

def LoopFed (c : RxConf) (s : RxMac) : RxTask → Prop
  | .recv v _ => v.quota ≠ 0 → ∃ i < c.descCnt, (s.bufPkt i).isSome = true
  | _ => True

/-- When the driver goes on, the receive loop is not left without buffers. -/
def NotDrained (c : RxConf) (s : RxMac) : Input → Prop
  | .run _ => s.bug = none → LoopFed c s s.task
  | _ => True

instance (c : RxConf) (s : RxMac) : ∀ t, Decidable (LoopFed c s t)
  | .idle => isTrue trivial
  | .recv v _ => inferInstanceAs
      (Decidable (v.quota ≠ 0 → ∃ i < c.descCnt, (s.bufPkt i).isSome = true))
  | .replenish _ _ _ => isTrue trivial
  | .readStatus _ => isTrue trivial

instance (c : RxConf) (s : RxMac) : ∀ i, Decidable (NotDrained c s i)
  | .run _ => inferInstanceAs (Decidable (s.bug = none → LoopFed c s s.task))
  | .frame _ => isTrue trivial
  | .rxInterrupt => isTrue trivial
  | .poll _ => isTrue trivial
  | .oomTimer => isTrue trivial

/-! ## The invariant -/

def RxTaskOk (c : RxConf) (s : RxMac) : RxTask → Prop
  | .idle =>
      s.passed.length = s.consumed ∧ s.filled = s.refilled ∧
      (s.rxIntr = true → s.pollScheduled = false ∧ s.oomTimer = false) ∧
      (s.pollScheduled = true → s.oomTimer = false) ∧
      (s.oomTimer = true → s.consumed = s.filled + c.descCnt)
  | .recv v head =>
      head = s.passed.length % c.descCnt ∧ s.filled = s.refilled ∧
      s.rxIntr = false ∧ s.oomTimer = false ∧
      (s.passed.length = s.consumed → s.consumed < s.received.length ∧ 0 < v.quota) ∧
      v.quota + (s.passed.length - s.consumed) ≤ v.iquota
  | .replenish caller head tail =>
      head = s.head ∧ tail = s.filled % c.descCnt ∧ s.passed.length = s.consumed ∧
      s.filled < s.consumed ∧ s.rxIntr = false ∧ s.oomTimer = false ∧
      (caller = .oomTimer → s.pollScheduled = false) ∧
      ∀ v, caller = .recv v → v.quota ≤ v.iquota
  | .readStatus v =>
      s.passed.length = s.consumed ∧ s.filled = s.refilled ∧ s.rxIntr = false ∧
      s.oomTimer = false ∧ v.quota ≤ v.iquota

structure RxInv (c : RxConf) (s : RxMac) : Prop where
  bug : s.bug = none ∨ s.bug = some .noPktRcvd ∨ s.bug = some .zeroQuota
  ring : RxRingOk c s
  task : RxTaskOk c s s.task

theorem RxInv.safe (h : RxInv c s) : RxSafe c s := by
  have hring := h.ring
  have h2 := hring.filled_le
  have h3 := hring.consumed_le
  have h4 := hring.passed_le
  have h5 := hring.received_le
  have hbug := h.bug
  constructor
  · rcases hbug with hb | hb | hb <;> simp [hb]
  · rcases hbug with hb | hb | hb <;> simp [hb]
  · rcases hbug with hb | hb | hb <;> simp [hb]
  · intro hidle
    have htask := h.task
    rw [hidle] at htask
    obtain ⟨hpassed, hfilled, -⟩ := htask
    have hslot : ∀ j, (s.tail + j) % c.descCnt = (s.filled + j) % c.descCnt := by
      intro j
      rw [hring.tail, ← hfilled, Nat.mod_add_mod]
    refine ⟨s.consumed - s.filled, by omega, ?_, fun j hj => ⟨?_, fun hlt => ?_⟩⟩
    · rw [hslot, hring.head]
      congr 1
      omega
    · have hiff := hring.bufPkt (s.filled + j) (by omega) (by omega)
      rw [hslot, ← Option.not_isSome_iff_eq_none, hiff]
      omega
    · have hiff := hring.owned (s.filled + j) (by omega) (by omega)
      rw [hslot, ← Bool.not_eq_true, hiff]
      omega
  · refine ⟨_, _, (List.take_append_drop s.passed.length s.received).symm, hring.passed, ?_⟩
    intro hidle k f hk
    have htask := h.task
    rw [hidle] at htask
    obtain ⟨hpassed, -⟩ := htask
    rw [List.getElem?_drop] at hk
    have hframe := hring.frames (s.passed.length + k) f (by omega) hk
    rw [hring.head, Nat.mod_add_mod, ← hpassed]
    exact hframe

/-! ## DMA engine, interrupt and entries -/

theorem RxTaskOk.of_eq {t : RxTask} (h : RxTaskOk c s t) (hhead : s'.head = s.head)
    (hpassed : s'.passed = s.passed) (hconsumed : s'.consumed = s.consumed)
    (hfilled : s'.filled = s.filled) (hrefilled : s'.refilled = s.refilled)
    (hrx : s'.rxIntr = s.rxIntr) (hpoll : s'.pollScheduled = s.pollScheduled)
    (hoom : s'.oomTimer = s.oomTimer) (hreceived : s.received.length ≤ s'.received.length) :
    RxTaskOk c s' t := by
  cases t with
  | idle =>
      unfold RxTaskOk
      rw [hpassed, hconsumed, hfilled, hrefilled, hrx, hpoll, hoom]
      exact h
  | recv v head =>
      obtain ⟨ht, hf, hi, ho, hfirst, hq⟩ := h
      unfold RxTaskOk
      rw [hpassed, hconsumed, hfilled, hrefilled, hrx, hoom]
      refine ⟨ht, hf, hi, ho, fun heq => ?_, hq⟩
      obtain ⟨hlt, hpos⟩ := hfirst heq
      exact ⟨by omega, hpos⟩
  | replenish caller head tail =>
      unfold RxTaskOk
      rw [hhead, hpassed, hconsumed, hfilled, hrx, hpoll, hoom]
      exact h
  | readStatus v =>
      unfold RxTaskOk
      rw [hpassed, hconsumed, hfilled, hrefilled, hrx, hoom]
      exact h

theorem RxInv.dmaReceive (h : RxInv c s) (f : RxFrame) : RxInv c (s.dmaReceive c f) := by
  unfold RxMac.dmaReceive
  split
  · exact h
  · split
    · rename_i howned
      exact ⟨h.bug, h.ring.receive howned f,
        h.task.of_eq rfl rfl rfl rfl rfl rfl rfl rfl (by simp)⟩
    · exact ⟨h.bug, h.ring.of_same ⟨rfl, rfl, rfl, rfl, rfl, rfl, rfl, rfl, rfl, rfl⟩,
        h.task.of_eq rfl rfl rfl rfl rfl rfl rfl rfl le_rfl⟩

/-- Only an idle driver has its interrupt enabled. -/
theorem RxInv.idle_of_rxIntr (h : RxInv c s) (hi : s.rxIntr = true) : s.task = .idle := by
  have htask := h.task
  cases ht : s.task with
  | idle => rfl
  | recv v head =>
      rw [ht] at htask
      obtain ⟨-, -, hno, -⟩ := htask
      rw [hi] at hno
      cases hno
  | replenish caller head tail =>
      rw [ht] at htask
      obtain ⟨-, -, -, -, hno, -⟩ := htask
      rw [hi] at hno
      cases hno
  | readStatus v =>
      rw [ht] at htask
      obtain ⟨-, -, hno, -⟩ := htask
      rw [hi] at hno
      cases hno

theorem RxInv.rxInterrupt (h : RxInv c s) (hi : s.rxIntr = true) : RxInv c s.rxInterrupt := by
  have hidle := h.idle_of_rxIntr hi
  have htask := h.task
  rw [hidle] at htask
  obtain ⟨hpassed, hfilled, hrx, -, -⟩ := htask
  obtain ⟨hpoll, hoom⟩ := hrx hi
  unfold RxMac.rxInterrupt
  rw [hpoll]
  refine ⟨h.bug, h.ring.of_same ⟨rfl, rfl, rfl, rfl, rfl, rfl, rfl, rfl, rfl, rfl⟩, ?_⟩
  show RxTaskOk c { s with rxIntr := false, pollScheduled := true } s.task
  rw [hidle]
  refine ⟨hpassed, hfilled, fun hf => (by cases hf), fun _ => hoom, fun hf => ?_⟩
  rw [show s.oomTimer = true from hf] at hoom
  cases hoom

theorem RxInv.poll (h : RxInv c s) (hbug : s.bug = none) (hpoll : s.pollScheduled = true)
    (hidle : s.task = .idle) (quota : Nat) : RxInv c (s.poll quota) := by
  have htask := h.task
  rw [hidle] at htask
  obtain ⟨hpassed, hfilled, hrx, hoom, -⟩ := htask
  have hstay : ∀ b : RxBug, b = .noPktRcvd ∨ b = .zeroQuota →
      RxInv c { s with bug := some b } := by
    intro b hb
    refine ⟨?_, h.ring.of_same ⟨rfl, rfl, rfl, rfl, rfl, rfl, rfl, rfl, rfl, rfl⟩,
      h.task.of_eq rfl rfl rfl rfl rfl rfl rfl rfl le_rfl⟩
    rcases hb with rfl | rfl
    · exact .inr (.inl rfl)
    · exact .inr (.inr rfl)
  unfold RxMac.poll
  split
  · exact hstay _ (.inl rfl)
  · rename_i hrcvd
    split
    · exact hstay _ (.inr rfl)
    · rename_i hquota
      simp only [pktRcvd, Bool.not_eq_true', decide_eq_false_iff_not, not_not] at hrcvd
      refine ⟨.inl hbug, h.ring.of_same ⟨rfl, rfl, rfl, rfl, rfl, rfl, rfl, rfl, rfl, rfl⟩, ?_⟩
      refine ⟨?_, hfilled, ?_, hoom hpoll, fun _ => ⟨?_, ?_⟩, ?_⟩
      · rw [h.ring.head, ← hpassed]
      · cases hi : s.rxIntr with
        | false => rfl
        | true =>
            rw [(hrx hi).1] at hpoll
            cases hpoll
      · show s.consumed < s.received.length
        omega
      · show 0 < quota
        omega
      · show quota + (s.passed.length - s.consumed) ≤ quota
        omega

theorem RxInv.startOomTimer (h : RxInv c s) (hoom : s.oomTimer = true)
    (hidle : s.task = .idle) : RxInv c s.startOomTimer := by
  have hpos := c.descCnt_pos
  have htask := h.task
  rw [hidle] at htask
  obtain ⟨hpassed, hfilled, hrx, hpoll, hempty⟩ := htask
  have hall := hempty hoom
  have hnopoll : s.pollScheduled = false := by
    cases hp : s.pollScheduled with
    | false => rfl
    | true =>
        rw [hpoll hp] at hoom
        cases hoom
  refine ⟨h.bug, h.ring.of_same ⟨rfl, rfl, rfl, rfl, rfl, rfl, rfl, rfl, rfl, rfl⟩, ?_⟩
  refine ⟨rfl, ?_, hpassed, ?_, ?_, rfl, fun _ => hnopoll, fun v hv => (by cases hv)⟩
  · show s.tail = s.filled % c.descCnt
    rw [h.ring.tail, hfilled]
  · show s.filled < s.consumed
    omega
  · cases hi : s.rxIntr with
    | false => exact hi
    | true =>
        rw [(hrx hi).2] at hoom
        cases hoom

/-! ## The receive loop -/

/-- Past the last buffer, the slot at the loop's head is the first empty one. -/
theorem RxRingOk.drained_slot (h : RxRingOk c s) (hall : s.passed.length = s.filled + c.descCnt) :
    s.owned (s.passed.length % c.descCnt) = false ∧
    s.bufPkt (s.passed.length % c.descCnt) = none := by
  have hpos := c.descCnt_pos
  have h4 := h.passed_le
  rw [hall, Nat.add_mod_right]
  constructor
  · rw [← Bool.not_eq_true, h.owned s.filled le_rfl (by omega)]
    omega
  · rw [← Option.not_isSome_iff_eq_none, h.bufPkt s.filled le_rfl (by omega)]
    omega

theorem RxRingOk.passed_le_window (h : RxRingOk c s) :
    s.passed.length ≤ s.filled + c.descCnt := le_trans h.passed_le h.received_le

/-- A ring with a buffer left has not been read past its window. -/
theorem RxRingOk.passed_lt_iff (h : RxRingOk c s) :
    s.passed.length < s.filled + c.descCnt ↔
      ∃ i < c.descCnt, (s.bufPkt i).isSome = true := by
  have hpos := c.descCnt_pos
  have h2 := h.filled_le
  have h3 := h.consumed_le
  constructor
  · intro hlt
    refine ⟨s.passed.length % c.descCnt, Nat.mod_lt _ hpos, ?_⟩
    rw [h.bufPkt s.passed.length (by omega) hlt]
  · rintro ⟨i, hi, hsome⟩
    obtain ⟨j, hj, hj', rfl⟩ := exists_mod_eq hi s.filled
    rw [h.bufPkt j hj hj'] at hsome
    omega

theorem RxInv.endLoop (h : RxInv c s) {v : Recv} {head : Nat} (ht : s.task = .recv v head)
    (hsome : s.consumed < s.passed.length) : RxInv c (s.endLoop v head) := by
  have htask := h.task
  rw [ht] at htask
  obtain ⟨hhead, hfilled, hrx, hoom, -, hquota⟩ := htask
  have h2 := h.ring.filled_le
  unfold RxMac.endLoop
  rw [if_neg (by omega)]
  have hstore := h.ring.storeHead
  rw [← hhead] at hstore
  refine ⟨h.bug, hstore.of_same ⟨rfl, rfl, rfl, rfl, rfl, rfl, rfl, rfl, rfl, rfl⟩, ?_⟩
  refine ⟨rfl, ?_, rfl, ?_, hrx, hoom, fun hc => (by cases hc), fun v' hv => ?_⟩
  · show s.tail = s.filled % c.descCnt
    rw [h.ring.tail, hfilled]
  · show s.filled < s.passed.length
    omega
  · cases hv
    omega

theorem RxInv.recvPackets (h : RxInv c s) {v : Recv} {head : Nat} (ht : s.task = .recv v head)
    (hleft : v.quota ≠ 0 → ∃ i < c.descCnt, (s.bufPkt i).isSome = true) :
    RxInv c (s.recvPackets c v head) := by
  have htask := h.task
  rw [ht] at htask
  obtain ⟨hhead, hfilled, hrx, hoom, hfirst, hquota⟩ := htask
  have h2 := h.ring.filled_le
  have h3 := h.ring.consumed_le
  have h4 := h.ring.passed_le
  unfold RxMac.recvPackets
  by_cases hzero : v.quota = 0
  · rw [if_pos hzero]
    refine h.endLoop ht ?_
    rcases Nat.lt_or_ge s.consumed s.passed.length with hlt | hge
    · exact hlt
    · have hpos := (hfirst (by omega)).2
      omega
  · rw [if_neg hzero]
    have hlt := h.ring.passed_lt_iff.mpr (hleft hzero)
    have hown := h.ring.owned s.passed.length (by omega) hlt
    have hpkt := h.ring.bufPkt s.passed.length (by omega) hlt
    rw [← hhead] at hown hpkt
    by_cases howned : s.owned head = true
    · -- the engine's descriptor ends the loop, and a frame came before it
      have hall : s.received.length ≤ s.passed.length := hown.mp howned
      have hsome : s.consumed < s.passed.length := by
        rcases Nat.lt_or_ge s.consumed s.passed.length with hlt' | hge
        · exact hlt'
        · have hmore := (hfirst (by omega)).1
          omega
      rw [if_pos howned, if_neg (by omega)]
      exact h.endLoop ht hsome
    · rw [if_neg howned]
      have hframe : s.passed.length < s.received.length := by
        rcases Nat.lt_or_ge s.passed.length s.received.length with hlt' | hge
        · exact hlt'
        · exact absurd (hown.mpr hge) howned
      obtain ⟨skb, hskb⟩ := Option.isSome_iff_exists.mp (hpkt.mpr le_rfl)
      rw [hskb]
      have hpass := h.ring.passUp hframe
      rw [← hhead] at hpass
      refine ⟨h.bug, hpass.of_same ⟨rfl, rfl, rfl, rfl, rfl, rfl, rfl, rfl, rfl, rfl⟩, ?_⟩
      have hlen : (s.passed ++ [(s.desc head).frame.putUp]).length = s.passed.length + 1 := by simp
      refine ⟨?_, hfilled, hrx, hoom, fun heq => ?_, ?_⟩
      · show incr c.descCnt head = (s.passed ++ [_]).length % c.descCnt
        rw [hlen, hhead, incr_mod c.descCnt_pos]
      · change (s.passed ++ [_]).length = s.consumed at heq
        omega
      · show v.quota - 1 + ((s.passed ++ [_]).length - s.consumed) ≤ v.iquota
        omega

/-! ## After the loop -/

/-- The full test finds a ring without buffers. -/
theorem RxRingOk.full (h : RxRingOk c s) (hpassed : s.passed.length = s.consumed)
    (hfilled : s.filled = s.refilled) (hfull : s.rxRingFull = true) :
    s.consumed = s.filled + c.descCnt := by
  have hpos := c.descCnt_pos
  have hle := h.passed_le_window
  simp only [rxRingFull, Bool.and_eq_true, decide_eq_true_eq, Option.isNone_iff_eq_none] at hfull
  obtain ⟨hheadtail, hnone⟩ := hfull
  rw [h.tail, ← hfilled] at hnone hheadtail
  rw [h.head] at hheadtail
  have hlt : s.filled < s.consumed := by
    have hiff := h.bufPkt s.filled le_rfl (by omega)
    rw [hnone] at hiff
    simp only [Option.isSome_none, Bool.false_eq_true, false_iff, not_le] at hiff
    omega
  have heq : s.consumed % c.descCnt = (s.filled + c.descCnt) % c.descCnt := by
    rw [Nat.add_mod_right]
    exact hheadtail
  exact @eq_of_mod_eq c.descCnt (s.filled + 1) _ _ (by omega) (by omega) (by omega) (by omega) heq

theorem RxInv.endPoll (h : RxInv c s) {v : Recv} (ht : s.task = .readStatus v) (more : Bool) :
    RxInv c (s.endPoll more) := by
  have htask := h.task
  rw [ht] at htask
  obtain ⟨hpassed, hfilled, hrx, hoom, -⟩ := htask
  have hno : ¬ s.oomTimer = true := by simp [hoom]
  have hnorx : ¬ s.rxIntr = true := by simp [hrx]
  unfold RxMac.endPoll
  split
  · rename_i hfull
    refine ⟨h.bug, h.ring.of_same ⟨rfl, rfl, rfl, rfl, rfl, rfl, rfl, rfl, rfl, rfl⟩, ?_⟩
    exact ⟨hpassed, hfilled, fun hi => absurd hi hnorx, fun hf => (by cases hf),
      fun _ => h.ring.full hpassed hfilled hfull⟩
  · have hidle : RxInv c { s with task := .idle } := by
      refine ⟨h.bug, h.ring.of_same ⟨rfl, rfl, rfl, rfl, rfl, rfl, rfl, rfl, rfl, rfl⟩, ?_⟩
      exact ⟨hpassed, hfilled, fun hi => absurd hi hnorx, fun _ => hoom, fun hi => absurd hi hno⟩
    have hdone : RxInv c { s with task := .idle, pollScheduled := false, rxIntr := true } := by
      refine ⟨h.bug, h.ring.of_same ⟨rfl, rfl, rfl, rfl, rfl, rfl, rfl, rfl, rfl, rfl⟩, ?_⟩
      exact ⟨hpassed, hfilled, fun _ => ⟨rfl, hoom⟩, fun hf => (by cases hf),
        fun hi => absurd hi hno⟩
    dsimp only
    split
    · split
      · exact ⟨hidle.bug, hidle.ring.of_same ⟨rfl, rfl, rfl, rfl, rfl, rfl, rfl, rfl, rfl, rfl⟩,
          hidle.task.of_eq rfl rfl rfl rfl rfl rfl rfl rfl le_rfl⟩
      · exact hidle
    · split
      · exact ⟨hdone.bug, hdone.ring.of_same ⟨rfl, rfl, rfl, rfl, rfl, rfl, rfl, rfl, rfl, rfl⟩,
          hdone.task.of_eq rfl rfl rfl rfl rfl rfl rfl rfl le_rfl⟩
      · exact hdone

theorem RxInv.readStatus (h : RxInv c s) {v : Recv} (ht : s.task = .readStatus v) :
    RxInv c (s.readStatus v) := by
  unfold RxMac.readStatus
  split
  · exact h.endPoll ht false
  · rename_i hrcvd
    split
    · exact h.endPoll ht true
    · rename_i hquota
      have htask := h.task
      rw [ht] at htask
      obtain ⟨hpassed, hfilled, hrx, hoom, hle⟩ := htask
      simp only [pktRcvd, Bool.not_eq_true', decide_eq_false_iff_not, not_not] at hrcvd
      refine ⟨h.bug, h.ring.of_same ⟨rfl, rfl, rfl, rfl, rfl, rfl, rfl, rfl, rfl, rfl⟩, ?_⟩
      refine ⟨?_, hfilled, hrx, hoom, fun _ => ⟨?_, by omega⟩, ?_⟩
      · rw [h.ring.head, ← hpassed]
      · show s.consumed < s.received.length
        omega
      · show v.quota + (s.passed.length - s.consumed) ≤ v.iquota
        omega

/-! ## Replenishing -/

theorem endReplenish_inv {caller : Caller} (hbug : s.bug = none ∨ s.bug = some .noPktRcvd ∨
      s.bug = some .zeroQuota)
    (hring : RxRingOk c s) (hpassed : s.passed.length = s.consumed)
    (hfilled : s.filled = s.refilled) (hrx : s.rxIntr = false) (hoom : s.oomTimer = false)
    (hpoll : caller = .oomTimer → s.pollScheduled = false)
    (hle : ∀ v, caller = .recv v → v.quota ≤ v.iquota) : RxInv c (s.endReplenish caller) := by
  cases caller with
  | recv v =>
      exact ⟨hbug, hring.of_same ⟨rfl, rfl, rfl, rfl, rfl, rfl, rfl, rfl, rfl, rfl⟩,
        ⟨hpassed, hfilled, hrx, hoom, hle v rfl⟩⟩
  | oomTimer =>
      have hno : ¬ s.oomTimer = true := by simp [hoom]
      have hnorx : ¬ s.rxIntr = true := by simp [hrx]
      have hnopoll : ¬ s.pollScheduled = true := by simp [hpoll rfl]
      unfold RxMac.endReplenish
      dsimp only
      split
      · rename_i hfull
        exact ⟨hbug, hring.of_same ⟨rfl, rfl, rfl, rfl, rfl, rfl, rfl, rfl, rfl, rfl⟩,
          ⟨hpassed, hfilled, fun hi => absurd hi hnorx, fun hp => absurd hp hnopoll,
            fun _ => hring.full hpassed hfilled hfull⟩⟩
      · exact ⟨hbug, hring.of_same ⟨rfl, rfl, rfl, rfl, rfl, rfl, rfl, rfl, rfl, rfl⟩,
          ⟨hpassed, hfilled, fun hi => absurd hi hnorx, fun _ => hoom, fun hi => absurd hi hno⟩⟩

theorem RxInv.rxReplenish (h : RxInv c s) {caller : Caller} {head tail : Nat}
    (ht : s.task = .replenish caller head tail) (bufferAlloc : Option Nat) :
    RxInv c (s.rxReplenish c caller head tail bufferAlloc) := by
  have hpos := c.descCnt_pos
  have htask := h.task
  rw [ht] at htask
  obtain ⟨hhead, htail, hpassed, hlt, hrx, hoom, hpoll, hle⟩ := htask
  have h4 := h.ring.passed_le
  have hown := h.ring.owned s.filled le_rfl (by omega)
  have hpkt := h.ring.bufPkt s.filled le_rfl (by omega)
  rw [← htail] at hown hpkt
  unfold RxMac.rxReplenish
  rw [if_neg (by rw [hown]; omega), if_neg (by rw [hpkt]; omega)]
  cases bufferAlloc with
  | none =>
      dsimp only
      have hstore := h.ring.storeTail
      rw [← htail] at hstore
      exact endReplenish_inv h.bug hstore hpassed rfl hrx hoom hpoll hle
  | some skb =>
      dsimp only
      have hfill := h.ring.fill hlt skb
      rw [← htail] at hfill
      have hincr : incr c.descCnt tail = (s.filled + 1) % c.descCnt := by
        rw [htail, incr_mod hpos]
      split
      · have hstore := hfill.storeTail
        rw [show RxMac.filled { s.fill tail skb with filled := s.filled + 1 } = s.filled + 1 from
          rfl, ← hincr] at hstore
        exact endReplenish_inv h.bug hstore hpassed rfl hrx hoom hpoll hle
      · rename_i hmore
        refine ⟨h.bug, hfill.of_same ⟨rfl, rfl, rfl, rfl, rfl, rfl, rfl, rfl, rfl, rfl⟩, ?_⟩
        refine ⟨hhead, hincr, hpassed, ?_, hrx, hoom, hpoll, hle⟩
        show s.filled + 1 < s.consumed
        rcases Nat.lt_or_ge (s.filled + 1) s.consumed with hlt' | hge
        · exact hlt'
        · exact absurd (by rw [hincr, hhead, h.ring.head]; congr 1; omega) hmore

theorem step_rxInv (c : RxConf) (s : RxMac) (i : Input) (h : RxInv c s)
    (hleft : NotDrained c s i) : RxInv c (s.step c i) := by
  unfold RxMac.step
  cases hbug : s.bug with
  | some b => exact h
  | none =>
      simp only [Option.isSome_none, Bool.false_eq_true, if_false]
      cases i with
      | frame f => exact h.dmaReceive f
      | rxInterrupt =>
          dsimp only
          split
          · rename_i hok
            simp only [Bool.and_eq_true] at hok
            exact h.rxInterrupt hok.1
          · exact h
      | poll quota =>
          dsimp only
          split
          · rename_i hok
            simp only [Bool.and_eq_true, decide_eq_true_eq] at hok
            exact h.poll hbug hok.1 hok.2 quota
          · exact h
      | oomTimer =>
          dsimp only
          split
          · rename_i hok
            simp only [Bool.and_eq_true, decide_eq_true_eq] at hok
            exact h.startOomTimer hok.1 hok.2
          · exact h
      | run bufferAlloc =>
          dsimp only
          unfold RxMac.runTask
          cases ht : s.task with
          | idle => exact h
          | recv v head =>
              have hfed := hleft hbug
              rw [ht] at hfed
              exact h.recvPackets ht hfed
          | replenish caller head tail => exact h.rxReplenish ht bufferAlloc
          | readStatus v => exact h.readStatus ht

/-- A loop that goes on in a ring without buffers fails its assertion. -/
theorem RxInv.notDrained_of_safe (h : RxInv c s) {i : Input} (hsafe : RxSafe c (s.step c i)) :
    NotDrained c s i := by
  cases i with
  | run bufferAlloc =>
      intro hbug
      cases ht : s.task with
      | recv v head =>
          intro hquota
          rw [← h.ring.passed_lt_iff]
          by_contra hge
          have hle := h.ring.passed_le_window
          have htask := h.task
          rw [ht] at htask
          obtain ⟨hhead, -⟩ := htask
          obtain ⟨hown, hnone⟩ := h.ring.drained_slot (by omega)
          rw [← hhead] at hown hnone
          have hnoSkb := hsafe.noSkb
          simp only [RxMac.step, hbug, Option.isSome_none, Bool.false_eq_true, if_false,
            RxMac.runTask, ht, RxMac.recvPackets, hquota, hown, hnone, ne_eq,
            not_true_eq_false] at hnoSkb
      | idle => trivial
      | replenish caller head tail => trivial
      | readStatus v => trivial
  | frame f => trivial
  | rxInterrupt => trivial
  | poll quota => trivial
  | oomTimer => trivial

/-! ## Allocation -/

/-- The slots of the positions walked are filled, filled slots stay so, and nothing else
changes. -/
theorem rxAllocLoop_spec {bufferAlloc : Nat → Option Nat} (k a : Nat) (s : RxMac)
    (h : rxAllocLoop c bufferAlloc k (a % c.descCnt) s = some s') :
    s' = { s with desc := s'.desc, bufPkt := s'.bufPkt } ∧
    ∀ i, ((s.bufPkt i).isSome = true ∧ s.owned i = true) ∨
      (∃ j, a ≤ j ∧ j < a + k ∧ j % c.descCnt = i) →
      (s'.bufPkt i).isSome = true ∧ s'.owned i = true := by
  induction k generalizing a s with
  | zero =>
      cases h
      refine ⟨rfl, fun i hi => ?_⟩
      rcases hi with hold | ⟨j, hj, hj', -⟩
      · exact hold
      · omega
  | succ k ih =>
      unfold rxAllocLoop at h
      split at h
      · cases h
      · rename_i skb _
        rw [incr_mod c.descCnt_pos] at h
        obtain ⟨heq, hfilled⟩ := ih (a + 1) (s.fill (a % c.descCnt) skb) h
        refine ⟨heq, fun i hi => hfilled i ?_⟩
        by_cases hslot : i = a % c.descCnt
        · left
          rw [hslot]
          simp [RxMac.fill, RxMac.owned]
        · rcases hi with hold | ⟨j, hj, hj', hji⟩
          · left
            simpa [RxMac.fill, RxMac.owned, Function.update_of_ne hslot] using hold
          · right
            refine ⟨j, ?_, by omega, hji⟩
            rcases Nat.lt_or_ge a j with hlt | hge
            · exact hlt
            · exact absurd (by rw [← hji]; congr 1; omega) hslot

theorem RxInv.rxAlloc {oldTail : Nat} {bufferAlloc : Nat → Option Nat} (hold : oldTail < c.descCnt)
    (h : rxAlloc c oldTail bufferAlloc = some s) : RxInv c s := by
  have hpos := c.descCnt_pos
  unfold RxMac.rxAlloc at h
  rw [← Nat.mod_eq_of_lt hold] at h
  obtain ⟨heq, hfilled⟩ := rxAllocLoop_spec c.descCnt oldTail ringAlloc h
  have hall : ∀ j, (s.bufPkt (j % c.descCnt)).isSome = true ∧ s.owned (j % c.descCnt) = true :=
    fun j => hfilled _ (.inr (exists_mod_eq (Nat.mod_lt j hpos) oldTail))
  have hreceived : s.received = [] := by rw [heq]; rfl
  have hpassed : s.passed = [] := by rw [heq]; rfl
  have hfill : s.filled = 0 := by rw [heq]; rfl
  have hrefill : s.refilled = 0 := by rw [heq]; rfl
  have hconsumed : s.consumed = 0 := by rw [heq]; rfl
  have hoom : s.oomTimer = false := by rw [heq]; rfl
  have hpoll : s.pollScheduled = false := by rw [heq]; rfl
  have htask : s.task = .idle := by rw [heq]; rfl
  refine ⟨.inl (by rw [heq]; rfl), ?_, ?_⟩
  · constructor
    · rw [hconsumed, Nat.zero_mod, heq]
      rfl
    · rw [hrefill, Nat.zero_mod, heq]
      rfl
    · rw [hreceived, List.length_nil, Nat.zero_mod, heq]
      rfl
    · omega
    · omega
    · omega
    · simp [hpassed]
    · simp [hreceived]
    · intro j _ _
      simp [hreceived, (hall j).2]
    · intro j _ _
      simp [hpassed, (hall j).1]
    · intro j f _ hf
      simp [hreceived] at hf
    · simp [hpassed]
  · rw [htask]
    exact ⟨by simp [hpassed, hconsumed], by omega, fun _ => ⟨hpoll, hoom⟩, fun _ => hoom,
      fun hf => by simp [hoom] at hf⟩

/-! ## Runs -/

/-- A run from a freshly allocated ring is safe at every step exactly if the receive loop never
goes on with quota left in a ring without buffers. -/
theorem run_rxSafe_iff (c : RxConf) {oldTail : Nat} (hold : oldTail < c.descCnt)
    {bufferAlloc : Nat → Option Nat} {s : RxMac}
    (h : RxMac.rxAlloc c oldTail bufferAlloc = some s) (inputs : List Input) :
    Along (step c) (fun s i => RxSafe c (s.step c i)) s inputs ↔
    Along (step c) (NotDrained c) s inputs := by
  refine along_congr ?_ (step_rxInv c) (RxInv.rxAlloc hold h)
  intro s i hs
  constructor
  · exact hs.notDrained_of_safe
  · exact fun hleft => (step_rxInv c s i hs hleft).safe

def fourSlots : RxConf := ⟨4, by decide⟩

def fourFrames : List Input :=
  [.frame ⟨0, 64⟩, .frame ⟨1, 64⟩, .frame ⟨2, 64⟩, .frame ⟨3, 64⟩, .rxInterrupt]

/-- The first poll of three passes up three frames and gets no buffer for them; the second
passes up the fourth and reads on. -/
theorem drained_ring_fails :
    ∃ s, RxMac.rxAlloc fourSlots 0 some = some s ∧
      ¬ RxSafe fourSlots (exec (step fourSlots) s
        (fourFrames ++ [.poll 3] ++ List.replicate 6 (.run none) ++ [.poll 3, .run none,
          .run none])) := by
  refine ⟨_, rfl, fun hsafe => ?_⟩
  have hskb := hsafe.noSkb
  revert hskb
  decide +kernel

/-- The same polls with buffers for the frames passed up. -/
theorem run_rxSafe_iff_refilled :
    ∃ s, RxMac.rxAlloc fourSlots 0 some = some s ∧
      Along (step fourSlots) (fun s i => RxSafe fourSlots (s.step fourSlots i)) s
        (fourFrames ++ [.poll 3] ++ List.replicate 8 (.run (some 7)) ++ [.poll 3] ++
          List.replicate 6 (.run (some 8))) := by
  refine ⟨_, rfl, (@run_rxSafe_iff fourSlots 0 (by decide) some _ rfl _).mpr ?_⟩
  decide +kernel

end Xwr100.Ag7100
