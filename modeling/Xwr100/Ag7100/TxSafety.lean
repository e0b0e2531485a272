import Xwr100.Ag7100.TxRing

/-!
# Safety of the transmit ring

Between frames every packet of the ring is booked and, while the TX interrupt is masked,
there is room for one more frame.  A frame in progress has its descriptors behind the
booked ones; the first is handed over last, so the DMA engine waits there.
-/

namespace Xwr100.Ag7100

open Lib Lib.Ring TxMac

variable {c : TxConf} {s s' : TxMac} {pkts : List (Nat × Nat)} {lim g : Nat}

/-! ## Ring safety -/

/-- No assertion has failed; head and tail are at most one ring apart; the buffers freed are
the first of those queued, in order, and the others are still held; a buffer is freed after
its last descriptor is completed; and the last descriptor of a frame is finished before the
DMA engine can have reached the frame. -/
structure TxSafe (c : TxConf) (s : TxMac) : Prop where
  noBug : s.bug = none
  head : s.head = s.taken % c.descCnt
  tail : s.tail = s.released % c.descCnt
  released_le : s.released ≤ s.taken
  taken_lt : s.taken < s.released + c.descCnt
  freed : ∃ pending, s.queued = s.freed.map Prod.fst ++ pending ∧
    ∀ skb ∈ pending, ∃ i < c.descCnt, (s.buf i).bufPkt = some skb
  completed : s.freedNds ≤ s.completed
  keptBack : ∀ x, s.task = .giveFirst x → s.completed + x.nds ≤ s.taken

/-- Frames are longer than four bytes, and when the link timer restarts the queue the TX
interrupt is masked. -/
def SendsSafely (s : TxMac) : Input → Prop
  | .hardStart f => 4 < f.len
  | i => RestartMasked s i

instance (s : TxMac) : ∀ i, Decidable (SendsSafely s i)
  | .hardStart f => inferInstanceAs (Decidable (4 < f.len))
  | .run => isTrue trivial
  | .txInterrupt => isTrue trivial
  | .dma => isTrue trivial
  | .checkLink l => inferInstanceAs (Decidable (RestartMasked s (.checkLink l)))

/-! ## Phases -/

structure SameQueue (s s' : TxMac) : Prop where
  head : s'.head = s.head
  buf : s'.buf = s.buf
  queued : s'.queued = s.queued
  freed : s'.freed = s.freed
  taken : s'.taken = s.taken
  released : s'.released = s.released

theorem SameQueue.freedNds (h : SameQueue s s') : s'.freedNds = s.freedNds := by
  unfold TxMac.freedNds
  rw [h.freed]

structure Settled (s : TxMac) (pkts : List (Nat × Nat)) (lim g : Nat) : Prop where
  taken : s.freedNds + totalNds pkts = s.taken
  lim_eq : lim = s.taken
  g_eq : g = 0
  queued : s.queued = s.freed.map Prod.fst ++ pkts.map Prod.fst

theorem Settled.of_same (h : Settled s pkts lim g) (hs : SameQueue s s') :
    Settled s' pkts lim g := by
  constructor
  · rw [hs.freedNds, hs.taken]
    exact h.taken
  · rw [hs.taken]
    exact h.lim_eq
  · exact h.g_eq
  · rw [hs.queued, hs.freed]
    exact h.queued

/-- A frame has taken its first descriptors behind the booked packets. -/
structure Sending (c : TxConf) (s : TxMac) (pkts : List (Nat × Nat)) (x : Xmit) : Prop where
  taken : s.freedNds + totalNds pkts + x.nds = s.taken
  released : s.freedNds = s.released
  bp : x.bp = (s.freedNds + totalNds pkts) % c.descCnt
  fds : 0 < x.nds → x.fds = x.bp
  ds : 0 < x.nds → x.ds = (s.taken - 1) % c.descCnt
  skb : (s.buf x.bp).bufPkt = some x.skb
  queued : s.queued = s.freed.map Prod.fst ++ (pkts.map Prod.fst ++ [x.skb])
  room : s.freedNds + totalNds pkts + c.txMaxDescPerDsPkt + 2 ≤ s.released + c.descCnt
  nds_le : x.nds ≤ c.txMaxDescPerDsPkt
  fits : x.len ≤ (c.txMaxDescPerDsPkt - x.nds) * c.txLenPerDs

theorem Sending.of_same {x : Xmit} (h : Sending c s pkts x) (hs : SameQueue s s') :
    Sending c s' pkts x := by
  constructor
  · rw [hs.freedNds, hs.taken]
    exact h.taken
  · rw [hs.freedNds, hs.released]
    exact h.released
  · rw [hs.freedNds]
    exact h.bp
  · exact h.fds
  · rw [hs.taken]
    exact h.ds
  · rw [hs.buf]
    exact h.skb
  · rw [hs.queued, hs.freed]
    exact h.queued
  · rw [hs.freedNds, hs.released]
    exact h.room
  · exact h.nds_le
  · exact h.fits

def ReapOk (c : TxConf) (s : TxMac) : Reap → Prop
  | .enter => s.freedNds = s.released
  | .lock head tail => head = s.head ∧ tail = s.freedNds % c.descCnt
  | .loop head tail => head = s.head ∧ tail = s.freedNds % c.descCnt
  | .wake => s.freedNds = s.released

theorem ReapOk.of_same {r : Reap} (h : ReapOk c s r) (hs : SameQueue s s') : ReapOk c s' r := by
  cases r with
  | enter => exact hs.freedNds.trans (Eq.trans h hs.released.symm)
  | lock head tail => exact ⟨h.1.trans hs.head.symm, by rw [hs.freedNds]; exact h.2⟩
  | loop head tail => exact ⟨h.1.trans hs.head.symm, by rw [hs.freedNds]; exact h.2⟩
  | wake => exact hs.freedNds.trans (Eq.trans h hs.released.symm)

def Spacious (c : TxConf) (s : TxMac) : Prop :=
  s.taken + c.txMaxDescPerDsPkt + 2 ≤ s.released + c.descCnt

def FrameOk (c : TxConf) (f : Frame) : Prop := 4 < f.len ∧ f.len ≤ c.maxLen

/-- What holds at each point of `ag7100_hard_start`. -/
def TaskOk (c : TxConf) (s : TxMac) (pkts : List (Nat × Nat)) (lim g : Nat) : Task → Prop
  | .idle =>
      Settled s pkts lim g ∧ (s.intr = none → s.freedNds = s.released) ∧
        (s.txIntr = false → Spacious c s)
  | .reaping f r => Settled s pkts lim g ∧ ReapOk c s r ∧ FrameOk c f ∧ Spacious c s
  | .begin f => Settled s pkts lim g ∧ s.freedNds = s.released ∧ FrameOk c f ∧ Spacious c s
  | .getDs x => Sending c s pkts x ∧ 0 < x.len ∧ lim + x.nds = s.taken ∧ g = x.nds
  | .giveDs x => Sending c s pkts x ∧ 1 < x.nds ∧ lim + x.nds = s.taken ∧ g + 1 = x.nds
  | .giveFirst x => Sending c s pkts x ∧ 0 < x.nds ∧ lim + x.nds = s.taken ∧ g = x.nds
  | .book x => Sending c s pkts x ∧ 0 < x.nds ∧ lim = s.taken ∧ g = 0
  | .start => Settled s pkts lim g ∧ s.freedNds = s.released
  | .enableTx => Settled s pkts lim g ∧ s.freedNds = s.released

theorem Spacious.of_same (h : Spacious c s) (hs : SameQueue s s') : Spacious c s' := by
  unfold Spacious
  rw [hs.taken, hs.released]
  exact h

theorem TaskOk.of_same {t : Task} (h : TaskOk c s pkts lim g t) (hs : SameQueue s s')
    (hintr : s'.intr = s.intr) (htx : s'.txIntr = s.txIntr) : TaskOk c s' pkts lim g t := by
  cases t with
  | idle =>
      obtain ⟨hset, hrel, hroom⟩ := h
      refine ⟨hset.of_same hs, fun hn => ?_, fun hm => (hroom (htx ▸ hm)).of_same hs⟩
      rw [hs.freedNds, hs.released]
      exact hrel (hintr ▸ hn)
  | reaping f r => exact ⟨h.1.of_same hs, h.2.1.of_same hs, h.2.2.1, h.2.2.2.of_same hs⟩
  | begin f =>
      refine ⟨h.1.of_same hs, ?_, h.2.2.1, h.2.2.2.of_same hs⟩
      rw [hs.freedNds, hs.released]
      exact h.2.1
  | getDs x => exact ⟨h.1.of_same hs, h.2.1, hs.taken ▸ h.2.2.1, h.2.2.2⟩
  | giveDs x => exact ⟨h.1.of_same hs, h.2.1, hs.taken ▸ h.2.2.1, h.2.2.2⟩
  | giveFirst x => exact ⟨h.1.of_same hs, h.2.1, hs.taken ▸ h.2.2.1, h.2.2.2⟩
  | book x => exact ⟨h.1.of_same hs, h.2.1, hs.taken ▸ h.2.2.1, h.2.2.2⟩
  | start => exact ⟨h.1.of_same hs, by rw [hs.freedNds, hs.released]; exact h.2⟩
  | enableTx => exact ⟨h.1.of_same hs, by rw [hs.freedNds, hs.released]; exact h.2⟩

/-! ## The invariant -/

structure TxInv (c : TxConf) (s : TxMac) : Prop where
  bug : s.bug = none
  control : Control s
  ring : ∃ pkts lim g, RingOk c s pkts lim g ∧ TaskOk c s pkts lim g s.task ∧
    ∀ r, s.intr = some r → ReapOk c s r

theorem TxInv.init (c : TxConf) (queueStopped carrier : Bool) (speed fdx : Int) :
    TxInv c (.init queueStopped carrier speed fdx) := by
  have hle := c.maxDesc_add_two_le
  refine ⟨rfl, Control.init queueStopped carrier speed fdx, [], 0, 0, ?_, ?_, ?_⟩
  · constructor
    · exact (Nat.zero_mod _).symm
    · exact (Nat.zero_mod _).symm
    · exact (Nat.zero_mod _).symm
    · exact le_rfl
    · exact le_rfl
    · exact le_rfl
    · exact le_rfl
    · show 0 + 2 ≤ 0 + c.descCnt
      omega
    · intro j _ _
      simp [TxMac.owned, TxMac.init]
    · trivial
  · refine ⟨⟨rfl, rfl, rfl, rfl⟩, fun _ => rfl, fun _ => ?_⟩
    show 0 + c.txMaxDescPerDsPkt + 2 ≤ 0 + c.descCnt
    omega
  · intro r hr
    cases hr

/-- All the packets a state holds, the one in progress last. -/
theorem TaskOk.pending {t : Task} (h : TaskOk c s pkts lim g t) (hring : RingOk c s pkts lim g) :
    ∃ pending, s.queued = s.freed.map Prod.fst ++ pending ∧
      ∀ skb ∈ pending, ∃ i < c.descCnt, (s.buf i).bufPkt = some skb := by
  have hheld := hring.booked.held c.descCnt_pos
  have hsettled : Settled s pkts lim g → ∃ pending, s.queued = s.freed.map Prod.fst ++ pending ∧
      ∀ skb ∈ pending, ∃ i < c.descCnt, (s.buf i).bufPkt = some skb :=
    fun hset => ⟨_, hset.queued, hheld⟩
  have hsending : ∀ x, Sending c s pkts x →
      ∃ pending, s.queued = s.freed.map Prod.fst ++ pending ∧
        ∀ skb ∈ pending, ∃ i < c.descCnt, (s.buf i).bufPkt = some skb := by
    intro x hx
    refine ⟨_, hx.queued, fun skb hskb => ?_⟩
    rcases List.mem_append.mp hskb with hold | hnew
    · exact hheld skb hold
    · rw [List.mem_singleton.mp hnew]
      exact ⟨x.bp, by rw [hx.bp]; exact Nat.mod_lt _ c.descCnt_pos, hx.skb⟩
  cases t with
  | idle => exact hsettled h.1
  | reaping f r => exact hsettled h.1
  | begin f => exact hsettled h.1
  | getDs x => exact hsending x h.1
  | giveDs x => exact hsending x h.1
  | giveFirst x => exact hsending x h.1
  | book x => exact hsending x h.1
  | start => exact hsettled h.1
  | enableTx => exact hsettled h.1

theorem TxInv.safe (h : TxInv c s) : TxSafe c s := by
  obtain ⟨pkts, lim, g, hring, htask, -⟩ := h.ring
  have h1 := hring.released_le
  have h2 := hring.freed_le
  have h3 := hring.completed_le
  have h4 := hring.lim_le
  have h5 := hring.room
  constructor
  · exact h.bug
  · exact hring.head
  · exact hring.tail
  · omega
  · omega
  · exact htask.pending hring
  · exact h2
  · intro x hx
    rw [hx] at htask
    obtain ⟨-, -, hlim, -⟩ := htask
    omega

/-! ## Reaping -/

structure Reaped (c : TxConf) (s s' : TxMac) (next : Option Reap) (lim g : Nat) : Prop where
  ring : ∃ pkts, RingOk c s' pkts lim g ∧ Settled s' pkts lim g
  bug : s'.bug = s.bug
  taken : s'.taken = s.taken
  released : s.released ≤ s'.released
  place : ∀ r, next = some r → ReapOk c s' r
  done : next = none → s'.freedNds = s'.released

theorem storeTail_reaped {tail : Nat} (hring : RingOk c s pkts lim g)
    (hset : Settled s pkts lim g) (htail : tail = s.freedNds % c.descCnt) :
    Reaped c s (s.storeTail tail) (some .wake) lim g := by
  rw [htail]
  constructor
  · exact ⟨pkts, hring.storeTail, ⟨hset.taken, hset.lim_eq, hset.g_eq, hset.queued⟩⟩
  · rfl
  · rfl
  · exact hring.released_le
  · intro r hr
    cases hr
    rfl
  · intro hn
    cases hn

theorem reapLoop_reaped {head tail : Nat} (hring : RingOk c s pkts lim g)
    (hset : Settled s pkts lim g) (hplace : ReapOk c s (.loop head tail)) :
    Reaped c s (s.reapLoop c head tail).1 (s.reapLoop c head tail).2 lim g := by
  obtain ⟨hhead, htail⟩ := hplace
  have h1 := hring.released_le
  have h2 := hring.freed_le
  have h3 := hring.completed_le
  have h5 := hring.room
  have htaken := hset.taken
  have hlim := hset.lim_eq
  unfold TxMac.reapLoop
  by_cases hempty : tail = head
  · rw [if_pos hempty]
    exact storeTail_reaped hring hset htail
  · rw [if_neg hempty]
    by_cases hown : s.owned tail = true
    · rw [if_pos hown]
      exact storeTail_reaped hring hset htail
    · rw [if_neg hown]
      cases pkts with
      | nil =>
          -- an empty ring has its tail at its head
          rw [totalNds_nil, Nat.add_zero] at htaken
          exact absurd (by rw [htail, hhead, hring.head, htaken]) hempty
      | cons pkt rest =>
          obtain ⟨skb, nds⟩ := pkt
          obtain ⟨hpos, hbuf, -⟩ := hring.booked
          rw [← htail] at hbuf
          rw [totalNds_cons] at htaken
          simp only [hbuf]
          by_cases hlast : s.owned ((s.freedNds + nds - 1) % c.descCnt) = true
          · rw [if_pos hlast]
            exact storeTail_reaped hring hset htail
          · rw [if_neg hlast]
            have hdone : s.freedNds + nds ≤ s.completed := by
              rw [hring.owned (s.freedNds + nds - 1) (by omega) (by omega)] at hlast
              omega
            rw [htail]
            have hfree := hring.free (by rw [totalNds_cons]; omega) hdone
              ⟨none, some ((s.freedNds + nds - 1) % c.descCnt), nds⟩
            have hfreed : TxMac.freedNds ({ s with
                buf := Function.update s.buf (s.freedNds % c.descCnt)
                  ⟨none, some ((s.freedNds + nds - 1) % c.descCnt), nds⟩
                freed := s.freed ++ [(skb, nds)] } : TxMac) = s.freedNds + nds := by
              unfold TxMac.freedNds
              rw [totalNds_append, totalNds_cons]
              rfl
            constructor
            · refine ⟨rest, hfree, ?_, hlim, hset.g_eq, ?_⟩
              · rw [hfreed]
                show s.freedNds + nds + totalNds rest = s.taken
                omega
              · show s.queued = (s.freed ++ [(skb, nds)]).map Prod.fst ++ rest.map Prod.fst
                rw [hset.queued]
                simp
            · rfl
            · rfl
            · exact le_rfl
            · intro r hr
              cases hr
              refine ⟨hhead, ?_⟩
              rw [iterate_incr_mod c.descCnt_pos, hfreed]
            · intro hn
              cases hn

theorem txReap_reaped {r : Reap} (hring : RingOk c s pkts lim g) (hset : Settled s pkts lim g)
    (hplace : ReapOk c s r) : Reaped c s (s.txReap c r).1 (s.txReap c r).2 lim g := by
  cases r with
  | enter =>
      refine ⟨⟨pkts, hring, hset⟩, rfl, rfl, le_rfl, fun r hr => ?_, fun hn => by cases hn⟩
      cases hr
      refine ⟨rfl, ?_⟩
      rw [hring.tail]
      exact congrArg (· % c.descCnt) (Eq.symm hplace)
  | lock head tail =>
      refine ⟨⟨pkts, hring, hset⟩, rfl, rfl, le_rfl, fun r hr => ?_, fun hn => by cases hn⟩
      cases hr
      exact hplace
  | loop head tail => exact reapLoop_reaped hring hset hplace
  | wake =>
      show Reaped c s (s.reapWake c) none lim g
      unfold TxMac.reapWake
      split
      · refine ⟨⟨pkts, hring.of_same ⟨rfl, rfl, rfl, rfl, rfl, rfl, rfl, rfl, rfl⟩,
          hset.of_same ⟨rfl, rfl, rfl, rfl, rfl, rfl⟩⟩, rfl, rfl, le_rfl,
          fun r hr => (by cases hr), fun _ => hplace⟩
      · exact ⟨⟨pkts, hring, hset⟩, rfl, rfl, le_rfl, fun r hr => (by cases hr), fun _ => hplace⟩

/-- The queue is woken only with room for a frame. -/
theorem RingOk.spacious_of_wake (h : RingOk c s pkts lim g)
    (hwake : 4 * c.txMaxDescPerDsPkt ≤ s.ndescUnused c) : Spacious c s := by
  have hpos := c.txMaxDescPerDsPkt_pos
  have h1 := h.released_le
  have h2 := h.freed_le
  have h3 := h.completed_le
  have h4 := h.lim_le
  have h5 := h.room
  rw [h.ndescUnused] at hwake
  unfold Spacious
  omega

/-- Reaping masks the interrupt only with room for a frame. -/
theorem txReap_spacious {r : Reap} (hring : RingOk c s pkts lim g)
    (hmask : (s.txReap c r).1.txIntr ≠ s.txIntr) : Spacious c (s.txReap c r).1 := by
  cases r with
  | enter => exact absurd rfl hmask
  | lock head tail => exact absurd rfl hmask
  | loop head tail => exact absurd (reapLoop_same head tail).txIntr hmask
  | wake =>
      change (s.reapWake c).txIntr ≠ s.txIntr at hmask
      show Spacious c (s.reapWake c)
      unfold TxMac.reapWake at hmask ⊢
      split
      · rename_i hwake
        simp only [Bool.and_eq_true, decide_eq_true_eq] at hwake
        exact hring.spacious_of_wake hwake.1.2
      · rename_i hstay
        rw [if_neg hstay] at hmask
        exact absurd rfl hmask

/-! ## Steps of `ag7100_hard_start` -/

theorem no_handler (h : s.intr = none) (hs : s'.intr = s.intr) :
    ∀ r, s'.intr = some r → ReapOk c s' r := by
  intro r hr
  rw [hs, h] at hr
  cases hr

theorem TxInv.hardStart (h : TxInv c s) (hq : s.quiet = true) (hrun : s.queueStopped = false)
    {f : Frame} (hf : 4 < f.len) : TxInv c (s.hardStart c f) := by
  have hcontrol : Control (s.hardStart c f) := h.control.hardStart hq hrun f
  simp only [quiet, Bool.and_eq_true, decide_eq_true_eq, Option.isNone_iff_eq_none] at hq
  obtain ⟨hidle, hintr⟩ := hq
  obtain ⟨pkts, lim, g, hring, htask, -⟩ := h.ring
  rw [hidle] at htask
  obtain ⟨hset, hrel, hroom⟩ := htask
  have hspace : Spacious c s := by
    apply hroom
    cases hi : s.txIntr with
    | false => rfl
    | true =>
        have hstop := (h.control.masked hi).1
        rw [hrun] at hstop
        cases hstop
  unfold TxMac.hardStart at hcontrol ⊢
  split
  · exact h
  · rename_i hlen
    have hframe : FrameOk c f := ⟨hf, by omega⟩
    have hsame : ∀ t : Task, SameQueue s { s with task := t } :=
      fun _ => ⟨rfl, rfl, rfl, rfl, rfl, rfl⟩
    have hring' : ∀ t : Task, RingOk c { s with task := t } pkts lim g :=
      fun _ => hring.of_same ⟨rfl, rfl, rfl, rfl, rfl, rfl, rfl, rfl, rfl⟩
    rw [if_neg hlen] at hcontrol
    split
    · rename_i hthresh
      rw [if_pos hthresh] at hcontrol
      exact ⟨h.bug, hcontrol, pkts, lim, g, hring' _,
        ⟨hset.of_same (hsame _), hrel hintr, hframe, hspace⟩, no_handler hintr rfl⟩
    · rename_i hthresh
      rw [if_neg hthresh] at hcontrol
      exact ⟨h.bug, hcontrol, pkts, lim, g, hring' _,
        ⟨hset.of_same (hsame _), hrel hintr, hframe, hspace⟩, no_handler hintr rfl⟩

theorem TxInv.runReap (h : TxInv c s) (hintr : s.intr = none) {f : Frame} {r : Reap}
    (ht : s.task = .reaping f r) : TxInv c (s.runReap c f r) := by
  have hcontrol : Control (s.runReap c f r) := h.control.runReap ht
  obtain ⟨pkts, lim, g, hring, htask, -⟩ := h.ring
  rw [ht] at htask
  obtain ⟨hset, hplace, hframe, hspace⟩ := htask
  obtain ⟨⟨pkts', hring', hset'⟩, hbug, htaken, hrel, hnext, hdone⟩ :=
    txReap_reaped hring hset hplace
  -- the queue is running, so reaping ends without waking it
  have hsame : SameControl s (s.txReap c r).1 := by
    rcases @txReap_cases c s r with hsame | ⟨-, hstop, -⟩
    · exact hsame
    · rw [h.control.started (by simp [ht]) (by simp [ht])] at hstop
      cases hstop
  have hnone : (s.txReap c r).1.intr = none := hsame.intr.trans hintr
  have hspace' : Spacious c (s.txReap c r).1 := by
    unfold Spacious at hspace ⊢
    rw [htaken]
    omega
  have hbug' := hbug.trans h.bug
  unfold TxMac.runReap at hcontrol ⊢
  rcases hreap : s.txReap c r with ⟨s', next⟩
  rw [hreap] at hring' hset' hnext hdone hnone hspace' hcontrol hbug'
  have hq : ∀ t : Task, SameQueue s' { s' with task := t } :=
    fun _ => ⟨rfl, rfl, rfl, rfl, rfl, rfl⟩
  have hring'' : ∀ t : Task, RingOk c { s' with task := t } pkts' lim g :=
    fun _ => hring'.of_same ⟨rfl, rfl, rfl, rfl, rfl, rfl, rfl, rfl, rfl⟩
  cases next with
  | some r' =>
      exact ⟨hbug', hcontrol, pkts', lim, g, hring'' _,
        ⟨hset'.of_same (hq _), (hnext r' rfl).of_same (hq _), hframe, hspace'⟩,
        no_handler hnone rfl⟩
  | none =>
      exact ⟨hbug', hcontrol, pkts', lim, g, hring'' _,
        ⟨hset'.of_same (hq _), hdone rfl, hframe, hspace'⟩,
        no_handler hnone rfl⟩

theorem TxInv.begin (h : TxInv c s) (hintr : s.intr = none) {f : Frame}
    (ht : s.task = .begin f) (hcontrol : Control (s.begin f)) : TxInv c (s.begin f) := by
  obtain ⟨pkts, lim, g, hring, htask, -⟩ := h.ring
  rw [ht] at htask
  obtain ⟨hset, hrel, ⟨hlen, hmax⟩, hspace⟩ := htask
  have h5 := hring.room
  have htaken := hset.taken
  have hlim := hset.lim_eq
  have hmul := c.le_maxDesc_mul
  have hmaxLen := c.maxLen_le
  unfold TxMac.begin at hcontrol ⊢
  rw [if_neg (by omega)] at hcontrol ⊢
  have hput := hring.setBuf s.taken (by omega) (by omega)
    { s.buf s.head with bufPkt := some f.skb }
  rw [← hring.head] at hput
  refine ⟨h.bug, hcontrol, pkts, lim, g, hput.of_same ⟨rfl, rfl, rfl, rfl, rfl, rfl, rfl, rfl, rfl⟩,
    ⟨?_, show 0 < f.len by omega, hlim, hset.g_eq⟩, no_handler hintr rfl⟩
  constructor
  · exact htaken
  · exact hrel
  · show s.head = (s.freedNds + totalNds pkts) % c.descCnt
    rw [htaken]
    exact hring.head
  · intro hpos
    cases hpos
  · intro hpos
    cases hpos
  · show (Function.update s.buf s.head { s.buf s.head with bufPkt := some f.skb } s.head).bufPkt =
      some f.skb
    rw [Function.update_self]
  · show s.queued ++ [f.skb] = s.freed.map Prod.fst ++ (pkts.map Prod.fst ++ [f.skb])
    rw [hset.queued, List.append_assoc]
  · show s.freedNds + totalNds pkts + c.txMaxDescPerDsPkt + 2 ≤ s.released + c.descCnt
    unfold Spacious at hspace
    omega
  · exact Nat.zero_le _
  · show f.len ≤ (c.txMaxDescPerDsPkt - 0) * c.txLenPerDs
    rw [Nat.sub_zero]
    omega

theorem Sending.advance {x : Xmit} (hsend : Sending c s pkts x) (hring : RingOk c s pkts lim g)
    (hpos : 0 < x.len) :
    Sending c { s with head := incr c.descCnt s.head, taken := s.taken + 1 } pkts
      (s.advance c x) := by
  have htaken := hsend.taken
  have hnds := hsend.nds_le
  obtain ⟨hleft, hfits⟩ := left_fits hsend.fits hpos
  generalize incr c.descCnt s.head = next
  constructor
  · show s.freedNds + totalNds pkts + (x.nds + 1) = s.taken + 1
    omega
  · exact hsend.released
  · exact hsend.bp
  · intro _
    show (if x.nds = 0 then s.head else x.fds) = x.bp
    split
    · rename_i hz
      rw [hring.head, hsend.bp, ← htaken, hz, Nat.add_zero]
    · exact hsend.fds (by omega)
  · intro _
    exact hring.head
  · exact hsend.skb
  · exact hsend.queued
  · exact hsend.room
  · show x.nds + 1 ≤ c.txMaxDescPerDsPkt
    omega
  · show x.len - lenThisDs c x.len ≤ (c.txMaxDescPerDsPkt - (x.nds + 1)) * c.txLenPerDs
    rw [← Nat.sub_sub]
    exact hfits

theorem TxInv.getTxDs (h : TxInv c s) (hintr : s.intr = none) {x : Xmit}
    (ht : s.task = .getDs x) (hcontrol : Control (s.getTxDs c x)) : TxInv c (s.getTxDs c x) := by
  obtain ⟨pkts, lim, g, hring, htask, -⟩ := h.ring
  rw [ht] at htask
  obtain ⟨hsend, hpos, hlim, hg⟩ := htask
  have hfree := hring.head_not_owned
  have htaken := hsend.taken
  have hroom := hsend.room
  have hrel := hsend.released
  have hnds := hsend.nds_le
  have h4 := hring.lim_le
  obtain ⟨hleft, -⟩ := left_fits hsend.fits hpos
  unfold TxMac.getTxDs at hcontrol ⊢
  rw [hfree] at hcontrol ⊢
  simp only [Bool.false_eq_true, if_false] at hcontrol ⊢
  have htake := hring.take (by omega) { s.desc s.head with
    pktStartAddr := x.start, pktSize := lenThisDs c x.len, more := true } rfl
  have hadv := hsend.advance hring hpos
  by_cases hz : x.nds = 0
  · -- the first descriptor is kept back
    have hcompleted := hring.completed_le
    have hring' := htake.rebound lim 1 hcompleted
      (show lim + 1 ≤ s.taken + 1 by omega) (fun j => by omega)
    rw [if_pos hz] at hcontrol ⊢
    refine ⟨h.bug, hcontrol, pkts, lim, 1,
      hring'.of_same ⟨rfl, rfl, rfl, rfl, rfl, rfl, rfl, rfl, rfl⟩, ?_,
      no_handler hintr rfl⟩
    dsimp only
    have hone : (s.advance c x).nds = 1 := by
      show x.nds + 1 = 1
      omega
    unfold nextDs
    split
    · rename_i hmore
      exact ⟨hadv.of_same ⟨rfl, rfl, rfl, rfl, rfl, rfl⟩, hmore,
        by rw [hone]; show lim + 1 = s.taken + 1; omega, hone.symm⟩
    · exact ⟨hadv.of_same ⟨rfl, rfl, rfl, rfl, rfl, rfl⟩, by omega,
        by rw [hone]; show lim + 1 = s.taken + 1; omega, hone.symm⟩
  · rw [if_neg hz] at hcontrol ⊢
    refine ⟨h.bug, hcontrol, pkts, lim, g,
      htake.of_same ⟨rfl, rfl, rfl, rfl, rfl, rfl, rfl, rfl, rfl⟩, ?_,
      no_handler hintr rfl⟩
    refine ⟨hadv.of_same ⟨rfl, rfl, rfl, rfl, rfl, rfl⟩, ?_, ?_, ?_⟩
    · show 1 < x.nds + 1
      omega
    · show lim + (x.nds + 1) = s.taken + 1
      omega
    · show g + 1 = x.nds + 1
      omega

theorem TxInv.giveDs (h : TxInv c s) (hintr : s.intr = none) {x : Xmit}
    (ht : s.task = .giveDs x) (hcontrol : Control { s.giveToDma x.ds with task := nextDs x }) :
    TxInv c { s.giveToDma x.ds with task := nextDs x } := by
  obtain ⟨pkts, lim, g, hring, htask, -⟩ := h.ring
  rw [ht] at htask
  obtain ⟨hsend, hone, hlim, hg⟩ := htask
  have h3 := hring.completed_le
  have hds := hsend.ds (by omega)
  have hgive := hring.give (s.taken - 1) lim x.nds
    (Function.update s.desc x.ds { s.desc x.ds with isEmpty := false }) (by omega) (by omega)
    (fun i => by
      rw [← hds, Function.update_apply]
      split <;> rfl)
    h3 (by omega) (fun j => by omega)
  have hsame : SameQueue s { s.giveToDma x.ds with task := nextDs x } :=
    ⟨rfl, rfl, rfl, rfl, rfl, rfl⟩
  refine ⟨h.bug, hcontrol, pkts, lim, x.nds,
    hgive.of_same ⟨rfl, rfl, rfl, rfl, rfl, rfl, rfl, rfl, rfl⟩, ?_,
    no_handler hintr rfl⟩
  dsimp only
  unfold nextDs at hsame ⊢
  split
  · rename_i hmore
    rw [if_pos hmore] at hsame
    exact ⟨hsend.of_same hsame, hmore, hlim, rfl⟩
  · rename_i hmore
    rw [if_neg hmore] at hsame
    exact ⟨hsend.of_same hsame, by omega, hlim, rfl⟩

theorem TxInv.giveFirst (h : TxInv c s) (hintr : s.intr = none) {x : Xmit}
    (ht : s.task = .giveFirst x) (hcontrol : Control (s.giveFirst x)) :
    TxInv c (s.giveFirst x) := by
  obtain ⟨pkts, lim, g, hring, htask, -⟩ := h.ring
  rw [ht] at htask
  obtain ⟨hsend, hone, hlim, hg⟩ := htask
  have h3 := hring.completed_le
  have htaken := hsend.taken
  have hfds : x.fds = lim % c.descCnt := by
    rw [hsend.fds hone, hsend.bp]
    congr 1
    omega
  have hgive := hring.give lim s.taken 0 (s.giveFirst x).desc h3 (by omega)
    (fun i => by
      rw [← hfds]
      unfold TxMac.giveFirst giveToDma
      simp only [Function.update_apply]
      split
      · rfl
      · split <;> simp [*])
    (by omega) (by omega) (fun j => by omega)
  refine ⟨h.bug, hcontrol, pkts, s.taken, 0,
    hgive.of_same ⟨rfl, rfl, rfl, rfl, rfl, rfl, rfl, rfl, rfl⟩, ?_,
    no_handler hintr rfl⟩
  exact ⟨hsend.of_same ⟨rfl, rfl, rfl, rfl, rfl, rfl⟩, hone, rfl, rfl⟩

theorem TxInv.book (h : TxInv c s) (hintr : s.intr = none) {x : Xmit}
    (ht : s.task = .book x) (hcontrol : Control (s.book x)) : TxInv c (s.book x) := by
  obtain ⟨pkts, lim, g, hring, htask, -⟩ := h.ring
  rw [ht] at htask
  obtain ⟨hsend, hone, hlim, hg⟩ := htask
  have h5 := hring.room
  have htaken := hsend.taken
  have hput := hring.setBuf (s.freedNds + totalNds pkts) le_rfl (by omega)
    { s.buf x.bp with bufLastds := some x.ds, bufNds := x.nds }
  rw [← hsend.bp] at hput
  have hbuf : Function.update s.buf x.bp
      { s.buf x.bp with bufLastds := some x.ds, bufNds := x.nds }
        ((s.freedNds + totalNds pkts) % c.descCnt) =
      ⟨some x.skb, some ((s.freedNds + totalNds pkts + x.nds - 1) % c.descCnt), x.nds⟩ := by
    rw [← hsend.bp, Function.update_self, hsend.ds hone, htaken, ← hsend.skb]
  have hbooked := hput.booked.append hone hbuf
  have hring' : RingOk c (s.book x) (pkts ++ [(x.skb, x.nds)]) lim g :=
    ⟨hput.head, hput.tail, hput.dma, hput.released_le, hput.freed_le, hput.completed_le,
      hput.lim_le, hput.room, hput.owned, hbooked⟩
  refine ⟨h.bug, hcontrol, _, lim, g, hring', ⟨⟨?_, hlim, hg, ?_⟩, hsend.released⟩,
    no_handler hintr rfl⟩
  · show s.freedNds + totalNds (pkts ++ [(x.skb, x.nds)]) = s.taken
    rw [totalNds_append, totalNds_cons, totalNds_nil]
    omega
  · show s.queued = s.freed.map Prod.fst ++ (pkts ++ [(x.skb, x.nds)]).map Prod.fst
    rw [List.map_append]
    exact hsend.queued

theorem TxInv.start (h : TxInv c s) (hintr : s.intr = none) (ht : s.task = .start)
    (hcontrol : Control (s.start c)) : TxInv c (s.start c) := by
  obtain ⟨pkts, lim, g, hring, htask, -⟩ := h.ring
  rw [ht] at htask
  obtain ⟨hset, hrel⟩ := htask
  have hrun : s.queueStopped = false := h.control.started (by simp [ht]) (by simp [ht])
  have hsame : SameRing s (s.start c) ∧ SameQueue s (s.start c) ∧ (s.start c).intr = s.intr := by
    unfold TxMac.start
    split
    · rw [hrun]
      exact ⟨⟨rfl, rfl, rfl, rfl, rfl, rfl, rfl, rfl, rfl⟩, ⟨rfl, rfl, rfl, rfl, rfl, rfl⟩, rfl⟩
    · exact ⟨⟨rfl, rfl, rfl, rfl, rfl, rfl, rfl, rfl, rfl⟩, ⟨rfl, rfl, rfl, rfl, rfl, rfl⟩, rfl⟩
  obtain ⟨hsr, hsq, hsi⟩ := hsame
  refine ⟨?_, hcontrol, pkts, lim, g, hring.of_same hsr, ?_, no_handler hintr hsi⟩
  · unfold TxMac.start
    split
    · rw [hrun]
      exact h.bug
    · exact h.bug
  · have hrel' : (s.start c).freedNds = (s.start c).released := by
      rw [hsq.freedNds, hsq.released]
      exact hrel
    have hset' := hset.of_same hsq
    by_cases hfull : s.txRingFull c = true
    · have htask' : (s.start c).task = .enableTx := by
        unfold TxMac.start
        rw [if_pos hfull, hrun]
        rfl
      rw [htask']
      exact ⟨hset', hrel'⟩
    · have htask' : (s.start c).task = .idle := by
        unfold TxMac.start
        rw [if_neg hfull]
      rw [htask']
      refine ⟨hset', fun _ => hrel', fun _ => Spacious.of_same ?_ hsq⟩
      simp only [txRingFull, decide_eq_true_eq, hring.ndescUnused] at hfull
      have h5 := hring.room
      unfold Spacious
      omega

theorem TxInv.enableTx (h : TxInv c s) (hintr : s.intr = none) (ht : s.task = .enableTx)
    (hcontrol : Control { s with txIntr := true, task := .idle }) :
    TxInv c { s with txIntr := true, task := .idle } := by
  obtain ⟨pkts, lim, g, hring, htask, -⟩ := h.ring
  rw [ht] at htask
  obtain ⟨hset, hrel⟩ := htask
  exact ⟨h.bug, hcontrol, pkts, lim, g,
    hring.of_same ⟨rfl, rfl, rfl, rfl, rfl, rfl, rfl, rfl, rfl⟩,
    ⟨hset.of_same ⟨rfl, rfl, rfl, rfl, rfl, rfl⟩, fun _ => hrel, fun hm => by cases hm⟩,
    no_handler hintr rfl⟩

theorem TxInv.runTask (h : TxInv c s) (hintr : s.intr = none) : TxInv c (s.runTask c) := by
  have hcontrol : Control (s.runTask c) := h.control.runTask hintr
  unfold TxMac.runTask at hcontrol ⊢
  cases ht : s.task with
  | idle => exact h
  | reaping f r => exact h.runReap hintr ht
  | begin f =>
      rw [ht] at hcontrol
      exact h.begin hintr ht hcontrol
  | getDs x =>
      rw [ht] at hcontrol
      exact h.getTxDs hintr ht hcontrol
  | giveDs x =>
      rw [ht] at hcontrol
      exact h.giveDs hintr ht hcontrol
  | giveFirst x =>
      rw [ht] at hcontrol
      exact h.giveFirst hintr ht hcontrol
  | book x =>
      rw [ht] at hcontrol
      exact h.book hintr ht hcontrol
  | start =>
      rw [ht] at hcontrol
      exact h.start hintr ht hcontrol
  | enableTx =>
      rw [ht] at hcontrol
      exact h.enableTx hintr ht hcontrol

/-! ## Interrupt, DMA engine and link timer -/

theorem TxInv.txInterrupt (h : TxInv c s) : TxInv c (s.txInterrupt c) := by
  have hcontrol : Control (s.txInterrupt c) := h.control.txInterrupt
  obtain ⟨pkts, lim, g, hring, htask, hplace⟩ := h.ring
  unfold TxMac.txInterrupt at hcontrol ⊢
  cases hr : s.intr with
  | some r =>
      rw [hr] at hcontrol
      dsimp only at hcontrol ⊢
      have hidle : s.task = .idle := (h.control.masked (h.control.handler (by simp [hr]))).2
      have hmask : s.txIntr = true := h.control.handler (by simp [hr])
      rw [hidle] at htask
      obtain ⟨⟨pkts', hring', hset'⟩, hbug, htaken, hrel, hnext, hdone⟩ :=
        txReap_reaped hring htask.1 (hplace r hr)
      have htask' : (s.txReap c r).1.task = .idle := by
        rcases @txReap_cases c s r with hsame | ⟨-, -, heq⟩
        · exact hsame.task.trans hidle
        · rw [heq]
          exact hidle
      have hspace := fun hne => @txReap_spacious c s pkts lim g r hring hne
      rcases hreap : s.txReap c r with ⟨s', next⟩
      rw [hreap] at hcontrol hring' hset' hbug hnext hdone htask' hspace
      have hq : SameQueue s' { s' with intr := next } := ⟨rfl, rfl, rfl, rfl, rfl, rfl⟩
      refine ⟨hbug.trans h.bug, hcontrol, pkts', lim, g,
        hring'.of_same ⟨rfl, rfl, rfl, rfl, rfl, rfl, rfl, rfl, rfl⟩, ?_,
        fun r' hr' => (hnext r' hr').of_same hq⟩
      refine (congrArg (TaskOk c { s' with intr := next } pkts' lim g) htask').mpr ?_
      refine ⟨hset'.of_same hq, hdone, fun hm => (hspace fun heq => ?_).of_same hq⟩
      rw [show s'.txIntr = false from hm, hmask] at heq
      cases heq
  | none =>
      rw [hr] at hcontrol
      dsimp only at hcontrol ⊢
      split
      · rename_i hraise
        rw [if_pos hraise] at hcontrol
        simp only [Bool.and_eq_true] at hraise
        have hidle : s.task = .idle := (h.control.masked hraise.1).2
        rw [hidle] at htask
        obtain ⟨hset, hrel, -⟩ := htask
        have hq : SameQueue s { s with intr := some .enter } := ⟨rfl, rfl, rfl, rfl, rfl, rfl⟩
        refine ⟨h.bug, hcontrol, pkts, lim, g,
          hring.of_same ⟨rfl, rfl, rfl, rfl, rfl, rfl, rfl, rfl, rfl⟩, ?_, fun r' hr' => ?_⟩
        · refine (congrArg (TaskOk c { s with intr := some .enter } pkts lim g) hidle).mpr ?_
          refine ⟨hset.of_same hq, fun hn => (by cases hn), fun hm => ?_⟩
          rw [show s.txIntr = false from hm] at hraise
          cases hraise.1
        · cases hr'
          exact hrel hr
      · exact h

theorem TxInv.dmaComplete (h : TxInv c s) : TxInv c (s.dmaComplete c) := by
  have hcontrol : Control (s.dmaComplete c) := h.control.dmaComplete
  obtain ⟨pkts, lim, g, hring, htask, hplace⟩ := h.ring
  unfold TxMac.dmaComplete at hcontrol ⊢
  split
  · rename_i howned
    rw [if_pos howned] at hcontrol
    exact ⟨h.bug, hcontrol, pkts, lim, g, hring.dmaComplete howned,
      htask.of_same ⟨rfl, rfl, rfl, rfl, rfl, rfl⟩ rfl rfl,
      fun r hr => (hplace r hr).of_same ⟨rfl, rfl, rfl, rfl, rfl, rfl⟩⟩
  · exact h

theorem TxInv.checkLink (h : TxInv c s) {l : Option LinkStatus}
    (hcontrol : Control (s.checkLink l)) : TxInv c (s.checkLink l) := by
  obtain ⟨pkts, lim, g, hring, htask, hplace⟩ := h.ring
  have hsame : ∀ s' : TxMac, SameRing s s' → SameQueue s s' → s'.intr = s.intr →
      s'.txIntr = s.txIntr → s'.task = s.task → s'.bug = s.bug → Control s' → TxInv c s' := by
    intro s' hsr hsq hi htx ht hb hc
    refine ⟨hb.trans h.bug, hc, pkts, lim, g, hring.of_same hsr, ?_, fun r hr => ?_⟩
    · rw [ht]
      exact htask.of_same hsq hi htx
    · exact (hplace r (hi ▸ hr)).of_same hsq
  unfold TxMac.checkLink at hcontrol ⊢
  cases l with
  | none => exact h
  | some l =>
      dsimp only at hcontrol ⊢
      split
      · rename_i hdown
        rw [if_pos hdown] at hcontrol
        split
        · rename_i hcarrier
          rw [if_pos hcarrier] at hcontrol
          exact hsame _ ⟨rfl, rfl, rfl, rfl, rfl, rfl, rfl, rfl, rfl⟩
            ⟨rfl, rfl, rfl, rfl, rfl, rfl⟩ rfl rfl rfl rfl hcontrol
        · exact h
      · rename_i hup
        rw [if_neg hup] at hcontrol
        split
        · rename_i hchanged
          rw [if_pos hchanged] at hcontrol
          exact hsame _ ⟨rfl, rfl, rfl, rfl, rfl, rfl, rfl, rfl, rfl⟩
            ⟨rfl, rfl, rfl, rfl, rfl, rfl⟩ rfl rfl rfl rfl hcontrol
        · exact h

theorem SendsSafely.restartMasked {i : Input} (h : SendsSafely s i) : RestartMasked s i := by
  cases i with
  | hardStart f => trivial
  | run => exact h
  | txInterrupt => exact h
  | dma => exact h
  | checkLink l => exact h

theorem step_txInv (c : TxConf) (s : TxMac) (i : Input) (h : TxInv c s)
    (hsafe : SendsSafely s i) : TxInv c (s.step c i) := by
  have hcontrol : Control (s.step c i) := step_control c s i h.control hsafe.restartMasked
  unfold TxMac.step at hcontrol ⊢
  rw [h.bug] at hcontrol ⊢
  simp only [Option.isSome_none, Bool.false_eq_true, if_false] at hcontrol ⊢
  cases i with
  | hardStart f =>
      dsimp only at hcontrol ⊢
      split
      · rename_i hok
        simp only [Bool.and_eq_true, Bool.not_eq_eq_eq_not, Bool.not_true] at hok
        exact h.hardStart hok.1 hok.2 hsafe
      · exact h
  | run =>
      dsimp only at hcontrol ⊢
      split
      · rename_i hok
        exact h.runTask (Option.isNone_iff_eq_none.mp hok)
      · exact h
  | txInterrupt => exact h.txInterrupt
  | dma => exact h.dmaComplete
  | checkLink l =>
      dsimp only at hcontrol ⊢
      split
      · rename_i hok
        rw [if_pos hok] at hcontrol
        exact h.checkLink hcontrol
      · exact h

/-! ## Runs -/

/-- After every run in which the link timer restarts the queue only with the TX interrupt
masked, the ring is safe. -/
theorem run_txSafe (c : TxConf) (queueStopped carrier : Bool) (speed fdx : Int)
    (inputs : List Input)
    (h : Along (step c) SendsSafely (.init queueStopped carrier speed fdx) inputs) :
    TxSafe c (exec (step c) (.init queueStopped carrier speed fdx) inputs) :=
  (h.invariant (step_txInv c) (TxInv.init c queueStopped carrier speed fdx)).safe

/-- Two more frames, each after the link has come back to a full ring, and the CPU meets a
descriptor of the DMA engine. -/
theorem flap_overruns_ring :
    ¬ TxSafe fourPackets (exec (step fourPackets) (.init false true 2 1)
      (sendFrame 0 ++ sendFrame 1 ++ sendFrame 2 ++ sendFrame 3 ++ flap ++ sendFrame 4 ++ flap ++
        sendFrame 5)) := by
  intro hsafe
  have hbug := hsafe.noBug
  revert hbug
  decide +kernel

/-- The ring is filled, a frame is completed, the handler reaps it and the link changes
speed. -/
theorem run_txSafe_refilled :
    TxSafe fourPackets (exec (step fourPackets) (.init false true 2 1)
      (sendFrame 0 ++ [.checkLink (some ⟨true, 1, 1⟩)] ++ sendFrame 1 ++ sendFrame 2 ++ sendFrame 3 ++
        List.replicate 12 .dma ++ List.replicate 8 .txInterrupt ++ sendFrame 4)) := by
  refine run_txSafe fourPackets false true 2 1 _ ?_
  decide +kernel

end Xwr100.Ag7100
