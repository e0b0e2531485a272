import Xwr100.Ag7100.Rx

/-!
# The receive ring

Counted from the start, so many buffers were put into the ring, so many frames were
received and so many passed up.  In the window of one ring from the last buffer put in,
slots are first empty, then hold a received frame, then belong to the DMA engine.
-/

namespace Xwr100.Ag7100

open Lib Lib.Ring RxMac

variable {c : RxConf} {s s' : RxMac}

/-- Indices are counts, the counts are in order, and they say what a slot holds. -/
structure RxRingOk (c : RxConf) (s : RxMac) : Prop where
  head : s.head = s.consumed % c.descCnt
  tail : s.tail = s.refilled % c.descCnt
  dma : s.dmaDesc = s.received.length % c.descCnt
  refilled_le : s.refilled ≤ s.filled
  filled_le : s.filled ≤ s.consumed
  consumed_le : s.consumed ≤ s.passed.length
  passed_le : s.passed.length ≤ s.received.length
  received_le : s.received.length ≤ s.filled + c.descCnt
  owned : ∀ j, s.filled ≤ j → j < s.filled + c.descCnt →
    (s.owned (j % c.descCnt) = true ↔ s.received.length ≤ j)
  bufPkt : ∀ j, s.filled ≤ j → j < s.filled + c.descCnt →
    ((s.bufPkt (j % c.descCnt)).isSome = true ↔ s.passed.length ≤ j)
  frames : ∀ j f, s.passed.length ≤ j → s.received[j]? = some f →
    (s.desc (j % c.descCnt)).frame = f
  passed : s.passed = (s.received.take s.passed.length).map RxFrame.putUp

structure SameRxRing (s s' : RxMac) : Prop where
  head : s'.head = s.head
  tail : s'.tail = s.tail
  desc : s'.desc = s.desc
  bufPkt : s'.bufPkt = s.bufPkt
  dmaDesc : s'.dmaDesc = s.dmaDesc
  received : s'.received = s.received
  passed : s'.passed = s.passed
  filled : s'.filled = s.filled
  refilled : s'.refilled = s.refilled
  consumed : s'.consumed = s.consumed

theorem RxRingOk.of_same (h : RxRingOk c s) (hs : SameRxRing s s') : RxRingOk c s' := by
  have howned : ∀ i, s'.owned i = s.owned i := by
    intro i
    unfold RxMac.owned
    rw [hs.desc]
  constructor
  · rw [hs.head, hs.consumed]
    exact h.head
  · rw [hs.tail, hs.refilled]
    exact h.tail
  · rw [hs.dmaDesc, hs.received]
    exact h.dma
  · rw [hs.refilled, hs.filled]
    exact h.refilled_le
  · rw [hs.filled, hs.consumed]
    exact h.filled_le
  · rw [hs.consumed, hs.passed]
    exact h.consumed_le
  · rw [hs.passed, hs.received]
    exact h.passed_le
  · rw [hs.received, hs.filled]
    exact h.received_le
  · rw [hs.filled, hs.received]
    intro j hj hj'
    rw [howned]
    exact h.owned j hj hj'
  · rw [hs.filled, hs.bufPkt, hs.passed]
    exact h.bufPkt
  · rw [hs.passed, hs.received, hs.desc]
    exact h.frames
  · rw [hs.passed, hs.received]
    exact h.passed

theorem RxRingOk.slot_ne (_ : RxRingOk c s) {a b : Nat} (ha : s.filled ≤ a)
    (ha' : a < s.filled + c.descCnt) (hb : s.filled ≤ b) (hb' : b < s.filled + c.descCnt)
    (hab : a ≠ b) : a % c.descCnt ≠ b % c.descCnt :=
  fun heq => hab (eq_of_mod_eq ha ha' hb hb' heq)

/-! ## Receiving -/

/-- The DMA engine stores a frame at the first descriptor it owns. -/
theorem RxRingOk.receive (h : RxRingOk c s) (howned : s.owned s.dmaDesc = true) (f : RxFrame) :
    RxRingOk c { s with
      desc := Function.update s.desc s.dmaDesc ⟨f, false⟩
      dmaDesc := incr c.descCnt s.dmaDesc
      received := s.received ++ [f] } := by
  have h2 := h.filled_le
  have h3 := h.consumed_le
  have h4 := h.passed_le
  have h5 := h.received_le
  have hlen : (s.received ++ [f]).length = s.received.length + 1 := by simp
  -- were the window used up, the engine would stand at an empty slot
  have hlt : s.received.length < s.filled + c.descCnt := by
    rcases Nat.lt_or_ge s.received.length (s.filled + c.descCnt) with hlt | hge
    · exact hlt
    · have hpos := c.descCnt_pos
      have hend : s.received.length = s.filled + c.descCnt := by omega
      rw [h.dma, hend, Nat.add_mod_right] at howned
      have hmem := (h.owned s.filled le_rfl (by omega)).mp howned
      omega
  have hnext : incr c.descCnt s.dmaDesc = (s.received ++ [f]).length % c.descCnt := by
    rw [h.dma, incr_mod c.descCnt_pos, hlen]
  generalize incr c.descCnt s.dmaDesc = next at hnext ⊢
  constructor
  · exact h.head
  · exact h.tail
  · exact hnext
  · exact h.refilled_le
  · exact h2
  · exact h3
  · show s.passed.length ≤ (s.received ++ [f]).length
    omega
  · show (s.received ++ [f]).length ≤ s.filled + c.descCnt
    omega
  · intro j hj hj'
    change s.filled ≤ j at hj
    change j < s.filled + c.descCnt at hj'
    show (Function.update s.desc s.dmaDesc ⟨f, false⟩ (j % c.descCnt)).isEmpty = true ↔
      (s.received ++ [f]).length ≤ j
    rw [hlen]
    by_cases hjr : j = s.received.length
    · rw [hjr, ← h.dma, Function.update_self]
      constructor
      · intro hfalse
        cases hfalse
      · omega
    · rw [h.dma, Function.update_of_ne (h.slot_ne hj hj' (by omega) (by omega) hjr)]
      have hold : (s.desc (j % c.descCnt)).isEmpty = true ↔ s.received.length ≤ j :=
        h.owned j hj hj'
      rw [hold]
      omega
  · exact h.bufPkt
  · intro j g hj hg
    show (Function.update s.desc s.dmaDesc ⟨f, false⟩ (j % c.descCnt)).frame = g
    change s.passed.length ≤ j at hj
    change (s.received ++ [f])[j]? = some g at hg
    have hjlt : j < (s.received ++ [f]).length := (List.getElem?_eq_some_iff.mp hg).1
    by_cases hjr : j = s.received.length
    · rw [hjr, List.getElem?_concat_length] at hg
      rw [hjr, ← h.dma, Function.update_self]
      simpa using hg
    · rw [h.dma, Function.update_of_ne (h.slot_ne (by omega) (by omega) (by omega) (by omega) hjr)]
      rw [List.getElem?_append_left (by omega)] at hg
      exact h.frames j g hj hg
  · show s.passed = ((s.received ++ [f]).take s.passed.length).map RxFrame.putUp
    rw [List.take_append_of_le_length h4]
    exact h.passed

/-! ## Passing up -/

/-- The receive loop takes the first frame that was not passed up. -/
theorem RxRingOk.passUp (h : RxRingOk c s) (hlt : s.passed.length < s.received.length) :
    RxRingOk c { s with
      bufPkt := Function.update s.bufPkt (s.passed.length % c.descCnt) none
      passed := s.passed ++ [(s.desc (s.passed.length % c.descCnt)).frame.putUp] } := by
  have h2 := h.filled_le
  have h3 := h.consumed_le
  have h5 := h.received_le
  have hget : s.received[s.passed.length]? = some (s.received.get ⟨s.passed.length, hlt⟩) :=
    List.getElem?_eq_getElem hlt
  have hframe := h.frames s.passed.length _ le_rfl hget
  have hlen : (s.passed ++ [(s.desc (s.passed.length % c.descCnt)).frame.putUp]).length =
      s.passed.length + 1 := by simp
  constructor
  · exact h.head
  · exact h.tail
  · exact h.dma
  · exact h.refilled_le
  · exact h2
  · show s.consumed ≤ (s.passed ++ [_]).length
    omega
  · show (s.passed ++ [_]).length ≤ s.received.length
    omega
  · exact h5
  · exact h.owned
  · intro j hj hj'
    change s.filled ≤ j at hj
    change j < s.filled + c.descCnt at hj'
    show (Function.update s.bufPkt (s.passed.length % c.descCnt) none (j % c.descCnt)).isSome =
      true ↔ (s.passed ++ [_]).length ≤ j
    rw [hlen]
    by_cases hjp : j = s.passed.length
    · rw [hjp, Function.update_self]
      constructor
      · intro hfalse
        cases hfalse
      · omega
    · rw [Function.update_of_ne (h.slot_ne hj hj' (by omega) (by omega) hjp), h.bufPkt j hj hj']
      omega
  · intro j g hj hg
    change (s.passed ++ [_]).length ≤ j at hj
    rw [hlen] at hj
    exact h.frames j g (by omega) hg
  · show s.passed ++ [_] = (s.received.take (s.passed ++ [_]).length).map RxFrame.putUp
    rw [hlen, List.take_add_one, List.map_append, ← h.passed, hget, hframe]
    rfl

/-! ## Replenishing -/

/-- A buffer is put into the first empty slot. -/
theorem RxRingOk.fill (h : RxRingOk c s) (hlt : s.filled < s.consumed) (skb : Nat) :
    RxRingOk c { s.fill (s.filled % c.descCnt) skb with filled := s.filled + 1 } := by
  have hpos := c.descCnt_pos
  have h1 := h.refilled_le
  have h3 := h.consumed_le
  have h4 := h.passed_le
  have h5 := h.received_le
  -- the slot moves to the end of the window
  have hslot : ∀ j, s.filled + 1 ≤ j → j < s.filled + 1 + c.descCnt → j % c.descCnt =
      s.filled % c.descCnt → j = s.filled + c.descCnt := by
    intro j hj hj' heq
    refine @eq_of_mod_eq c.descCnt (s.filled + 1) j _ hj hj' (by omega) (by omega) ?_
    rw [heq, Nat.add_mod_right]
  constructor
  · exact h.head
  · exact h.tail
  · exact h.dma
  · show s.refilled ≤ s.filled + 1
    omega
  · exact hlt
  · exact h3
  · exact h4
  · show s.received.length ≤ s.filled + 1 + c.descCnt
    omega
  · intro j hj hj'
    change s.filled + 1 ≤ j at hj
    change j < s.filled + 1 + c.descCnt at hj'
    show (Function.update s.desc (s.filled % c.descCnt)
      { s.desc (s.filled % c.descCnt) with isEmpty := true } (j % c.descCnt)).isEmpty = true ↔
        s.received.length ≤ j
    by_cases heq : j % c.descCnt = s.filled % c.descCnt
    · rw [heq, Function.update_self]
      have hend := hslot j hj hj' heq
      exact ⟨fun _ => by omega, fun _ => rfl⟩
    · rw [Function.update_of_ne heq]
      have hne : j ≠ s.filled + c.descCnt := fun hend => heq (by rw [hend, Nat.add_mod_right])
      exact h.owned j (by omega) (by omega)
  · intro j hj hj'
    change s.filled + 1 ≤ j at hj
    change j < s.filled + 1 + c.descCnt at hj'
    show (Function.update s.bufPkt (s.filled % c.descCnt) (some skb) (j % c.descCnt)).isSome =
      true ↔ s.passed.length ≤ j
    by_cases heq : j % c.descCnt = s.filled % c.descCnt
    · rw [heq, Function.update_self]
      have hend := hslot j hj hj' heq
      exact ⟨fun _ => by omega, fun _ => rfl⟩
    · rw [Function.update_of_ne heq]
      have hne : j ≠ s.filled + c.descCnt := fun hend => heq (by rw [hend, Nat.add_mod_right])
      exact h.bufPkt j (by omega) (by omega)
  · intro j g hj hg
    change s.passed.length ≤ j at hj
    show (Function.update s.desc (s.filled % c.descCnt)
      { s.desc (s.filled % c.descCnt) with isEmpty := true } (j % c.descCnt)).frame = g
    have hjlt : j < s.received.length := (List.getElem?_eq_some_iff.mp hg).1
    have hne : j % c.descCnt ≠ s.filled % c.descCnt :=
      h.slot_ne (by omega) (by omega) (by omega) (by omega) (by omega)
    rw [Function.update_of_ne hne]
    exact h.frames j g hj hg
  · exact h.passed

theorem RxRingOk.storeTail (h : RxRingOk c s) :
    RxRingOk c (s.storeTail (s.filled % c.descCnt)) :=
  ⟨h.head, rfl, h.dma, le_rfl, h.filled_le, h.consumed_le, h.passed_le, h.received_le, h.owned,
    h.bufPkt, h.frames, h.passed⟩

theorem RxRingOk.storeHead (h : RxRingOk c s) :
    RxRingOk c { s with
      head := s.passed.length % c.descCnt
      consumed := s.passed.length } := by
  have h2 := h.filled_le
  have h3 := h.consumed_le
  exact ⟨rfl, h.tail, h.dma, h.refilled_le, le_trans h2 h3, le_rfl, h.passed_le, h.received_le,
    h.owned, h.bufPkt, h.frames, h.passed⟩

end Xwr100.Ag7100
