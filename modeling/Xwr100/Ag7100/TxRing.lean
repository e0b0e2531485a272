import Xwr100.Ag7100.TxDiscipline

/-!
# The transmit ring

Descriptors are counted from the start: so many were released at the tail, freed by the
reaping loop, completed by the DMA engine and taken at the head.  The counts never cross,
and the slots of the ring are their remainders.
-/

namespace Xwr100.Ag7100

open Lib Lib.Ring TxMac

variable {c : TxConf} {s s' : TxMac}

/-! ## Sizes -/

namespace TxConf

theorem txLenPerDs_ge (c : TxConf) : 128 ≤ c.txLenPerDs := by
  unfold txLenPerDs vetTxLenPerPkt
  dsimp only
  split
  · exact le_rfl
  · split
    · split
      · omega
      · split <;> omega
    · omega

theorem txMaxDescPerDsPkt_pos (c : TxConf) : 0 < c.txMaxDescPerDsPkt := by
  have hlen := c.txLenPerDs_ge
  have hdiv := Nat.div_add_mod 2048 c.txLenPerDs
  unfold txMaxDescPerDsPkt
  split
  · rename_i hmod
    rcases Nat.eq_zero_or_pos (2048 / c.txLenPerDs) with hz | hpos
    · rw [hz, hmod] at hdiv
      omega
    · exact hpos
  · exact Nat.succ_pos _

/-- A frame of the longest kind fits the descriptors meant for one packet. -/
theorem le_maxDesc_mul (c : TxConf) : 2048 ≤ c.txMaxDescPerDsPkt * c.txLenPerDs := by
  have hlen := c.txLenPerDs_ge
  have hdiv := Nat.div_add_mod 2048 c.txLenPerDs
  have hmod := Nat.mod_lt 2048 (show c.txLenPerDs > 0 by omega)
  unfold txMaxDescPerDsPkt
  rw [Nat.mul_comm] at hdiv
  split
  · rw [Nat.add_zero]
    omega
  · rw [Nat.add_mul, Nat.one_mul]
    omega

theorem maxDesc_add_two_le (c : TxConf) : c.txMaxDescPerDsPkt + 2 ≤ c.descCnt := by
  have hpos := c.txMaxDescPerDsPkt_pos
  have hmul : 3 * c.txMaxDescPerDsPkt ≤ c.numberTxPkts * c.txMaxDescPerDsPkt :=
    Nat.mul_le_mul_right _ c.pkts_ge
  unfold descCnt
  omega

theorem descCnt_pos (c : TxConf) : 0 < c.descCnt := by
  have hle := c.maxDesc_add_two_le
  omega

end TxConf

theorem left_fits {m len : Nat} (hfit : len ≤ m * c.txLenPerDs) (hpos : 0 < len) :
    0 < m ∧ len - lenThisDs c len ≤ (m - 1) * c.txLenPerDs := by
  have hlen := c.txLenPerDs_ge
  cases m with
  | zero =>
      rw [Nat.zero_mul] at hfit
      omega
  | succ k =>
      refine ⟨Nat.succ_pos k, ?_⟩
      rw [Nat.succ_mul] at hfit
      rw [Nat.add_sub_cancel]
      unfold lenThisDs
      split
      · split
        · -- the piece is cut short so that more than four bytes are left
          rename_i hmore _
          have hk : 1 ≤ k := by
            rcases Nat.eq_zero_or_pos k with hz | hkpos
            · rw [hz, Nat.zero_mul] at hfit
              omega
            · exact hkpos
          have hmul : 1 * c.txLenPerDs ≤ k * c.txLenPerDs := Nat.mul_le_mul_right _ hk
          omega
        · omega
      · omega

/-! ## Packets in the ring -/

/-- From a position on, the packets stand one after the other, each known at its first slot. -/
def Booked (n : Nat) (buf : Nat → TxBuffer) : Nat → List (Nat × Nat) → Prop
  | _, [] => True
  | p, (skb, nds) :: rest =>
      0 < nds ∧ buf (p % n) = ⟨some skb, some ((p + nds - 1) % n), nds⟩ ∧
        Booked n buf (p + nds) rest

def totalNds (pkts : List (Nat × Nat)) : Nat := (pkts.map Prod.snd).sum

@[simp] theorem totalNds_nil : totalNds [] = 0 := rfl

@[simp] theorem totalNds_cons (skb nds : Nat) (rest : List (Nat × Nat)) :
    totalNds ((skb, nds) :: rest) = nds + totalNds rest := by
  simp [totalNds]

theorem totalNds_append (a b : List (Nat × Nat)) :
    totalNds (a ++ b) = totalNds a + totalNds b := by
  simp [totalNds]

theorem Booked.update {n q : Nat} {buf : Nat → TxBuffer} {p : Nat} {pkts : List (Nat × Nat)}
    (h : Booked n buf p pkts) (b : TxBuffer)
    (hq : ∀ j, p ≤ j → j < p + totalNds pkts → j % n ≠ q) :
    Booked n (Function.update buf q b) p pkts := by
  induction pkts generalizing p with
  | nil => trivial
  | cons pkt rest ih =>
      obtain ⟨skb, nds⟩ := pkt
      obtain ⟨hpos, hbuf, hrest⟩ := h
      rw [totalNds_cons] at hq
      refine ⟨hpos, ?_, ih hrest ?_⟩
      · rw [Function.update_of_ne (hq p le_rfl (by omega))]
        exact hbuf
      · intro j hj hj'
        exact hq j (by omega) (by omega)

theorem Booked.append {n : Nat} {buf : Nat → TxBuffer} {p : Nat} {pkts : List (Nat × Nat)}
    (h : Booked n buf p pkts) {skb nds : Nat} (hpos : 0 < nds)
    (hbuf : buf ((p + totalNds pkts) % n) =
      ⟨some skb, some ((p + totalNds pkts + nds - 1) % n), nds⟩) :
    Booked n buf p (pkts ++ [(skb, nds)]) := by
  induction pkts generalizing p with
  | nil => exact ⟨hpos, hbuf, trivial⟩
  | cons pkt rest ih =>
      obtain ⟨skb', nds'⟩ := pkt
      obtain ⟨hpos', hbuf', hrest⟩ := h
      rw [totalNds_cons, ← Nat.add_assoc] at hbuf
      exact ⟨hpos', hbuf', ih hrest hbuf⟩

theorem Booked.held {n : Nat} (hn : 0 < n) {buf : Nat → TxBuffer} {p : Nat}
    {pkts : List (Nat × Nat)} (h : Booked n buf p pkts) :
    ∀ skb ∈ pkts.map Prod.fst, ∃ i < n, (buf i).bufPkt = some skb := by
  induction pkts generalizing p with
  | nil => simp
  | cons pkt rest ih =>
      obtain ⟨skb', nds⟩ := pkt
      obtain ⟨-, hbuf, hrest⟩ := h
      intro skb hskb
      rcases List.mem_cons.mp hskb with rfl | hmem
      · exact ⟨p % n, Nat.mod_lt p hn, by rw [hbuf]⟩
      · exact ih hrest skb hmem

/-! ## Indices, counts and ownership -/

def TxMac.freedNds (s : TxMac) : Nat := totalNds s.freed

/-- Indices are counts, the counts are in order, and the DMA engine owns what it has not
completed of the packets handed over, `lim` being their end, besides `g` descriptors from
`lim` on of which the first is still kept back. -/
structure RingOk (c : TxConf) (s : TxMac) (pkts : List (Nat × Nat)) (lim g : Nat) : Prop where
  head : s.head = s.taken % c.descCnt
  tail : s.tail = s.released % c.descCnt
  dma : s.dmaDesc = s.completed % c.descCnt
  released_le : s.released ≤ s.freedNds
  freed_le : s.freedNds ≤ s.completed
  completed_le : s.completed ≤ lim
  lim_le : lim + g ≤ s.taken
  room : s.taken + 2 ≤ s.released + c.descCnt
  owned : ∀ j, s.released ≤ j → j < s.released + c.descCnt →
    (s.owned (j % c.descCnt) = true ↔
      (s.completed ≤ j ∧ j < lim) ∨ (lim < j ∧ j < lim + g))
  booked : Booked c.descCnt s.buf s.freedNds pkts

variable {pkts : List (Nat × Nat)} {lim g : Nat}

theorem RingOk.ndescUnused (h : RingOk c s pkts lim g) :
    s.ndescUnused c = c.descCnt - (s.taken - s.released) := by
  have h1 := h.released_le
  have h2 := h.freed_le
  have h3 := h.completed_le
  have h4 := h.lim_le
  have h5 := h.room
  unfold TxMac.ndescUnused
  rw [h.head, h.tail]
  exact unused_mod (by omega) (by omega)

theorem RingOk.slot_ne (_ : RingOk c s pkts lim g) {a b : Nat} (ha : s.released ≤ a)
    (ha' : a < s.released + c.descCnt) (hb : s.released ≤ b) (hb' : b < s.released + c.descCnt)
    (hab : a ≠ b) : a % c.descCnt ≠ b % c.descCnt :=
  fun heq => hab (eq_of_mod_eq ha ha' hb hb' heq)

theorem owned_update {d : TxDesc} {q j : Nat} :
    ({ s with desc := Function.update s.desc q d } : TxMac).owned j =
      if j = q then !d.isEmpty else s.owned j := by
  unfold TxMac.owned
  simp only [Function.update_apply]
  split <;> rfl

theorem RingOk.dmaComplete (h : RingOk c s pkts lim g) (howned : s.owned s.dmaDesc = true) :
    RingOk c { s with
      desc := Function.update s.desc s.dmaDesc { s.desc s.dmaDesc with isEmpty := true }
      dmaDesc := incr c.descCnt s.dmaDesc
      completed := s.completed + 1 } pkts lim g := by
  have h1 := h.released_le
  have h2 := h.freed_le
  have h3 := h.completed_le
  have h4 := h.lim_le
  have h5 := h.room
  have hlt : s.completed < lim := by
    rw [h.dma, h.owned s.completed (by omega) (by omega)] at howned
    omega
  have hnext : incr c.descCnt s.dmaDesc = (s.completed + 1) % c.descCnt := by
    rw [h.dma, incr_mod c.descCnt_pos]
  generalize incr c.descCnt s.dmaDesc = next at hnext ⊢
  constructor
  · exact h.head
  · exact h.tail
  · exact hnext
  · exact h1
  · show s.freedNds ≤ s.completed + 1
    omega
  · show s.completed + 1 ≤ lim
    omega
  · exact h4
  · exact h5
  · intro j hj hj'
    change s.released ≤ j at hj
    change j < s.released + c.descCnt at hj'
    have hold := h.owned j hj hj'
    show TxMac.owned ({ s with
      desc := Function.update s.desc s.dmaDesc { s.desc s.dmaDesc with isEmpty := true } } : TxMac)
        (j % c.descCnt) = true ↔ (s.completed + 1 ≤ j ∧ j < lim) ∨ (lim < j ∧ j < lim + g)
    rw [owned_update]
    by_cases hjc : j = s.completed
    · rw [hjc, h.dma, if_pos rfl]
      constructor
      · intro hfalse
        cases hfalse
      · omega
    · rw [h.dma, if_neg (h.slot_ne hj hj' (by omega) (by omega) hjc), hold]
      omega
  · exact h.booked

structure SameRing (s s' : TxMac) : Prop where
  head : s'.head = s.head
  tail : s'.tail = s.tail
  desc : s'.desc = s.desc
  buf : s'.buf = s.buf
  dmaDesc : s'.dmaDesc = s.dmaDesc
  freed : s'.freed = s.freed
  taken : s'.taken = s.taken
  released : s'.released = s.released
  completed : s'.completed = s.completed

theorem SameRing.freedNds (h : SameRing s s') : s'.freedNds = s.freedNds := by
  unfold TxMac.freedNds
  rw [h.freed]

theorem SameRing.owned (h : SameRing s s') (i : Nat) : s'.owned i = s.owned i := by
  unfold TxMac.owned
  rw [h.desc]

theorem RingOk.of_same (h : RingOk c s pkts lim g) (hs : SameRing s s') :
    RingOk c s' pkts lim g := by
  constructor
  · rw [hs.head, hs.taken]
    exact h.head
  · rw [hs.tail, hs.released]
    exact h.tail
  · rw [hs.dmaDesc, hs.completed]
    exact h.dma
  · rw [hs.released, hs.freedNds]
    exact h.released_le
  · rw [hs.completed, hs.freedNds]
    exact h.freed_le
  · rw [hs.completed]
    exact h.completed_le
  · rw [hs.taken]
    exact h.lim_le
  · rw [hs.taken, hs.released]
    exact h.room
  · rw [hs.released, hs.completed]
    intro j hj hj'
    rw [hs.owned]
    exact h.owned j hj hj'
  · rw [hs.buf, hs.freedNds]
    exact h.booked

/-! ## Reaping -/

/-- Storing the tail moves the window up to what the loop has freed. -/
theorem RingOk.storeTail (h : RingOk c s pkts lim g) :
    RingOk c (s.storeTail (s.freedNds % c.descCnt)) pkts lim g := by
  have h1 := h.released_le
  have h2 := h.freed_le
  have h3 := h.completed_le
  have h4 := h.lim_le
  have h5 := h.room
  constructor
  · exact h.head
  · rfl
  · exact h.dma
  · exact le_rfl
  · exact h2
  · exact h3
  · exact h4
  · show s.taken + 2 ≤ s.freedNds + c.descCnt
    omega
  · intro j hj hj'
    change s.freedNds ≤ j at hj
    change j < s.freedNds + c.descCnt at hj'
    show s.owned (j % c.descCnt) = true ↔ (s.completed ≤ j ∧ j < lim) ∨ (lim < j ∧ j < lim + g)
    by_cases hold : j < s.released + c.descCnt
    · exact h.owned j (by omega) hold
    · -- a slot that comes back into the window was freed
      have hback := h.owned (j - c.descCnt) (by omega) (by omega)
      rw [← Nat.mod_eq_sub_mod (by omega)] at hback
      rw [hback]
      omega
  · exact h.booked

/-- Freeing the first packet after all its descriptors are completed. -/
theorem RingOk.free {skb nds : Nat} {rest : List (Nat × Nat)}
    (h : RingOk c s ((skb, nds) :: rest) lim g)
    (htotal : s.freedNds + totalNds ((skb, nds) :: rest) ≤ lim)
    (hdone : s.freedNds + nds ≤ s.completed) (b : TxBuffer) :
    RingOk c { s with
      buf := Function.update s.buf (s.freedNds % c.descCnt) b
      freed := s.freed ++ [(skb, nds)] } rest lim g := by
  have h1 := h.released_le
  have h3 := h.completed_le
  have h4 := h.lim_le
  have h5 := h.room
  obtain ⟨hpos, -, hrest⟩ := h.booked
  rw [totalNds_cons] at htotal
  have hfreed : TxMac.freedNds ({ s with
      buf := Function.update s.buf (s.freedNds % c.descCnt) b
      freed := s.freed ++ [(skb, nds)] } : TxMac) = s.freedNds + nds := by
    unfold TxMac.freedNds
    rw [totalNds_append, totalNds_cons]
    rfl
  constructor
  · exact h.head
  · exact h.tail
  · exact h.dma
  · rw [hfreed]
    show s.released ≤ s.freedNds + nds
    omega
  · rw [hfreed]
    exact hdone
  · exact h3
  · exact h4
  · exact h5
  · exact h.owned
  · rw [hfreed]
    refine hrest.update b fun j hj hj' => ?_
    exact h.slot_ne (by omega) (by omega) (by omega) (by omega) (by omega)

/-! ## Queueing -/

theorem RingOk.setBuf (h : RingOk c s pkts lim g) (p : Nat)
    (hp : s.freedNds + totalNds pkts ≤ p) (hp' : p < s.released + c.descCnt) (b : TxBuffer) :
    RingOk c { s with buf := Function.update s.buf (p % c.descCnt) b } pkts lim g := by
  have h1 := h.released_le
  constructor
  · exact h.head
  · exact h.tail
  · exact h.dma
  · exact h1
  · exact h.freed_le
  · exact h.completed_le
  · exact h.lim_le
  · exact h.room
  · exact h.owned
  · refine h.booked.update b fun j hj hj' => ?_
    change s.freedNds ≤ j at hj
    change j < s.freedNds + totalNds pkts at hj'
    exact h.slot_ne (by omega) (by omega) (by omega) (by omega) (by omega)

theorem RingOk.take (h : RingOk c s pkts lim g) (hroom : s.taken + 3 ≤ s.released + c.descCnt)
    (d : TxDesc) (hd : d.isEmpty = (s.desc s.head).isEmpty) :
    RingOk c { s with
      desc := Function.update s.desc s.head d
      head := incr c.descCnt s.head
      taken := s.taken + 1 } pkts lim g := by
  have h4 := h.lim_le
  have hnext : incr c.descCnt s.head = (s.taken + 1) % c.descCnt := by
    rw [h.head, incr_mod c.descCnt_pos]
  generalize incr c.descCnt s.head = next at hnext ⊢
  constructor
  · exact hnext
  · exact h.tail
  · exact h.dma
  · exact h.released_le
  · exact h.freed_le
  · exact h.completed_le
  · show lim + g ≤ s.taken + 1
    omega
  · exact hroom
  · intro j hj hj'
    have hsame : TxMac.owned ({ s with desc := Function.update s.desc s.head d } : TxMac)
        (j % c.descCnt) = s.owned (j % c.descCnt) := by
      rw [owned_update]
      split
      · rename_i heq
        rw [hd, heq]
        rfl
      · rfl
    show TxMac.owned ({ s with desc := Function.update s.desc s.head d } : TxMac)
      (j % c.descCnt) = true ↔ _
    rw [hsame]
    exact h.owned j hj hj'
  · exact h.booked

theorem RingOk.head_not_owned (h : RingOk c s pkts lim g) : s.owned s.head = false := by
  have h1 := h.released_le
  have h2 := h.freed_le
  have h3 := h.completed_le
  have h4 := h.lim_le
  have h5 := h.room
  have hiff := h.owned s.taken (by omega) (by omega)
  rw [← h.head] at hiff
  cases hown : s.owned s.head with
  | false => rfl
  | true =>
      have hmem := hiff.mp hown
      omega

theorem RingOk.rebound (h : RingOk c s pkts lim g) (lim' g' : Nat)
    (hcompleted : s.completed ≤ lim') (hlim : lim' + g' ≤ s.taken)
    (hset : ∀ j, (s.completed ≤ j ∧ j < lim') ∨ (lim' < j ∧ j < lim' + g') ↔
      (s.completed ≤ j ∧ j < lim) ∨ (lim < j ∧ j < lim + g)) :
    RingOk c s pkts lim' g' := by
  constructor
  · exact h.head
  · exact h.tail
  · exact h.dma
  · exact h.released_le
  · exact h.freed_le
  · exact hcompleted
  · exact hlim
  · exact h.room
  · intro j hj hj'
    rw [h.owned j hj hj']
    exact (hset j).symm
  · exact h.booked

/-- Handing over a descriptor extends the kept-back part, or closes it. -/
theorem RingOk.give (h : RingOk c s pkts lim g) (p lim' g' : Nat) (desc : Nat → TxDesc)
    (hp : s.completed ≤ p) (hp' : p < s.taken)
    (hdesc : ∀ i, (desc i).isEmpty =
      if i = p % c.descCnt then false else (s.desc i).isEmpty)
    (hcompleted : s.completed ≤ lim') (hlim : lim' + g' ≤ s.taken)
    (hset : ∀ j, (s.completed ≤ j ∧ j < lim') ∨ (lim' < j ∧ j < lim' + g') ↔
      j = p ∨ (s.completed ≤ j ∧ j < lim) ∨ (lim < j ∧ j < lim + g)) :
    RingOk c { s with desc := desc } pkts lim' g' := by
  have h1 := h.released_le
  have h2 := h.freed_le
  have h5 := h.room
  constructor
  · exact h.head
  · exact h.tail
  · exact h.dma
  · exact h1
  · exact h2
  · exact hcompleted
  · exact hlim
  · exact h5
  · intro j hj hj'
    change s.released ≤ j at hj
    change j < s.released + c.descCnt at hj'
    show (!(desc (j % c.descCnt)).isEmpty) = true ↔ (s.completed ≤ j ∧ j < lim') ∨ _
    rw [hdesc, hset j]
    by_cases hjp : j = p
    · simp [hjp]
    · rw [if_neg (h.slot_ne hj hj' (by omega) (by omega) hjp)]
      have hold : (!(s.desc (j % c.descCnt)).isEmpty) = true ↔ _ := h.owned j hj hj'
      rw [hold]
      simp [hjp]
  · exact h.booked

end Xwr100.Ag7100
