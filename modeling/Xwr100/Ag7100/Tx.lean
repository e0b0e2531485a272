import Xwr100.Lib.Ring
import Xwr100.Lib.Run

/-!
# The transmit side of the Ethernet driver

`ag7100_hard_start`, `ag7100_tx_reap`, the TX part of `ag7100_intr` and
`ag7100_check_link`, cut where the DMA engine or the interrupt can come between.  The
machine has one CPU: the handler runs to its end before the interrupted function goes
on, and the link timer waits for both.  A failed assertion stops the machine.
-/

namespace Xwr100.Ag7100

open Lib.Ring

/-! ## Parameters -/

/-- `ag7100_vet_tx_len_per_pkt`. -/
def vetTxLenPerPkt (len : Nat) : Nat :=
  let l := len - len % 4
  if l < 128 then 128
  else if l > 2048 / 2 then
    if l < 1536 then 1536 else if l > 2048 then 2048 else l
  else l

/-- The module parameter `tx_len_per_ds`, the configured number of packets of the ring and the
longest frame, `dev->mtu` with its headers. -/
structure TxConf where
  txLenParam : Nat
  numberTxPkts : Nat
  maxLen : Nat
  pkts_ge : 3 ≤ numberTxPkts
  maxLen_le : maxLen ≤ 2048

namespace TxConf

def txLenPerDs (c : TxConf) : Nat := vetTxLenPerPkt c.txLenParam

def txMaxDescPerDsPkt (c : TxConf) : Nat :=
  2048 / c.txLenPerDs + if 2048 % c.txLenPerDs = 0 then 0 else 1

/-- `AG7100_TX_DESC_CNT`. -/
def descCnt (c : TxConf) : Nat := c.numberTxPkts * c.txMaxDescPerDsPkt

end TxConf

/-! ## State -/

/-- `ag7100_desc_t`; a descriptor whose `isEmpty` is clear belongs to the DMA engine. -/
structure TxDesc where
  pktStartAddr : Nat
  pktSize : Nat
  more : Bool
  isEmpty : Bool
deriving DecidableEq, Repr

/-- `ag7100_buffer_t`; `buf_lastds` is the index of the descriptor it points to. -/
structure TxBuffer where
  bufPkt : Option Nat
  bufLastds : Option Nat
  bufNds : Nat
deriving DecidableEq, Repr

/-- A frame to send: the buffer, where its data starts and how long it is. -/
structure Frame where
  skb : Nat
  data : Nat
  len : Nat
deriving DecidableEq, Repr

/-- The variables of `ag7100_hard_start`. -/
structure Xmit where
  skb : Nat
  start : Nat
  len : Nat
  bp : Nat
  fds : Nat
  ds : Nat
  nds : Nat
deriving DecidableEq, Repr

/-- Where `ag7100_tx_reap` is: before it reads the indices, with its copies of them before it
takes the lock and in the loop, or after the loop. -/
inductive Reap where
  | enter
  | lock (head tail : Nat)
  | loop (head tail : Nat)
  | wake
deriving DecidableEq, Repr

/-- Where `ag7100_hard_start` is. -/
inductive Task where
  | idle
  | reaping (f : Frame) (r : Reap)
  | begin (f : Frame)
  | getDs (x : Xmit)
  | giveDs (x : Xmit)
  | giveFirst (x : Xmit)
  | book (x : Xmit)
  | start
  | enableTx
deriving DecidableEq, Repr

inductive Bug where
  | txOwnedByDma
  | shortFrame
  | noPacket
  | nullLastds
  | queueStopped
deriving DecidableEq, Repr

/-- The device, with its history: the buffers queued, the buffers freed with the number of
their descriptors, and how many descriptors were taken from the head, released at the tail
and completed by the DMA engine. -/
structure TxMac where
  head : Nat
  tail : Nat
  desc : Nat → TxDesc
  buf : Nat → TxBuffer
  dmaDesc : Nat
  queueStopped : Bool
  carrier : Bool
  txIntr : Bool
  speed : Int
  fdx : Int
  task : Task
  intr : Option Reap
  bug : Option Bug
  queued : List Nat
  freed : List (Nat × Nat)
  taken : Nat
  released : Nat
  completed : Nat

namespace TxMac

/-- After `ag7100_tx_alloc`, for any state of queue and link. -/
def init (queueStopped carrier : Bool) (speed fdx : Int) : TxMac where
  head := 0
  tail := 0
  desc _ := ⟨0, 0, false, true⟩
  buf _ := ⟨none, none, 0⟩
  dmaDesc := 0
  queueStopped := queueStopped
  carrier := carrier
  txIntr := false
  speed := speed
  fdx := fdx
  task := .idle
  intr := none
  bug := none
  queued := []
  freed := []
  taken := 0
  released := 0
  completed := 0

variable (c : TxConf)

/-- `ag7100_tx_owned_by_dma`. -/
def owned (s : TxMac) (ds : Nat) : Bool := !(s.desc ds).isEmpty

/-- `ag7100_tx_give_to_dma`. -/
def giveToDma (s : TxMac) (ds : Nat) : TxMac :=
  { s with desc := Function.update s.desc ds { s.desc ds with isEmpty := false } }

/-- `ag7100_ndesc_unused`. -/
def ndescUnused (s : TxMac) : Nat := unused c.descCnt s.head s.tail

def txReapThresh (s : TxMac) : Bool := s.ndescUnused c < c.descCnt / 2

def txRingFull (s : TxMac) : Bool := s.ndescUnused c < c.txMaxDescPerDsPkt + 2

/-! ## `ag7100_tx_reap` -/

/-- Leave the loop: store the tail. -/
def storeTail (s : TxMac) (tail : Nat) : TxMac :=
  { s with tail := tail, released := (s.freed.map Prod.snd).sum }

def reapLoop (s : TxMac) (head tail : Nat) : TxMac × Option Reap :=
  if tail = head then (s.storeTail tail, some .wake)
  else if s.owned tail then (s.storeTail tail, some .wake)
  else
    match (s.buf tail).bufPkt with
    | none => ({ s with bug := some .noPacket }, none)
    | some skb =>
        match (s.buf tail).bufLastds with
        | none => ({ s with bug := some .nullLastds }, none)
        | some lastds =>
            if s.owned lastds then (s.storeTail tail, some .wake)
            else
              ({ s with
                  buf := Function.update s.buf tail { s.buf tail with bufPkt := none }
                  freed := s.freed ++ [(skb, (s.buf tail).bufNds)] },
                some (.loop head ((incr c.descCnt)^[(s.buf tail).bufNds] tail)))

/-- Restart the queue if it can be and the carrier is there. -/
def reapWake (s : TxMac) : TxMac :=
  if s.queueStopped && decide (4 * c.txMaxDescPerDsPkt ≤ s.ndescUnused c) && s.carrier then
    { s with txIntr := false, queueStopped := false }
  else s

def txReap (s : TxMac) : Reap → TxMac × Option Reap
  | .enter => (s, some (.lock s.head s.tail))
  | .lock head tail => (s, some (.loop head tail))
  | .loop head tail => s.reapLoop c head tail
  | .wake => (s.reapWake c, none)

/-! ## `ag7100_hard_start` -/

/-- Check the length, reap if the ring is half full. -/
def hardStart (s : TxMac) (f : Frame) : TxMac :=
  if f.len = 0 ∨ c.maxLen < f.len then s
  else if s.txReapThresh c then { s with task := .reaping f .enter }
  else { s with task := .begin f }

def begin (s : TxMac) (f : Frame) : TxMac :=
  if f.len ≤ 4 then { s with bug := some .shortFrame }
  else
    { s with
      buf := Function.update s.buf s.head { s.buf s.head with bufPkt := some f.skb }
      queued := s.queued ++ [f.skb]
      task := .getDs ⟨f.skb, f.data, f.len, s.head, s.head, s.head, 0⟩ }

def lenThisDs (len : Nat) : Nat :=
  if c.txLenPerDs < len then
    if len ≤ c.txLenPerDs + 4 then c.txLenPerDs - 4 else c.txLenPerDs
  else len

def advance (s : TxMac) (x : Xmit) : Xmit where
  skb := x.skb
  start := x.start + lenThisDs c x.len
  len := x.len - lenThisDs c x.len
  bp := x.bp
  fds := if x.nds = 0 then s.head else x.fds
  ds := s.head
  nds := x.nds + 1

def nextDs (x : Xmit) : Task := if 0 < x.len then .getDs x else .giveFirst x

/-- `ag7100_get_tx_ds`. -/
def getTxDs (s : TxMac) (x : Xmit) : TxMac :=
  if s.owned s.head then { s with bug := some .txOwnedByDma }
  else
    { s with
      desc := Function.update s.desc s.head
        { s.desc s.head with
          pktStartAddr := x.start
          pktSize := lenThisDs c x.len
          more := true }
      head := incr c.descCnt s.head
      taken := s.taken + 1
      task := if x.nds = 0 then nextDs (s.advance c x) else .giveDs (s.advance c x) }

/-- Finish the last descriptor, then hand over the first one. -/
def giveFirst (s : TxMac) (x : Xmit) : TxMac :=
  let last : TxMac :=
    { s with
      desc := Function.update s.desc x.ds { s.desc x.ds with more := false }
      task := .book x }
  last.giveToDma x.fds

def book (s : TxMac) (x : Xmit) : TxMac :=
  { s with
    buf := Function.update s.buf x.bp
      { s.buf x.bp with bufLastds := some x.ds, bufNds := x.nds }
    task := .start }

/-- The ring-full test and the first half of `ag7100_handle_tx_full`. -/
def start (s : TxMac) : TxMac :=
  if s.txRingFull c then
    if s.queueStopped then { s with bug := some .queueStopped }
    else { s with queueStopped := true, task := .enableTx }
  else { s with task := .idle }

def runReap (s : TxMac) (f : Frame) (r : Reap) : TxMac :=
  match s.txReap c r with
  | (s', some r') => { s' with task := .reaping f r' }
  | (s', none) => { s' with task := .begin f }

/-- Let `ag7100_hard_start` go on. -/
def runTask (s : TxMac) : TxMac :=
  match s.task with
  | .idle => s
  | .reaping f r => s.runReap c f r
  | .begin f => s.begin f
  | .getDs x => s.getTxDs c x
  | .giveDs x => { s.giveToDma x.ds with task := nextDs x }
  | .giveFirst x => s.giveFirst x
  | .book x => s.book x
  | .start => s.start c
  | .enableTx => { s with txIntr := true, task := .idle }

/-! ## Interrupt, DMA engine and link timer -/

def irqsOff (s : TxMac) : Bool :=
  match s.task with
  | .reaping _ (.loop _ _) => true
  | _ => false

def txInterrupt (s : TxMac) : TxMac :=
  match s.intr with
  | some r =>
      match s.txReap c r with
      | (s', r') => { s' with intr := r' }
  | none => if s.txIntr && !s.irqsOff then { s with intr := some .enter } else s

/-- The DMA engine completes the descriptor it stands at, if it owns it. -/
def dmaComplete (s : TxMac) : TxMac :=
  if s.owned s.dmaDesc then
    { s with
      desc := Function.update s.desc s.dmaDesc { s.desc s.dmaDesc with isEmpty := true }
      dmaDesc := incr c.descCnt s.dmaDesc
      completed := s.completed + 1 }
  else s

/-- What `ag7100_get_link_status` reports. -/
structure LinkStatus where
  phyUp : Bool
  fdx : Int
  speed : Int
deriving DecidableEq, Repr

/-- Whether the link is up with settings to take over; a speed is never negative. -/
def linkChanged (s : TxMac) (l : LinkStatus) : Bool :=
  l.phyUp && decide (0 ≤ l.fdx) &&
    !(s.carrier && decide (l.speed = s.speed) && decide (l.fdx = s.fdx))

/-- `ag7100_check_link`; without a connection or a status nothing happens. -/
def checkLink (s : TxMac) : Option LinkStatus → TxMac
  | none => s
  | some l =>
      if !l.phyUp then
        if s.carrier then { s with carrier := false, queueStopped := true } else s
      else if s.linkChanged l then
        { s with speed := l.speed, fdx := l.fdx, carrier := true, queueStopped := false }
      else s

/-! ## Steps -/

inductive Input where
  | hardStart (f : Frame)
  | run
  | txInterrupt
  | dma
  | checkLink (l : Option LinkStatus)
deriving DecidableEq, Repr

def quiet (s : TxMac) : Bool := decide (s.task = .idle) && s.intr.isNone

/-- One step; the stack calls `ag7100_hard_start` only while the queue is not stopped. -/
def step (s : TxMac) (i : Input) : TxMac :=
  if s.bug.isSome then s
  else
    match i with
    | .hardStart f => if s.quiet && !s.queueStopped then s.hardStart c f else s
    | .run => if s.intr.isNone then s.runTask c else s
    | .txInterrupt => s.txInterrupt c
    | .dma => s.dmaComplete c
    | .checkLink l => if s.quiet then s.checkLink l else s

end TxMac

end Xwr100.Ag7100
