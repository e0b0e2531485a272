import Xwr100.Lib.Ring
import Xwr100.Lib.Run

/-!
# The receive side of the Ethernet driver

`ag7100_poll`, `ag7100_recv_packets`, `ag7100_rx_replenish`, `ag7100_rx_alloc`, the OOM
timer and the RX part of `ag7100_intr`.  The loops are cut at each round, so the DMA
engine can store frames in between; poll and timer exclude each other.  A failed
assertion stops the machine.
-/

namespace Xwr100.Ag7100

open Lib.Ring

/-- `AG7100_RX_DESC_CNT`. -/
structure RxConf where
  descCnt : Nat
  descCnt_pos : 0 < descCnt

structure RxFrame where
  payload : Nat
  len : Nat
deriving DecidableEq, Repr

/-- What goes up the stack: `ETHERNET_FCS_SIZE` less. -/
def RxFrame.putUp (f : RxFrame) : RxFrame := { f with len := f.len - 4 }

/-- A descriptor with the frame in the buffer it points to, the frame's length being
`pkt_size`; it belongs to the DMA engine while `isEmpty` is set. -/
structure RxDesc where
  frame : RxFrame
  isEmpty : Bool
deriving DecidableEq, Repr

/-- The variables of `ag7100_recv_packets`. -/
structure Recv where
  quota : Nat
  iquota : Nat
deriving DecidableEq, Repr

/-- Who called `ag7100_rx_replenish`. -/
inductive Caller where
  | recv (v : Recv)
  | oomTimer
deriving DecidableEq, Repr

inductive RxTask where
  | idle
  | recv (v : Recv) (head : Nat)
  | replenish (caller : Caller) (head tail : Nat)
  | readStatus (v : Recv)
deriving DecidableEq, Repr

inductive RxBug where
  | noSkb
  | replenishOwnedByDma
  | replenishBufPkt
  | interruptInPoll
  | noPktRcvd
  | zeroQuota
  | firstOwnedByDma
  | noProgress
deriving DecidableEq, Repr

/-- The device.  `pollScheduled`, `rxIntr` and `oomTimer` say what will call the driver next;
`ovf` is the overflow bit of the status register and the DMA engine runs while `dmaRunning`.
Frames received and passed up are remembered, and how many buffers were given out, how many
of them up to the stored tail, and how many frames up to the stored head. -/
structure RxMac where
  head : Nat
  tail : Nat
  desc : Nat → RxDesc
  bufPkt : Nat → Option Nat
  dmaDesc : Nat
  dmaRunning : Bool
  ovf : Bool
  rxIntr : Bool
  pollScheduled : Bool
  oomTimer : Bool
  task : RxTask
  bug : Option RxBug
  received : List RxFrame
  passed : List RxFrame
  filled : Nat
  refilled : Nat
  consumed : Nat

namespace RxMac

variable (c : RxConf)

/-- `ag7100_rx_owned_callerdma`. -/
def owned (s : RxMac) (ds : Nat) : Bool := (s.desc ds).isEmpty

/-- Put a buffer into a slot and give the descriptor to the DMA engine. -/
def fill (s : RxMac) (slot skb : Nat) : RxMac :=
  { s with
    bufPkt := Function.update s.bufPkt slot (some skb)
    desc := Function.update s.desc slot { s.desc slot with isEmpty := true } }

/-! ## `ag7100_rx_alloc` -/

/-- The ring after `ag7100_ring_alloc`. -/
def ringAlloc : RxMac where
  head := 0
  tail := 0
  desc _ := ⟨⟨0, 0⟩, false⟩
  bufPkt _ := none
  dmaDesc := 0
  dmaRunning := true
  ovf := false
  rxIntr := true
  pollScheduled := false
  oomTimer := false
  task := .idle
  bug := none
  received := []
  passed := []
  filled := 0
  refilled := 0
  consumed := 0

/-- The loop that fills the slots; a failed allocation gives the ring up. -/
def rxAllocLoop (bufferAlloc : Nat → Option Nat) : Nat → Nat → RxMac → Option RxMac
  | 0, _, s => some s
  | k + 1, tail, s =>
      match bufferAlloc k with
      | none => none
      | some skb => rxAllocLoop bufferAlloc k (incr c.descCnt tail) (s.fill tail skb)

/-- `ag7100_rx_alloc`; the local tail is what `ring_tail` was before the ring was cleared. -/
def rxAlloc (oldTail : Nat) (bufferAlloc : Nat → Option Nat) : Option RxMac :=
  rxAllocLoop c bufferAlloc c.descCnt oldTail ringAlloc

/-! ## `ag7100_recv_packets` -/

/-- `AG7100_RX_STATUS_PKT_RCVD`: frames are received that were not acknowledged. -/
def pktRcvd (s : RxMac) : Bool := decide (s.passed.length < s.received.length)

/-- `ag7100_rx_ring_full`. -/
def rxRingFull (s : RxMac) : Bool := decide (s.head = s.tail) && (s.bufPkt s.tail).isNone

/-- After the loop: store the head and replenish. -/
def endLoop (s : RxMac) (v : Recv) (head : Nat) : RxMac :=
  if v.iquota = v.quota then { s with bug := some .noProgress }
  else
    { s with
      head := head
      consumed := s.passed.length
      task := .replenish (.recv v) head s.tail }

def recvPackets (s : RxMac) (v : Recv) (head : Nat) : RxMac :=
  if v.quota = 0 then s.endLoop v head
  else if s.owned head then
    if v.quota = v.iquota then { s with bug := some .firstOwnedByDma } else s.endLoop v head
  else
    match s.bufPkt head with
    | none => { s with bug := some .noSkb }
    | some _ =>
        { s with
          bufPkt := Function.update s.bufPkt head none
          passed := s.passed ++ [(s.desc head).frame.putUp]
          task := .recv { v with quota := v.quota - 1 } (incr c.descCnt head) }

/-- `ag7100_poll` after `ag7100_recv_packets` is done; `more` says whether it ran out of
quota. -/
def endPoll (s : RxMac) (more : Bool) : RxMac :=
  if s.rxRingFull then
    { s with task := .idle, oomTimer := true, pollScheduled := false }
  else
    let restarted : RxMac :=
      if s.ovf then { s with ovf := false, dmaRunning := true } else s
    if more then { restarted with task := .idle }
    else { restarted with task := .idle, pollScheduled := false, rxIntr := true }

/-- Look at the status register again: process more, or end the poll. -/
def readStatus (s : RxMac) (v : Recv) : RxMac :=
  if !s.pktRcvd then s.endPoll false
  else if v.quota = 0 then s.endPoll true
  else { s with task := .recv v s.head }

/-- The entry of `ag7100_poll`. -/
def poll (s : RxMac) (quota : Nat) : RxMac :=
  if !s.pktRcvd then { s with bug := some .noPktRcvd }
  else if quota = 0 then { s with bug := some .zeroQuota }
  else { s with task := .recv ⟨quota, quota⟩ s.head }

/-! ## `ag7100_rx_replenish` -/

def endReplenish (s : RxMac) : Caller → RxMac
  | .recv v => { s with task := .readStatus v }
  | .oomTimer =>
      if s.rxRingFull then { s with task := .idle, oomTimer := true }
      else { s with task := .idle, pollScheduled := true }

def storeTail (s : RxMac) (tail : Nat) : RxMac := { s with tail := tail, refilled := s.filled }

/-- One round of the replenish loop, with the outcome of the allocation. -/
def rxReplenish (s : RxMac) (caller : Caller) (head tail : Nat) (bufferAlloc : Option Nat) : RxMac :=
  if s.owned tail then { s with bug := some .replenishOwnedByDma }
  else if (s.bufPkt tail).isSome then { s with bug := some .replenishBufPkt }
  else
    match bufferAlloc with
    | none => (s.storeTail tail).endReplenish caller
    | some skb =>
        let filled : RxMac := { s.fill tail skb with filled := s.filled + 1 }
        if incr c.descCnt tail = head then
          (filled.storeTail (incr c.descCnt tail)).endReplenish caller
        else { filled with task := .replenish caller head (incr c.descCnt tail) }

/-! ## Interrupt, timer and DMA engine -/

def rxInterrupt (s : RxMac) : RxMac :=
  if s.pollScheduled then { s with bug := some .interruptInPoll }
  else { s with rxIntr := false, pollScheduled := true }

/-- `ag7100_oom_timer`. -/
def startOomTimer (s : RxMac) : RxMac :=
  { s with oomTimer := false, task := .replenish .oomTimer s.head s.tail }

/-- A frame arrives: it is stored if the engine runs and owns the descriptor it stands at,
else the engine stops. -/
def dmaReceive (s : RxMac) (f : RxFrame) : RxMac :=
  if !s.dmaRunning then s
  else if s.owned s.dmaDesc then
    { s with
      desc := Function.update s.desc s.dmaDesc ⟨f, false⟩
      dmaDesc := incr c.descCnt s.dmaDesc
      received := s.received ++ [f] }
  else { s with dmaRunning := false, ovf := true }

/-! ## Steps -/

inductive Input where
  | frame (f : RxFrame)
  | rxInterrupt
  | poll (quota : Nat)
  | oomTimer
  | run (bufferAlloc : Option Nat)
deriving DecidableEq, Repr

def runTask (s : RxMac) (bufferAlloc : Option Nat) : RxMac :=
  match s.task with
  | .idle => s
  | .recv v head => s.recvPackets c v head
  | .replenish caller head tail => s.rxReplenish c caller head tail bufferAlloc
  | .readStatus v => s.readStatus v

def step (s : RxMac) (i : Input) : RxMac :=
  if s.bug.isSome then s
  else
    match i with
    | .frame f => s.dmaReceive c f
    | .rxInterrupt => if s.rxIntr && (s.pktRcvd || s.ovf) then s.rxInterrupt else s
    | .poll quota => if s.pollScheduled && decide (s.task = .idle) then s.poll quota else s
    | .oomTimer => if s.oomTimer && decide (s.task = .idle) then s.startOomTimer else s
    | .run bufferAlloc => s.runTask c bufferAlloc

end RxMac

end Xwr100.Ag7100
