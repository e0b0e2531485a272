import Mathlib.Tactic.IntervalCases

/-! # The switch registers in band

With `HEADER_REG_CONF` the registers are read and written by frames on the link to the switch.  A
request is sent up to three times, each time until `header_receive_skb` has raised a flag or the
time is up.  The network is what it delivers at each point: answers to any request sent so far, any
number of times or never.
-/

namespace Xwr100.Athrs26

abbrev Byte := BitVec 8

/-! ## Frames -/

/-- The bytes `athrs26_header_config_reg` fills in. -/
def athrs26HeaderConfigReg (wrFlag : BitVec 8) (regAddr : BitVec 32) (cmdLen : BitVec 16)
    (val : List Byte) (seqNum : BitVec 32) : List Byte :=
  let len := if 4#16 < cmdLen then 4#16 else cmdLen
  let addr := regAddr &&& 0x3fffc#32
  [(0#16 ||| (0x01#16 <<< 4) ||| (1#16 <<< 6) ||| (0#16 <<< 7)).setWidth 8,
    (0x5#16 ||| (0#16 <<< 4) ||| (0x10#16 <<< 6)).setWidth 8,
    (addr &&& 0xff#32).setWidth 8,
    ((addr &&& 0xff00#32) >>> 8).setWidth 8,
    ((addr &&& 0x30000#32) >>> 16).setWidth 8 ||| (len <<< 4).setWidth 8,
    (wrFlag <<< 4) ||| (0x5#8 <<< 5),
    ((seqNum &&& 0x7f#32) <<< 1).setWidth 8,
    ((seqNum &&& 0x7f80#32) >>> 7).setWidth 8,
    ((seqNum &&& 0x7f8000#32) >>> 15).setWidth 8,
    ((seqNum &&& 0x7f800000#32) >>> 23).setWidth 8] ++
    if wrFlag = 0#8 then val.take len.toNat else []

/-- The length in a frame, as `header_receive_skb` takes it. -/
def respLen (skb : Nat → Byte) : Byte := skb 4 >>> 4

def respSeq (skb : Nat → Byte) : BitVec 32 :=
  (skb 6 >>> 1).setWidth 32 ||| ((skb 7).setWidth 32 <<< 7) ||| ((skb 8).setWidth 32 <<< 15) |||
    ((skb 9).setWidth 32 <<< 23)

def answer (frame : List Byte) (data : Nat → Byte) (k : Nat) : Byte :=
  if k < 10 then frame.getD k 0#8 else data (k - 10)

def wordOf (data : Nat → Byte) : BitVec 32 :=
  (data 0).setWidth 32 ||| ((data 1).setWidth 32 <<< 8) ||| ((data 2).setWidth 32 <<< 16) |||
    ((data 3).setWidth 32 <<< 24)

/-! ## The receiver -/

/-- An answer of the switch on its way: the request it is for, counted from the first one sent,
and its data. -/
structure Response where
  request : Nat
  data : Nat → Byte

/-- An answer that has come in, with the sequence number in its frame. -/
structure Receipt extends Response where
  seq : BitVec 32

structure CmdResp where
  data : Nat → Byte
  len : Byte
  seq : BitVec 32

/-- The variables of the file.  The driver does not keep the frames it has sent, the answers it has
received, or the answer whose data `cmd_resp` has. -/
structure Driver where
  seqcnt : BitVec 32
  waitFlag : Bool
  cmdResp : CmdResp
  sent : List (List Byte)
  received : List Receipt
  copied : Option Receipt

namespace Driver

def init : Driver := ⟨0#32, false, ⟨fun _ => 0#8, 0#8, 0#32⟩, [], [], none⟩

/-- `header_receive_skb`, and whether it wakes the waiting call. -/
def headerReceiveSkb (d : Driver) (skb : Nat → Byte) : Driver × Bool :=
  let flagged := { d with waitFlag := true, cmdResp := { d.cmdResp with len := respLen skb } }
  if 10#8 < respLen skb then (flagged, false)
  else
    let noted := { flagged with cmdResp := ⟨d.cmdResp.data, respLen skb, respSeq skb⟩ }
    if respSeq skb < d.seqcnt then (noted, false)
    else
      let data := fun k => if k < (respLen skb).toNat then skb (10 + k) else d.cmdResp.data k
      ({ noted with cmdResp := ⟨data, respLen skb, respSeq skb⟩ }, true)

def deliver (d : Driver) (r : Response) : Driver × Bool :=
  match d.sent[r.request]? with
  | none => (d, false)
  | some frame =>
      let skb := answer frame r.data
      let taken := d.headerReceiveSkb skb
      ({ taken.1 with
          received := d.received ++ [⟨r, respSeq skb⟩]
          copied := if taken.2 then some ⟨r, respSeq skb⟩ else d.copied }, taken.2)

/-- Several answers; whether one of them wakes the call. -/
def deliverAll : List Response → Driver → Driver × Bool
  | [], d => (d, false)
  | r :: rest, d =>
      let first := d.deliver r
      let others := deliverAll rest first.1
      (others.1, first.2 || others.2)

end Driver

/-! ## A call -/

/-- What happens around one turn of a call's loop: the answers that come in before the wait looks at
the flag, while it sleeps and once it is over; the time left when a sleep has ended, and whether a
signal has ended it. -/
structure Attempt where
  early : List Response
  asleep : List Response
  left : Nat
  signal : Bool
  late : List Response

/-- What happens around a call: before it, in the turns of its loop by the value of `i`, between the
tests of the number and the length in `cmd_resp`, and before each of its data bytes is loaded. -/
structure Conversation where
  before : List Response
  attempt : Nat → Attempt
  tested : List Response
  torn : Nat → List Response

def hz : Int := 1000
def erestartsys : Int := 512

namespace Driver

/-- `wait_event_interruptible_timeout` for the flag.  An answer that raises it in a sleep does not
end the sleep unless it wakes the call. -/
def waitEvent (d : Driver) (a : Attempt) : Driver × Int :=
  let noticed := (deliverAll a.early d).1
  if noticed.waitFlag then (noticed, hz)
  else
    let slept := deliverAll a.asleep noticed
    if slept.2 || a.signal then
      (slept.1, if a.left = 0 then 0 else if slept.1.waitFlag then a.left else -erestartsys)
    else (slept.1, 0)

def send (d : Driver) (frame : List Byte) : Driver :=
  { d with waitFlag := false, sent := d.sent ++ [frame] }

/-- One turn: its result is that of the wait. -/
def turn (d : Driver) (frame : List Byte) (a : Attempt) : Driver × Int :=
  let waited := (d.send frame).waitEvent a
  ((deliverAll a.late waited.1).1, waited.2)

/-- The loop from some `i` down, with its last `i`; `enough` ends it after the first turn. -/
def loop (frame : List Byte) (enough : Bool) (attempt : Nat → Attempt) :
    Nat → Driver → Driver × Int
  | 0, d =>
      let tried := d.turn frame (attempt 0)
      (tried.1, if tried.2 ≠ 0 ∨ enough then 0 else -1)
  | i + 1, d =>
      let tried := d.turn frame (attempt (i + 1))
      if tried.2 ≠ 0 ∨ enough then (tried.1, (i : Int) + 1)
      else loop frame enough attempt i tried.1

/-- The bytes of the register value, the lowest first. -/
def regTmp (regData : BitVec 32) : List Byte :=
  [(0x00ff#32 &&& regData).setWidth 8, ((0xff00#32 &&& regData) >>> 8).setWidth 8,
    ((0xff0000#32 &&& regData) >>> 16).setWidth 8, ((0xff000000#32 &&& regData) >>> 24).setWidth 8]

/-- The write that resets the switch, which does not answer it. -/
def isReset (regAddr regData : BitVec 32) : Bool :=
  regAddr = 0#32 && (((0xff000000#32 &&& regData) >>> 24).setWidth 8 &&& 0x80#8) ≠ 0#8

/-- `__athrs26_header_write_reg`, outside of interrupts. -/
def headerWriteReg (d : Driver) (regAddr : BitVec 32) (cmdLen : BitVec 16)
    (regData seqNum : BitVec 32) (c : Conversation) : Driver × Int :=
  let frame := athrs26HeaderConfigReg 0#8 regAddr cmdLen (regTmp regData) seqNum
  let tried := loop frame (isReset regAddr regData) c.attempt 2 (deliverAll c.before d).1
  (tried.1, if tried.2 = 0 then -1 else 0)

/-- The state in which byte `k` of the data is loaded. -/
def loading (torn : Nat → List Response) : Nat → Driver → Driver
  | 0, d => (deliverAll (torn 0) d).1
  | k + 1, d => (deliverAll (torn (k + 1)) (loading torn k d)).1

/-- `__athrs26_header_read_reg`, outside of interrupts, with what it leaves in `reg_data`. -/
def headerReadReg (d : Driver) (regAddr : BitVec 32) (cmdLen : BitVec 16)
    (regData seqNum : BitVec 32) (c : Conversation) : Driver × Int × BitVec 32 :=
  let frame := athrs26HeaderConfigReg 1#8 regAddr cmdLen [] seqNum
  let tried := loop frame false c.attempt 2 (deliverAll c.before d).1
  let measured := (deliverAll c.tested tried.1).1
  if tried.2 = 0 ∨ seqNum ≠ tried.1.cmdResp.seq then (tried.1, -1, regData)
  else if cmdLen ≠ measured.cmdResp.len.setWidth 16 then (measured, -1, regData)
  else
    (loading c.torn 3 measured, 0, wordOf fun k => (loading c.torn k measured).cmdResp.data k)

end Driver

/-! ## The callers -/

inductive Command where
  | write (regAddr regData : BitVec 32)
  | read (regAddr regData : BitVec 32)

/-- A call of `__athrs26_header_write_reg` or `__athrs26_header_read_reg`, with the state it starts
in. -/
structure Call where
  driver : Driver
  command : Command
  seqNum : BitVec 32
  network : Conversation

/-- The state after a call, its result, and the register value it leaves. -/
def Call.run (c : Call) : Driver × Int × BitVec 32 :=
  match c.command with
  | .write regAddr regData =>
      let out := c.driver.headerWriteReg regAddr 4#16 regData c.seqNum c.network
      (out.1, out.2, regData)
  | .read regAddr regData => c.driver.headerReadReg regAddr 4#16 regData c.seqNum c.network

/-- What happens around an access: in the calls for the learn bit before and after it, and in its
own call. -/
structure Exchange where
  get : Conversation
  offRead : Conversation
  offWrite : Conversation
  idle : List Response
  main : Conversation
  onRead : Conversation
  onWrite : Conversation

namespace Driver

/-- `get_cpu_port_learn`: the bit, and the call for it. -/
def getCpuPortLearn (d : Driver) (c : Conversation) : Driver × Bool × List Call :=
  let call : Call := ⟨d, .read 0x104#32 0#32, 0x7fffffff#32, c⟩
  (call.run.1, (call.run.2.2 >>> 14) &&& 1#32 ≠ 0#32, [call])

def setCpuPortLearn (d : Driver) (flags : Bool) (c c' : Conversation) : Driver × List Call :=
  let read : Call := ⟨d, .read 0x104#32 0#32, 0x7fffffff#32, c⟩
  let regData := if flags then read.run.2.2 ||| (1#32 <<< 14) else read.run.2.2 &&& ~~~(1#32 <<< 14)
  let write : Call := ⟨read.run.1, .write 0x104#32 regData, 0x7fffffff#32, c'⟩
  (write.run.1, [read, write])

/-- The next sequence number; 0x7fffffff is for `set_cpu_port_learn`. -/
def count (d : Driver) : Driver :=
  { d with seqcnt := if d.seqcnt = 0x7ffffffe#32 then 0#32 else d.seqcnt + 1#32 }

/-- The learn bit is read, and cleared if it is set. -/
def suspendLearn (d : Driver) (x : Exchange) : Driver × Bool × List Call :=
  let learn := d.getCpuPortLearn x.get
  if learn.2.1 then
    let off := learn.1.setCpuPortLearn false x.offRead x.offWrite
    (off.1, true, learn.2.2 ++ off.2)
  else (learn.1, false, learn.2.2)

def mainCall (d : Driver) (command : Command) (x : Exchange) : Call :=
  let counted := (deliverAll x.idle d).1.count
  ⟨counted, command, counted.seqcnt, x.main⟩

/-- `athrs26_header_write_reg`: the state after it, its result, and the calls it makes. -/
def athrs26HeaderWriteReg (d : Driver) (regAddr regData : BitVec 32) (x : Exchange) :
    Driver × Int × List Call :=
  let off := d.suspendLearn x
  let call := off.1.mainCall (.write regAddr regData) x
  if off.2.1 ∧ ¬(regAddr = 0x104#32 ∧ (regData >>> 14) &&& 1#32 = 0#32) then
    let on := call.run.1.setCpuPortLearn true x.onRead x.onWrite
    (on.1, 0, off.2.2 ++ call :: on.2)
  else (call.run.1, 0, off.2.2 ++ [call])

/-- `athrs26_header_read_reg`, with what it leaves in `reg_data`. -/
def athrs26HeaderReadReg (d : Driver) (regAddr regData : BitVec 32) (x : Exchange) :
    Driver × Int × BitVec 32 × List Call :=
  let off := d.suspendLearn x
  let call := off.1.mainCall (.read regAddr regData) x
  let value :=
    if regAddr = 0x104#32 then
      if off.2.1 then call.run.2.2 ||| (1#32 <<< 14) else call.run.2.2 &&& ~~~(1#32 <<< 14)
    else call.run.2.2
  if off.2.1 then
    let on := call.run.1.setCpuPortLearn true x.onRead x.onWrite
    (on.1, 0, value, off.2.2 ++ call :: on.2)
  else (call.run.1, 0, value, off.2.2 ++ [call])

/-- One access: the state after it and its calls. -/
def access (d : Driver) : Command → Exchange → Driver × List Call
  | .write regAddr regData, x =>
      let out := d.athrs26HeaderWriteReg regAddr regData x
      (out.1, out.2.2)
  | .read regAddr regData, x =>
      let out := d.athrs26HeaderReadReg regAddr regData x
      (out.1, out.2.2.2)

def calls : Driver → List (Command × Exchange) → List Call
  | _, [] => []
  | d, (command, x) :: rest => (d.access command x).2 ++ calls (d.access command x).1 rest

end Driver

/-! ## Decoding a frame -/

section Decoding

variable (wrFlag : BitVec 8) (regAddr : BitVec 32) (cmdLen : BitVec 16) (val : List Byte)
  (seqNum : BitVec 32) (data : Nat → Byte)

theorem respLen_answer (hlen : cmdLen ≤ 4#16) :
    respLen (answer (athrs26HeaderConfigReg wrFlag regAddr cmdLen val seqNum) data) =
      cmdLen.setWidth 8 := by
  have hbyte : respLen (answer (athrs26HeaderConfigReg wrFlag regAddr cmdLen val seqNum) data) =
      ((((regAddr &&& 0x3fffc#32) &&& 0x30000#32) >>> 16).setWidth 8 |||
        ((if 4#16 < cmdLen then 4#16 else cmdLen) <<< 4).setWidth 8) >>> 4 := rfl
  have haddr : (((regAddr &&& 0x3fffc#32) &&& 0x30000#32) >>> 16).setWidth 8 >>> 4 = 0#8 := by
    apply BitVec.eq_of_getLsbD_eq
    intro i hi
    interval_cases i <;> simp
  have hlens : ∀ n ≤ 4, (BitVec.ofNat 16 n <<< 4).setWidth 8 >>> 4 =
      (BitVec.ofNat 16 n).setWidth 8 := by decide
  have hlen' := hlens cmdLen.toNat hlen
  rw [BitVec.ofNat_toNat, BitVec.setWidth_eq] at hlen'
  rw [hbyte, BitVec.ushiftRight_or_distrib, haddr, BitVec.zero_or,
    if_neg (BitVec.not_lt.mpr hlen), hlen']

theorem respSeq_answer (hseq : seqNum.getLsbD 31 = false) :
    respSeq (answer (athrs26HeaderConfigReg wrFlag regAddr cmdLen val seqNum) data) = seqNum := by
  have hbytes : respSeq (answer (athrs26HeaderConfigReg wrFlag regAddr cmdLen val seqNum) data) =
      ((((seqNum &&& 0x7f#32) <<< 1).setWidth 8 >>> 1).setWidth 32) |||
      ((((seqNum &&& 0x7f80#32) >>> 7).setWidth 8).setWidth 32 <<< 7) |||
      ((((seqNum &&& 0x7f8000#32) >>> 15).setWidth 8).setWidth 32 <<< 15) |||
      ((((seqNum &&& 0x7f800000#32) >>> 23).setWidth 8).setWidth 32 <<< 23) := rfl
  have htop : seqNum[31] = false := hseq
  rw [hbytes]
  apply BitVec.eq_of_getLsbD_eq
  intro i hi
  interval_cases i <;> simp [htop]

end Decoding

/-- A word is made of its four bytes. -/
theorem wordOf_eq_iff {data data' : Nat → Byte} :
    wordOf data = wordOf data' ↔ ∀ k < 4, data k = data' k := by
  constructor
  · intro h k hk
    apply BitVec.eq_of_getLsbD_eq
    intro i hi
    have hbit := congrArg (fun w => w.getLsbD (8 * k + i)) h
    unfold wordOf at hbit
    interval_cases k <;> interval_cases i <;> simpa using hbit
  · intro h
    unfold wordOf
    rw [h 0 (by decide), h 1 (by decide), h 2 (by decide), h 3 (by decide)]

end Xwr100.Athrs26
