import Xwr100.Lib.Run
import Xwr100.Udhcpc.RawPacket

/-! # The DHCP client

The main loop of `dhcpc.c`, one turn at a time.  A turn is given what it learns from outside: the
two readings of the uptime, what `select` has for it, and the outcomes of calls.  What the client
does to the outside is kept in the order it happens: the messages it sends and the scripts it runs.
-/

namespace Xwr100.Udhcpc

open Lib Net Udhcpd

/-! ## `get_packet` -/

/-- `broken_vendors` -/
def brokenVendor : Bytes := [0x4d, 0x53, 0x46, 0x54, 0x20, 0x39, 0x38]

def isBroken (m : DhcpMessage) (vendor : Nat) : Bool :=
  m.mem (vendor - 1) = 7 && (List.range 7).map (fun k => m.mem (vendor + k)) = brokenVendor

def forceBroadcast (m : DhcpMessage) : DhcpMessage :=
  match m.findOption dhcpVendor with
  | none => m
  | some vendor =>
      if m.mem 0 = 1 ∧ isBroken m vendor then m.write 10 [m.mem 10 ||| 0x80] else m

/-- `get_packet`: the message is cleared before it is read into. -/
def getPacket (packet : DhcpMessage) (datagram : Option Bytes) : DhcpMessage × RawResult :=
  let cleared := packet.write 0 (List.replicate 548 0)
  match datagram with
  | none => (cleared, .fatal)
  | some datagram =>
      let read := cleared.write 0 (datagram.take 548)
      if read.readBytes 236 4 ≠ dhcpMagic then (read, .ignored)
      else (forceBroadcast read, .bytes (min datagram.length 548))

/-! ## The state of the client -/

/-- A 32-bit `unsigned long`; times are seconds of uptime. -/
abbrev Word := BitVec 32

inductive ClientState where
  | initSelecting
  | requesting
  | bound
  | renewing
  | rebinding
  | renewRequested
  | released
deriving DecidableEq, Repr

inductive ListenMode where
  | none
  | kernel
  | raw
deriving DecidableEq, Repr

inductive Act where
  | discover (xid : Word) (requested : Addr)
  | selecting (xid : Word) (server requested : Addr)
  /-- A request for more time; to the server zero it is broadcast. -/
  | renew (xid : Word) (server ciaddr : Addr)
  | release (xid : Word) (server ciaddr : Addr)
  /-- The script takes the address off the interface. -/
  | deconfig
  /-- The script puts the address on the interface, after the first acknowledgement or a later one. -/
  | bound (xid : Word) (addr : Addr) (again : Bool)
  | nak
  | exit (retval : Nat)
  /-- The program is brought down by a copy of more than memory holds. -/
  | crash
deriving DecidableEq, Repr

/-- The part of `struct client_config_t` that the loop reads, but for `foreground`. -/
structure ClientConfig where
  arp : BitVec 48
  abortIfNoLease : Bool
  quitAfterLease : Bool
  backgroundIfNoLease : Bool
deriving DecidableEq, Repr

structure Client where
  config : ClientConfig
  foreground : Bool
  state : ClientState
  requestedIp : Addr
  serverAddr : Addr
  timeout : Word
  packetNum : Nat
  listenMode : ListenMode
  fdOpen : Bool
  bootpCntOffer : Int
  t1 : Word
  t2 : Word
  xid : Word
  start : Word
  lease : Word
  packet : DhcpMessage
  running : Bool
  acts : List Act

inductive Signal where
  | usr1
  | usr2
  | term
deriving DecidableEq, Repr

/-- What `select` has for the loop when there is time left. -/
inductive Ready where
  | timeUp
  | datagram (read : Option Bytes)
  | signal (sig : Signal)
  /-- It fails, or the signal cannot be read. -/
  | failed
deriving DecidableEq

structure Turn where
  before : Word
  ready : Ready
  after : Word
  /-- What `random_xid` returns if it is called. -/
  random : Word
  /-- A socket can be opened. -/
  socketOk : Bool
  /-- `errno` is `EINTR`. -/
  interrupted : Bool
  daemonOk : Bool

namespace Client

variable (c : Client) (t : Turn)

def act (a : Act) : Client := { c with acts := c.acts ++ [a] }

def changeMode (mode : ListenMode) : Client := { c with fdOpen := false, listenMode := mode }

def exitClient (retval : Nat) : Client := { c.act (.exit retval) with running := false }

def background : Client :=
  if t.daemonOk then { c with foreground := true } else c.exitClient 1

def performRenew : Client :=
  let c' :=
    match c.state with
    | .bound => { c.changeMode .kernel with state := .renewRequested }
    | .renewing | .rebinding => { c with state := .renewRequested }
    | .renewRequested => { (c.act .deconfig).changeMode .raw with state := .initSelecting }
    | .requesting | .released => { c.changeMode .raw with state := .initSelecting }
    | .initSelecting => c
  { c' with packetNum := 0, timeout := 0 }

def performRelease : Client :=
  let c' :=
    match c.state with
    | .bound | .renewing | .rebinding =>
        (c.act (.release t.random c.serverAddr c.requestedIp)).act .deconfig
    | _ => c
  { c'.changeMode .none with state := .released, timeout := 0x7fffffff }

/-! ## When the time is up -/

/-- `INIT_SELECTING`: three discovers, then a minute's pause. -/
def discoverAgain : Client :=
  if c.packetNum < 3 then
    let c' := if c.packetNum = 0 then { c with xid := t.random } else c
    { c'.act (.discover c'.xid c'.requestedIp) with
      timeout := t.after + (if c.packetNum = 2 then 4 else 2)
      packetNum := c.packetNum + 1 }
  else
    let c' :=
      if c.config.backgroundIfNoLease then c.background t
      else if c.config.abortIfNoLease then c.exitClient 1
      else c
    if c'.running then { c' with packetNum := 0, timeout := t.after + 60 } else c'

/-- `RENEW_REQUESTED` and `REQUESTING`: three requests, then back to the beginning. -/
def requestAgain : Client :=
  if c.packetNum < 3 then
    let request :=
      if c.state = .renewRequested then Act.renew c.xid c.serverAddr c.requestedIp
      else .selecting c.xid c.serverAddr c.requestedIp
    { c.act request with
      timeout := t.after + (if c.packetNum = 2 then 10 else 2)
      packetNum := c.packetNum + 1 }
  else
    let c' := if c.state = .renewRequested then c.act .deconfig else c
    { c'.changeMode .raw with state := .initSelecting, timeout := t.after, packetNum := 0 }

/-- `RENEWING`: halve what is left until T2, or enter `REBINDING`. -/
def renewAgain : Client :=
  if c.t2 - c.t1 ≤ c.lease / 14400 + 1 then
    { c with state := .rebinding, timeout := t.after + (c.t2 - c.t1) }
  else
    let t1 := (c.t2 - c.t1) / 2 + c.t1
    { c.act (.renew c.xid c.serverAddr c.requestedIp) with t1 := t1, timeout := t1 + c.start }

/-- `REBINDING`: halve what is left of the lease, or give it up. -/
def rebindAgain : Client :=
  if c.lease - c.t2 ≤ c.lease / 14400 + 1 then
    { (c.act .deconfig).changeMode .raw with
      state := .initSelecting, timeout := t.after, packetNum := 0 }
  else
    let t2 := (c.lease - c.t2) / 2 + c.t2
    { c.act (.renew c.xid 0 c.requestedIp) with t2 := t2, timeout := t2 + c.start }

def timedOut : Client :=
  match c.state with
  | .initSelecting => c.discoverAgain t
  | .renewRequested | .requesting => c.requestAgain t
  | .bound => ({ c with state := .renewing }.changeMode .kernel).renewAgain t
  | .renewing => c.renewAgain t
  | .rebinding => c.rebindAgain t
  | .released => { c with timeout := 0x7fffffff }

/-! ## When a message is there -/

def isOurs : Bool := c.packet.chaddr.mac = c.config.arp

def hasBootp : Bool := c.packet.mem 44 ≠ 0 || c.packet.mem 108 ≠ 0

def yiaddr : Addr := c.packet.readAddr 16

/-- Take the offer if it says which server it is from. -/
def takeOffer : Client :=
  match c.packet.findOption dhcpServerId with
  | none => { c with bootpCntOffer := 0 }
  | some pos =>
      { c with
        bootpCntOffer := 0
        serverAddr := c.packet.readAddr pos
        requestedIp := c.yiaddr
        state := .requesting
        timeout := t.after
        packetNum := 0 }

/-- A `DHCPOFFER`: the first one with data of BOOTP is passed over. -/
def onOffer : Client :=
  if !c.isOurs then c
  else if c.hasBootp then
    if 2 ≤ c.bootpCntOffer + 1 then c.takeOffer t
    else { c with bootpCntOffer := c.bootpCntOffer + 1, timeout := c.timeout + 2 }
  else c.takeOffer t

/-- The lease of an acknowledgement, an hour if it states none. -/
def ackLease : Word :=
  match c.packet.findOption dhcpLeaseTime with
  | none => 3600
  | some pos => c.packet.readAddr pos

def bind (lease : Word) : Client :=
  let again : Bool := c.state = .renewing ∨ c.state = .rebinding
  { (c.act (.bound c.xid c.yiaddr again)).changeMode .none with
    lease := lease
    t1 := lease / 2
    t2 := (lease * 7) >>> 3
    start := t.after
    timeout := lease / 2 + t.after
    requestedIp := c.yiaddr
    state := .bound }

/-- A `DHCPACK`. -/
def onAck : Client :=
  if !c.isOurs then c
  else
    let c' := c.bind t c.ackLease
    if c'.config.quitAfterLease then c'.exitClient 0
    else if !c'.foreground then c'.background t
    else c'

/-- A `DHCPNAK`. -/
def onNak : Client :=
  let c' := if c.state ≠ .requesting then (c.act .nak).act .deconfig else c.act .nak
  { c'.changeMode .raw with
    state := .initSelecting, timeout := t.after, requestedIp := 0, packetNum := 0 }

def dispatch (message : UInt8) : Client :=
  match c.state with
  | .initSelecting => if message = 2 then c.onOffer t else c
  | .renewRequested | .requesting | .renewing | .rebinding =>
      if message = 5 then c.onAck t else if message = 6 then c.onNak t else c
  | .bound | .released => c

def message : Client :=
  if c.packet.readAddr 4 ≠ c.xid then c
  else
    match c.packet.findOption dhcpMessageType with
    | none => c
    | some pos => c.dispatch t (c.packet.mem pos)

/-- A packet is ready: read it. -/
def readPacket (datagram : Option Bytes) : Client :=
  let read :=
    if c.listenMode = .kernel then getPacket c.packet datagram
    else getRawPacket c.packet datagram
  let c' := { c with packet := read.1 }
  match read.2 with
  | .fatal => if t.interrupted then c' else c'.changeMode c'.listenMode
  | .ignored => c'
  | .overrun => { c'.act .crash with running := false }
  | .bytes _ => c'.message t

/-! ## The loop -/

/-- Open the socket if the mode asks for one. -/
def openSocket : Client :=
  if c.listenMode ≠ .none ∧ c.fdOpen = false then
    if t.socketOk then { c with fdOpen := true } else c.exitClient 0
  else c

/-- There is time left until the deadline, as a signed difference. -/
def Waits : Prop := 0 < (c.timeout - t.before).toInt

instance : Decidable (c.Waits t) := inferInstanceAs (Decidable (_ < _))

def onSignal : Signal → Client
  | .usr1 => c.performRenew
  | .usr2 => c.performRelease t
  | .term => c.exitClient 0

def select : Client :=
  if c.Waits t then
    match t.ready with
    | .timeUp => c.timedOut t
    | .datagram read => if c.listenMode = .none then c else c.readPacket t read
    | .signal sig => c.onSignal t sig
    | .failed => c
  else c.timedOut t

/-- One turn of the loop; nothing happens after the program has ended. -/
def turn : Client :=
  if c.running then
    let c' := c.openSocket t
    if c'.running then c'.select t else c'
  else c

/-- The client as it enters the loop: what its variables hold that it has not set is arbitrary. -/
def enter (config : ClientConfig) (foreground : Bool) (requestedIp serverAddr : Addr)
    (bootpCntOffer : Int) (lease : Word) (packet : DhcpMessage) : Client where
  config := config
  foreground := foreground
  state := .initSelecting
  requestedIp := requestedIp
  serverAddr := serverAddr
  timeout := 0
  packetNum := 0
  listenMode := .raw
  fdOpen := false
  bootpCntOffer := bootpCntOffer
  t1 := 0
  t2 := 0
  xid := 0
  start := 0
  lease := lease
  packet := packet
  running := true
  acts := [.deconfig]

end Client

theorem Client.turn_datagram {c : Client} {t : Turn} {datagram : Option Bytes}
    (hrunning : c.running = true) (hopen : c.fdOpen = true) (hmode : c.listenMode = .raw)
    (hwaits : c.Waits t) (hready : t.ready = .datagram datagram) :
    c.turn t = c.readPacket t datagram := by
  have hsocket : c.openSocket t = c := by
    rw [Client.openSocket, hopen]
    exact if_neg fun h => Bool.noConfusion h.2
  unfold Client.turn
  dsimp only
  rw [if_pos hrunning, hsocket, if_pos hrunning, Client.select, if_pos hwaits, hready]
  dsimp only
  rw [hmode]
  exact if_neg ListenMode.noConfusion

/-! ## A lease -/

namespace Lease

/-- The server 192.168.1.1 offers or grants 192.168.1.5 for an hour. -/
def answer (type : UInt8) : DhcpMessage :=
  (DhcpMessage.ofOptions 0x020000000003 0
    [0x35, 1, type, 0x36, 4, 192, 168, 1, 1, 0x33, 4, 0, 0, 0x0e, 0x10, 0xff]).write 16
      [192, 168, 1, 5]

structure Datagrams (offer ack : Bytes) : Prop where
  offer : getRawPacket (answer 2) (some offer) = (answer 2, .bytes 548)
  ack : getRawPacket (answer 2) (some ack) = (answer 5, .bytes 548)

theorem datagrams : ∃ offer ack, Datagrams offer ack := by
  have hbehind : ∀ type, ∀ p ≥ 548, (answer type).mem p = 0 := by
    intro type p hp
    rw [answer, DhcpMessage.write]
    dsimp only
    rw [writeAt_behind (Nat.le_trans (by decide) hp)]
    simp only [DhcpMessage.ofOptions]
    rw [if_neg (by omega), if_neg (by omega), if_pos (by omega), List.getD_eq_getElem?_getD,
      List.getElem?_eq_none (by simp; omega), Option.getD_none]
  have hread : ∀ type : UInt8, (answer type).readBytes 236 4 = dhcpMagic →
      ∃ datagram, getRawPacket (answer 2) (some datagram) = (answer type, .bytes 548) := by
    intro type hcookie
    obtain ⟨packet, -, hproto, hversion, hihl, htot, -, -, -, hdest, hlen, hdata, hip, hudp⟩ :=
      rawPacket_eq (answer type) 0xc0a80101 67 0xffffffff 68
    have hsame : ∀ p ≥ 548, (answer type).mem p = (answer 2).mem p := fun p hp => by
      rw [hbehind type p hp, hbehind 2 p hp]
    refine ⟨udpDhcpPacket.encode packet, ?_⟩
    rw [getRawPacket_encode _ hproto hversion hihl htot hlen hip hudp, hdest, if_pos (by decide),
      hdata, write_messageData hsame, if_pos hcookie]
  obtain ⟨offer, hoffer⟩ := hread 2 (by decide)
  obtain ⟨ack, hack⟩ := hread 5 (by decide)
  exact ⟨offer, ack, hoffer, hack⟩

/-- A client with the hardware address 02:00:00:00:00:03 that has been started. -/
def started : Client :=
  .enter ⟨0x020000000003, false, false, false⟩ true 0 0 1 0 (answer 2)

def discovering : Client :=
  { started with
    fdOpen := true
    timeout := 7
    packetNum := 1
    acts := [.deconfig, .discover 0 0] }

def requesting : Client :=
  { discovering with
    state := .requesting
    requestedIp := 0xc0a80105
    serverAddr := 0xc0a80101
    timeout := 6
    packetNum := 0
    bootpCntOffer := 0 }

def asked : Client :=
  { requesting with
    timeout := 8
    packetNum := 1
    acts := [.deconfig, .discover 0 0, .selecting 0 0xc0a80101 0xc0a80105] }

def leased : Client :=
  { asked with
    state := .bound
    timeout := 1807
    listenMode := .none
    fdOpen := false
    t1 := 1800
    t2 := 3150
    start := 7
    lease := 3600
    packet := answer 5
    acts := [.deconfig, .discover 0 0, .selecting 0 0xc0a80101 0xc0a80105,
      .bound 0 0xc0a80105 false] }

def turns (offer ack : Bytes) : List Turn :=
  [⟨5, .timeUp, 5, 0, true, false, true⟩, ⟨5, .datagram (some offer), 6, 0, true, false, true⟩,
    ⟨6, .timeUp, 6, 0, true, false, true⟩, ⟨6, .datagram (some ack), 7, 0, true, false, true⟩]

theorem turn_discover : started.turn ⟨5, .timeUp, 5, 0, true, false, true⟩ = discovering := rfl

theorem turn_request : requesting.turn ⟨6, .timeUp, 6, 0, true, false, true⟩ = asked := rfl

variable {offer ack : Bytes} (h : Datagrams offer ack)

include h

theorem turn_offer :
    discovering.turn ⟨5, .datagram (some offer), 6, 0, true, false, true⟩ = requesting := by
  have hwaits : discovering.Waits ⟨5, .datagram (some offer), 6, 0, true, false, true⟩ := by
    show 0 < ((7 : Word) - 5).toInt
    decide
  have hxid : (answer 2).readAddr 4 = 0 := by decide
  have htype : (answer 2).findOption dhcpMessageType = some 242 ∧ (answer 2).mem 242 = 2 := by decide
  have hmac : (answer 2).chaddr.mac = 0x020000000003#48 := by decide
  have hbootp : (answer 2).mem 44 = 0 ∧ (answer 2).mem 108 = 0 := by decide
  have hserver : (answer 2).findOption dhcpServerId = some 245 ∧
      (answer 2).readAddr 245 = 0xc0a80101 := by decide
  have hyiaddr : (answer 2).readAddr 16 = 0xc0a80105 := by decide
  rw [Client.turn_datagram rfl rfl rfl hwaits rfl]
  simp [Client.readPacket, discovering, started, Client.enter, h.offer, Client.message, hxid, htype,
    Client.dispatch, Client.onOffer, Client.isOurs, hmac, Client.hasBootp, hbootp, Client.takeOffer,
    hserver, Client.yiaddr, hyiaddr, requesting]

theorem turn_ack : asked.turn ⟨6, .datagram (some ack), 7, 0, true, false, true⟩ = leased := by
  have hwaits : asked.Waits ⟨6, .datagram (some ack), 7, 0, true, false, true⟩ := by
    show 0 < ((8 : Word) - 6).toInt
    decide
  have hxid : (answer 5).readAddr 4 = 0 := by decide
  have htype : (answer 5).findOption dhcpMessageType = some 242 ∧ (answer 5).mem 242 = 5 := by decide
  have hmac : (answer 5).chaddr.mac = 0x020000000003#48 := by decide
  have hlease : (answer 5).findOption dhcpLeaseTime = some 251 ∧
      (answer 5).readAddr 251 = 3600 := by decide
  have hyiaddr : (answer 5).readAddr 16 = 0xc0a80105 := by decide
  rw [Client.turn_datagram rfl rfl rfl hwaits rfl]
  simp [Client.readPacket, asked, requesting, discovering, started, Client.enter, h.ack,
    Client.message, hxid, htype, Client.dispatch, Client.onAck, Client.isOurs, hmac, Client.ackLease,
    hlease, Client.bind, Client.act, Client.changeMode, Client.yiaddr, hyiaddr, leased]

end Lease

end Xwr100.Udhcpc
