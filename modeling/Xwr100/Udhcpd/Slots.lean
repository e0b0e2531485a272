import Xwr100.Udhcpd.Acts

/-!
# The slots an event touches

For every function that reads or writes the lease table, the indices it uses, in the order of
the source: a loop over the table uses every index below `max_leases`, a search those up to the
first match, and a pointer a function returns is used by whoever follows it.
-/

namespace Xwr100.Udhcpd

variable (env : Env)

namespace Server

/-! ## `leases.c` -/

def allSlots (s : Server) : List Nat := List.range s.config.maxLeases

/-- The slots a search reads: up to the one it finds, or all. -/
def searchSlots (s : Server) : Option Nat → List Nat
  | some i => List.range (i + 1)
  | none => s.allSlots

/-- `clear_lease`, `oldest_expired_lease`, and the slot that is written. -/
def addLeaseSlots (s : Server) (chaddr : Chaddr) (yiaddr : Addr) : List Nat :=
  if yiaddr = 0#32 then []
  else s.allSlots ++ (s.allSlots ++ ((s.clearLease chaddr yiaddr).oldestExpiredLease env).toList)

def isLanIPAddrSlots (s : Server) (addr : Addr) : List Nat :=
  if s.lanIpaddr = some addr then s.addLeaseSlots env blankChaddr addr else []

def findLeaseByYiaddrSlots (s : Server) (yiaddr : Addr) : List Nat :=
  s.searchSlots (s.findLeaseByYiaddr yiaddr)

def findLeaseByChaddrSlots (s : Server) (chaddr : Chaddr) : List Nat :=
  s.searchSlots (s.findMac chaddr.mac) ++
    match s.findMac chaddr.mac with
    | some i => s.isLanIPAddrSlots env (s.leases i).yiaddr
    | none => []

def checkIpSlots (s : Server) (addr : Addr) : List Nat :=
  s.isLanIPAddrSlots env addr ++
    match s.isLanIPAddr env addr with
    | (s', true) => s'.addLeaseSlots env blankChaddr addr
    | (s', false) =>
        if env.arpping s'.probes addr then
          { s' with probes := s'.probes + 1 }.addLeaseSlots env blankChaddr addr
        else []

/-- `lease_expired` looks at the slot the search before it has found. -/
def tryAddressSlots (s : Server) (checkExpired : Bool) (addr : Addr) : List Nat :=
  if addr &&& 0xff#32 = 0#32 then []
  else if addr &&& 0xff#32 = 0xff#32 then []
  else
    s.isLanIPAddrSlots env addr ++
      match s.isLanIPAddr env addr with
      | (_, true) => []
      | (s', false) =>
          s'.findLeaseByYiaddrSlots addr ++
            if s'.leaseTaken env checkExpired addr then [] else s'.checkIpSlots env addr

def findAddressLoopSlots (checkExpired : Bool) : Nat → Server → Addr → List Nat
  | 0, _, _ => []
  | fuel + 1, s, addr =>
      if addr ≤ s.config.end_ then
        s.tryAddressSlots env checkExpired addr ++
          match s.tryAddress env checkExpired addr with
          | (_, true) => []
          | (s', false) => findAddressLoopSlots checkExpired fuel s' (addr + 1)
      else []

def findAddressSlots (s : Server) (checkExpired : Bool) : List Nat :=
  findAddressLoopSlots env checkExpired env.fuel s s.config.start

/-! ## `serverpacket.c` -/

def offerRequestedSlots (s : Server) (m : DhcpMessage) (addr : Addr) : List Nat :=
  s.findLeaseByYiaddrSlots addr ++
    match s.findLeaseByYiaddr addr with
    | none => []
    | some i => if (s.leases i).chaddr = m.chaddr then s.findAddressSlots env false else []

def offerFreeSlots (s : Server) : List Nat :=
  s.findAddressSlots env false ++
    if (s.findAddress env false).1.hung then []
    else if (s.findAddress env false).2 = 0#32 then
      (s.findAddress env false).1.findAddressSlots env true
    else []

def offerNewSlots (s : Server) (m : DhcpMessage) : List Nat :=
  let req := s.option m dhcpRequestedIp
  match req.2 with
  | some pos =>
      (if req.1.inRange (m.readAddr pos) then req.1.findLeaseByYiaddrSlots (m.readAddr pos)
        else []) ++
        if req.1.requestedFree env (m.readAddr pos) then
          req.1.offerRequestedSlots env m (m.readAddr pos)
        else req.1.offerFreeSlots env
  | none => req.1.offerFreeSlots env

def offerAddressSlots (s : Server) (m : DhcpMessage) : List Nat :=
  s.findLeaseByChaddrSlots env m.chaddr ++
    match (s.findLeaseByChaddr env m.chaddr).2 with
    | some i => [i]
    | none => (s.findLeaseByChaddr env m.chaddr).1.offerNewSlots env m

def sendOfferSlots (s : Server) (m : DhcpMessage) : List Nat :=
  let choice := s.offerAddress env m
  s.offerAddressSlots env m ++
    if choice.1.hung then []
    else if choice.2.1 = 0#32 then []
    else choice.1.addLeaseSlots env m.chaddr choice.2.1

def sendACKSlots (s : Server) (m : DhcpMessage) (yiaddr : Addr) : List Nat :=
  let time := s.ackLeaseTime m
  let out := time.1.sendPacket env .ack m.chaddr yiaddr (some time.2)
  if out.2 then out.1.addLeaseSlots env m.chaddr yiaddr else []

/-! ## `dhcpd.c` -/

def answerRecordedSlots (s : Server) (m : DhcpMessage) (requested serverId : Option Nat)
    (i : Nat) : List Nat :=
  let yiaddr := (s.leases i).yiaddr
  [i] ++
    match serverId with
    | some pos =>
        if m.readAddr pos = s.config.server ∧ requested.any (fun r => m.readAddr r = yiaddr) then
          s.sendACKSlots env m yiaddr
        else []
    | none =>
        match requested with
        | some r => if yiaddr = m.readAddr r then s.sendACKSlots env m yiaddr else []
        | none => if yiaddr = m.ciaddr then s.sendACKSlots env m yiaddr else []

def grantUnrecordedSlots (s : Server) (m : DhcpMessage) (yiaddr : Addr)
    (acked : Server → Nat → Addr) : List Nat :=
  if !s.inRange yiaddr then []
  else
    let added := s.addLease env m.chaddr yiaddr s.config.offerTime
    s.addLeaseSlots env m.chaddr yiaddr ++
      match added.2 with
      | none => []
      | some _ =>
          let found := added.1.findLeaseByChaddr env m.chaddr
          added.1.findLeaseByChaddrSlots env m.chaddr ++
            match found.2 with
            | some i => found.1.sendACKSlots env m (acked found.1 i) ++ [i]
            | none => []

def answerUnrecordedSlots (s : Server) (m : DhcpMessage) (requested serverId : Option Nat) :
    List Nat :=
  match serverId with
  | some pos =>
      if m.readAddr pos ≠ s.config.server then []
      else
        match requested with
        | some r => s.grantUnrecordedSlots env m (m.readAddr r) fun s' i => (s'.leases i).yiaddr
        | none => []
  | none =>
      match requested with
      | some r => s.grantUnrecordedSlots env m (m.readAddr r) fun _ _ => m.readAddr r
      | none =>
          if m.ciaddr ≠ 0#32 then s.grantUnrecordedSlots env m m.ciaddr fun _ _ => m.ciaddr
          else []

def handleRequestSlots (s : Server) (m : DhcpMessage) (lease : Option Nat) : List Nat :=
  let opts := s.requestOptions m
  match lease with
  | some i => opts.1.answerRecordedSlots env m opts.2.1 opts.2.2.1 i ++ [i]
  | none => opts.1.answerUnrecordedSlots env m opts.2.1 opts.2.2.1

def handleDiscoverSlots (s : Server) (m : DhcpMessage) : List Nat :=
  let first := s.sendOffer env m
  s.sendOfferSlots env m ++
    if first.1.hung then []
    else if first.2 then []
    else first.1.sendOfferSlots env m

def handleSlots (s : Server) (m : DhcpMessage) (lease : Option Nat) : MessageType → List Nat
  | .discover => s.handleDiscoverSlots env m
  | .request => s.handleRequestSlots env m lease
  | .decline => lease.toList
  | .release => lease.toList
  | .inform => []
  | .unsupported => []

def dispatchSlots (s : Server) (m : DhcpMessage) : List Nat :=
  if m.readBytes 236 4 ≠ dhcpMagic then []
  else
    let state := s.option m dhcpMessageType
    match state.2 with
    | none => []
    | some pos =>
        let found := state.1.findLeaseByChaddr env m.chaddr
        state.1.findLeaseByChaddrSlots env m.chaddr ++
          found.1.handleSlots env m found.2 (MessageType.ofByte (m.mem pos))

/-! ## The lease file and the table itself -/

/-- The hostname goes to the slot that `add_lease` returns. -/
def loadLeaseSlots (s : Server) (record : DhcpOfferedAddr) : List Nat :=
  let lease :=
    if s.config.remaining then record.expires
    else (record.expires + UInt32.size - env.sysTime % UInt32.size) % UInt32.size
  s.addLeaseSlots env record.chaddr record.yiaddr ++
    match (s.addLease env record.chaddr record.yiaddr lease).2 with
    | some i => [i]
    | none => []

def readLeasesLoopSlots : List DhcpOfferedAddr → Server → List Nat
  | [], _ => []
  | record :: rest, s =>
      s.loadLeaseSlots env record ++
        if (s.loadLease env record).2 then readLeasesLoopSlots rest (s.loadLease env record).1
        else []

def readLeasesSlots (s : Server) (file : List DhcpOfferedAddr) : List Nat :=
  readLeasesLoopSlots env (file.take s.config.maxLeases) s

end Server

/-- `sizeof(struct dhcpOfferedAddr)`. -/
def slotSize : Nat := 88

/-- The bytes `malloc` and `memset` are asked for, in a 32-bit `size_t`. -/
def tableBytes (config : ServerConfig) : Nat := slotSize * config.maxLeases % UInt32.size

/-- The slots `malloc` gives the table at the start. -/
def slotsAllocated (config : ServerConfig) : Nat := tableBytes config / slotSize

/-- The slots `memset` writes into. -/
def memsetSlots (config : ServerConfig) : List Nat :=
  List.range ((tableBytes config + (slotSize - 1)) / slotSize)

namespace Server

/-- The start of `main`. -/
def bootSlots (config : ServerConfig) (lanIpaddr : Option Addr) (lanNetmask : Addr)
    (file : List DhcpOfferedAddr) : List Nat :=
  memsetSlots config ++ (init config lanIpaddr lanNetmask).readLeasesSlots env file

/-- SIGUSR2: `memset`, `read_leases` and `update_lease_by_new_ip`, all with the new
configuration. -/
def reloadSlots (s : Server) (config : ServerConfig) (lanIpaddr : Option Addr)
    (lanNetmask : Addr) (file : List DhcpOfferedAddr) : List Nat :=
  let cleared : Server :=
    { s with
      config := config
      lanIpaddr := lanIpaddr
      lanNetmask := lanNetmask
      leases := fun i => if i < config.maxLeases then emptySlot else s.leases i }
  memsetSlots config ++
    (cleared.readLeasesSlots env file ++ (cleared.readLeases env file).allSlots)

end Server

/-- The slots one turn of the server loop uses; `write_leases` reads the whole table. -/
def eventSlots (s : Server) (e : Event) : List Nat :=
  let idle := { s with probes := 0, replies := [] }
  if s.hung then []
  else
    match e with
    | .packet env m => idle.dispatchSlots env m
    | .writeLeases => idle.allSlots
    | .reload env config lanIpaddr lanNetmask file =>
        idle.reloadSlots env config lanIpaddr lanNetmask file

end Xwr100.Udhcpd
