import Xwr100.Udhcpd.Message

/-!
# The lease table

`leases.c` over an explicit server state.  The table is the memory block the
global `leases` points to; every loop over it stops at `server_config.max_leases`,
as in the source.  Commands run through `system` are recorded, not executed.
-/

namespace Xwr100.Udhcpd

/-- One slot of the lease table; `hostname` is the C string its 64 bytes hold. -/
structure DhcpOfferedAddr where
  chaddr : Chaddr
  yiaddr : Addr
  expires : Nat
  hostname : List UInt8
deriving DecidableEq, Repr

/-- What `memset` leaves of a slot. -/
def emptySlot : DhcpOfferedAddr := ⟨blankChaddr, 0#32, 0, []⟩

/-- The fields of `server_config_t` the lease logic reads. -/
structure ServerConfig where
  server : Addr
  start : Addr
  end_ : Addr
  lease : Nat
  maxLeases : Nat
  remaining : Bool
  declineTime : Nat
  conflictTime : Nat
  offerTime : Nat
  minLease : Nat
deriving DecidableEq, Repr

/-- The match part of a `LAN_FLOOD` rule after its source address. -/
inductive FloodMatch where
  | udp
  | tcpSyn
  | tcpSynNot80
deriving DecidableEq, Repr

/-- A rule of the `LAN_FLOOD` chain as the server spells it. -/
structure FloodRule where
  outVlan2 : Bool
  source : Addr
  flood : FloodMatch
deriving DecidableEq, Repr

inductive Command where
  | deleteRule (rule : FloodRule)
  | appendRule (rule : FloodRule)
  | addVizioDevice (addr : Addr)
  | addDevice (mac : BitVec 48) (addr : Addr)
deriving DecidableEq, Repr

inductive ReplyType where
  | offer
  | ack
  | nak
deriving DecidableEq, Repr

/-- A reply as handed to `send_packet`; `leaseTime` is absent when no lease-time option
is added, `sent` says whether the send succeeded. -/
structure Reply where
  type : ReplyType
  chaddr : Chaddr
  yiaddr : Addr
  leaseTime : Option Nat
  sent : Bool
deriving DecidableEq, Repr

/-- The server between two statements.  `lanIpaddr` and `lanNetmask` are the NVRAM
values (`none`: a text that is no dotted quad); `probes` and `replies` belong to the
event being processed; `hung` is set when a search has not come to an end. -/
structure Server where
  config : ServerConfig
  lanIpaddr : Option Addr
  lanNetmask : Addr
  leases : Nat → DhcpOfferedAddr
  vizioDevice : Bool
  commands : List Command
  probes : Nat
  replies : List Reply
  hung : Bool

/-- What the surroundings decide while one event is processed: the uptime in seconds (the
device has been up for one before it serves), the answer to each ARP probe, the outcome
of each send, and how many turns of an address search are followed. -/
structure Env where
  sysTime : Nat
  sysTime_pos : 0 < sysTime
  arpping : Nat → Addr → Bool
  sendOk : Nat → Bool
  fuel : Nat

variable (env : Env)

/-! ## `clear_lease` and `add_lease` -/

/-- The test of `clear_lease` on one slot. -/
def clearMatches (chaddr : Chaddr) (yiaddr : Addr) (slot : DhcpOfferedAddr) : Bool :=
  (chaddr ≠ blankChaddr && slot.chaddr = chaddr) || (yiaddr ≠ 0#32 && slot.yiaddr = yiaddr)

namespace Server

/-- Replace slot `i`. -/
def setSlot (s : Server) (i : Nat) (slot : DhcpOfferedAddr) : Server :=
  { s with leases := Function.update s.leases i slot }

/-- Clear every slot whose `chaddr` or `yiaddr` matches and is nonzero. -/
def clearLease (s : Server) (chaddr : Chaddr) (yiaddr : Addr) : Server :=
  { s with
    leases := fun i =>
      if i < s.config.maxLeases ∧ clearMatches chaddr yiaddr (s.leases i) then emptySlot
      else s.leases i
    commands := s.commands ++
      [.deleteRule ⟨true, yiaddr, .udp⟩, .deleteRule ⟨true, yiaddr, .tcpSyn⟩] }

/-- True if a lease has expired. -/
def leaseExpired (s : Server) (i : Nat) : Bool := (s.leases i).expires < env.sysTime

/-- One turn of the scan in `oldest_expired_lease`: the time to beat and the slot so far. -/
def oldestStep (leases : Nat → DhcpOfferedAddr) (best : Nat × Option Nat) (i : Nat) :
    Nat × Option Nat :=
  if (leases i).expires < best.1 then ((leases i).expires, some i) else best

/-- The oldest expired lease, if any lease has expired. -/
def oldestExpiredLease (s : Server) : Option Nat :=
  ((List.range s.config.maxLeases).foldl (oldestStep s.leases) (env.sysTime, none)).2

/-- The slot `add_lease` writes. -/
def recordAt (s : Server) (i : Nat) (chaddr : Chaddr) (yiaddr : Addr) (lease : Nat) : Server :=
  s.setSlot i
    { s.leases i with
      chaddr := chaddr
      yiaddr := yiaddr
      expires := (env.sysTime + lease) % UInt32.size }

/-- The firewall and QoS commands at the end of `add_lease`, with its use of the global
`vizio_device`. -/
def announce (s : Server) (chaddr : Chaddr) (yiaddr : Addr) : Server :=
  { s with
    commands := s.commands ++
      [.deleteRule ⟨false, yiaddr, .udp⟩, .deleteRule ⟨false, yiaddr, .tcpSynNot80⟩,
        .appendRule ⟨false, yiaddr, .udp⟩, .appendRule ⟨false, yiaddr, .tcpSynNot80⟩,
        if s.vizioDevice then .addVizioDevice yiaddr else .addDevice chaddr.mac yiaddr]
    vizioDevice := false }

/-- Add a lease into the table, clearing out any old ones; 0.0.0.0 is refused. -/
def addLease (s : Server) (chaddr : Chaddr) (yiaddr : Addr) (lease : Nat) :
    Server × Option Nat :=
  if yiaddr = 0#32 then (s, none)
  else
    let cleared := s.clearLease chaddr yiaddr
    match cleared.oldestExpiredLease env with
    | some i => ((cleared.recordAt env i chaddr yiaddr lease).announce chaddr yiaddr, some i)
    | none => (cleared.announce chaddr yiaddr, none)

/-! ## Lookups -/

/-- The first lease that matches `yiaddr`. -/
def findLeaseByYiaddr (s : Server) (yiaddr : Addr) : Option Nat :=
  (List.range s.config.maxLeases).find? fun i => (s.leases i).yiaddr = yiaddr

/-- Whether `addr` is the router's own address; if so it is reserved in the table. -/
def isLanIPAddr (s : Server) (addr : Addr) : Server × Bool :=
  if s.lanIpaddr = some addr then
    ((s.addLease env blankChaddr addr s.config.conflictTime).1, true)
  else (s, false)

/-- The slot whose first six `chaddr` bytes match. -/
def findMac (s : Server) (mac : BitVec 48) : Option Nat :=
  (List.range s.config.maxLeases).find? fun i => (s.leases i).chaddr.mac = mac

/-- The first lease that matches `chaddr`; a lease of the router's own address counts as
no lease. -/
def findLeaseByChaddr (s : Server) (chaddr : Chaddr) : Server × Option Nat :=
  match s.findMac chaddr.mac with
  | some i =>
      match s.isLanIPAddr env (s.leases i).yiaddr with
      | (s', true) => (s', none)
      | (s', false) => (s', some i)
  | none => (s, none)

/-! ## The address search -/

/-- Check if an address is taken; if it is, add it to the lease table. -/
def checkIp (s : Server) (addr : Addr) : Server × Bool :=
  match s.isLanIPAddr env addr with
  | (s', true) => ((s'.addLease env blankChaddr addr s'.config.conflictTime).1, true)
  | (s', false) =>
      let probed := { s' with probes := s'.probes + 1 }
      if env.arpping s'.probes addr then
        ((probed.addLease env blankChaddr addr probed.config.conflictTime).1, true)
      else (probed, false)

/-- The lease that keeps `find_address` from an address: a recorded one, unless it has
expired and expired ones are looked at. -/
def leaseTaken (s : Server) (checkExpired : Bool) (addr : Addr) : Bool :=
  match s.findLeaseByYiaddr addr with
  | none => false
  | some i => !(checkExpired && s.leaseExpired env i)

/-- One turn of the loop of `find_address` at `addr`: the address, if it can be assigned. -/
def tryAddress (s : Server) (checkExpired : Bool) (addr : Addr) : Server × Bool :=
  if addr &&& 0xff#32 = 0#32 then (s, false)
  else if addr &&& 0xff#32 = 0xff#32 then (s, false)
  else
    match s.isLanIPAddr env addr with
    | (s', true) => (s', false)
    | (s', false) =>
        if s'.leaseTaken env checkExpired addr then (s', false)
        else
          match s'.checkIp env addr with
          | (s'', taken) => (s'', !taken)

/-- The loop of `find_address`; the counter wraps, so a pool that ends at
255.255.255.255 has no last address. -/
def findAddressLoop (checkExpired : Bool) : Nat → Server → Addr → Server × Addr
  | 0, s, _ => ({ s with hung := true }, 0#32)
  | fuel + 1, s, addr =>
      if addr ≤ s.config.end_ then
        match s.tryAddress env checkExpired addr with
        | (s', true) => (s', addr)
        | (s', false) => findAddressLoop checkExpired fuel s' (addr + 1)
      else (s, 0#32)

/-- Find an assignable address, expired leases included if `checkExpired`; 0 if there
is none. -/
def findAddress (s : Server) (checkExpired : Bool) : Server × Addr :=
  findAddressLoop env checkExpired env.fuel s s.config.start

/-! ## A new LAN address -/

/-- Move every recorded address into the network of the new server address. -/
def updateLeaseByNewIp (s : Server) : Server :=
  { s with
    leases := fun i =>
      if i < s.config.maxLeases ∧ (s.leases i).yiaddr ≠ 0#32 then
        { s.leases i with
          yiaddr := (s.config.server &&& s.lanNetmask) |||
            ((s.leases i).yiaddr &&& ~~~ s.lanNetmask) }
      else s.leases i }

end Server

end Xwr100.Udhcpd
