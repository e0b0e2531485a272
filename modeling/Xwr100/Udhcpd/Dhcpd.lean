import Xwr100.Udhcpd.ServerPacket
import Xwr100.Lib.Run

/-!
# The server loop

The dispatch of `dhcpd.c` with the branches `gemtek_jimmy_added_002.h` puts in it,
the lease file of `files.c`, and the signals.  One event is one turn of the loop;
the uptime is read once per event.
-/

namespace Xwr100.Udhcpd

variable (env : Env)

namespace Server

/-! ## `DHCPREQUEST` -/

/-- Copy the hostname option, cut to 63 bytes, into slot `i`, or empty the name. -/
def setHostname (s : Server) (m : DhcpMessage) (hostname : Option Nat) (i : Nat) : Server :=
  s.setSlot i
    { s.leases i with
      hostname :=
        match hostname with
        | some pos => m.readString pos (min (m.mem (pos - 1)).toNat 63)
        | none => [] }

/-- A request from a client with the lease in slot `i`: SELECTING, INIT-REBOOT, then
RENEWING or REBINDING. -/
def answerRecorded (s : Server) (m : DhcpMessage) (requested serverId : Option Nat) (i : Nat) :
    Server :=
  let yiaddr := (s.leases i).yiaddr
  match serverId with
  | some pos =>
      if m.readAddr pos = s.config.server ∧ requested.any (fun r => m.readAddr r = yiaddr) then
        s.sendACK env m yiaddr
      else if m.readAddr pos ≠ s.config.server then s
      else s.sendNAK env m
  | none =>
      match requested with
      | some r =>
          if yiaddr = m.readAddr r then s.sendACK env m yiaddr else s.sendNAK env m
      | none =>
          if yiaddr = m.ciaddr then s.sendACK env m yiaddr else s.sendNAK env m

/-- The branch the vendor added for clients without a record, shared by its three uses:
record `yiaddr` for the client, look the record up and acknowledge `acked` of it. -/
def grantUnrecorded (s : Server) (m : DhcpMessage) (hostname : Option Nat) (yiaddr : Addr)
    (acked : Server → Nat → Addr) : Server :=
  if !s.inRange yiaddr then s.sendNAK env m
  else
    let added := s.addLease env m.chaddr yiaddr s.config.offerTime
    match added.2 with
    | none => added.1.sendNAK env m
    | some _ =>
        let found := added.1.findLeaseByChaddr env m.chaddr
        match found.2 with
        | some i => (found.1.sendACK env m (acked found.1 i)).setHostname m hostname i
        | none => found.1.sendNAK env m

/-- A request from a client without a record: SELECTING acknowledges the recorded
address, INIT-REBOOT and RENEWING the one the packet names. -/
def answerUnrecorded (s : Server) (m : DhcpMessage)
    (requested serverId hostname : Option Nat) : Server :=
  match serverId with
  | some pos =>
      if m.readAddr pos ≠ s.config.server then s
      else
        match requested with
        | some r =>
            s.grantUnrecorded env m hostname (m.readAddr r) fun s' i => (s'.leases i).yiaddr
        | none => s.sendNAK env m
  | none =>
      match requested with
      | some r => s.grantUnrecorded env m hostname (m.readAddr r) fun _ _ => m.readAddr r
      | none =>
          if m.ciaddr ≠ 0#32 then s.grantUnrecorded env m hostname m.ciaddr fun _ _ => m.ciaddr
          else s

def requestOptions (s : Server) (m : DhcpMessage) :
    Server × Option Nat × Option Nat × Option Nat :=
  let requested := s.option m dhcpRequestedIp
  let serverId := requested.1.option m dhcpServerId
  let hostname := serverId.1.option m dhcpHostName
  (hostname.1, requested.2, serverId.2, hostname.2)

def handleRequest (s : Server) (m : DhcpMessage) (lease : Option Nat) : Server :=
  let opts := s.requestOptions m
  match lease with
  | some i => (opts.1.answerRecorded env m opts.2.1 opts.2.2.1 i).setHostname m opts.2.2.2 i
  | none => opts.1.answerUnrecorded env m opts.2.1 opts.2.2.1 opts.2.2.2

/-! ## The other messages -/

/-- A discover; a failed offer is tried once more. -/
def handleDiscover (s : Server) (m : DhcpMessage) : Server :=
  let first := s.sendOffer env m
  if first.1.hung then first.1
  else if first.2 then first.1
  else (first.1.sendOffer env m).1

def handleDecline (s : Server) (lease : Option Nat) : Server :=
  match lease with
  | some i =>
      s.setSlot i
        { s.leases i with
          chaddr := blankChaddr
          expires := (env.sysTime + s.config.declineTime) % UInt32.size }
  | none => s

def handleRelease (s : Server) (lease : Option Nat) : Server :=
  match lease with
  | some i => s.setSlot i { s.leases i with expires := env.sysTime }
  | none => s

/-- The switch over the message type, with the lease looked up before it. -/
def handle (s : Server) (m : DhcpMessage) (lease : Option Nat) : MessageType → Server
  | .discover => s.handleDiscover env m
  | .request => s.handleRequest env m lease
  | .decline => s.handleDecline env lease
  | .release => s.handleRelease env lease
  | .inform => s.sendInform env m
  | .unsupported => s

/-- One received packet; `get_packet` drops a message without the magic cookie. -/
def dispatch (s : Server) (m : DhcpMessage) : Server :=
  if m.readBytes 236 4 ≠ dhcpMagic then s
  else
    let state := s.option m dhcpMessageType
    match state.2 with
    | none => state.1
    | some pos =>
        let found := state.1.findLeaseByChaddr env m.chaddr
        found.1.handle env m found.2 (MessageType.ofByte (m.mem pos))

/-! ## The lease file -/

/-- Load one record of the lease file; false when no slot takes it. -/
def loadLease (s : Server) (record : DhcpOfferedAddr) : Server × Bool :=
  let lease :=
    if s.config.remaining then record.expires
    else (record.expires + UInt32.size - env.sysTime % UInt32.size) % UInt32.size
  let added := s.addLease env record.chaddr record.yiaddr lease
  match added.2 with
  | some i =>
      (added.1.setSlot i { added.1.leases i with hostname := record.hostname.take 63 }, true)
  | none => (added.1, false)

/-- The loop of `read_leases`: it stops at the first record that finds no slot. -/
def readLeasesLoop : List DhcpOfferedAddr → Server → Server
  | [], s => s
  | record :: rest, s =>
      let loaded := s.loadLease env record
      if loaded.2 then readLeasesLoop rest loaded.1 else loaded.1

/-- Load at most `max_leases` records. -/
def readLeases (s : Server) (file : List DhcpOfferedAddr) : Server :=
  readLeasesLoop env (file.take s.config.maxLeases) s

/-- The server `main` sets up before it reads the lease file. -/
def init (config : ServerConfig) (lanIpaddr : Option Addr) (lanNetmask : Addr) : Server :=
  { config := config
    lanIpaddr := lanIpaddr
    lanNetmask := lanNetmask
    leases := fun _ => emptySlot
    vizioDevice := false
    commands := []
    probes := 0
    replies := []
    hung := false }

/-- The start of `main`: an empty table, then the lease file. -/
def boot (config : ServerConfig) (lanIpaddr : Option Addr) (lanNetmask : Addr)
    (file : List DhcpOfferedAddr) : Server :=
  (init config lanIpaddr lanNetmask).readLeases env file

/-- SIGUSR2: the configuration is read again, the table emptied and loaded from the lease
file, and its addresses moved into the network of the interface's new address. -/
def reload (s : Server) (config : ServerConfig) (lanIpaddr : Option Addr) (lanNetmask : Addr)
    (file : List DhcpOfferedAddr) : Server :=
  let cleared : Server :=
    { s with
      config := config
      lanIpaddr := lanIpaddr
      lanNetmask := lanNetmask
      leases := fun i => if i < config.maxLeases then emptySlot else s.leases i }
  (cleared.readLeases env file).updateLeaseByNewIp

end Server

/-! ## Runs -/

/-- What one turn of the server loop reacts to.  Writing the lease file (SIGUSR1, or the
timeout of `select`) does not change the server. -/
inductive Event where
  | packet (env : Env) (m : DhcpMessage)
  | writeLeases
  | reload (env : Env) (config : ServerConfig) (lanIpaddr : Option Addr) (lanNetmask : Addr)
      (file : List DhcpOfferedAddr)

/-- One turn of the loop; a server caught in an address search reacts to nothing. -/
def step (s : Server) (e : Event) : Server :=
  let idle := { s with probes := 0, replies := [] }
  if s.hung then idle
  else
    match e with
    | .packet env m => idle.dispatch env m
    | .writeLeases => idle
    | .reload env config lanIpaddr lanNetmask file =>
        idle.reload env config lanIpaddr lanNetmask file

end Xwr100.Udhcpd
