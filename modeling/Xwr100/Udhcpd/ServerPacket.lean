import Xwr100.Udhcpd.Leases

/-!
# Replies

`serverpacket.c`: the construction of offers, acknowledgements and refusals, with
the lease-table updates they make.  Header fields and configured options that no
lease decision reads are left out of a `Reply`.
-/

namespace Xwr100.Udhcpd

variable (env : Env)

namespace Server

/-- `get_option` on a received packet, with its effect on the global `vizio_device`. -/
def option (s : Server) (m : DhcpMessage) (code : UInt8) : Server × Option Nat :=
  ({ s with vizioDevice := (getOption m code s.vizioDevice).2 },
    (getOption m code s.vizioDevice).1)

/-- `send_packet`; the result is false when the send fails. -/
def sendPacket (s : Server) (type : ReplyType) (chaddr : Chaddr) (yiaddr : Addr)
    (leaseTime : Option Nat) : Server × Bool :=
  ({ s with replies := s.replies ++
      [⟨type, chaddr, yiaddr, leaseTime, env.sendOk s.replies.length⟩] },
    env.sendOk s.replies.length)

def inRange (s : Server) (addr : Addr) : Bool := s.config.start ≤ addr && addr ≤ s.config.end_

/-! ## `sendOffer` -/

/-- The requested address `sendOffer` considers: in the lease range and not taken, or
taken but expired. -/
def requestedFree (s : Server) (addr : Addr) : Bool :=
  s.inRange addr &&
    match s.findLeaseByYiaddr addr with
    | none => true
    | some i => s.leaseExpired env i

/-- Offer the requested address, unless its expired record is the client's own. -/
def offerRequested (s : Server) (m : DhcpMessage) (addr : Addr) : Server × Addr :=
  match s.findLeaseByYiaddr addr with
  | none => (s, addr)
  | some i =>
      if (s.leases i).chaddr = m.chaddr then s.findAddress env false
      else (s, addr)

def offerFree (s : Server) : Server × Addr :=
  let free := s.findAddress env false
  if free.1.hung then free
  else if free.2 = 0#32 then free.1.findAddress env true
  else free

/-- The address of an offer to a client without a lease. -/
def offerNew (s : Server) (m : DhcpMessage) : Server × Addr :=
  let req := s.option m dhcpRequestedIp
  match req.2 with
  | some pos =>
      if req.1.requestedFree env (m.readAddr pos) then
        req.1.offerRequested env m (m.readAddr pos)
      else req.1.offerFree env
  | none => req.1.offerFree env

def offerAddress (s : Server) (m : DhcpMessage) : Server × Addr × Nat :=
  let found := s.findLeaseByChaddr env m.chaddr
  match found.2 with
  | some i =>
      (found.1, (found.1.leases i).yiaddr,
        if found.1.leaseExpired env i then s.config.lease
        else (found.1.leases i).expires - env.sysTime)
  | none =>
      let new := found.1.offerNew env m
      (new.1, new.2, s.config.lease)

/-- The lease time an offer states: the requested one up to the configured one, and the
configured one instead of a time below the minimum. -/
def offerLeaseTime (s : Server) (m : DhcpMessage) (initial : Nat) : Server × Nat :=
  let opt := s.option m dhcpLeaseTime
  let time :=
    match opt.2 with
    | some pos => min (m.readBytes pos 4) s.config.lease
    | none => initial
  (opt.1, if time < s.config.minLease then s.config.lease else time)

/-- Send an offer in answer to a discover; false stands for the result -1. -/
def sendOffer (s : Server) (m : DhcpMessage) : Server × Bool :=
  let choice := s.offerAddress env m
  if choice.1.hung then (choice.1, false)
  else if choice.2.1 = 0#32 then (choice.1, false)
  else
    let added := choice.1.addLease env m.chaddr choice.2.1 choice.1.config.offerTime
    match added.2 with
    | none => (added.1, false)
    | some _ =>
        let time := added.1.offerLeaseTime m choice.2.2
        time.1.sendPacket env .offer m.chaddr choice.2.1 (some time.2)

/-! ## `sendNAK`, `sendACK` and `send_inform` -/

def sendNAK (s : Server) (m : DhcpMessage) : Server :=
  (s.sendPacket env .nak m.chaddr 0#32 none).1

def ackLeaseTime (s : Server) (m : DhcpMessage) : Server × Nat :=
  let opt := s.option m dhcpLeaseTime
  match opt.2 with
  | some pos =>
      let time := m.readBytes pos 4
      (opt.1,
        if s.config.lease < time then s.config.lease
        else if time < s.config.minLease then s.config.lease
        else time)
  | none => (opt.1, s.config.lease)

/-- Acknowledge `yiaddr` and, once the packet is out, record the lease; the result of
`add_lease` is not looked at. -/
def sendACK (s : Server) (m : DhcpMessage) (yiaddr : Addr) : Server :=
  let time := s.ackLeaseTime m
  let out := time.1.sendPacket env .ack m.chaddr yiaddr (some time.2)
  if out.2 then (out.1.addLease env m.chaddr yiaddr time.2).1 else out.1

def sendInform (s : Server) (m : DhcpMessage) : Server :=
  (s.sendPacket env .ack m.chaddr 0#32 none).1

end Server

end Xwr100.Udhcpd
