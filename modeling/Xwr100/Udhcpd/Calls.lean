import Xwr100.Udhcpd.Dhcpd

/-!
# The calls the server makes

Whatever an event makes the server do, the lease table and the command log change in
three ways only: by `add_lease`, by a write to a slot that leaves its address alone,
and by the reload of SIGUSR2.  Function by function, in the order of the source, these
are the calls that are made, and performing them leads to the state the function leaves.
No assumption on the table is needed for that.
-/

namespace Xwr100.Udhcpd

open Lib

variable {s s' s'' : Server}

/-- One change of the server: a call of `add_lease`, a slot written with its address kept,
a reload, or a step that touches neither the table nor the command log. -/
inductive Call where
  | addLease (env : Env) (chaddr : Chaddr) (yiaddr : Addr) (lease : Nat)
  | write (i : Nat) (chaddr : Chaddr) (expires : Nat) (hostname : List UInt8)
  | reload (env : Env) (config : ServerConfig) (lanIpaddr : Option Addr) (lanNetmask : Addr)
      (file : List DhcpOfferedAddr)
  | note (vizioDevice : Bool) (probes : Nat) (replies : List Reply) (hung : Bool)

/-- What a step to `s` notes if it leaves the table and the command log alone. -/
def Call.noted (s : Server) : Call := .note s.vizioDevice s.probes s.replies s.hung

def perform (s : Server) : Call → Server
  | .addLease env chaddr yiaddr lease => (s.addLease env chaddr yiaddr lease).1
  | .write i chaddr expires hostname =>
      s.setSlot i ⟨chaddr, (s.leases i).yiaddr, expires, hostname⟩
  | .reload env config lanIpaddr lanNetmask file =>
      s.reload env config lanIpaddr lanNetmask file
  | .note vizioDevice probes replies hung =>
      { s with vizioDevice := vizioDevice, probes := probes, replies := replies, hung := hung }

/-! ## The calls of each function -/

namespace Server

section Trace

variable (env : Env) (m : DhcpMessage)

def optionCalls (s : Server) (code : UInt8) : List Call := [.noted (s.option m code).1]

def sendPacketCalls (s : Server) (type : ReplyType) (chaddr : Chaddr) (yiaddr : Addr)
    (leaseTime : Option Nat) : List Call :=
  [.noted (s.sendPacket env type chaddr yiaddr leaseTime).1]

def isLanIPAddrCalls (s : Server) (addr : Addr) : List Call :=
  if s.lanIpaddr = some addr then [.addLease env blankChaddr addr s.config.conflictTime] else []

def findLeaseByChaddrCalls (s : Server) (chaddr : Chaddr) : List Call :=
  match s.findMac chaddr.mac with
  | some i => s.isLanIPAddrCalls env (s.leases i).yiaddr
  | none => []

def checkIpCalls (s : Server) (addr : Addr) : List Call :=
  s.isLanIPAddrCalls env addr ++
    match s.isLanIPAddr env addr with
    | (s', true) => [.addLease env blankChaddr addr s'.config.conflictTime]
    | (s', false) =>
        .noted { s' with probes := s'.probes + 1 } ::
          if env.arpping s'.probes addr then
            [.addLease env blankChaddr addr s'.config.conflictTime]
          else []

def tryAddressCalls (s : Server) (checkExpired : Bool) (addr : Addr) : List Call :=
  if addr &&& 0xff#32 = 0#32 then []
  else if addr &&& 0xff#32 = 0xff#32 then []
  else
    s.isLanIPAddrCalls env addr ++
      match s.isLanIPAddr env addr with
      | (_, true) => []
      | (s', false) =>
          if s'.leaseTaken env checkExpired addr then [] else s'.checkIpCalls env addr

def findAddressLoopCalls (checkExpired : Bool) : Nat → Server → Addr → List Call
  | 0, s, _ => [.noted { s with hung := true }]
  | fuel + 1, s, addr =>
      if addr ≤ s.config.end_ then
        s.tryAddressCalls env checkExpired addr ++
          match s.tryAddress env checkExpired addr with
          | (_, true) => []
          | (s', false) => findAddressLoopCalls checkExpired fuel s' (addr + 1)
      else []

def findAddressCalls (s : Server) (checkExpired : Bool) : List Call :=
  findAddressLoopCalls env checkExpired env.fuel s s.config.start

def offerRequestedCalls (s : Server) (addr : Addr) : List Call :=
  match s.findLeaseByYiaddr addr with
  | none => []
  | some i => if (s.leases i).chaddr = m.chaddr then s.findAddressCalls env false else []

def offerFreeCalls (s : Server) : List Call :=
  s.findAddressCalls env false ++
    if (s.findAddress env false).1.hung then []
    else if (s.findAddress env false).2 = 0#32 then
      (s.findAddress env false).1.findAddressCalls env true
    else []

def offerNewCalls (s : Server) : List Call :=
  let req := s.option m dhcpRequestedIp
  s.optionCalls m dhcpRequestedIp ++
    match req.2 with
    | some pos =>
        if req.1.requestedFree env (m.readAddr pos) then
          req.1.offerRequestedCalls env m (m.readAddr pos)
        else req.1.offerFreeCalls env
    | none => req.1.offerFreeCalls env

def offerAddressCalls (s : Server) : List Call :=
  let found := s.findLeaseByChaddr env m.chaddr
  s.findLeaseByChaddrCalls env m.chaddr ++
    match found.2 with
    | some _ => []
    | none => found.1.offerNewCalls env m

def sendOfferCalls (s : Server) : List Call :=
  let choice := s.offerAddress env m
  s.offerAddressCalls env m ++
    if choice.1.hung then []
    else if choice.2.1 = 0#32 then []
    else
      let added := choice.1.addLease env m.chaddr choice.2.1 choice.1.config.offerTime
      .addLease env m.chaddr choice.2.1 choice.1.config.offerTime ::
        match added.2 with
        | none => []
        | some _ =>
            let time := added.1.offerLeaseTime m choice.2.2
            added.1.optionCalls m dhcpLeaseTime ++
              time.1.sendPacketCalls env .offer m.chaddr choice.2.1 (some time.2)

def sendNAKCalls (s : Server) : List Call := s.sendPacketCalls env .nak m.chaddr 0#32 none

def sendACKCalls (s : Server) (yiaddr : Addr) : List Call :=
  let time := s.ackLeaseTime m
  let out := time.1.sendPacket env .ack m.chaddr yiaddr (some time.2)
  s.optionCalls m dhcpLeaseTime ++
    (time.1.sendPacketCalls env .ack m.chaddr yiaddr (some time.2) ++
      if out.2 then [.addLease env m.chaddr yiaddr time.2] else [])

def setHostnameCalls (s : Server) (hostname : Option Nat) (i : Nat) : List Call :=
  [.write i (s.leases i).chaddr (s.leases i).expires
    (match hostname with
      | some pos => m.readString pos (min (m.mem (pos - 1)).toNat 63)
      | none => [])]

def answerRecordedCalls (s : Server) (requested serverId : Option Nat) (i : Nat) : List Call :=
  let yiaddr := (s.leases i).yiaddr
  match serverId with
  | some pos =>
      if m.readAddr pos = s.config.server ∧ requested.any (fun r => m.readAddr r = yiaddr) then
        s.sendACKCalls env m yiaddr
      else if m.readAddr pos ≠ s.config.server then []
      else s.sendNAKCalls env m
  | none =>
      match requested with
      | some r =>
          if yiaddr = m.readAddr r then s.sendACKCalls env m yiaddr else s.sendNAKCalls env m
      | none => if yiaddr = m.ciaddr then s.sendACKCalls env m yiaddr else s.sendNAKCalls env m

def grantUnrecordedCalls (s : Server) (hostname : Option Nat) (yiaddr : Addr)
    (acked : Server → Nat → Addr) : List Call :=
  if !s.inRange yiaddr then s.sendNAKCalls env m
  else
    let added := s.addLease env m.chaddr yiaddr s.config.offerTime
    .addLease env m.chaddr yiaddr s.config.offerTime ::
      match added.2 with
      | none => added.1.sendNAKCalls env m
      | some _ =>
          let found := added.1.findLeaseByChaddr env m.chaddr
          added.1.findLeaseByChaddrCalls env m.chaddr ++
            match found.2 with
            | some i =>
                found.1.sendACKCalls env m (acked found.1 i) ++
                  (found.1.sendACK env m (acked found.1 i)).setHostnameCalls m hostname i
            | none => found.1.sendNAKCalls env m

def answerUnrecordedCalls (s : Server) (requested serverId hostname : Option Nat) : List Call :=
  match serverId with
  | some pos =>
      if m.readAddr pos ≠ s.config.server then []
      else
        match requested with
        | some r =>
            s.grantUnrecordedCalls env m hostname (m.readAddr r) fun s' i => (s'.leases i).yiaddr
        | none => s.sendNAKCalls env m
  | none =>
      match requested with
      | some r => s.grantUnrecordedCalls env m hostname (m.readAddr r) fun _ _ => m.readAddr r
      | none =>
          if m.ciaddr ≠ 0#32 then
            s.grantUnrecordedCalls env m hostname m.ciaddr fun _ _ => m.ciaddr
          else []

def requestOptionsCalls (s : Server) : List Call :=
  let requested := s.option m dhcpRequestedIp
  let serverId := requested.1.option m dhcpServerId
  s.optionCalls m dhcpRequestedIp ++
    (requested.1.optionCalls m dhcpServerId ++ serverId.1.optionCalls m dhcpHostName)

def handleRequestCalls (s : Server) (lease : Option Nat) : List Call :=
  let opts := s.requestOptions m
  s.requestOptionsCalls m ++
    match lease with
    | some i =>
        opts.1.answerRecordedCalls env m opts.2.1 opts.2.2.1 i ++
          (opts.1.answerRecorded env m opts.2.1 opts.2.2.1 i).setHostnameCalls m opts.2.2.2 i
    | none => opts.1.answerUnrecordedCalls env m opts.2.1 opts.2.2.1 opts.2.2.2

def handleDiscoverCalls (s : Server) : List Call :=
  let first := s.sendOffer env m
  s.sendOfferCalls env m ++
    if first.1.hung then []
    else if first.2 then []
    else first.1.sendOfferCalls env m

def handleDeclineCalls (s : Server) (lease : Option Nat) : List Call :=
  match lease with
  | some i =>
      [.write i blankChaddr ((env.sysTime + s.config.declineTime) % UInt32.size)
        (s.leases i).hostname]
  | none => []

def handleReleaseCalls (s : Server) (lease : Option Nat) : List Call :=
  match lease with
  | some i => [.write i (s.leases i).chaddr env.sysTime (s.leases i).hostname]
  | none => []

def handleCalls (s : Server) (lease : Option Nat) : MessageType → List Call
  | .discover => s.handleDiscoverCalls env m
  | .request => s.handleRequestCalls env m lease
  | .decline => s.handleDeclineCalls env lease
  | .release => s.handleReleaseCalls env lease
  | .inform => s.sendPacketCalls env .ack m.chaddr 0#32 none
  | .unsupported => []

def dispatchCalls (s : Server) : List Call :=
  if m.readBytes 236 4 ≠ dhcpMagic then []
  else
    let state := s.option m dhcpMessageType
    s.optionCalls m dhcpMessageType ++
      match state.2 with
      | none => []
      | some pos =>
          let found := state.1.findLeaseByChaddr env m.chaddr
          state.1.findLeaseByChaddrCalls env m.chaddr ++
            found.1.handleCalls env m found.2 (MessageType.ofByte (m.mem pos))

def loadLeaseCalls (s : Server) (record : DhcpOfferedAddr) : List Call :=
  let lease :=
    if s.config.remaining then record.expires
    else (record.expires + UInt32.size - env.sysTime % UInt32.size) % UInt32.size
  let added := s.addLease env record.chaddr record.yiaddr lease
  .addLease env record.chaddr record.yiaddr lease ::
    match added.2 with
    | some i =>
        [.write i (added.1.leases i).chaddr (added.1.leases i).expires (record.hostname.take 63)]
    | none => []

def readLeasesLoopCalls : List DhcpOfferedAddr → Server → List Call
  | [], _ => []
  | record :: rest, s =>
      let loaded := s.loadLease env record
      s.loadLeaseCalls env record ++
        if loaded.2 then readLeasesLoopCalls rest loaded.1 else []

def bootCalls (config : ServerConfig) (lanIpaddr : Option Addr) (lanNetmask : Addr)
    (file : List DhcpOfferedAddr) : List Call :=
  readLeasesLoopCalls env (file.take config.maxLeases) (init config lanIpaddr lanNetmask)

end Trace

end Server

def stepCalls (s : Server) (e : Event) : List Call :=
  let idle := { s with probes := 0, replies := [] }
  .noted idle ::
    if s.hung then []
    else
      match e with
      | .packet env m => idle.dispatchCalls env m
      | .writeLeases => []
      | .reload env config lanIpaddr lanNetmask file =>
          [.reload env config lanIpaddr lanNetmask file]

def eventCalls : Server → List Event → List Call
  | _, [] => []
  | s, e :: rest => stepCalls s e ++ eventCalls (step s e) rest

/-- The calls of a run of the server, from the start of `main` on. -/
def runCalls (env : Env) (config : ServerConfig) (lanIpaddr : Option Addr) (lanNetmask : Addr)
    (file : List DhcpOfferedAddr) (events : List Event) : List Call :=
  Server.bootCalls env config lanIpaddr lanNetmask file ++
    eventCalls (Server.boot env config lanIpaddr lanNetmask file) events

/-! ## Performing them -/

/-- The calls lead from `s` to `s'`. -/
def Makes (s : Server) (calls : List Call) (s' : Server) : Prop := exec perform s calls = s'

namespace Makes

variable {c : Call} {calls calls' : List Call}

theorem nil (s : Server) : Makes s [] s := rfl

theorem single (s : Server) (c : Call) : Makes s [c] (perform s c) := rfl

theorem append (h : Makes s calls s') (h' : Makes s' calls' s'') : Makes s (calls ++ calls') s'' := by
  unfold Makes exec at h h' ⊢
  rw [List.foldl_append, h, h']

theorem cons (h : Makes (perform s c) calls s') : Makes s (c :: calls) s' := h

end Makes

namespace Server

variable (env : Env) (m : DhcpMessage)

theorem option_makes (s : Server) (code : UInt8) :
    Makes s (s.optionCalls m code) (s.option m code).1 := rfl

theorem sendPacket_makes (s : Server) (type : ReplyType) (chaddr : Chaddr) (yiaddr : Addr)
    (leaseTime : Option Nat) :
    Makes s (s.sendPacketCalls env type chaddr yiaddr leaseTime)
      (s.sendPacket env type chaddr yiaddr leaseTime).1 := rfl

/-! ### Lookups and the address search -/

theorem isLanIPAddr_makes (s : Server) (addr : Addr) :
    Makes s (s.isLanIPAddrCalls env addr) (s.isLanIPAddr env addr).1 := by
  unfold isLanIPAddr isLanIPAddrCalls
  split
  · exact Makes.single s _
  · exact Makes.nil s

theorem findLeaseByChaddr_makes (s : Server) (chaddr : Chaddr) :
    Makes s (s.findLeaseByChaddrCalls env chaddr) (s.findLeaseByChaddr env chaddr).1 := by
  unfold findLeaseByChaddr findLeaseByChaddrCalls
  cases s.findMac chaddr.mac with
  | none => exact Makes.nil s
  | some i =>
      have hlan := isLanIPAddr_makes env s (s.leases i).yiaddr
      cases hcall : s.isLanIPAddr env (s.leases i).yiaddr with
      | mk s₁ isLan =>
          rw [hcall] at hlan
          cases isLan <;> simpa only [hcall] using hlan

theorem checkIp_makes (s : Server) (addr : Addr) :
    Makes s (s.checkIpCalls env addr) (s.checkIp env addr).1 := by
  have hlan := isLanIPAddr_makes env s addr
  unfold checkIp checkIpCalls
  cases hcall : s.isLanIPAddr env addr with
  | mk s₁ isLan =>
      rw [hcall] at hlan
      cases isLan with
      | true => exact hlan.append (Makes.single s₁ _)
      | false =>
          dsimp only
          refine hlan.append (Makes.cons ?_)
          split
          · exact Makes.single _ _
          · exact Makes.nil _

theorem tryAddress_makes (s : Server) (checkExpired : Bool) (addr : Addr) :
    Makes s (s.tryAddressCalls env checkExpired addr) (s.tryAddress env checkExpired addr).1 := by
  have hlan := isLanIPAddr_makes env s addr
  unfold tryAddress tryAddressCalls
  split
  · exact Makes.nil s
  · split
    · exact Makes.nil s
    · cases hcall : s.isLanIPAddr env addr with
      | mk s₁ isLan =>
          rw [hcall] at hlan
          cases isLan with
          | true => exact hlan.append (Makes.nil s₁)
          | false =>
              dsimp only
              apply hlan.append
              split
              · exact Makes.nil s₁
              · exact checkIp_makes env s₁ addr

theorem findAddressLoop_makes (checkExpired : Bool) (fuel : Nat) (s : Server) (addr : Addr) :
    Makes s (findAddressLoopCalls env checkExpired fuel s addr)
      (findAddressLoop env checkExpired fuel s addr).1 := by
  induction fuel generalizing s addr with
  | zero => exact Makes.single s _
  | succ fuel ih =>
      have htry := tryAddress_makes env s checkExpired addr
      unfold findAddressLoop findAddressLoopCalls
      split
      · cases hcall : s.tryAddress env checkExpired addr with
        | mk s₁ found =>
            rw [hcall] at htry
            cases found with
            | true => exact htry.append (Makes.nil s₁)
            | false => exact htry.append (ih s₁ (addr + 1))
      · exact Makes.nil s

theorem findAddress_makes (s : Server) (checkExpired : Bool) :
    Makes s (s.findAddressCalls env checkExpired) (s.findAddress env checkExpired).1 :=
  findAddressLoop_makes env checkExpired env.fuel s s.config.start

/-! ### Replies -/

theorem offerRequested_makes (s : Server) (addr : Addr) :
    Makes s (s.offerRequestedCalls env m addr) (s.offerRequested env m addr).1 := by
  unfold offerRequested offerRequestedCalls
  cases s.findLeaseByYiaddr addr with
  | none => exact Makes.nil s
  | some i =>
      dsimp only
      split
      · exact findAddress_makes env s false
      · exact Makes.nil s

theorem offerFree_makes (s : Server) : Makes s (s.offerFreeCalls env) (s.offerFree env).1 := by
  have hfree := findAddress_makes env s false
  unfold offerFree offerFreeCalls
  dsimp only
  split
  · exact hfree.append (Makes.nil _)
  · split
    · exact hfree.append (findAddress_makes env _ true)
    · exact hfree.append (Makes.nil _)

theorem offerNew_makes (s : Server) : Makes s (s.offerNewCalls env m) (s.offerNew env m).1 := by
  unfold offerNew offerNewCalls
  dsimp only
  apply (option_makes m s dhcpRequestedIp).append
  cases (s.option m dhcpRequestedIp).2 with
  | none => exact offerFree_makes env _
  | some pos =>
      dsimp only
      split
      · exact offerRequested_makes env m _ _
      · exact offerFree_makes env _

theorem offerAddress_makes (s : Server) :
    Makes s (s.offerAddressCalls env m) (s.offerAddress env m).1 := by
  unfold offerAddress offerAddressCalls
  dsimp only
  apply (findLeaseByChaddr_makes env s m.chaddr).append
  cases (s.findLeaseByChaddr env m.chaddr).2 with
  | none => exact offerNew_makes env m _
  | some i => exact Makes.nil _

theorem sendOffer_makes (s : Server) :
    Makes s (s.sendOfferCalls env m) (s.sendOffer env m).1 := by
  unfold sendOffer sendOfferCalls
  dsimp only
  apply (offerAddress_makes env m s).append
  generalize s.offerAddress env m = choice
  split
  · exact Makes.nil _
  · split
    · exact Makes.nil _
    · apply Makes.cons
      dsimp only [perform]
      cases (choice.1.addLease env m.chaddr choice.2.1 choice.1.config.offerTime).2 with
      | none => exact Makes.nil _
      | some i => exact (option_makes m _ dhcpLeaseTime).append (sendPacket_makes env _ _ _ _ _)

theorem ackLeaseTime_state (s : Server) : (s.ackLeaseTime m).1 = (s.option m dhcpLeaseTime).1 := by
  unfold ackLeaseTime
  dsimp only
  split <;> rfl

theorem sendACK_makes (s : Server) (yiaddr : Addr) :
    Makes s (s.sendACKCalls env m yiaddr) (s.sendACK env m yiaddr) := by
  have htime := option_makes m s dhcpLeaseTime
  rw [← ackLeaseTime_state] at htime
  unfold sendACK sendACKCalls
  dsimp only
  refine htime.append ((sendPacket_makes env _ _ _ _ _).append ?_)
  split
  · exact Makes.single _ _
  · exact Makes.nil _

/-! ### The messages -/

theorem setHostname_makes (s : Server) (hostname : Option Nat) (i : Nat) :
    Makes s (s.setHostnameCalls m hostname i) (s.setHostname m hostname i) := rfl

theorem sendNAK_makes (s : Server) : Makes s (s.sendNAKCalls env m) (s.sendNAK env m) := rfl

theorem answerRecorded_makes (s : Server) (requested serverId : Option Nat) (i : Nat) :
    Makes s (s.answerRecordedCalls env m requested serverId i)
      (s.answerRecorded env m requested serverId i) := by
  have hack := sendACK_makes env m s (s.leases i).yiaddr
  have hnak := sendNAK_makes env m s
  unfold answerRecorded answerRecordedCalls
  cases serverId with
  | some pos =>
      dsimp only
      split
      · exact hack
      · split
        · exact Makes.nil s
        · exact hnak
  | none =>
      cases requested with
      | some r =>
          dsimp only
          split
          · exact hack
          · exact hnak
      | none =>
          dsimp only
          split
          · exact hack
          · exact hnak

theorem grantUnrecorded_makes (s : Server) (hostname : Option Nat) (yiaddr : Addr)
    (acked : Server → Nat → Addr) :
    Makes s (s.grantUnrecordedCalls env m hostname yiaddr acked)
      (s.grantUnrecorded env m hostname yiaddr acked) := by
  unfold grantUnrecorded grantUnrecordedCalls
  split
  · exact sendNAK_makes env m s
  · apply Makes.cons
    dsimp only [perform]
    generalize s.addLease env m.chaddr yiaddr s.config.offerTime = added
    cases added.2 with
    | none => exact sendNAK_makes env m _
    | some i =>
        apply (findLeaseByChaddr_makes env _ m.chaddr).append
        cases (added.1.findLeaseByChaddr env m.chaddr).2 with
        | none => exact sendNAK_makes env m _
        | some i => exact (sendACK_makes env m _ _).append (setHostname_makes m _ hostname i)

theorem answerUnrecorded_makes (s : Server) (requested serverId hostname : Option Nat) :
    Makes s (s.answerUnrecordedCalls env m requested serverId hostname)
      (s.answerUnrecorded env m requested serverId hostname) := by
  unfold answerUnrecorded answerUnrecordedCalls
  cases serverId with
  | some pos =>
      dsimp only
      split
      · exact Makes.nil s
      · cases requested with
        | some r => exact grantUnrecorded_makes env m s hostname _ _
        | none => exact sendNAK_makes env m s
  | none =>
      cases requested with
      | some r => exact grantUnrecorded_makes env m s hostname _ _
      | none =>
          dsimp only
          split
          · exact grantUnrecorded_makes env m s hostname _ _
          · exact Makes.nil s

theorem requestOptions_makes (s : Server) :
    Makes s (s.requestOptionsCalls m) (s.requestOptions m).1 :=
  (option_makes m s dhcpRequestedIp).append
    ((option_makes m _ dhcpServerId).append (option_makes m _ dhcpHostName))

theorem handleRequest_makes (s : Server) (lease : Option Nat) :
    Makes s (s.handleRequestCalls env m lease) (s.handleRequest env m lease) := by
  unfold handleRequest handleRequestCalls
  dsimp only
  apply (requestOptions_makes m s).append
  cases lease with
  | some i => exact (answerRecorded_makes env m _ _ _ i).append (setHostname_makes m _ _ i)
  | none => exact answerUnrecorded_makes env m _ _ _ _

theorem handleDiscover_makes (s : Server) :
    Makes s (s.handleDiscoverCalls env m) (s.handleDiscover env m) := by
  have hfirst := sendOffer_makes env m s
  unfold handleDiscover handleDiscoverCalls
  dsimp only
  split
  · exact hfirst.append (Makes.nil _)
  · split
    · exact hfirst.append (Makes.nil _)
    · exact hfirst.append (sendOffer_makes env m _)

theorem handle_makes (s : Server) (lease : Option Nat) (type : MessageType) :
    Makes s (s.handleCalls env m lease type) (s.handle env m lease type) := by
  cases type with
  | discover => exact handleDiscover_makes env m s
  | request => exact handleRequest_makes env m s lease
  | decline => cases lease <;> rfl
  | release => cases lease <;> rfl
  | inform => exact sendPacket_makes env s .ack m.chaddr 0#32 none
  | unsupported => exact Makes.nil s

theorem dispatch_makes (s : Server) : Makes s (s.dispatchCalls env m) (s.dispatch env m) := by
  unfold dispatch dispatchCalls
  split
  · exact Makes.nil s
  · dsimp only
    apply (option_makes m s dhcpMessageType).append
    cases (s.option m dhcpMessageType).2 with
    | none => exact Makes.nil _
    | some pos =>
        apply (findLeaseByChaddr_makes env _ m.chaddr).append
        exact handle_makes env m _ _ _

/-! ### The lease file -/

theorem loadLease_makes (s : Server) (record : DhcpOfferedAddr) :
    Makes s (s.loadLeaseCalls env record) (s.loadLease env record).1 := by
  unfold loadLease loadLeaseCalls
  dsimp only
  generalize (if s.config.remaining = true then record.expires
    else (record.expires + UInt32.size - env.sysTime % UInt32.size) % UInt32.size) = lease
  apply Makes.cons
  dsimp only [perform]
  generalize s.addLease env record.chaddr record.yiaddr lease = added
  cases added.2 with
  | none => exact Makes.nil _
  | some i => exact Makes.single _ _

theorem readLeasesLoop_makes (records : List DhcpOfferedAddr) (s : Server) :
    Makes s (readLeasesLoopCalls env records s) (readLeasesLoop env records s) := by
  induction records generalizing s with
  | nil => exact Makes.nil s
  | cons record rest ih =>
      unfold readLeasesLoop readLeasesLoopCalls
      dsimp only
      apply (loadLease_makes env s record).append
      split
      · exact ih _
      · exact Makes.nil _

theorem boot_makes (config : ServerConfig) (lanIpaddr : Option Addr) (lanNetmask : Addr)
    (file : List DhcpOfferedAddr) :
    Makes (init config lanIpaddr lanNetmask) (bootCalls env config lanIpaddr lanNetmask file)
      (boot env config lanIpaddr lanNetmask file) :=
  readLeasesLoop_makes env _ _

end Server

theorem step_makes (s : Server) (e : Event) : Makes s (stepCalls s e) (step s e) := by
  unfold step stepCalls
  apply Makes.cons
  dsimp only [perform, Call.noted]
  split
  · exact Makes.nil _
  · cases e with
    | packet env m => exact Server.dispatch_makes env m _
    | writeLeases => exact Makes.nil _
    | reload env config lanIpaddr lanNetmask file => exact Makes.single _ _

theorem events_make (s : Server) (events : List Event) :
    Makes s (eventCalls s events) (exec step s events) := by
  induction events generalizing s with
  | nil => exact Makes.nil s
  | cons e rest ih => exact (step_makes s e).append (ih (step s e))

/-- A run of the server is what its calls lead to. -/
theorem run_makes (env : Env) (config : ServerConfig) (lanIpaddr : Option Addr)
    (lanNetmask : Addr) (file : List DhcpOfferedAddr) (events : List Event) :
    Makes (Server.init config lanIpaddr lanNetmask)
      (runCalls env config lanIpaddr lanNetmask file events)
      (exec step (Server.boot env config lanIpaddr lanNetmask file) events) :=
  (Server.boot_makes env config lanIpaddr lanNetmask file).append (events_make _ events)

end Xwr100.Udhcpd
