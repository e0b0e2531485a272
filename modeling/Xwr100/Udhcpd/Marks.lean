import Xwr100.Udhcpd.LeaseTime

/-!
# The course of the vendor tag

The global `vizio_device` is set by the option scans of a packet and used up by `add_lease`.  A
packet leaves a sequence of marks, the scans and the records it makes, function by function in
the order of the source.  Nothing else of what a packet does depends on the flag: started from
any flag it comes to the same server, with the flag and the commands the marks say.
-/

namespace Xwr100.Udhcpd

variable {m : DhcpMessage} {v : Bool} {c : List Command}

/-- An option scan, or a call of `add_lease` with its hardware address and its address. -/
inductive Mark where
  | scan (code : UInt8)
  | add (chaddr : Chaddr) (addr : Addr)
deriving DecidableEq, Repr

/-- The commands of `add_lease`. -/
def announcement (mac : BitVec 48) (addr : Addr) (flag : Bool) : List Command :=
  [.deleteRule ⟨true, addr, .udp⟩, .deleteRule ⟨true, addr, .tcpSyn⟩,
    .deleteRule ⟨false, addr, .udp⟩, .deleteRule ⟨false, addr, .tcpSynNot80⟩,
    .appendRule ⟨false, addr, .udp⟩, .appendRule ⟨false, addr, .tcpSynNot80⟩,
    if flag then .addVizioDevice addr else .addDevice mac addr]

namespace Mark

/-- What a mark makes of the flag; `add_lease` does nothing for 0.0.0.0. -/
def flag (m : DhcpMessage) (f : Bool) : Mark → Bool
  | scan code => (getOption m code f).2
  | add _ addr => if addr = 0#32 then f else false

def commands (f : Bool) : Mark → List Command
  | scan _ => []
  | add chaddr addr => if addr = 0#32 then [] else announcement chaddr.mac addr f

end Mark

def flagAfter (m : DhcpMessage) (f : Bool) (marks : List Mark) : Bool :=
  marks.foldl (Mark.flag m) f

def issued (m : DhcpMessage) : Bool → List Mark → List Command
  | _, [] => []
  | f, mark :: rest => mark.commands f ++ issued m (mark.flag m f) rest

namespace Server

variable (env : Env) (m : DhcpMessage)

/-! ## Lookups and the address search -/

def isLanIPAddrMarks (s : Server) (addr : Addr) : List Mark :=
  if s.lanIpaddr = some addr then [.add blankChaddr addr] else []

def findLeaseByChaddrMarks (s : Server) (chaddr : Chaddr) : List Mark :=
  match s.findMac chaddr.mac with
  | some i => s.isLanIPAddrMarks (s.leases i).yiaddr
  | none => []

def checkIpMarks (s : Server) (addr : Addr) : List Mark :=
  s.isLanIPAddrMarks addr ++
    match s.isLanIPAddr env addr with
    | (_, true) => [.add blankChaddr addr]
    | (s', false) => if env.arpping s'.probes addr then [.add blankChaddr addr] else []

def tryAddressMarks (s : Server) (checkExpired : Bool) (addr : Addr) : List Mark :=
  if addr &&& 0xff#32 = 0#32 then []
  else if addr &&& 0xff#32 = 0xff#32 then []
  else
    s.isLanIPAddrMarks addr ++
      match s.isLanIPAddr env addr with
      | (_, true) => []
      | (s', false) =>
          if s'.leaseTaken env checkExpired addr then [] else s'.checkIpMarks env addr

def findAddressLoopMarks (checkExpired : Bool) : Nat → Server → Addr → List Mark
  | 0, _, _ => []
  | fuel + 1, s, addr =>
      if addr ≤ s.config.end_ then
        s.tryAddressMarks env checkExpired addr ++
          match s.tryAddress env checkExpired addr with
          | (_, true) => []
          | (s', false) => findAddressLoopMarks checkExpired fuel s' (addr + 1)
      else []

def findAddressMarks (s : Server) (checkExpired : Bool) : List Mark :=
  findAddressLoopMarks env checkExpired env.fuel s s.config.start

/-! ## `serverpacket.c` -/

def offerRequestedMarks (s : Server) (addr : Addr) : List Mark :=
  match s.findLeaseByYiaddr addr with
  | none => []
  | some i => if (s.leases i).chaddr = m.chaddr then s.findAddressMarks env false else []

def offerFreeMarks (s : Server) : List Mark :=
  s.findAddressMarks env false ++
    if (s.findAddress env false).1.hung then []
    else if (s.findAddress env false).2 = 0#32 then
      (s.findAddress env false).1.findAddressMarks env true
    else []

def offerNewMarks (s : Server) : List Mark :=
  let req := s.option m dhcpRequestedIp
  .scan dhcpRequestedIp ::
    match req.2 with
    | some pos =>
        if req.1.requestedFree env (m.readAddr pos) then
          req.1.offerRequestedMarks env m (m.readAddr pos)
        else req.1.offerFreeMarks env
    | none => req.1.offerFreeMarks env

def offerAddressMarks (s : Server) : List Mark :=
  s.findLeaseByChaddrMarks m.chaddr ++
    match (s.findLeaseByChaddr env m.chaddr).2 with
    | some _ => []
    | none => (s.findLeaseByChaddr env m.chaddr).1.offerNewMarks env m

/-- The lease time is looked for once the offer is recorded. -/
def sendOfferMarks (s : Server) : List Mark :=
  let choice := s.offerAddress env m
  s.offerAddressMarks env m ++
    if choice.1.hung then []
    else if choice.2.1 = 0#32 then []
    else
      .add m.chaddr choice.2.1 ::
        match (choice.1.addLease env m.chaddr choice.2.1 choice.1.config.offerTime).2 with
        | none => []
        | some _ => [.scan dhcpLeaseTime]

def sendACKMarks (s : Server) (yiaddr : Addr) : List Mark :=
  .scan dhcpLeaseTime :: if env.sendOk s.replies.length then [.add m.chaddr yiaddr] else []

/-! ## `dhcpd.c` -/

def answerRecordedMarks (s : Server) (requested serverId : Option Nat) (i : Nat) : List Mark :=
  let yiaddr := (s.leases i).yiaddr
  match serverId with
  | some pos =>
      if m.readAddr pos = s.config.server ∧ requested.any (fun r => m.readAddr r = yiaddr) then
        s.sendACKMarks env m yiaddr
      else []
  | none =>
      match requested with
      | some r => if yiaddr = m.readAddr r then s.sendACKMarks env m yiaddr else []
      | none => if yiaddr = m.ciaddr then s.sendACKMarks env m yiaddr else []

def grantUnrecordedMarks (s : Server) (yiaddr : Addr) (acked : Server → Nat → Addr) :
    List Mark :=
  if !s.inRange yiaddr then []
  else
    let added := s.addLease env m.chaddr yiaddr s.config.offerTime
    .add m.chaddr yiaddr ::
      match added.2 with
      | none => []
      | some _ =>
          let found := added.1.findLeaseByChaddr env m.chaddr
          added.1.findLeaseByChaddrMarks m.chaddr ++
            match found.2 with
            | some i => found.1.sendACKMarks env m (acked found.1 i)
            | none => []

def answerUnrecordedMarks (s : Server) (requested serverId : Option Nat) : List Mark :=
  match serverId with
  | some pos =>
      if m.readAddr pos ≠ s.config.server then []
      else
        match requested with
        | some r => s.grantUnrecordedMarks env m (m.readAddr r) fun s' i => (s'.leases i).yiaddr
        | none => []
  | none =>
      match requested with
      | some r => s.grantUnrecordedMarks env m (m.readAddr r) fun _ _ => m.readAddr r
      | none =>
          if m.ciaddr ≠ 0#32 then s.grantUnrecordedMarks env m m.ciaddr fun _ _ => m.ciaddr
          else []

def handleRequestMarks (s : Server) (lease : Option Nat) : List Mark :=
  let opts := s.requestOptions m
  [.scan dhcpRequestedIp, .scan dhcpServerId, .scan dhcpHostName] ++
    match lease with
    | some i => opts.1.answerRecordedMarks env m opts.2.1 opts.2.2.1 i
    | none => opts.1.answerUnrecordedMarks env m opts.2.1 opts.2.2.1

def handleDiscoverMarks (s : Server) : List Mark :=
  let first := s.sendOffer env m
  s.sendOfferMarks env m ++
    if first.1.hung then []
    else if first.2 then []
    else first.1.sendOfferMarks env m

def handleMarks (s : Server) (lease : Option Nat) : MessageType → List Mark
  | .discover => s.handleDiscoverMarks env m
  | .request => s.handleRequestMarks env m lease
  | .decline => []
  | .release => []
  | .inform => []
  | .unsupported => []

def dispatchMarks (s : Server) : List Mark :=
  if m.readBytes 236 4 ≠ dhcpMagic then []
  else
    let state := s.option m dhcpMessageType
    .scan dhcpMessageType ::
      match state.2 with
      | none => []
      | some pos =>
          let found := state.1.findLeaseByChaddr env m.chaddr
          state.1.findLeaseByChaddrMarks m.chaddr ++
            found.1.handleMarks env m found.2 (MessageType.ofByte (m.mem pos))

end Server

/-! ## The same server under another flag -/

theorem issued_append (marks marks' : List Mark) :
    issued m v (marks ++ marks') =
      issued m v marks ++ issued m (flagAfter m v marks) marks' := by
  induction marks generalizing v with
  | nil => rfl
  | cons mark rest ih =>
      rw [List.cons_append, issued, issued, ih, List.append_assoc]
      rfl

namespace Server

variable (env : Env) (m : DhcpMessage) (s : Server)

def flagged (s : Server) (v : Bool) (c : List Command) : Server :=
  { s with vizioDevice := v, commands := c }

/-- With the flag and the log some marks make of `v` and `c`. -/
abbrev played (s : Server) (m : DhcpMessage) (v : Bool) (c : List Command) (marks : List Mark) :
    Server := s.flagged (flagAfter m v marks) (c ++ issued m v marks)

theorem flagged_self : s.flagged s.vizioDevice s.commands = s := rfl

theorem played_nil : s.played m v c [] = s.flagged v c := by
  rw [played, issued, List.append_nil]
  rfl

theorem played_append (marks marks' : List Mark) :
    s.played m v c (marks ++ marks') =
      s.played m (flagAfter m v marks) (c ++ issued m v marks) marks' := by
  rw [played, played, issued_append, List.append_assoc, flagAfter, List.foldl_append]
  rfl

theorem played_cons (mark : Mark) (marks : List Mark) :
    s.played m v c (mark :: marks) =
      s.played m (flagAfter m v [mark]) (c ++ issued m v [mark]) marks :=
  s.played_append m [mark] marks

theorem played_singleton (mark : Mark) :
    s.played m v c [mark] = s.flagged (mark.flag m v) (c ++ mark.commands v) := by
  rw [played, issued, issued, List.append_nil]
  rfl

theorem addLease_flagged (chaddr : Chaddr) (yiaddr : Addr) (lease : Nat) :
    (s.flagged v c).addLease env chaddr yiaddr lease =
      ((s.addLease env chaddr yiaddr lease).1.played m v c [.add chaddr yiaddr],
        (s.addLease env chaddr yiaddr lease).2) := by
  rw [played_singleton, Mark.commands, Mark.flag]
  unfold addLease
  by_cases hy : yiaddr = 0#32
  · rw [if_pos hy, if_pos hy, if_pos hy, if_pos hy, List.append_nil]
  · rw [if_neg hy, if_neg hy, if_neg hy, if_neg hy]
    have hlog : ((s.flagged v c).clearLease chaddr yiaddr).commands ++
        [.deleteRule ⟨false, yiaddr, .udp⟩, .deleteRule ⟨false, yiaddr, .tcpSynNot80⟩,
          .appendRule ⟨false, yiaddr, .udp⟩, .appendRule ⟨false, yiaddr, .tcpSynNot80⟩,
          if v then .addVizioDevice yiaddr else .addDevice chaddr.mac yiaddr] =
        c ++ announcement chaddr.mac yiaddr v := List.append_assoc c _ _
    have hsame : ((s.flagged v c).clearLease chaddr yiaddr).oldestExpiredLease env =
        (s.clearLease chaddr yiaddr).oldestExpiredLease env := rfl
    rw [← hlog]
    dsimp only
    rw [hsame]
    cases (s.clearLease chaddr yiaddr).oldestExpiredLease env with
    | none => rfl
    | some i => rfl

theorem option_flagged (code : UInt8) :
    (s.flagged v c).option m code =
      ((s.option m code).1.played m v c [.scan code], (s.option m code).2) := by
  rw [played_singleton, Mark.commands, List.append_nil]
  unfold option
  rw [getOption_fst, getOption_fst]
  rfl

theorem offerLeaseTime_flagged (initial : Nat) :
    (s.flagged v c).offerLeaseTime m initial =
      ((s.offerLeaseTime m initial).1.played m v c [.scan dhcpLeaseTime],
        (s.offerLeaseTime m initial).2) := by
  unfold offerLeaseTime
  rw [option_flagged]
  rfl

theorem acknowledged_flagged (yiaddr : Addr) :
    acknowledged env (s.flagged v c) m yiaddr =
      (acknowledged env s m yiaddr).played m v c [.scan dhcpLeaseTime] := by
  unfold acknowledged
  rw [option_flagged]
  rfl

/-! ### Lookups and the address search -/

theorem isLanIPAddr_flagged (addr : Addr) :
    (s.flagged v c).isLanIPAddr env addr =
      ((s.isLanIPAddr env addr).1.played m v c (s.isLanIPAddrMarks addr),
        (s.isLanIPAddr env addr).2) := by
  have hlan : (s.flagged v c).lanIpaddr = s.lanIpaddr := rfl
  unfold isLanIPAddr isLanIPAddrMarks
  rw [hlan]
  split
  · rw [addLease_flagged env m]
    rfl
  · rw [played_nil]

theorem findLeaseByChaddr_flagged (chaddr : Chaddr) :
    (s.flagged v c).findLeaseByChaddr env chaddr =
      ((s.findLeaseByChaddr env chaddr).1.played m v c (s.findLeaseByChaddrMarks chaddr),
        (s.findLeaseByChaddr env chaddr).2) := by
  have hmac : (s.flagged v c).findMac chaddr.mac = s.findMac chaddr.mac := rfl
  unfold findLeaseByChaddr findLeaseByChaddrMarks
  rw [hmac]
  cases s.findMac chaddr.mac with
  | none => rw [played_nil]
  | some i =>
      have hslot : ((s.flagged v c).leases i).yiaddr = (s.leases i).yiaddr := rfl
      dsimp only
      rw [hslot, isLanIPAddr_flagged env m]
      cases s.isLanIPAddr env (s.leases i).yiaddr with
      | mk s₁ isLan => cases isLan <;> rfl

theorem checkIp_flagged (addr : Addr) :
    (s.flagged v c).checkIp env addr =
      ((s.checkIp env addr).1.played m v c (s.checkIpMarks env addr), (s.checkIp env addr).2) := by
  unfold checkIp checkIpMarks
  rw [isLanIPAddr_flagged env m, played_append]
  cases s.isLanIPAddr env addr with
  | mk s₁ isLan =>
      cases isLan with
      | true =>
          dsimp only
          rw [addLease_flagged env m]
          rfl
      | false =>
          dsimp only
          have hprobes : ∀ v c, (s₁.flagged v c).probes = s₁.probes := fun _ _ => rfl
          rw [hprobes]
          split
          · exact congrArg (fun added => (added.1, true)) (addLease_flagged env m
              { s₁ with probes := s₁.probes + 1 } blankChaddr addr s₁.config.conflictTime)
          · rw [played_nil]
            rfl

theorem tryAddress_flagged (checkExpired : Bool) (addr : Addr) :
    (s.flagged v c).tryAddress env checkExpired addr =
      ((s.tryAddress env checkExpired addr).1.played m v c
        (s.tryAddressMarks env checkExpired addr), (s.tryAddress env checkExpired addr).2) := by
  unfold tryAddress tryAddressMarks
  split
  · rw [played_nil]
  · split
    · rw [played_nil]
    · rw [isLanIPAddr_flagged env m, played_append]
      cases s.isLanIPAddr env addr with
      | mk s₁ isLan =>
          cases isLan with
          | true => rw [played_nil]
          | false =>
              dsimp only
              have htaken : ∀ v c, (s₁.flagged v c).leaseTaken env checkExpired addr =
                  s₁.leaseTaken env checkExpired addr := fun _ _ => rfl
              rw [htaken]
              split
              · rw [played_nil]
              · rw [checkIp_flagged env m]

theorem findAddressLoop_flagged (checkExpired : Bool) (fuel : Nat) (addr : Addr) :
    findAddressLoop env checkExpired fuel (s.flagged v c) addr =
      ((findAddressLoop env checkExpired fuel s addr).1.played m v c
        (findAddressLoopMarks env checkExpired fuel s addr),
        (findAddressLoop env checkExpired fuel s addr).2) := by
  induction fuel generalizing s v c addr with
  | zero =>
      rw [findAddressLoopMarks, played_nil]
      rfl
  | succ fuel ih =>
      have hend : (s.flagged v c).config.end_ = s.config.end_ := rfl
      unfold findAddressLoop findAddressLoopMarks
      rw [hend]
      split
      · rw [tryAddress_flagged env m, played_append]
        cases s.tryAddress env checkExpired addr with
        | mk s₁ found =>
            cases found with
            | true => rw [played_nil]
            | false => exact ih s₁ (addr + 1)
      · rw [played_nil]

theorem findAddress_flagged (checkExpired : Bool) :
    (s.flagged v c).findAddress env checkExpired =
      ((s.findAddress env checkExpired).1.played m v c (s.findAddressMarks env checkExpired),
        (s.findAddress env checkExpired).2) :=
  findAddressLoop_flagged env m s checkExpired env.fuel s.config.start

/-! ### Replies -/

theorem offerRequested_flagged (addr : Addr) :
    (s.flagged v c).offerRequested env m addr =
      ((s.offerRequested env m addr).1.played m v c (s.offerRequestedMarks env m addr),
        (s.offerRequested env m addr).2) := by
  have hfind : (s.flagged v c).findLeaseByYiaddr addr = s.findLeaseByYiaddr addr := rfl
  unfold offerRequested offerRequestedMarks
  rw [hfind]
  cases s.findLeaseByYiaddr addr with
  | none => rw [played_nil]
  | some i =>
      have hslot : ((s.flagged v c).leases i).chaddr = (s.leases i).chaddr := rfl
      dsimp only
      rw [hslot]
      split
      · exact findAddress_flagged env m s false
      · rw [played_nil]

theorem offerFree_flagged :
    (s.flagged v c).offerFree env =
      ((s.offerFree env).1.played m v c (s.offerFreeMarks env), (s.offerFree env).2) := by
  unfold offerFree offerFreeMarks
  rw [findAddress_flagged env m, played_append]
  cases s.findAddress env false with
  | mk s₁ addr =>
      have hhung : ∀ v c, (s₁.flagged v c).hung = s₁.hung := fun _ _ => rfl
      dsimp only
      rw [hhung]
      split
      · rw [played_nil]
      · split
        · exact findAddress_flagged env m s₁ true
        · rw [played_nil]

theorem offerNew_flagged :
    (s.flagged v c).offerNew env m =
      ((s.offerNew env m).1.played m v c (s.offerNewMarks env m), (s.offerNew env m).2) := by
  unfold offerNew offerNewMarks
  rw [option_flagged]
  dsimp only
  cases (s.option m dhcpRequestedIp).2 with
  | none =>
      dsimp only
      rw [played_cons _ _ _ (offerFreeMarks env _)]
      exact offerFree_flagged env m _
  | some pos =>
      dsimp only
      have hfree : ∀ (s : Server) v c, (s.flagged v c).requestedFree env (m.readAddr pos) =
          s.requestedFree env (m.readAddr pos) := fun _ _ _ => rfl
      rw [hfree]
      split
      · rw [played_cons _ _ _ (offerRequestedMarks env m _ _)]
        exact offerRequested_flagged env m _ _
      · rw [played_cons _ _ _ (offerFreeMarks env _)]
        exact offerFree_flagged env m _

theorem offerAddress_flagged :
    (s.flagged v c).offerAddress env m =
      ((s.offerAddress env m).1.played m v c (s.offerAddressMarks env m),
        (s.offerAddress env m).2) := by
  unfold offerAddress offerAddressMarks
  rw [findLeaseByChaddr_flagged env m, played_append]
  cases s.findLeaseByChaddr env m.chaddr with
  | mk s₁ found =>
      dsimp only
      cases found with
      | some i =>
          rw [played_nil]
          rfl
      | none =>
          dsimp only
          rw [offerNew_flagged]
          rfl

theorem sendOffer_flagged :
    (s.flagged v c).sendOffer env m =
      ((s.sendOffer env m).1.played m v c (s.sendOfferMarks env m), (s.sendOffer env m).2) := by
  unfold sendOffer sendOfferMarks
  rw [offerAddress_flagged, played_append]
  cases s.offerAddress env m with
  | mk s₁ choice =>
      have hhung : ∀ v c, (s₁.flagged v c).hung = s₁.hung := fun _ _ => rfl
      have hconfig : ∀ v c, (s₁.flagged v c).config = s₁.config := fun _ _ => rfl
      dsimp only
      rw [hhung]
      split
      · rw [played_nil]
      · split
        · rw [played_nil]
        · rw [hconfig, addLease_flagged env m]
          cases s₁.addLease env m.chaddr choice.1 s₁.config.offerTime with
          | mk s₂ added =>
              cases added with
              | none => rfl
              | some i =>
                  dsimp only
                  rw [offerLeaseTime_flagged, played_cons _ _ _ [_]]
                  rfl

theorem sendACK_flagged (yiaddr : Addr) :
    (s.flagged v c).sendACK env m yiaddr =
      (s.sendACK env m yiaddr).played m v c (s.sendACKMarks env m yiaddr) := by
  have hreplies : (s.flagged v c).replies = s.replies := rfl
  have hconfig : (s.flagged v c).config = s.config := rfl
  unfold sendACKMarks
  rw [sendACK_eq, sendACK_eq, hreplies, hconfig, acknowledged_flagged]
  split
  · rw [played_cons _ _ _ [_], addLease_flagged env m]
  · rfl

/-! ### The messages -/

theorem setHostname_flagged (hostname : Option Nat) (i : Nat) :
    (s.flagged v c).setHostname m hostname i = (s.setHostname m hostname i).flagged v c := rfl

theorem sendNAK_flagged :
    (s.flagged v c).sendNAK env m = (s.sendNAK env m).played m v c [] := by
  rw [played_nil]
  rfl

theorem answerRecorded_flagged (requested serverId : Option Nat) (i : Nat) :
    (s.flagged v c).answerRecorded env m requested serverId i =
      (s.answerRecorded env m requested serverId i).played m v c
        (s.answerRecordedMarks env m requested serverId i) := by
  have hslot : ((s.flagged v c).leases i).yiaddr = (s.leases i).yiaddr := rfl
  have hconfig : (s.flagged v c).config = s.config := rfl
  unfold answerRecorded answerRecordedMarks
  rw [hslot, hconfig]
  cases serverId with
  | some pos =>
      dsimp only
      split
      · apply sendACK_flagged
      · split
        · rw [played_nil]
        · apply sendNAK_flagged
  | none =>
      cases requested with
      | some r =>
          dsimp only
          split
          · apply sendACK_flagged
          · apply sendNAK_flagged
      | none =>
          dsimp only
          split
          · apply sendACK_flagged
          · apply sendNAK_flagged

theorem grantUnrecorded_flagged (hostname : Option Nat) (yiaddr : Addr)
    (acked : Server → Nat → Addr)
    (hacked : ∀ s v c i, acked (flagged s v c) i = acked s i) :
    (s.flagged v c).grantUnrecorded env m hostname yiaddr acked =
      (s.grantUnrecorded env m hostname yiaddr acked).played m v c
        (s.grantUnrecordedMarks env m yiaddr acked) := by
  have hrange : (s.flagged v c).inRange yiaddr = s.inRange yiaddr := rfl
  have hconfig : (s.flagged v c).config = s.config := rfl
  unfold grantUnrecorded grantUnrecordedMarks
  rw [hrange, hconfig]
  split
  · apply sendNAK_flagged
  · rw [addLease_flagged env m]
    cases s.addLease env m.chaddr yiaddr s.config.offerTime with
    | mk s₁ added =>
        cases added with
        | none =>
            dsimp only
            rw [sendNAK_flagged, played_nil]
        | some _ =>
            dsimp only
            rw [findLeaseByChaddr_flagged env m, played_cons _ _ _ (_ ++ _), played_append]
            cases s₁.findLeaseByChaddr env m.chaddr with
            | mk s₂ found =>
                cases found with
                | none => apply sendNAK_flagged
                | some i =>
                    dsimp only
                    rw [hacked, sendACK_flagged, setHostname_flagged]

theorem answerUnrecorded_flagged (requested serverId hostname : Option Nat) :
    (s.flagged v c).answerUnrecorded env m requested serverId hostname =
      (s.answerUnrecorded env m requested serverId hostname).played m v c
        (s.answerUnrecordedMarks env m requested serverId) := by
  have hconfig : (s.flagged v c).config = s.config := rfl
  unfold answerUnrecorded answerUnrecordedMarks
  rw [hconfig]
  cases serverId with
  | some pos =>
      dsimp only
      split
      · rw [played_nil]
      · cases requested with
        | some r => exact grantUnrecorded_flagged env m s _ _ _ fun _ _ _ _ => rfl
        | none => apply sendNAK_flagged
  | none =>
      cases requested with
      | some r => exact grantUnrecorded_flagged env m s _ _ _ fun _ _ _ _ => rfl
      | none =>
          dsimp only
          split
          · exact grantUnrecorded_flagged env m s _ _ _ fun _ _ _ _ => rfl
          · rw [played_nil]

theorem requestOptions_flagged :
    (s.flagged v c).requestOptions m =
      ((s.requestOptions m).1.played m v c
        [.scan dhcpRequestedIp, .scan dhcpServerId, .scan dhcpHostName],
        (s.requestOptions m).2) := by
  unfold requestOptions
  rw [option_flagged]
  dsimp only
  rw [option_flagged]
  dsimp only
  rw [option_flagged, played_cons _ _ _ [_, _], played_cons _ _ _ [_]]

theorem handleRequest_flagged (lease : Option Nat) :
    (s.flagged v c).handleRequest env m lease =
      (s.handleRequest env m lease).played m v c (s.handleRequestMarks env m lease) := by
  unfold handleRequest handleRequestMarks
  rw [requestOptions_flagged, played_append]
  cases s.requestOptions m with
  | mk s₁ opts =>
      cases lease with
      | some i =>
          dsimp only
          rw [answerRecorded_flagged, setHostname_flagged]
      | none => apply answerUnrecorded_flagged

theorem handleDiscover_flagged :
    (s.flagged v c).handleDiscover env m =
      (s.handleDiscover env m).played m v c (s.handleDiscoverMarks env m) := by
  unfold handleDiscover handleDiscoverMarks
  rw [sendOffer_flagged, played_append]
  cases s.sendOffer env m with
  | mk s₁ sent =>
      have hhung : ∀ v c, (s₁.flagged v c).hung = s₁.hung := fun _ _ => rfl
      dsimp only
      rw [hhung]
      split
      · rw [played_nil]
      · split
        · rw [played_nil]
        · rw [sendOffer_flagged]

theorem handle_flagged (lease : Option Nat) (type : MessageType) :
    (s.flagged v c).handle env m lease type =
      (s.handle env m lease type).played m v c (s.handleMarks env m lease type) := by
  cases type with
  | discover => exact handleDiscover_flagged env m s
  | request => exact handleRequest_flagged env m s lease
  | decline =>
      rw [handleMarks, played_nil]
      cases lease <;> rfl
  | release =>
      rw [handleMarks, played_nil]
      cases lease <;> rfl
  | inform =>
      rw [handleMarks, played_nil]
      rfl
  | unsupported =>
      rw [handleMarks, played_nil]
      rfl

/-- Whatever the flag a packet finds, it does the same, with the flag and the commands of its
marks. -/
theorem dispatch_flagged :
    (s.flagged v c).dispatch env m =
      (s.dispatch env m).played m v c (s.dispatchMarks env m) := by
  unfold dispatch dispatchMarks
  split
  · rw [played_nil]
  · rw [option_flagged]
    dsimp only
    cases (s.option m dhcpMessageType).2 with
    | none => rfl
    | some pos =>
        dsimp only
        rw [findLeaseByChaddr_flagged env m, played_cons _ _ _ (_ ++ _), played_append]
        exact handle_flagged env m _ _ _

theorem dispatch_commands :
    (s.dispatch env m).commands =
      s.commands ++ issued m s.vizioDevice (s.dispatchMarks env m) := by
  have hplayed := dispatch_flagged env m s (v := s.vizioDevice) (c := s.commands)
  rw [flagged_self] at hplayed
  exact congrArg Server.commands hplayed

theorem dispatch_vizioDevice :
    (s.dispatch env m).vizioDevice =
      flagAfter m s.vizioDevice (s.dispatchMarks env m) := by
  have hplayed := dispatch_flagged env m s (v := s.vizioDevice) (c := s.commands)
  rw [flagged_self] at hplayed
  exact congrArg Server.vizioDevice hplayed

end Server

end Xwr100.Udhcpd
