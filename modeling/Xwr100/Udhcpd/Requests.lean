import Xwr100.Udhcpd.LeaseTime

/-!
# The course of a request

What `main` does with a DHCPREQUEST, cut where its branches meet: the lookup, the answer to a
client with a record, and the vendor's grant to a client without one.
-/

namespace Xwr100.Udhcpd

open Server

variable {env : Env} {s : Server} {m : DhcpMessage}

/-- The text of the hostname option, cut to 63 bytes; empty if the option is absent. -/
def DhcpMessage.hostname (m : DhcpMessage) : List UInt8 :=
  match m.findOption dhcpHostName with
  | some pos => m.readString pos (min (m.mem (pos - 1)).toNat 63)
  | none => []

/-- The server and the slot once the message type is read and the client is looked up. -/
def lookedUp (env : Env) (s : Server) (m : DhcpMessage) : Server × Option Nat :=
  (s.option m dhcpMessageType).1.findLeaseByChaddr env m.chaddr

theorem dispatch_request (hmagic : m.readBytes 236 4 = dhcpMagic)
    (htype : m.type = some .request) :
    s.dispatch env m =
      (lookedUp env s m).1.handleRequest env m (lookedUp env s m).2 := by
  obtain ⟨pos, hpos, hbyte⟩ := Option.map_eq_some_iff.mp htype
  have hsnd : (s.option m dhcpMessageType).2 = some pos := (option_snd _).trans hpos
  rw [dispatch, if_neg (not_not.mpr hmagic)]
  dsimp only
  rw [hsnd]
  dsimp only
  rw [hbyte]
  rfl

/-- A packet is dispatched by a server that is not caught in a search. -/
theorem step_packet (h : s.hung = false) :
    step s (.packet env m) = ({ s with probes := 0, replies := [] } : Server).dispatch env m := by
  unfold step
  dsimp only
  exact if_neg (Bool.not_eq_true _ ▸ h)

theorem dispatch_of_not_magic (hmagic : m.readBytes 236 4 ≠ dhcpMagic) : s.dispatch env m = s := by
  rw [dispatch, if_pos hmagic]

/-! ## The lookup -/

/-- The client has a record, or none, or one of the router's own address, which is reserved. -/
theorem findLeaseByChaddr_cases (env : Env) (s : Server) (c : Chaddr) :
    (∃ i, s.findMac c.mac = some i ∧ s.lanIpaddr ≠ some (s.leases i).yiaddr ∧
      s.findLeaseByChaddr env c = (s, some i)) ∨
    (s.findMac c.mac = none ∧ s.findLeaseByChaddr env c = (s, none)) ∨
    ∃ i, s.findMac c.mac = some i ∧ s.lanIpaddr = some (s.leases i).yiaddr ∧
      s.findLeaseByChaddr env c =
        ((s.addLease env blankChaddr (s.leases i).yiaddr s.config.conflictTime).1, none) := by
  rw [findLeaseByChaddr]
  cases hmac : s.findMac c.mac with
  | none => exact Or.inr (Or.inl ⟨rfl, rfl⟩)
  | some i =>
      dsimp only
      by_cases hlan : s.lanIpaddr = some (s.leases i).yiaddr
      · have hcall : s.isLanIPAddr env (s.leases i).yiaddr =
            ((s.addLease env blankChaddr (s.leases i).yiaddr s.config.conflictTime).1, true) := by
          rw [isLanIPAddr, if_pos hlan]
        rw [hcall]
        exact Or.inr (Or.inr ⟨i, rfl, hlan, rfl⟩)
      · have hcall : s.isLanIPAddr env (s.leases i).yiaddr = (s, false) := by
          rw [isLanIPAddr, if_neg hlan]
        rw [hcall]
        exact Or.inl ⟨i, rfl, hlan, rfl⟩

theorem findMac_of_found {c : Chaddr} {i : Nat} (h : (s.findLeaseByChaddr env c).2 = some i) :
    s.findMac c.mac = some i := by
  rcases findLeaseByChaddr_cases env s c with
    ⟨k, hmac, -, hfound⟩ | ⟨-, hfound⟩ | ⟨k, -, -, hfound⟩
  · rw [hfound] at h
    obtain rfl := Option.some.inj h
    exact hmac
  · rw [hfound] at h
    cases h
  · rw [hfound] at h
    cases h

theorem lookedUp_some {i : Nat} (h : (lookedUp env s m).2 = some i) :
    (lookedUp env s m).1 = (s.option m dhcpMessageType).1 ∧
      Owns s m.chaddr.mac i (s.leases i).yiaddr := by
  obtain ⟨hstate, hown⟩ := findLeaseByChaddr_some h
  exact ⟨hstate, hown.lt, hown.mac, rfl, hown.lan⟩

theorem lookedUp_frame : SameFrame s (lookedUp env s m).1 := by
  have hkeeps : SearchKeeps env false (SameFrame s) := sameFrame_searchKeeps s
  have hread : SameFrame s (s.option m dhcpMessageType).1 := ⟨rfl, rfl, rfl⟩
  exact hkeeps.findLeaseByChaddr hread m.chaddr

/-! ## A client with a record -/

theorem setHostname_leases (i : Nat) :
    (s.setHostname m (m.findOption dhcpHostName) i).leases =
      Function.update s.leases i { s.leases i with hostname := m.hostname } := rfl

theorem handleRequest_recorded (i : Nat) :
    s.handleRequest env m (some i) =
      ((s.requestOptions m).1.answerRecorded env m (m.findOption dhcpRequestedIp)
        (m.findOption dhcpServerId) i).setHostname m (m.findOption dhcpHostName) i := by
  rw [handleRequest, requestOptions_eq]

/-- The record is acknowledged, or the request is refused or ignored. -/
theorem answerRecorded_cases (env : Env) (s : Server) (m : DhcpMessage)
    (requested serverId : Option Nat) (i : Nat) :
    s.answerRecorded env m requested serverId i = s.sendACK env m (s.leases i).yiaddr ∨
    s.answerRecorded env m requested serverId i = s.sendNAK env m ∨
    s.answerRecorded env m requested serverId i = s := by
  unfold answerRecorded
  dsimp only
  split
  · split
    · exact Or.inl rfl
    · split
      · exact Or.inr (Or.inr rfl)
      · exact Or.inr (Or.inl rfl)
  · split
    · split
      · exact Or.inl rfl
      · exact Or.inr (Or.inl rfl)
    · split
      · exact Or.inl rfl
      · exact Or.inr (Or.inl rfl)

/-! ## A client without a record -/

theorem handleRequest_unrecorded :
    s.handleRequest env m none =
      (s.requestOptions m).1.answerUnrecorded env m (m.findOption dhcpRequestedIp)
        (m.findOption dhcpServerId) (m.findOption dhcpHostName) := by
  rw [handleRequest, requestOptions_eq]

/-- A request that names no address for this server is refused or ignored. -/
theorem answerUnrecorded_of_no_target (env : Env) (h : requestTarget s m = none)
    (hostname : Option Nat) :
    s.answerUnrecorded env m (m.findOption dhcpRequestedIp) (m.findOption dhcpServerId) hostname =
      s ∨
    s.answerUnrecorded env m (m.findOption dhcpRequestedIp) (m.findOption dhcpServerId) hostname =
      s.sendNAK env m := by
  unfold requestTarget DhcpMessage.requested at h
  unfold answerUnrecorded
  cases hid : m.findOption dhcpServerId with
  | some pos =>
      rw [hid] at h
      dsimp only at h ⊢
      by_cases hserver : m.readAddr pos = s.config.server
      · rw [if_pos hserver] at h
        rw [if_neg (not_not.mpr hserver), Option.map_eq_none_iff.mp h]
        exact Or.inr rfl
      · rw [if_pos hserver]
        exact Or.inl rfl
  | none =>
      rw [hid] at h
      dsimp only at h ⊢
      cases hreq : m.findOption dhcpRequestedIp with
      | some r =>
          rw [hreq] at h
          cases h
      | none =>
          rw [hreq] at h
          dsimp only [Option.map_none] at h ⊢
          by_cases hci : m.ciaddr = 0#32
          · rw [if_neg (not_not.mpr hci)]
            exact Or.inl rfl
          · rw [if_pos hci] at h
            cases h

/-- One that names an address asks for a grant of it; in the SELECTING state the address found in
the record afterwards is the one acknowledged. -/
theorem answerUnrecorded_of_target (env : Env) {y : Addr} (h : requestTarget s m = some y)
    (hostname : Option Nat) :
    ∃ acked : Server → Nat → Addr,
      ((∀ s' i, acked s' i = y) ∨ ∀ s' i, acked s' i = (s'.leases i).yiaddr) ∧
      s.answerUnrecorded env m (m.findOption dhcpRequestedIp) (m.findOption dhcpServerId)
        hostname = s.grantUnrecorded env m hostname y acked := by
  unfold requestTarget DhcpMessage.requested at h
  unfold answerUnrecorded
  cases hid : m.findOption dhcpServerId with
  | some pos =>
      rw [hid] at h
      dsimp only at h ⊢
      by_cases hserver : m.readAddr pos = s.config.server
      · rw [if_pos hserver] at h
        obtain ⟨r, hr, rfl⟩ := Option.map_eq_some_iff.mp h
        rw [if_neg (not_not.mpr hserver), hr]
        exact ⟨_, Or.inr fun _ _ => rfl, rfl⟩
      · rw [if_neg hserver] at h
        cases h
  | none =>
      rw [hid] at h
      dsimp only at h ⊢
      cases hreq : m.findOption dhcpRequestedIp with
      | some r =>
          rw [hreq] at h
          obtain rfl := Option.some.inj h
          exact ⟨_, Or.inl fun _ _ => rfl, rfl⟩
      | none =>
          rw [hreq] at h
          dsimp only [Option.map_none] at h ⊢
          by_cases hci : m.ciaddr = 0#32
          · rw [if_neg (not_not.mpr hci)] at h
            cases h
          · rw [if_pos hci] at h
            obtain rfl := Option.some.inj h
            rw [if_pos hci]
            exact ⟨_, Or.inl fun _ _ => rfl, rfl⟩

/-- A grant is refused on a table that is as it was, or goes through `add_lease` and the lookup:
then it is acknowledged, or refused because the record is the router's own address. -/
theorem grantUnrecorded_cases (env : Env) (s : Server) (m : DhcpMessage)
    (hostname : Option Nat) (y : Addr) (acked : Server → Nat → Addr) :
    (∃ s' : Server, s'.leases = s.leases ∧ s'.replies = s.replies ∧
      s.grantUnrecorded env m hostname y acked = s'.sendNAK env m) ∨
    ∃ j, (s.addLease env m.chaddr y s.config.offerTime).2 = some j ∧ s.inRange y = true ∧
      ((∃ i, ((s.addLease env m.chaddr y s.config.offerTime).1.findLeaseByChaddr env
            m.chaddr).2 = some i ∧
          s.grantUnrecorded env m hostname y acked =
            ((s.addLease env m.chaddr y s.config.offerTime).1.sendACK env m
              (acked (s.addLease env m.chaddr y s.config.offerTime).1 i)).setHostname
                m hostname i) ∨
        s.grantUnrecorded env m hostname y acked =
          ((s.addLease env m.chaddr y s.config.offerTime).1.findLeaseByChaddr env
            m.chaddr).1.sendNAK env m) := by
  unfold grantUnrecorded
  cases hrange : s.inRange y with
  | false => exact Or.inl ⟨s, rfl, rfl, rfl⟩
  | true =>
      have hin : ¬(!true) = true := Bool.false_ne_true
      rw [if_neg hin]
      dsimp only
      cases hadd : (s.addLease env m.chaddr y s.config.offerTime).2 with
      | none => exact Or.inl ⟨_, addLease_leases_of_none hadd, addLease_replies _ _ _, rfl⟩
      | some j =>
          refine Or.inr ⟨j, rfl, rfl, ?_⟩
          cases hfound : ((s.addLease env m.chaddr y s.config.offerTime).1.findLeaseByChaddr env
              m.chaddr).2 with
          | none => exact Or.inr rfl
          | some i =>
              obtain ⟨hstate, -⟩ := findLeaseByChaddr_some hfound
              dsimp only
              rw [hstate]
              exact Or.inl ⟨i, rfl, rfl⟩

end Xwr100.Udhcpd
