import Xwr100.Udhcpd.Requests

/-!
# The hostname of a lease

The hostname of a request is written through a slot pointer that was obtained before `sendACK`,
and `sendACK` records the lease in the first slot that counts as never used, which need not
be the same.  It is the same for a client without a record, since the slot that took the
record the first time takes it again.
-/

namespace Xwr100.Udhcpd

open Lib Server

variable {env : Env} {s : Server} {m : DhcpMessage} {y : Addr}

/-- The request is acknowledged with address `y`. -/
def AckedWith (env : Env) (s : Server) (m : DhcpMessage) (y : Addr) : Prop :=
  m.type = some .request ∧
    ∃ time, (⟨.ack, m.chaddr, y, time, true⟩ : Reply) ∈ (step s (.packet env m)).replies

def SameNames (m : DhcpMessage) (s s' : Server) : Prop :=
  ∀ j < s.config.maxLeases, (s'.leases j).chaddr ≠ m.chaddr →
    (s'.leases j).chaddr ≠ blankChaddr → (s'.leases j).hostname = (s.leases j).hostname

/-- One slot holds `y`, for the client and under its name, and other clients keep their names. -/
structure Named (s s' : Server) (m : DhcpMessage) (y : Addr) : Prop where
  present : ∃ j < s.config.maxLeases, (s'.leases j).yiaddr = y
  client : ∀ j < s.config.maxLeases, (s'.leases j).yiaddr = y →
    (s'.leases j).chaddr = m.chaddr ∧ (s'.leases j).hostname = m.hostname
  others : SameNames m s s'

def NamesLease (s : Server) : Event → Prop
  | .packet env m => ∀ y, AckedWith env s m y → Named s (step s (.packet env m)) m y
  | .writeLeases => True
  | .reload _ _ _ _ _ => True

/-- The lease of a client with a record stays in its slot: no slot before it counts as never used,
or the first that does has the right name already.  A client without a record is not
mistaken for another one with the same six bytes. -/
structure Settled (s : Server) (m : DhcpMessage) : Prop where
  recorded : ∀ i, s.findMac m.chaddr.mac = some i → s.lanIpaddr ≠ some (s.leases i).yiaddr →
    (s.leases i).yiaddr ≠ 0#32 ∧
    ∀ k < i, Unused m.chaddr (s.leases i).yiaddr (s.leases k) →
      (∀ l < k, ¬Unused m.chaddr (s.leases i).yiaddr (s.leases l)) →
      nameLeft m.chaddr (s.leases i).yiaddr (s.leases k) = m.hostname
  unrecorded : (∀ i, s.findMac m.chaddr.mac = some i → s.lanIpaddr = some (s.leases i).yiaddr) →
    ∀ y, requestTarget s m = some y → ∀ k < s.config.maxLeases,
      (s.leases k).chaddr.mac = m.chaddr.mac →
      s.lanIpaddr = some (s.leases k).yiaddr ∨ clearMatches m.chaddr y (s.leases k) = true

def AcknowledgesSettled (s : Server) : Event → Prop
  | .packet env m => ∀ y, AckedWith env s m y → Settled s m
  | .writeLeases => True
  | .reload _ _ _ _ _ => True

/-! ## Other clients -/

theorem SameNames.of_leases {s₀ : Server} (h : s.leases = s₀.leases) : SameNames m s₀ s := by
  intro j _ _ _
  rw [h]

theorem SameNames.addLease {s₀ : Server} {c : Chaddr} (h : SameNames m s₀ s)
    (hc : c = m.chaddr ∨ c = blankChaddr) (lease : Nat) :
    SameNames m s₀ (s.addLease env c y lease).1 := by
  intro j hj hclient hblank
  rcases @addLease_slot env s c y lease j with hkept | hempty | ⟨hnew, -⟩
  · rw [hkept] at hclient hblank ⊢
    exact h j hj hclient hblank
  · rw [hempty] at hblank
    exact absurd rfl hblank
  · rw [hnew] at hclient hblank
    exact absurd hc (not_or.mpr ⟨hclient, hblank⟩)

theorem SameNames.findLeaseByChaddr {s₀ : Server} (h : SameNames m s₀ s) (c : Chaddr) :
    SameNames m s₀ (s.findLeaseByChaddr env c).1 := by
  rcases findLeaseByChaddr_cases env s c with
    ⟨i, -, -, hfound⟩ | ⟨-, hfound⟩ | ⟨i, -, -, hfound⟩
  · rw [hfound]
    exact h
  · rw [hfound]
    exact h
  · rw [hfound]
    exact h.addLease (Or.inr rfl) _

theorem SameNames.setHostname {s₀ : Server} {i : Nat} (h : SameNames m s₀ s)
    (hi : (s.leases i).chaddr = m.chaddr ∨ (s.leases i).chaddr = blankChaddr) :
    SameNames m s₀ (s.setHostname m (m.findOption dhcpHostName) i) := by
  intro j hj hclient hblank
  rw [setHostname_leases] at hclient hblank ⊢
  by_cases hji : j = i
  · rw [hji, Function.update_self] at hclient hblank
    exact absurd hi (not_or.mpr ⟨hclient, hblank⟩)
  · rw [Function.update_of_ne hji] at hclient hblank ⊢
    exact h j hj hclient hblank

/-! ## The client -/

theorem sendNAK_replies :
    (s.sendNAK env m).replies =
      s.replies ++ [⟨.nak, m.chaddr, 0#32, none, env.sendOk s.replies.length⟩] := rfl

theorem setHostname_yiaddr (i k : Nat) :
    ((s.setHostname m (m.findOption dhcpHostName) i).leases k).yiaddr = (s.leases k).yiaddr := by
  rw [setHostname_leases]
  by_cases hk : k = i
  · rw [hk, Function.update_self]
  · rw [Function.update_of_ne hk]

theorem setHostname_chaddr (i k : Nat) :
    ((s.setHostname m (m.findOption dhcpHostName) i).leases k).chaddr = (s.leases k).chaddr := by
  rw [setHostname_leases]
  by_cases hk : k = i
  · rw [hk, Function.update_self]
  · rw [Function.update_of_ne hk]

/-- The acknowledgement of the address in slot `i` records the lease in the first slot that counts
as never used: in slot `i`, or in one before it that has the right name already. -/
theorem sendACK_named {s₀ : Server} {i : Nat} (hconfig : s.config = s₀.config)
    (hothers : SameNames m s₀ s) (hi : i < s.config.maxLeases) (hy : y ≠ 0#32)
    (haddr : (s.leases i).yiaddr = y) (hsent : env.sendOk s.replies.length = true)
    (hname : ∀ k < i, Unused m.chaddr y (s.leases k) →
      (∀ l < k, ¬Unused m.chaddr y (s.leases l)) → nameLeft m.chaddr y (s.leases k) = m.hostname) :
    Named s₀ ((s.sendACK env m y).setHostname m (m.findOption dhcpHostName) i) m y := by
  have hmatch : clearMatches m.chaddr y (s.leases i) = true := clearMatches_of_yiaddr hy haddr
  rw [sendACK_eq, if_pos hsent]
  have hsome : ((acknowledged env s m y).addLease env m.chaddr y
      (grantedTime s.config m.requestedTime)).2 ≠ none := addLease_ne_none _ _ _ hy hi hmatch
  obtain ⟨j, hadd⟩ := Option.ne_none_iff_exists'.mp hsome
  have hins := addLease_inserted hadd
  have hlt : j < s.config.maxLeases := hins.lt
  have hnew : SameNames m s₀ ((acknowledged env s m y).addLease env m.chaddr y
      (grantedTime s.config m.requestedTime)).1 :=
    SameNames.addLease (s := acknowledged env s m y) hothers (Or.inl rfl) _
  have hleft := addLease_hostname hadd
  obtain ⟨hji, hunused⟩ := addLease_unused hadd hi (Or.inl hmatch)
  generalize ((acknowledged env s m y).addLease env m.chaddr y
    (grantedTime s.config m.requestedTime)).1 = s' at hins hnew hleft ⊢
  constructor
  · refine ⟨j, hconfig ▸ hlt, ?_⟩
    rw [setHostname_yiaddr, hins.address]
  · intro k hk hkaddr
    rw [setHostname_yiaddr] at hkaddr
    rw [setHostname_chaddr, hins.slot_eq hy (hconfig.symm ▸ hk) hkaddr]
    refine ⟨hins.client, ?_⟩
    rw [setHostname_leases]
    by_cases hij : j = i
    · rw [hij, Function.update_self]
    · rw [Function.update_of_ne hij, hleft]
      have hbefore : ∀ l < j, ¬Unused m.chaddr y (s.leases l) := fun l hl =>
        addLease_before (s := acknowledged env s m y) hadd hl
      exact hname j (Nat.lt_of_le_of_ne hji hij) hunused hbefore
  · apply hnew.setHostname
    by_cases hij : i = j
    · exact Or.inl (hij ▸ hins.client)
    · right
      rw [hins.cleared i hi hij hmatch]
      rfl

theorem findMac_first {mac : BitVec 48} {i : Nat} (h : s.findMac mac = some i) :
    ∀ k < i, (s.leases k).chaddr.mac ≠ mac := by
  rw [findMac, List.find?_range_eq_some] at h
  intro k hk
  simpa using h.2.2 k hk

/-- The slot that took a record takes it again: no slot before it has come to count as never
used. -/
theorem addLease_before_again {lease j k : Nat}
    (hadd : (s.addLease env m.chaddr y lease).2 = some j) (hk : k < j) :
    ¬Unused m.chaddr y ((s.addLease env m.chaddr y lease).1.leases k) := by
  have hins := addLease_inserted hadd
  have hbefore := addLease_before hadd hk
  have hno : clearMatches m.chaddr y (s.leases k) = false := by
    rw [← Bool.not_eq_true]
    exact fun hmatch => hbefore (Or.inl hmatch)
  rw [hins.kept k (Nat.ne_of_lt hk) fun _ => hno]
  exact hbefore

/-- The record that was just made is the first one with the six bytes, if every other one is
cleared to make it or is of the router's own address. -/
theorem findMac_of_added {lease i j : Nat} (hadd : (s.addLease env m.chaddr y lease).2 = some j)
    (hmac : (s.addLease env m.chaddr y lease).1.findMac m.chaddr.mac = some i)
    (hlan : s.lanIpaddr ≠ some ((s.addLease env m.chaddr y lease).1.leases i).yiaddr)
    (hsix : ∀ k < s.config.maxLeases, (s.leases k).chaddr.mac = m.chaddr.mac →
      s.lanIpaddr = some (s.leases k).yiaddr ∨ clearMatches m.chaddr y (s.leases k) = true ∨
        (s.leases k).expires = 0) : i = j := by
  have hins := addLease_inserted hadd
  obtain ⟨hlt, hi⟩ := findMac_some hmac
  rw [addLease_config] at hlt
  have hfirst : i ≤ j := by
    by_contra hlate
    apply findMac_first hmac j (Nat.lt_of_not_le hlate)
    rw [hins.client]
  by_contra hij
  have hbefore := addLease_before hadd (Nat.lt_of_le_of_ne hfirst hij)
  have hno : clearMatches m.chaddr y (s.leases i) = false := by
    rw [← Bool.not_eq_true]
    exact fun hmatch => hbefore (Or.inl hmatch)
  rw [hins.kept i hij fun _ => hno] at hi hlan
  rcases hsix i hlt hi with hrouter | hmatch | hzero
  · exact hlan hrouter
  · exact hbefore (Or.inl hmatch)
  · exact hbefore (Or.inr hzero)

theorem not_acked_of_nak {time : Option Nat} (hreplies : s.replies = []) :
    (⟨.ack, m.chaddr, y, time, true⟩ : Reply) ∉ (s.sendNAK env m).replies := by
  intro hmem
  rw [sendNAK_replies, hreplies] at hmem
  cases List.mem_singleton.mp hmem

theorem acked_of_sendACK {y' : Addr} {time : Option Nat} (hreplies : s.replies = [])
    (hack : (⟨.ack, m.chaddr, y, time, true⟩ : Reply) ∈ (s.sendACK env m y').replies) :
    y = y' ∧ env.sendOk s.replies.length = true := by
  rw [sendACK_replies, hreplies] at hack
  obtain ⟨-, -, hy, -, hsent⟩ := Reply.mk.inj (List.mem_singleton.mp hack)
  rw [hreplies]
  exact ⟨hy, hsent.symm⟩

theorem grantUnrecorded_named {s₀ : Server} {acked : Server → Nat → Addr} {y' : Addr}
    {time : Option Nat} (hconfig : s.config = s₀.config) (hothers : SameNames m s₀ s)
    (hreplies : s.replies = [])
    (hacked : (∀ s' i, acked s' i = y') ∨ ∀ s' i, acked s' i = (s'.leases i).yiaddr)
    (hsix : ∀ k < s.config.maxLeases, (s.leases k).chaddr.mac = m.chaddr.mac →
      s.lanIpaddr = some (s.leases k).yiaddr ∨ clearMatches m.chaddr y' (s.leases k) = true ∨
        (s.leases k).expires = 0)
    (hack : (⟨.ack, m.chaddr, y, time, true⟩ : Reply) ∈
      (s.grantUnrecorded env m (m.findOption dhcpHostName) y' acked).replies) :
    Named s₀ (s.grantUnrecorded env m (m.findOption dhcpHostName) y' acked) m y := by
  rcases grantUnrecorded_cases env s m (m.findOption dhcpHostName) y' acked
    with ⟨s', -, hsame, hnak⟩ | ⟨j, hadd, -, ⟨i, hfound, hgrant⟩ | hnak⟩
  · rw [hnak] at hack
    exact absurd hack (not_acked_of_nak (hsame.trans hreplies))
  · rw [hgrant] at hack ⊢
    obtain ⟨-, hown⟩ := findLeaseByChaddr_some hfound
    have hlan := hown.lan
    rw [addLease_lanIpaddr] at hlan
    have hij : i = j := findMac_of_added hadd (findMac_of_found hfound) hlan hsix
    have hins := addLease_inserted hadd
    have hy' := (addLease_some _ _ _ hadd).1
    have haddr : ((s.addLease env m.chaddr y' s.config.offerTime).1.leases i).yiaddr = y' := by
      rw [hij]
      exact hins.address
    have hsame : acked (s.addLease env m.chaddr y' s.config.offerTime).1 i = y' := by
      rcases hacked with hconst | hfield
      · exact hconst _ i
      · rw [hfield, haddr]
    rw [hsame] at hack ⊢
    obtain ⟨rfl, hsent⟩ := acked_of_sendACK ((addLease_replies _ _ _).trans hreplies) hack
    apply sendACK_named
    · rw [addLease_config, hconfig]
    · exact hothers.addLease (Or.inl rfl) _
    · exact hown.lt
    · exact hy'
    · exact haddr
    · exact hsent
    · intro k hk hunused
      exact absurd hunused (addLease_before_again hadd (hij ▸ hk))
  · rw [hnak] at hack
    refine absurd hack (not_acked_of_nak ?_)
    have hkeeps : SearchKeeps env false
        (SameFrame (s.addLease env m.chaddr y' s.config.offerTime).1) := sameFrame_searchKeeps _
    rw [(hkeeps.findLeaseByChaddr (SameFrame.refl _) m.chaddr).replies, addLease_replies, hreplies]

theorem handleRequest_recorded_named {s₀ : Server} {i : Nat} {time : Option Nat}
    (hconfig : s.config = s₀.config) (hothers : SameNames m s₀ s) (hreplies : s.replies = [])
    (hi : i < s.config.maxLeases) (hy : (s.leases i).yiaddr ≠ 0#32)
    (hname : ∀ k < i, Unused m.chaddr (s.leases i).yiaddr (s.leases k) →
      (∀ l < k, ¬Unused m.chaddr (s.leases i).yiaddr (s.leases l)) →
      nameLeft m.chaddr (s.leases i).yiaddr (s.leases k) = m.hostname)
    (hack : (⟨.ack, m.chaddr, y, time, true⟩ : Reply) ∈
      (s.handleRequest env m (some i)).replies) :
    Named s₀ (s.handleRequest env m (some i)) m y := by
  rw [handleRequest_recorded] at hack ⊢
  have hread : (s.requestOptions m).1.replies = [] := hreplies
  rcases answerRecorded_cases env (s.requestOptions m).1 m (m.findOption dhcpRequestedIp)
      (m.findOption dhcpServerId) i with hsent | hnak | hsame
  · rw [hsent] at hack ⊢
    obtain ⟨rfl, hok⟩ := acked_of_sendACK hread hack
    exact sendACK_named hconfig hothers hi hy rfl hok hname
  · rw [hnak] at hack
    exact absurd hack (not_acked_of_nak hread)
  · rw [hsame] at hack
    have hnone : (⟨.ack, m.chaddr, y, time, true⟩ : Reply) ∈ (s.requestOptions m).1.replies := hack
    rw [hread] at hnone
    cases hnone

theorem handleRequest_unrecorded_named {s₀ : Server} {time : Option Nat}
    (hconfig : s.config = s₀.config) (hothers : SameNames m s₀ s) (hreplies : s.replies = [])
    (hsix : ∀ y', requestTarget s m = some y' → ∀ k < s.config.maxLeases,
      (s.leases k).chaddr.mac = m.chaddr.mac →
      s.lanIpaddr = some (s.leases k).yiaddr ∨ clearMatches m.chaddr y' (s.leases k) = true ∨
        (s.leases k).expires = 0)
    (hack : (⟨.ack, m.chaddr, y, time, true⟩ : Reply) ∈
      (s.handleRequest env m none).replies) :
    Named s₀ (s.handleRequest env m none) m y := by
  rw [handleRequest_unrecorded] at hack ⊢
  have hread : (s.requestOptions m).1.replies = [] := hreplies
  cases htarget : requestTarget s m with
  | none =>
      have htarget' : requestTarget (s.requestOptions m).1 m = none := htarget
      rcases answerUnrecorded_of_no_target env htarget' (m.findOption dhcpHostName) with
        hsame | hnak
      · rw [hsame, hread] at hack
        cases hack
      · rw [hnak] at hack
        exact absurd hack (not_acked_of_nak hread)
  | some y' =>
      have htarget' : requestTarget (s.requestOptions m).1 m = some y' := htarget
      obtain ⟨acked, hacked, hgrant⟩ :=
        answerUnrecorded_of_target env htarget' (m.findOption dhcpHostName)
      rw [hgrant] at hack ⊢
      exact grantUnrecorded_named hconfig hothers hread hacked (hsix y' htarget) hack

/-- The other slots with the six bytes, once the client has been looked up in vain. -/
theorem lookedUp_six (h : Settled s m) (hnone : (lookedUp env s m).2 = none) {y' : Addr}
    (htarget : requestTarget s m = some y') :
    ∀ k < (lookedUp env s m).1.config.maxLeases,
      ((lookedUp env s m).1.leases k).chaddr.mac = m.chaddr.mac →
      (lookedUp env s m).1.lanIpaddr = some ((lookedUp env s m).1.leases k).yiaddr ∨
      clearMatches m.chaddr y' ((lookedUp env s m).1.leases k) = true ∨
        ((lookedUp env s m).1.leases k).expires = 0 := by
  intro k
  unfold lookedUp at hnone ⊢
  rcases findLeaseByChaddr_cases env (s.option m dhcpMessageType).1 m.chaddr with
    ⟨i, -, -, hfound⟩ | ⟨hmac, hfound⟩ | ⟨i, hmac, hlan, hfound⟩
  · rw [hfound] at hnone
    cases hnone
  · rw [hfound]
    intro hk hsix
    exact absurd hsix (findMac_none hmac k hk)
  · rw [hfound]
    dsimp only
    rw [addLease_config, addLease_lanIpaddr]
    intro hk hsix
    rcases @addLease_slot env (s.option m dhcpMessageType).1 blankChaddr
        ((s.option m dhcpMessageType).1.leases i).yiaddr
        (s.option m dhcpMessageType).1.config.conflictTime k with hkept | hempty | ⟨-, hnew⟩
    · rw [hkept] at hsix ⊢
      have hold := h.unrecorded (fun l hl => by
        obtain rfl := Option.some.inj (hl.symm.trans hmac)
        exact hlan) y' htarget k hk hsix
      exact hold.imp id Or.inl
    · rw [hempty]
      exact Or.inr (Or.inr rfl)
    · rw [hnew]
      exact Or.inl hlan

theorem dispatch_named {time : Option Nat} (h : Settled s m) (htype : m.type = some .request)
    (hreplies : s.replies = [])
    (hack : (⟨.ack, m.chaddr, y, time, true⟩ : Reply) ∈ (s.dispatch env m).replies) :
    Named s (s.dispatch env m) m y := by
  by_cases hmagic : m.readBytes 236 4 = dhcpMagic
  · rw [dispatch_request hmagic htype] at hack ⊢
    have hframe : SameFrame s (lookedUp env s m).1 := lookedUp_frame
    cases hfound : (lookedUp env s m).2 with
    | none =>
        rw [hfound] at hack
        apply handleRequest_unrecorded_named hframe.config _ (hframe.replies.trans hreplies) _ hack
        · have hread : SameNames m s (s.option m dhcpMessageType).1 := SameNames.of_leases rfl
          exact hread.findLeaseByChaddr m.chaddr
        · intro y' htarget
          rw [requestTarget_congr hframe.config] at htarget
          exact lookedUp_six h hfound htarget
    | some i =>
        obtain ⟨hstate, hown⟩ := lookedUp_some hfound
        have hmac : s.findMac m.chaddr.mac = some i :=
          findMac_of_found (s := (s.option m dhcpMessageType).1) hfound
        obtain ⟨hy, hname⟩ := h.recorded i hmac hown.lan
        rw [hfound, hstate] at hack
        rw [hstate]
        exact handleRequest_recorded_named rfl (SameNames.of_leases rfl) hreplies hown.lt hy hname
          hack
  · rw [dispatch_of_not_magic hmagic, hreplies] at hack
    cases hack

theorem step_namesLease (s : Server) (e : Event) (h : AcknowledgesSettled s e) :
    NamesLease s e := by
  cases e with
  | packet env m =>
      intro y hacked
      have hsettled := h y hacked
      obtain ⟨htype, time, hack⟩ := hacked
      cases hhung : s.hung with
      | true =>
          unfold step at hack
          dsimp only at hack
          rw [hhung] at hack
          cases hack
      | false =>
          rw [step_packet hhung] at hack ⊢
          have hidle : Settled { s with probes := 0, replies := [] } m :=
            ⟨hsettled.recorded, hsettled.unrecorded⟩
          obtain ⟨hpresent, hclient, hothers⟩ := dispatch_named hidle htype rfl hack
          exact ⟨hpresent, hclient, hothers⟩
  | writeLeases => trivial
  | reload env config lanIpaddr lanNetmask file => trivial

/-- Along every run whose acknowledged requests are settled, they leave their names. -/
theorem run_namesLease (env : Env) (config : ServerConfig) (lanIpaddr : Option Addr)
    (lanNetmask : Addr) (file : List DhcpOfferedAddr) (events : List Event)
    (h : Along step AcknowledgesSettled
      (Server.boot env config lanIpaddr lanNetmask file) events) :
    Along step NamesLease (Server.boot env config lanIpaddr lanNetmask file) events :=
  h.mono step_namesLease

/-- A client renews 192.168.1.`host` and gives its name, "pc". -/
def renewNamed (mac : BitVec 48) (host : UInt8) : DhcpMessage :=
  DhcpMessage.ofOptions mac (0xc0a80100#32 ||| BitVec.ofNat 32 host.toNat)
    [0x35, 1, 3, 0x0c, 2, 0x70, 0x63, 0xff]

/-- A client in the first slot. -/
theorem run_namesLease_first_slot :
    Along step NamesLease
      (Server.boot calm wideConfig (some 0xc0a80101#32) 0xffff0000#32
        [⟨⟨0x020000000001#48, 0#80⟩, 0xc0a80105#32, 600, []⟩])
      [.packet calm (renewNamed 0x020000000001#48 5)] := by
  apply run_namesLease calm wideConfig (some 0xc0a80101#32) 0xffff0000#32
    [⟨⟨0x020000000001#48, 0#80⟩, 0xc0a80105#32, 600, []⟩]
    [.packet calm (renewNamed 0x020000000001#48 5)]
  have hmac : fiveLeased.findMac (renewNamed 0x020000000001#48 5).chaddr.mac = some 0 := by
    decide +kernel
  have hlan : fiveLeased.lanIpaddr ≠ some (fiveLeased.leases 0).yiaddr := by decide +kernel
  refine ⟨fun _ _ => ⟨fun i hi _ => ?_, fun hall => ?_⟩, trivial⟩
  · obtain rfl := Option.some.inj (hi.symm.trans hmac)
    exact ⟨by decide +kernel, fun k hk => absurd hk (Nat.not_lt_zero k)⟩
  · exact absurd (hall 0 hmac) hlan

/-- Three clients; the first two have addresses that the mask 255.255.255.0 makes one. -/
def threeClients : List DhcpOfferedAddr :=
  twoNetworks ++ [⟨⟨0x020000000003#48, 0#80⟩, 0xc0a80109#32, 600, []⟩]

/-- The mask is changed, the first client renews and frees the second slot, and the third client's
lease moves there while its name goes to the third. -/
theorem run_renewal_loses_name :
    ¬Along step NamesLease
      (Server.boot calm wideConfig (some 0xc0a80101#32) 0xffff0000#32 threeClients)
      [.reload calm wideConfig (some 0xc0a80101#32) 0xffffff00#32 threeClients,
        .packet calm (renewNamed 0x020000000001#48 5),
        .packet calm (renewNamed 0x020000000003#48 9)] := by
  intro h
  have hnamed := h.2.2.1 0xc0a80109#32 ⟨by decide +kernel, some 86400, by decide +kernel⟩
  have hname := (hnamed.client 1 (by decide +kernel) (by decide +kernel)).2
  revert hname
  decide +kernel

end Xwr100.Udhcpd
