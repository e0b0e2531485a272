import Xwr100.Udhcpd.Table
import Mathlib.Logic.Relation

/-!
# What a packet can do to the lease table

The dispatch has many paths but few ways to touch the table or to reply.  `Act` lists
them, each with what the code has established when it gets there; `dispatch_acts`
says that processing a packet is a sequence of acts.  Invariants of the table are then
proved act by act.
-/

namespace Xwr100.Udhcpd

open Lib Relation

variable {env : Env} {m : DhcpMessage} {s s' : Server}

/-! ## Facts the code establishes -/

structure Quiet (s s' : Server) : Prop where
  config : s'.config = s.config
  lanIpaddr : s'.lanIpaddr = s.lanIpaddr
  leases : s'.leases = s.leases
  replies : s'.replies = s.replies

/-- No slot is found by the six bytes. -/
def NoRecord (s : Server) (mac : BitVec 48) : Prop :=
  ∀ i < s.config.maxLeases, (s.leases i).chaddr.mac ≠ mac

def Vacant (env : Env) (s : Server) (y : Addr) : Prop :=
  ∀ i < s.config.maxLeases, (s.leases i).yiaddr = y → (s.leases i).expires < env.sysTime

/-- Slot `i` is found by the six bytes and holds `y`, not the router's own address. -/
structure Owns (s : Server) (mac : BitVec 48) (i : Nat) (y : Addr) : Prop where
  lt : i < s.config.maxLeases
  mac : (s.leases i).chaddr.mac = mac
  yiaddr : (s.leases i).yiaddr = y
  lan : s.lanIpaddr ≠ some y

/-- The client has a lease of an address other than the router's. -/
def Recorded (s : Server) (mac : BitVec 48) : Prop := ∃ i y, Owns s mac i y

/-- What `find_address` checks of an address; the lower bound is lost only when the
search wraps around. -/
structure Assignable (s : Server) (y : Addr) : Prop where
  start_le : s.config.end_ ≠ 0xffffffff#32 → s.config.start ≤ y
  le_end : y ≤ s.config.end_
  low_ne_zero : y &&& 0xff#32 ≠ 0#32
  low_ne_ff : y &&& 0xff#32 ≠ 0xff#32
  lan : s.lanIpaddr ≠ some y

/-- The type of a message, if it has one. -/
def DhcpMessage.type (m : DhcpMessage) : Option MessageType :=
  (m.findOption dhcpMessageType).map fun pos => MessageType.ofByte (m.mem pos)

def DhcpMessage.requested (m : DhcpMessage) : Option Addr :=
  (m.findOption dhcpRequestedIp).map m.readAddr

/-- The address a request without a record asks this server for: in SELECTING state the
requested one if the server identifier is ours, in INIT-REBOOT state the requested one, else
`ciaddr`. -/
def requestTarget (s : Server) (m : DhcpMessage) : Option Addr :=
  match m.findOption dhcpServerId with
  | some pos => if m.readAddr pos = s.config.server then m.requested else none
  | none =>
      match m.requested with
      | some y => some y
      | none => if m.ciaddr ≠ 0#32 then some m.ciaddr else none

theorem requestTarget_congr (h : s'.config = s.config) :
    requestTarget s' m = requestTarget s m := by
  unfold requestTarget
  rw [h]

theorem inRange_congr (h : s'.config = s.config) (y : Addr) : s'.inRange y = s.inRange y := by
  unfold Server.inRange
  rw [h]

/-! ## Acts -/

/-- What a lookup or an address search may do: reserve the router's own address, or an
assignable address that answered the probe. -/
inductive Prep (env : Env) : Server → Server → Prop
  | quiet {s s' : Server} (h : Quiet s s') : Prep env s s'
  | reserve {s : Server} (y : Addr)
      (h : s.lanIpaddr = some y ∨ (Assignable s y ∧ Vacant env s y)) :
      Prep env s (s.addLease env blankChaddr y s.config.conflictTime).1

/-- The address an offer may carry: the client's own, one that passed the search, or the
requested one, which is in range and vacant but otherwise unchecked. -/
def Offerable (env : Env) (m : DhcpMessage) (s₀ s : Server) (y : Addr) : Prop :=
  (∃ i, Owns s m.chaddr.mac i y) ∨
  (NoRecord s m.chaddr.mac ∧ Vacant env s y ∧
    (Assignable s y ∨
      (¬ Recorded s₀ m.chaddr.mac ∧ m.requested = some y ∧ s.inRange y = true)))

/-- The ways packet `m` can change the table or send a reply; `s₀` is the server the
packet found. -/
inductive Act (env : Env) (m : DhcpMessage) (s₀ : Server) : Server → Server → Prop
  | prep {s s' : Server} (h : Prep env s s') : Act env m s₀ s s'
  | offer {s s' : Server} (y : Addr) (j time : Nat) (sent : Bool)
      (htype : m.type = some .discover) (hy : Offerable env m s₀ s y)
      (hadd : (s.addLease env m.chaddr y s.config.offerTime).2 = some j)
      (hquiet : Quiet (s.addLease env m.chaddr y s.config.offerTime).1 s') :
      Act env m s₀ s
        { s' with replies := s'.replies ++ [⟨.offer, m.chaddr, y, some time, sent⟩] }
  | offerFull {s : Server} (y : Addr)
      (htype : m.type = some .discover) (hy : Offerable env m s₀ s y) :
      Act env m s₀ s (s.addLease env m.chaddr y s.config.offerTime).1
  | record {s : Server} (y : Addr)
      (htype : m.type = some .request) (hno : NoRecord s m.chaddr.mac)
      (hno₀ : ¬ Recorded s₀ m.chaddr.mac) (htarget : requestTarget s m = some y)
      (hrange : s.inRange y = true) :
      Act env m s₀ s (s.addLease env m.chaddr y s.config.offerTime).1
  | ack {s : Server} (i : Nat) (y : Addr) (time : Nat)
      (htype : m.type = some .request) (hown : Owns s m.chaddr.mac i y)
      (htime : time ≤ s.config.lease) :
      Act env m s₀ s
        (({ s with replies := s.replies ++ [⟨.ack, m.chaddr, y, some time, true⟩] } :
          Server).addLease env m.chaddr y time).1
  | ackLost {s : Server} (i : Nat) (y : Addr) (time : Nat)
      (htype : m.type = some .request) (hown : Owns s m.chaddr.mac i y) :
      Act env m s₀ s
        { s with replies := s.replies ++ [⟨.ack, m.chaddr, y, some time, false⟩] }
  | nak {s : Server} (sent : Bool) (htype : m.type = some .request) :
      Act env m s₀ s { s with replies := s.replies ++ [⟨.nak, m.chaddr, 0#32, none, sent⟩] }
  | inform {s : Server} (sent : Bool) (htype : m.type = some .inform) :
      Act env m s₀ s { s with replies := s.replies ++ [⟨.ack, m.chaddr, 0#32, none, sent⟩] }
  | hostname {s : Server} (i : Nat) (name : List UInt8) (htype : m.type = some .request) :
      Act env m s₀ s (s.setSlot i { s.leases i with hostname := name })
  | decline {s : Server} (i : Nat) (y : Addr) (expires : Nat)
      (htype : m.type = some .decline) (hown : Owns s m.chaddr.mac i y) :
      Act env m s₀ s (s.setSlot i { s.leases i with chaddr := blankChaddr, expires := expires })
  | release {s : Server} (i : Nat) (y : Addr)
      (htype : m.type = some .release) (hown : Owns s m.chaddr.mac i y) :
      Act env m s₀ s (s.setSlot i { s.leases i with expires := env.sysTime })

abbrev Preps (env : Env) := ReflTransGen (Prep env)

abbrev Acts (env : Env) (m : DhcpMessage) (s₀ : Server) := ReflTransGen (Act env m s₀)

theorem Preps.acts {s₀ : Server} (h : Preps env s s') : Acts env m s₀ s s' :=
  ReflTransGen.lift id (fun _ _ hp => Act.prep hp) _ _ h

theorem Quiet.preps (h : Quiet s s') : Preps env s s' := ReflTransGen.single (Prep.quiet h)

/-! ## Preparations -/

theorem Quiet.vacant (h : Quiet s s') {y : Addr} (hv : Vacant env s y) : Vacant env s' y := by
  unfold Vacant
  rw [h.config, h.leases]
  exact hv

theorem Quiet.noRecord (h : Quiet s s') {mac : BitVec 48} (hno : NoRecord s mac) :
    NoRecord s' mac := by
  unfold NoRecord
  rw [h.config, h.leases]
  exact hno

theorem Quiet.assignable (h : Quiet s s') {y : Addr} (ha : Assignable s y) :
    Assignable s' y := by
  obtain ⟨hs, he, hz, hf, hl⟩ := ha
  constructor
  · rw [h.config]
    exact hs
  · rw [h.config]
    exact he
  · exact hz
  · exact hf
  · rw [h.lanIpaddr]
    exact hl

theorem Preps.config (h : Preps env s s') : s'.config = s.config := by
  induction h with
  | refl => rfl
  | tail _ hp ih =>
      cases hp with
      | quiet hq => rw [hq.config, ih]
      | reserve y _ => rw [Server.addLease_config, ih]

theorem Preps.lanIpaddr (h : Preps env s s') : s'.lanIpaddr = s.lanIpaddr := by
  induction h with
  | refl => rfl
  | tail _ hp ih =>
      cases hp with
      | quiet hq => rw [hq.lanIpaddr, ih]
      | reserve y _ => rw [Server.addLease_lanIpaddr, ih]

/-- A reservation is made for nobody, so it keeps the table's keys distinct. -/
theorem Preps.tableOk (h : Preps env s s') (hok : TableOk s) : TableOk s' := by
  induction h with
  | refl => exact hok
  | tail _ hp ih =>
      cases hp with
      | quiet hq => exact ih.of_eq hq.config hq.leases
      | reserve y _ => exact ih.addLease _ _ _ fun _ _ _ hne => absurd rfl hne

theorem NoRecord.addLease_blank {mac : BitVec 48} (h : NoRecord s mac) (hmac : mac ≠ 0#48)
    (y : Addr) (lease : Nat) : NoRecord (s.addLease env blankChaddr y lease).1 mac := by
  intro i hi
  rw [Server.addLease_config] at hi
  rcases Server.addLease_slot blankChaddr y lease i with hkept | hempty | ⟨hc, -⟩
  · rw [hkept]
    exact h i hi
  · rw [hempty]
    exact hmac.symm
  · rw [hc]
    exact hmac.symm

theorem Preps.noRecord {mac : BitVec 48} (h : Preps env s s') (hno : NoRecord s mac)
    (hmac : mac ≠ 0#48) : NoRecord s' mac := by
  induction h with
  | refl => exact hno
  | tail _ hp ih =>
      cases hp with
      | quiet hq => exact hq.noRecord ih
      | reserve y _ => exact ih.addLease_blank hmac y _

/-! ## Lookups -/

namespace Server

theorem option_quiet (code : UInt8) : Quiet s (s.option m code).1 := ⟨rfl, rfl, rfl, rfl⟩

theorem option_snd (code : UInt8) : (s.option m code).2 = m.findOption code :=
  getOption_fst m code s.vizioDevice

theorem isLanIPAddr_preps (y : Addr) : Preps env s (s.isLanIPAddr env y).1 := by
  unfold isLanIPAddr
  split
  · rename_i hlan
    exact ReflTransGen.single (Prep.reserve y (Or.inl hlan))
  · exact ReflTransGen.refl

theorem isLanIPAddr_false {y : Addr} (h : (s.isLanIPAddr env y).2 = false) :
    (s.isLanIPAddr env y).1 = s ∧ s.lanIpaddr ≠ some y := by
  unfold isLanIPAddr at h ⊢
  split
  · rename_i hlan
    simp [hlan] at h
  · rename_i hlan
    exact ⟨rfl, hlan⟩

theorem findLeaseByChaddr_some {c : Chaddr} {i : Nat}
    (h : (s.findLeaseByChaddr env c).2 = some i) :
    (s.findLeaseByChaddr env c).1 = s ∧ Owns s c.mac i (s.leases i).yiaddr := by
  unfold findLeaseByChaddr at h ⊢
  cases hfind : s.findMac c.mac with
  | none => simp [hfind] at h
  | some k =>
      simp only [hfind] at h ⊢
      obtain ⟨hlt, hmac⟩ := findMac_some hfind
      cases hlan : s.isLanIPAddr env (s.leases k).yiaddr with
      | mk s₁ isLan =>
          cases isLan with
          | true => simp [hlan] at h
          | false =>
              simp only [hlan, Option.some.injEq] at h ⊢
              subst h
              have hfalse : (s.isLanIPAddr env (s.leases k).yiaddr).2 = false := by rw [hlan]
              obtain ⟨hstate, hne⟩ := isLanIPAddr_false hfalse
              rw [hlan] at hstate
              exact ⟨hstate, hlt, hmac, rfl, hne⟩

/-- Without a usable lease the client has no record afterwards: a record of the router's
own address has been turned into a reservation. -/
theorem findLeaseByChaddr_none {c : Chaddr} (hok : TableOk s) (hmac : c.mac ≠ 0#48)
    (h : (s.findLeaseByChaddr env c).2 = none) :
    Preps env s (s.findLeaseByChaddr env c).1 ∧
    NoRecord (s.findLeaseByChaddr env c).1 c.mac ∧ ¬ Recorded s c.mac := by
  unfold findLeaseByChaddr at h ⊢
  cases hfind : s.findMac c.mac with
  | none =>
      have hno : NoRecord s c.mac := findMac_none hfind
      refine ⟨ReflTransGen.refl, hno, ?_⟩
      rintro ⟨i, y, hown⟩
      exact hno i hown.lt hown.mac
  | some k =>
      simp only [hfind] at h ⊢
      obtain ⟨hlt, hk⟩ := findMac_some hfind
      have hy : (s.leases k).yiaddr ≠ 0#32 := hok.yiaddr_ne hlt (by rw [hk]; exact hmac)
      by_cases hlan : s.lanIpaddr = some (s.leases k).yiaddr
      · have hcall : s.isLanIPAddr env (s.leases k).yiaddr =
            ((s.addLease env blankChaddr (s.leases k).yiaddr s.config.conflictTime).1, true) := by
          simp [isLanIPAddr, hlan]
        simp only [hcall]
        refine ⟨ReflTransGen.single (Prep.reserve _ (Or.inl hlan)), ?_, ?_⟩
        · intro i hi heq
          rw [addLease_config] at hi
          by_cases hret :
              (s.addLease env blankChaddr (s.leases k).yiaddr s.config.conflictTime).2 = some i
          · rw [(addLease_some _ _ _ hret).2.2.1] at heq
            exact hmac heq.symm
          · rw [addLease_other _ _ _ hy hret] at heq
            split at heq
            · exact hmac heq.symm
            · rename_i hnot
              have hik : i = k := hok.mac_inj hi hlt hmac heq hk
              rw [hik] at hnot
              simp [hlt, clearMatches, hy] at hnot
        · rintro ⟨i, y, hown⟩
          have hik : i = k := hok.mac_inj hown.lt hlt hmac hown.mac hk
          have hyi := hown.yiaddr
          rw [hik] at hyi
          exact hown.lan (by rw [hlan, hyi])
      · simp [isLanIPAddr, hlan] at h

/-! ## The address search -/

theorem checkIp_spec {y : Addr} (ha : Assignable s y) (hv : Vacant env s y) :
    Preps env s (s.checkIp env y).1 ∧
    ((s.checkIp env y).2 = false → Quiet s (s.checkIp env y).1) := by
  have hlan : s.isLanIPAddr env y = (s, false) := by simp [isLanIPAddr, ha.lan]
  have hquiet : Quiet s { s with probes := s.probes + 1 } := ⟨rfl, rfl, rfl, rfl⟩
  unfold checkIp
  simp only [hlan]
  split
  · refine ⟨?_, by simp⟩
    exact hquiet.preps.tail
      (Prep.reserve y (Or.inr ⟨hquiet.assignable ha, hquiet.vacant hv⟩))
  · exact ⟨hquiet.preps, fun _ => hquiet⟩

/-- An address whose first record is gone or expired is vacant, because no other slot has it. -/
theorem leaseTaken_false {checkExpired : Bool} {y : Addr} (hok : TableOk s) (hy : y ≠ 0#32)
    (h : s.leaseTaken env checkExpired y = false) : Vacant env s y := by
  unfold leaseTaken at h
  intro i hi heq
  cases hfind : s.findLeaseByYiaddr y with
  | none => exact absurd heq (findLeaseByYiaddr_none hfind i hi)
  | some k =>
      obtain ⟨hlt, hk⟩ := findLeaseByYiaddr_some hfind
      have hik : i = k := hok.yiaddr_inj hi hlt (heq.trans hk.symm) (by rw [heq]; exact hy)
      rw [hfind] at h
      simp [leaseExpired] at h
      rw [hik]
      exact h.2

theorem tryAddress_spec {checkExpired : Bool} {y : Addr} (hok : TableOk s)
    (hlo : s.config.end_ ≠ 0xffffffff#32 → s.config.start ≤ y) (hhi : y ≤ s.config.end_) :
    Preps env s (s.tryAddress env checkExpired y).1 ∧
    ((s.tryAddress env checkExpired y).2 = true →
      Assignable (s.tryAddress env checkExpired y).1 y ∧
      Vacant env (s.tryAddress env checkExpired y).1 y) := by
  unfold tryAddress
  by_cases hz : y &&& 0xff#32 = 0#32
  · simp only [hz, if_true]
    exact ⟨ReflTransGen.refl, by simp⟩
  by_cases hf : y &&& 0xff#32 = 0xff#32
  · simp only [hf, if_true]
    exact ⟨ReflTransGen.refl, by simp⟩
  simp only [hz, hf, if_false]
  cases hlan : s.isLanIPAddr env y with
  | mk s₁ isLan =>
      have hpreps : Preps env s s₁ := by
        have h : Preps env s (s.isLanIPAddr env y).1 := isLanIPAddr_preps y
        rwa [hlan] at h
      cases isLan with
      | true => exact ⟨hpreps, by simp⟩
      | false =>
          have hfalse : (s.isLanIPAddr env y).2 = false := by rw [hlan]
          obtain ⟨hstate, hne⟩ := isLanIPAddr_false hfalse
          rw [hlan] at hstate
          simp only at hstate
          subst hstate
          have hassign : Assignable s₁ y := ⟨hlo, hhi, hz, hf, hne⟩
          have hy : y ≠ 0#32 := by
            rintro rfl
            exact hz (by decide)
          by_cases htaken : s₁.leaseTaken env checkExpired y = true
          · simp only [htaken, if_true]
            exact ⟨ReflTransGen.refl, by simp⟩
          · have hvac := leaseTaken_false hok hy (Bool.eq_false_iff.mpr htaken)
            obtain ⟨hp, hq⟩ := checkIp_spec hassign hvac
            simp only [htaken]
            refine ⟨hp, fun htrue => ?_⟩
            have hquiet := hq (by simpa using htrue)
            exact ⟨hquiet.assignable hassign, hquiet.vacant hvac⟩

theorem findAddressLoop_spec {checkExpired : Bool} (fuel : Nat) (s : Server) (y : Addr)
    (hok : TableOk s) (hlo : s.config.end_ ≠ 0xffffffff#32 → s.config.start ≤ y) :
    Preps env s (findAddressLoop env checkExpired fuel s y).1 ∧
    ((findAddressLoop env checkExpired fuel s y).2 ≠ 0#32 →
      Assignable (findAddressLoop env checkExpired fuel s y).1
        (findAddressLoop env checkExpired fuel s y).2 ∧
      Vacant env (findAddressLoop env checkExpired fuel s y).1
        (findAddressLoop env checkExpired fuel s y).2) := by
  induction fuel generalizing s y with
  | zero =>
      exact ⟨Quiet.preps ⟨rfl, rfl, rfl, rfl⟩, fun h => absurd rfl h⟩
  | succ fuel ih =>
      unfold findAddressLoop
      by_cases hhi : y ≤ s.config.end_
      · simp only [hhi, if_true]
        obtain ⟨hp, hgood⟩ := @tryAddress_spec env s checkExpired y hok hlo hhi
        cases htry : s.tryAddress env checkExpired y with
        | mk s₁ found =>
            rw [htry] at hp hgood
            cases found with
            | true => exact ⟨hp, fun _ => hgood rfl⟩
            | false =>
                have hlo' : s₁.config.end_ ≠ 0xffffffff#32 → s₁.config.start ≤ y + 1 := by
                  rw [hp.config]
                  intro hne
                  have hle := hlo hne
                  bv_omega
                obtain ⟨hp', hgood'⟩ := ih s₁ (y + 1) (hp.tableOk hok) hlo'
                exact ⟨hp.trans hp', hgood'⟩
      · simp only [hhi, if_false]
        exact ⟨ReflTransGen.refl, fun h => absurd rfl h⟩

theorem findAddress_spec {checkExpired : Bool} (hok : TableOk s) :
    Preps env s (s.findAddress env checkExpired).1 ∧
    ((s.findAddress env checkExpired).2 ≠ 0#32 →
      Assignable (s.findAddress env checkExpired).1 (s.findAddress env checkExpired).2 ∧
      Vacant env (s.findAddress env checkExpired).1 (s.findAddress env checkExpired).2) :=
  findAddressLoop_spec env.fuel s s.config.start hok fun _ => BitVec.le_refl _

end Server

end Xwr100.Udhcpd
