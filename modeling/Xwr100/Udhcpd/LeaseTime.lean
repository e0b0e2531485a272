import Xwr100.Udhcpd.Offers

/-!
# How long a lease lasts

The time stated in a reply, and the expiry recorded for it.  An acknowledgement states a time
within the configured bounds, but the expiry is a 32-bit sum; an offer may state what is left
of an earlier lease, which nothing bounds from above.
-/

namespace Xwr100.Udhcpd

open Server

variable {env : Env} {s : Server} {m : DhcpMessage} {yiaddr : Addr}

def DhcpMessage.requestedTime (m : DhcpMessage) : Option Nat :=
  (m.findOption dhcpLeaseTime).map fun pos => m.readBytes pos 4

/-- The time asked for, if it is within the bounds, or else the configured one. -/
def grantedTime (config : ServerConfig) : Option Nat → Nat
  | some time => if config.minLease ≤ time ∧ time ≤ config.lease then time else config.lease
  | none => config.lease

def WithinBounds (config : ServerConfig) (time : Nat) : Prop :=
  config.minLease ≤ time ∧ time ≤ config.lease

theorem grantedTime_within {config : ServerConfig} (hmin : config.minLease ≤ config.lease)
    (requested : Option Nat) : WithinBounds config (grantedTime config requested) := by
  cases requested with
  | none => exact ⟨hmin, Nat.le_refl _⟩
  | some time =>
      rw [grantedTime]
      by_cases hin : config.minLease ≤ time ∧ time ≤ config.lease
      · rw [if_pos hin]
        exact hin
      · rw [if_neg hin]
        exact ⟨hmin, Nat.le_refl _⟩

/-! ## Acknowledgements -/

theorem ackLeaseTime_eq :
    s.ackLeaseTime m =
      ((s.option m dhcpLeaseTime).1, grantedTime s.config m.requestedTime) := by
  rw [ackLeaseTime, option_snd, DhcpMessage.requestedTime]
  cases m.findOption dhcpLeaseTime with
  | none => rfl
  | some pos =>
      dsimp only [Option.map_some, grantedTime]
      congr 1
      split_ifs <;> omega

/-- The server once an acknowledgement has been handed to `send_packet`. -/
def acknowledged (env : Env) (s : Server) (m : DhcpMessage) (yiaddr : Addr) : Server :=
  { (s.option m dhcpLeaseTime).1 with
    replies := s.replies ++ [⟨.ack, m.chaddr, yiaddr,
      some (grantedTime s.config m.requestedTime), env.sendOk s.replies.length⟩] }

/-- An acknowledgement that goes out is followed by its record, one that does not is not. -/
theorem sendACK_eq :
    s.sendACK env m yiaddr =
      if env.sendOk s.replies.length = true then
        ((acknowledged env s m yiaddr).addLease env m.chaddr yiaddr
          (grantedTime s.config m.requestedTime)).1
      else acknowledged env s m yiaddr := by
  rw [sendACK, ackLeaseTime_eq]
  rfl

theorem sendACK_replies :
    (s.sendACK env m yiaddr).replies = s.replies ++ [⟨.ack, m.chaddr, yiaddr,
      some (grantedTime s.config m.requestedTime), env.sendOk s.replies.length⟩] := by
  rw [sendACK_eq]
  split
  · rw [addLease_replies]
    rfl
  · rfl

/-- An acknowledgement that goes out states a time within the bounds, and until it has passed the
slot that holds the address for the client is not expired. -/
def AckHonoured (env : Env) (s : Server) (m : DhcpMessage) (yiaddr : Addr) : Prop :=
  ∀ time, (s.sendACK env m yiaddr).replies =
      s.replies ++ [⟨.ack, m.chaddr, yiaddr, some time, true⟩] →
    WithinBounds s.config time ∧
    ∀ j < s.config.maxLeases, yiaddr ≠ 0#32 →
      ((s.sendACK env m yiaddr).leases j).chaddr = m.chaddr →
      ((s.sendACK env m yiaddr).leases j).yiaddr = yiaddr →
      ∀ later : Env, env.sysTime ≤ later.sysTime → later.sysTime ≤ env.sysTime + time →
        (s.sendACK env m yiaddr).leaseExpired later j = false

/-- If the acknowledgement goes out and is recorded, the expiry does not wrap around. -/
def AckFits (env : Env) (s : Server) (m : DhcpMessage) (yiaddr : Addr) : Prop :=
  env.sendOk s.replies.length = true → yiaddr ≠ 0#32 → ¬Unplaceable env s m.chaddr yiaddr →
    env.sysTime + grantedTime s.config m.requestedTime < UInt32.size

theorem add_mod_lt {n a b : Nat} (ha : a < n) (hb : b < n) (h : n ≤ a + b) : (a + b) % n < a := by
  rw [Nat.mod_eq_sub_mod h, Nat.mod_eq_of_lt] <;> omega

theorem ackHonoured_iff (hmin : s.config.minLease ≤ s.config.lease)
    (hlease : s.config.lease < UInt32.size) (htime : env.sysTime < UInt32.size) :
    AckHonoured env s m yiaddr ↔ AckFits env s m yiaddr := by
  have hwithin := grantedTime_within hmin m.requestedTime
  have hwrap : grantedTime s.config m.requestedTime < UInt32.size :=
    Nat.lt_of_le_of_lt hwithin.2 hlease
  constructor
  · intro h hsent hy hplace
    by_contra hlarge
    have hback := h (grantedTime s.config m.requestedTime)
    rw [sendACK_replies, hsent] at hback
    obtain ⟨-, hslot⟩ := hback rfl
    rw [sendACK_eq, if_pos hsent] at hslot
    cases hadd : ((acknowledged env s m yiaddr).addLease env m.chaddr yiaddr
        (grantedTime s.config m.requestedTime)).2 with
    | none =>
        have hfull := (addLease_eq_none_iff (s := acknowledged env s m yiaddr) hy).mp hadd
        exact hplace hfull
    | some j =>
        have hins := addLease_inserted hadd
        have hnow := hslot j hins.lt hy hins.client hins.address env (Nat.le_refl _)
          (Nat.le_add_right _ _)
        have hearly := add_mod_lt htime hwrap (Nat.le_of_not_lt hlarge)
        rw [leaseExpired, decide_eq_false_iff_not, hins.expires] at hnow
        exact hnow hearly
  · intro h time hreplies
    rw [sendACK_replies] at hreplies
    have hreply := List.singleton_inj.mp (List.append_cancel_left hreplies)
    obtain ⟨-, -, -, htimes, hsent⟩ := Reply.mk.inj hreply
    have htime := Option.some.inj htimes
    subst htime
    refine ⟨hwithin, ?_⟩
    intro j hj hy _ haddr later hfrom huntil
    rw [sendACK_eq, if_pos hsent] at haddr ⊢
    cases hadd : ((acknowledged env s m yiaddr).addLease env m.chaddr yiaddr
        (grantedTime s.config m.requestedTime)).2 with
    | none =>
        rw [addLease_leases_of_none hadd] at haddr
        have hfull := (addLease_eq_none_iff hy).mp hadd j hj
        exact absurd (Or.inl (clearMatches_of_yiaddr hy haddr)) hfull
    | some k =>
        have hins := addLease_inserted hadd
        have hjk := hins.slot_eq hy hj haddr
        have hfits := h hsent hy fun hfull => hfull k hins.lt hins.takes
        rw [leaseExpired, decide_eq_false_iff_not, hjk, hins.expires, Nat.mod_eq_of_lt hfits]
        omega

/-! ## Offers -/

def OfferBounded (env : Env) (s : Server) (m : DhcpMessage) : Prop :=
  ∀ r time, (s.sendOffer env m).1.replies = s.replies ++ [r] → r.leaseTime = some time →
    WithinBounds s.config time

/-- What is left of a lease of the client's own is not above the configured time, unless the
client asks for a time itself. -/
def OfferFits (env : Env) (s : Server) (m : DhcpMessage) : Prop :=
  ∀ i, (s.findLeaseByChaddr env m.chaddr).2 = some i → (s.leases i).yiaddr ≠ 0#32 →
    m.requestedTime = none → (s.leases i).expires - env.sysTime ≤ s.config.lease

/-- The time of an offer: the one granted to a request for a time, or else the initial one,
unless that is below the minimum. -/
theorem offerLeaseTime_snd (hmin : s.config.minLease ≤ s.config.lease) (initial : Nat) :
    (s.offerLeaseTime m initial).2 =
      if m.requestedTime = none ∧ s.config.minLease ≤ initial then initial
      else grantedTime s.config m.requestedTime := by
  rw [offerLeaseTime, option_snd, DhcpMessage.requestedTime]
  dsimp only
  cases m.findOption dhcpLeaseTime with
  | none =>
      dsimp only [Option.map_none, grantedTime]
      simp only [true_and]
      split_ifs <;> omega
  | some pos =>
      dsimp only [Option.map_some, grantedTime]
      simp only [reduceCtorEq, false_and, if_false]
      rcases Nat.le_total (m.readBytes pos 4) s.config.lease with hle | hle
      · simp only [Nat.min_eq_left hle]
        split_ifs <;> omega
      · simp only [Nat.min_eq_right hle]
        split_ifs <;> omega

/-- An offer is made of an address other than zero, and states the time that was made of the
initial one. -/
theorem sendOffer_reply {r : Reply} (h : (s.sendOffer env m).1.replies = s.replies ++ [r]) :
    (s.offerAddress env m).2.1 ≠ 0#32 ∧ ∃ out : Server, out.config = s.config ∧
      r.leaseTime = some (out.offerLeaseTime m (s.offerAddress env m).2.2).2 := by
  have hframe : SameFrame s (s.offerAddress env m).1 := offerAddress_frame
  have hsilent : ∀ {s' : Server}, s'.replies = s.replies → s'.replies ≠ s.replies ++ [r] := by
    intro s' hsame hreplies
    rw [hsame] at hreplies
    simp at hreplies
  rw [sendOffer] at h
  dsimp only at h
  split at h
  · exact absurd h (hsilent hframe.replies)
  · split at h
    · exact absurd h (hsilent hframe.replies)
    · rename_i hzero
      refine ⟨hzero, ?_⟩
      split at h
      · exact absurd h (hsilent (by rw [addLease_replies, hframe.replies]))
      · refine ⟨((s.offerAddress env m).1.addLease env m.chaddr (s.offerAddress env m).2.1
          (s.offerAddress env m).1.config.offerTime).1, by rw [addLease_config, hframe.config], ?_⟩
        dsimp only [sendPacket] at h
        rw [offerLeaseTime_replies, addLease_replies, hframe.replies] at h
        rw [← List.singleton_inj.mp (List.append_cancel_left h)]

/-- An offer to a client with a record starts from what is left of its lease. -/
theorem offerAddress_of_record {i : Nat} (h : (s.findLeaseByChaddr env m.chaddr).2 = some i) :
    s.offerAddress env m =
      (s, (s.leases i).yiaddr,
        if s.leaseExpired env i then s.config.lease else (s.leases i).expires - env.sysTime) := by
  obtain ⟨hstate, -⟩ := findLeaseByChaddr_some h
  rw [offerAddress]
  dsimp only
  rw [h, hstate]

theorem offerAddress_initial (h : (s.findLeaseByChaddr env m.chaddr).2 = none) :
    (s.offerAddress env m).2.2 = s.config.lease := by
  rw [offerAddress]
  dsimp only
  rw [h]

theorem offered_of_record {i : Nat} (hhung : s.hung = false)
    (h : (s.findLeaseByChaddr env m.chaddr).2 = some i) (hy : (s.leases i).yiaddr ≠ 0#32) :
    Offered env s m (s.leases i).yiaddr := by
  obtain ⟨-, hown⟩ := findLeaseByChaddr_some h
  rw [offered_iff, offerAddress_of_record h]
  refine ⟨hhung, rfl, hy, ?_⟩
  rw [ne_eq, addLease_eq_none_iff hy]
  exact fun hfull => hfull i hown.lt (Or.inl (clearMatches_of_yiaddr hy rfl))

theorem offerBounded_iff (hhung : s.hung = false) (hmin : s.config.minLease ≤ s.config.lease) :
    OfferBounded env s m ↔ OfferFits env s m := by
  have hwithin := grantedTime_within hmin m.requestedTime
  constructor
  · intro h i hi hy hrequested
    obtain ⟨time, sent, hreplies⟩ := offered_of_record hhung hi hy
    obtain ⟨-, out, hconfig, htime⟩ := sendOffer_reply hreplies
    have hbound := (h _ _ hreplies htime).2
    by_contra hlong
    have hlate : s.leaseExpired env i = false := by
      rw [leaseExpired, decide_eq_false_iff_not]
      omega
    rw [offerLeaseTime_snd (by rw [hconfig]; exact hmin), offerAddress_of_record hi, hlate,
      if_neg Bool.false_ne_true, hconfig] at hbound
    dsimp only at hbound
    rw [if_pos ⟨hrequested, by omega⟩] at hbound
    exact hlong hbound
  · intro h r time hreplies htime
    obtain ⟨hzero, out, hconfig, hreply⟩ := sendOffer_reply hreplies
    rw [htime] at hreply
    obtain rfl := Option.some.inj hreply
    rw [offerLeaseTime_snd (by rw [hconfig]; exact hmin), hconfig]
    by_cases hinitial : m.requestedTime = none ∧ s.config.minLease ≤ (s.offerAddress env m).2.2
    · rw [if_pos hinitial]
      refine ⟨hinitial.2, ?_⟩
      cases hfind : (s.findLeaseByChaddr env m.chaddr).2 with
      | none => exact Nat.le_of_eq (offerAddress_initial hfind)
      | some i =>
          rw [offerAddress_of_record hfind] at hzero ⊢
          have hfits := h i hfind hzero hinitial.1
          dsimp only
          split
          · exact Nat.le_refl _
          · exact hfits
    · rw [if_neg hinitial]
      exact hwithin

/-- For every table, packet and address, and all 32-bit times: the acknowledgement is honoured and
the offer is within the bounds exactly if the recorded expiry does not wrap around and no
more than the configured time is left of the client's own lease. -/
theorem leaseTime_iff (env : Env) (s : Server) (m : DhcpMessage) (yiaddr : Addr)
    (hhung : s.hung = false) (hmin : s.config.minLease ≤ s.config.lease)
    (hlease : s.config.lease < UInt32.size) (htime : env.sysTime < UInt32.size) :
    (AckHonoured env s m yiaddr ∧ OfferBounded env s m) ↔
      (AckFits env s m yiaddr ∧ OfferFits env s m) :=
  and_congr (ackHonoured_iff hmin hlease htime) (offerBounded_iff hhung hmin)

/-- A client renews 192.168.1.5, or discovers. -/
def fiveRenewed (type : UInt8) : DhcpMessage :=
  DhcpMessage.ofOptions 0x020000000001#48 0xc0a80105#32 [0x35, 1, type, 0xff]

/-- A lease of a day is honoured, and the offer of what is left of ten minutes is in bounds. -/
theorem leaseTime_of_a_day :
    AckHonoured calm fiveLeased (fiveRenewed 3) 0xc0a80105#32 ∧
      OfferBounded calm fiveLeased (fiveRenewed 3) := by
  apply (leaseTime_iff calm fiveLeased (fiveRenewed 3) 0xc0a80105#32 (by decide +kernel)
    (by decide +kernel) (by decide +kernel) (by decide +kernel)).mpr
  have hgranted : grantedTime fiveLeased.config (fiveRenewed 3).requestedTime = 86400 := by
    decide +kernel
  have hfind : (fiveLeased.findLeaseByChaddr calm (fiveRenewed 3).chaddr).2 = some 0 := by
    decide +kernel
  constructor
  · intro _ _ _
    rw [hgranted]
    decide
  · intro i hi _ _
    rw [hfind] at hi
    rw [← Option.some.inj hi]
    decide +kernel

/-- 192.168.1.5 is leased under the configured times. -/
def fiveLeasedFor (lease minLease : Nat) : Server :=
  Server.boot calm { wideConfig with lease := lease, minLease := minLease }
    (some 0xc0a80101#32) 0xffff0000#32 [⟨⟨0x020000000001#48, 0#80⟩, 0xc0a80105#32, 600, []⟩]

/-- An hour after the start, a lease of 2^32 - 1 seconds has expired as soon as it is granted; and
ten minutes are offered where five are the most. -/
theorem lease_wraps_and_offer_exceeds :
    ¬AckHonoured calm (fiveLeasedFor 4294967295 60) (fiveRenewed 3) 0xc0a80105#32 ∧
      ¬OfferBounded calm (fiveLeasedFor 300 60) (fiveRenewed 1) := by
  constructor
  · intro h
    have hslot := (h 4294967295 (by decide +kernel)).2 0 (by decide +kernel) (by decide)
      (by decide +kernel) (by decide +kernel) calm (Nat.le_refl _) (by decide +kernel)
    revert hslot
    decide +kernel
  · intro h
    have hbound := (h ⟨.offer, (fiveRenewed 1).chaddr, 0xc0a80105#32, some 600, true⟩ 600
      (by decide +kernel) rfl).2
    revert hbound
    decide +kernel

end Xwr100.Udhcpd
