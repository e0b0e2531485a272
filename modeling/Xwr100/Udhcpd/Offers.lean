import Xwr100.Udhcpd.Insertion
import Xwr100.Udhcpd.Search

/-!
# The address of an offer

A client without a record may name an address in its discover.  The source means not to give
it an address that is recorded for another client, but compares the wrong way round: the
address is given away as soon as its lease has expired, whatever else is free.
-/

namespace Xwr100.Udhcpd

open Server

variable {env : Env} {s : Server} {m : DhcpMessage} {r y : Addr} {i : Nat}

/-! ## Lookups -/

theorem findLeaseByYiaddr_eq_some_iff :
    s.findLeaseByYiaddr r = some i ↔
      i < s.config.maxLeases ∧ (s.leases i).yiaddr = r ∧ ∀ k < i, (s.leases k).yiaddr ≠ r := by
  rw [findLeaseByYiaddr, List.find?_range_eq_some, List.mem_range, decide_eq_true_eq]
  constructor
  · intro h
    refine ⟨h.2.1, h.1, fun k hk => ?_⟩
    have hne := h.2.2 k hk
    simpa using hne
  · intro h
    refine ⟨h.2.1, h.1, fun k hk => ?_⟩
    simpa using h.2.2 k hk

theorem findLeaseByChaddr_of_noRecord (h : NoRecord s m.chaddr.mac) :
    s.findLeaseByChaddr env m.chaddr = (s, none) := by
  have hnone : s.findMac m.chaddr.mac = none := by
    rw [findMac, List.find?_eq_none]
    intro k hk
    have hne := h k (List.mem_range.mp hk)
    simpa using hne
  rw [findLeaseByChaddr, hnone]

/-! ## The offer that is made -/

/-- The reply to the discover offers `y`. -/
def Offered (env : Env) (s : Server) (m : DhcpMessage) (y : Addr) : Prop :=
  ∃ time sent, (s.sendOffer env m).1.replies = s.replies ++ [⟨.offer, m.chaddr, y, time, sent⟩]

theorem offerLeaseTime_replies (initial : Nat) :
    (s.offerLeaseTime m initial).1.replies = s.replies := rfl

/-- An offer is made of the address that was chosen, if the table takes it. -/
theorem offered_iff :
    Offered env s m y ↔
      (s.offerAddress env m).1.hung = false ∧ (s.offerAddress env m).2.1 = y ∧ y ≠ 0#32 ∧
        ((s.offerAddress env m).1.addLease env m.chaddr y
          (s.offerAddress env m).1.config.offerTime).2 ≠ none := by
  have hreplies : (s.offerAddress env m).1.replies = s.replies := offerAddress_frame.replies
  have hnone : ∀ {s' : Server}, s'.replies = s.replies →
      ¬∃ time sent, s'.replies = s.replies ++ [⟨.offer, m.chaddr, y, time, sent⟩] := by
    intro s' hsame h
    obtain ⟨time, sent, h⟩ := h
    rw [hsame] at h
    simp at h
  rw [Offered, sendOffer]
  dsimp only
  by_cases hhung : (s.offerAddress env m).1.hung = true
  · rw [if_pos hhung]
    exact iff_of_false (hnone hreplies) fun h => Bool.false_ne_true (h.1.symm.trans hhung)
  · rw [if_neg hhung, and_iff_right (Bool.eq_false_iff.mpr hhung)]
    by_cases hzero : (s.offerAddress env m).2.1 = 0#32
    · rw [if_pos hzero]
      exact iff_of_false (hnone hreplies) fun h => h.2.1 (h.1.symm.trans hzero)
    · rw [if_neg hzero]
      cases hadd : ((s.offerAddress env m).1.addLease env m.chaddr (s.offerAddress env m).2.1
          (s.offerAddress env m).1.config.offerTime).2 with
      | none =>
          apply iff_of_false
          · apply hnone
            rw [addLease_replies, hreplies]
          · intro h
            rw [h.1] at hadd
            exact h.2.2 hadd
      | some j =>
          dsimp only [sendPacket]
          rw [offerLeaseTime_replies, addLease_replies, hreplies]
          constructor
          · intro h
            obtain ⟨time, sent, h⟩ := h
            have hreply := List.singleton_inj.mp (List.append_cancel_left h)
            have hy : (s.offerAddress env m).2.1 = y := (Reply.mk.inj hreply).2.2.1
            rw [hy] at hzero hadd
            exact ⟨hy, hzero, by rw [hadd]; exact Option.some_ne_none j⟩
          · intro h
            rw [h.1]
            exact ⟨_, _, rfl⟩

/-- The choice for a client without a record. -/
theorem offerAddress_of_noRecord (h : NoRecord s m.chaddr.mac) :
    s.offerAddress env m =
      ((s.offerNew env m).1, (s.offerNew env m).2, s.config.lease) := by
  rw [offerAddress, findLeaseByChaddr_of_noRecord h]

/-! ## An address that is recorded -/

/-- The first slot with the address is `i`, and its lease is running. -/
structure RunsIn (env : Env) (r : Addr) (i : Nat) (s : Server) : Prop where
  first : s.findLeaseByYiaddr r = some i
  running : env.sysTime ≤ (s.leases i).expires

theorem RunsIn.taken (h : RunsIn env r i s) (checkExpired : Bool) :
    s.leaseTaken env checkExpired r = true := by
  have hlate : s.leaseExpired env i = false := by
    have hrunning := h.running
    rw [leaseExpired, decide_eq_false_iff_not]
    omega
  rw [leaseTaken, h.first]
  dsimp only
  rw [hlate, Bool.and_false]
  rfl

/-- A running lease stays where it is when another address is reserved. -/
theorem RunsIn.reserve (h : RunsIn env r i s) (hr : r ≠ 0#32) {y : Addr} (hy : y ≠ r)
    (lease : Nat) : RunsIn env r i (s.addLease env blankChaddr y lease).1 := by
  obtain ⟨hlt, haddr, hfirst⟩ := findLeaseByYiaddr_eq_some_iff.mp h.first
  have hno : clearMatches blankChaddr y (s.leases i) = false := by
    simp [clearMatches, haddr, hy.symm]
  have htakes : ¬Takes env blankChaddr y (s.leases i) := by
    have hrunning := h.running
    rw [Takes, hno]
    simp only [Bool.false_eq_true, false_or, Nat.not_lt]
    exact hrunning
  have hslots : (s.addLease env blankChaddr y lease).1.leases i = s.leases i ∧
      ∀ k < i, ((s.addLease env blankChaddr y lease).1.leases k).yiaddr ≠ r := by
    cases hadd : (s.addLease env blankChaddr y lease).2 with
    | none =>
        rw [addLease_leases_of_none hadd]
        exact ⟨rfl, hfirst⟩
    | some j =>
        have hins := addLease_inserted hadd
        have hij : i ≠ j := by
          intro heq
          exact htakes (heq ▸ hins.takes)
        refine ⟨hins.kept i hij fun _ => hno, fun k hk => ?_⟩
        by_cases hkj : k = j
        · rw [hkj, hins.address]
          exact hy
        · cases hmatch : clearMatches blankChaddr y (s.leases k) with
          | true =>
              rw [hins.cleared k (by omega) hkj hmatch]
              exact hr.symm
          | false =>
              rw [hins.kept k hkj fun _ => hmatch]
              exact hfirst k hk
  constructor
  · rw [findLeaseByYiaddr_eq_some_iff, addLease_config, hslots.1]
    exact ⟨hlt, haddr, hslots.2⟩
  · rw [hslots.1]
    exact h.running

/-- So no search hands it out, nor the router's own address. -/
theorem runsIn_searchKeeps (hr : r ≠ 0#32) (i : Nat) {checkExpired : Bool} :
    SearchKeeps env checkExpired fun s => s.lanIpaddr = some r ∨ RunsIn env r i s where
  note s _ _ _ h := h.imp id fun h => ⟨h.first, h.running⟩
  reserve s y h hy := by
    rcases h with hlan | hruns
    · left
      rw [addLease_lanIpaddr, hlan]
    · by_cases heq : y = r
      · left
        rcases hy with hlan | hfree
        · rw [addLease_lanIpaddr, hlan, heq]
        · rw [heq, hruns.taken] at hfree
          cases hfree
      · right
        exact hruns.reserve hr heq _

theorem not_foundFree {checkExpired : Bool} :
    ¬FoundFree env checkExpired (fun s => s.lanIpaddr = some r ∨ RunsIn env r i s) r := by
  intro h
  obtain ⟨s, hinv, hlan, hfree⟩ := h
  rcases hinv with hsame | hruns
  · exact hlan hsame
  · rw [hruns.taken] at hfree
    cases hfree

/-! ## The requested address -/

/-- What a search for an address, expired leases included, would find fault with nothing in. -/
structure CouldAssign (env : Env) (s : Server) (y : Addr) : Prop where
  assignable : Assignable s y
  silent : ∀ probes, env.arpping probes y = false
  expired : ∀ i, s.findLeaseByYiaddr y = some i → s.leaseExpired env i = true

/-- The requested address `r` is not offered while it is recorded and another address could be
assigned; and if it is not recorded and could be assigned itself, no other one is offered, and
it is offered if a slot is to be had. -/
structure RespectsRecord (env : Env) (s : Server) (m : DhcpMessage) (r : Addr) : Prop where
  recorded : (∃ i < s.config.maxLeases, (s.leases i).yiaddr = r) →
    (∃ y, y ≠ r ∧ CouldAssign env s y) → ¬Offered env s m r
  free : (∀ i < s.config.maxLeases, (s.leases i).yiaddr ≠ r) → CouldAssign env s r →
    (∀ y, Offered env s m y → y = r) ∧
      ((∃ i < s.config.maxLeases, (s.leases i).expires < env.sysTime) → Offered env s m r)

section Requested

variable (hno : NoRecord s m.chaddr.mac) (hreq : m.requested = some r)

include hreq in
theorem offerNew_of_requestedFree (hfree : s.requestedFree env r = true)
    (hother : ∀ i, s.findLeaseByYiaddr r = some i → (s.leases i).chaddr ≠ m.chaddr) :
    s.offerNew env m = ((s.option m dhcpRequestedIp).1, r) := by
  obtain ⟨pos, hpos, hread⟩ := Option.map_eq_some_iff.mp hreq
  have hsnd : (s.option m dhcpRequestedIp).2 = some pos := (option_snd _).trans hpos
  rw [offerNew, hsnd]
  dsimp only
  have hfree' : (s.option m dhcpRequestedIp).1.requestedFree env (m.readAddr pos) = true := by
    rw [hread]
    exact hfree
  rw [if_pos hfree', hread, offerRequested]
  have hfind : (s.option m dhcpRequestedIp).1.findLeaseByYiaddr r = s.findLeaseByYiaddr r := rfl
  rw [hfind]
  cases hrec : s.findLeaseByYiaddr r with
  | none => rfl
  | some i => exact if_neg (hother i hrec)

include hno hreq in
theorem offered_of_requestedFree (hhung : s.hung = false)
    (hfree : s.requestedFree env r = true) :
    Offered env s m y ↔ r = y ∧ y ≠ 0#32 ∧ ¬Unplaceable env s m.chaddr y := by
  have hother : ∀ i, s.findLeaseByYiaddr r = some i → (s.leases i).chaddr ≠ m.chaddr := by
    intro i hi heq
    obtain ⟨hlt, -⟩ := findLeaseByYiaddr_some hi
    exact hno i hlt (congrArg Chaddr.mac heq)
  rw [offered_iff, offerAddress_of_noRecord hno,
    offerNew_of_requestedFree hreq hfree hother]
  have hstate : (s.option m dhcpRequestedIp).1.hung = false := hhung
  rw [and_iff_right hstate]
  apply and_congr_right
  intro _
  apply and_congr_right
  intro hy
  rw [ne_eq, addLease_eq_none_iff hy]
  rfl

include hno in
/-- While the first record of the address is running, the address is not offered. -/
theorem not_offered_of_running (hr : r ≠ 0#32) (hruns : RunsIn env r i s) :
    ¬Offered env s m r := by
  intro hoffered
  rw [offered_iff,
    offerAddress_of_noRecord hno] at hoffered
  obtain ⟨-, hchosen, -⟩ := hoffered
  have hfound := (offerNew_keeps (m := m) (runsIn_searchKeeps hr i) (runsIn_searchKeeps hr i)
    (Or.inr hruns)).2
  dsimp only at hchosen
  rw [hchosen] at hfound
  rcases hfound hr with ⟨y, -, hfree, rfl⟩ | hfound | hfound
  · have htaken := hruns.running
    rw [requestedFree, hruns.first, Bool.and_eq_true] at hfree
    have hexpired := of_decide_eq_true hfree.2
    omega
  · exact not_foundFree hfound
  · exact not_foundFree hfound

end Requested

/-- For every table: the recorded address is left alone exactly if, whenever another one could be
assigned, its first record has not expired. -/
theorem respectsRecord_iff (env : Env) (s : Server) (m : DhcpMessage) (r : Addr)
    (hhung : s.hung = false) (hno : NoRecord s m.chaddr.mac) (hreq : m.requested = some r)
    (hrange : s.inRange r = true) :
    RespectsRecord env s m r ↔
      ((∃ y, y ≠ r ∧ CouldAssign env s y) → r ≠ 0#32 →
        ∀ i, s.findLeaseByYiaddr r = some i → s.leaseExpired env i = false) := by
  constructor
  · intro h hother hr i hi
    obtain ⟨hlt, haddr⟩ := findLeaseByYiaddr_some hi
    by_contra hexpired
    have hfree : s.requestedFree env r = true := by
      rw [requestedFree, hrange, hi, Bool.true_and]
      simpa using hexpired
    apply h.recorded ⟨i, hlt, haddr⟩ hother
    rw [offered_of_requestedFree hno hreq hhung hfree]
    refine ⟨rfl, hr, fun hfull => hfull i hlt (Or.inl ?_)⟩
    simp [clearMatches, haddr, hr]
  · intro h
    constructor
    · intro hrec hother hoffered
      have hr : r ≠ 0#32 :=
        (offered_iff.mp hoffered).2.2.1
      obtain ⟨k, hk, haddr⟩ := hrec
      cases hfind : s.findLeaseByYiaddr r with
      | none => exact findLeaseByYiaddr_none hfind k hk haddr
      | some i =>
          have hrunning := h hother hr i hfind
          rw [leaseExpired, decide_eq_false_iff_not] at hrunning
          exact not_offered_of_running hno hr ⟨hfind, Nat.le_of_not_lt hrunning⟩ hoffered
    · intro hunrec hcould
      have hr : r ≠ 0#32 := by
        intro heq
        apply hcould.assignable.low_ne_zero
        rw [heq]
        decide
      have hfind : s.findLeaseByYiaddr r = none := by
        rw [findLeaseByYiaddr, List.find?_eq_none]
        intro k hk
        have hne := hunrec k (List.mem_range.mp hk)
        simpa using hne
      have hfree : s.requestedFree env r = true := by
        rw [requestedFree, hrange, hfind]
        rfl
      have hoffered := fun y => offered_of_requestedFree (y := y) hno hreq hhung hfree
      constructor
      · intro y hy
        exact ((hoffered y).mp hy).1.symm
      · intro hroom
        obtain ⟨k, hk, hexp⟩ := hroom
        rw [hoffered r]
        exact ⟨rfl, hr, fun hfull => hfull k hk (Or.inr hexp)⟩

/-- 192.168.1.5 is leased to a client for ten minutes. -/
def fiveLeased : Server :=
  Server.boot calm wideConfig (some 0xc0a80101#32) 0xffff0000#32
    [⟨⟨0x020000000001#48, 0#80⟩, 0xc0a80105#32, 600, []⟩]

def discoverFive : DhcpMessage :=
  DhcpMessage.ofOptions 0x020000000003#48 0#32
    [0x35, 1, 1, 0x32, 4, 192, 168, 1, 5, 0xff]

/-- While the lease is running, the address is not offered. -/
theorem respectsRecord_running : RespectsRecord calm fiveLeased discoverFive 0xc0a80105#32 := by
  have hrunning : ∀ i, fiveLeased.findLeaseByYiaddr 0xc0a80105#32 = some i →
      fiveLeased.leaseExpired calm i = false := by
    have hfirst : fiveLeased.findLeaseByYiaddr 0xc0a80105#32 = some 0 := by decide +kernel
    intro i hi
    rw [hfirst] at hi
    rw [← Option.some.inj hi]
    decide +kernel
  exact (respectsRecord_iff calm fiveLeased discoverFive 0xc0a80105#32 (by decide +kernel)
    (by unfold NoRecord; decide +kernel) (by decide +kernel) (by decide +kernel)).mpr
      fun _ _ => hrunning

def anHourLater : Env := { calm with sysTime := 7200, sysTime_pos := by decide }

/-- The lease is over, and the other client is offered its address, though 192.168.1.2 has never
been given out. -/
theorem expired_record_offered :
    NoRecord fiveLeased discoverFive.chaddr.mac ∧
    Offered anHourLater fiveLeased discoverFive 0xc0a80105#32 ∧
    ¬RespectsRecord anHourLater fiveLeased discoverFive 0xc0a80105#32 := by
  have hno : NoRecord fiveLeased discoverFive.chaddr.mac := by
    unfold NoRecord
    decide +kernel
  have hoffered : Offered anHourLater fiveLeased discoverFive 0xc0a80105#32 :=
    ⟨some 86400, true, by decide +kernel⟩
  have htwo : CouldAssign anHourLater fiveLeased 0xc0a80102#32 := by
    have hfind : fiveLeased.findLeaseByYiaddr 0xc0a80102#32 = none := by decide +kernel
    refine ⟨⟨?_, ?_, ?_, ?_, ?_⟩, fun _ => rfl, fun i hi => ?_⟩
    · decide +kernel
    · decide +kernel
    · decide
    · decide
    · decide +kernel
    · rw [hfind] at hi
      cases hi
  refine ⟨hno, hoffered, fun h => ?_⟩
  exact h.recorded ⟨0, by decide +kernel⟩ ⟨_, by decide, htwo⟩ hoffered

end Xwr100.Udhcpd
