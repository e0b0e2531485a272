import Xwr100.Udhcpd.Acts

/-!
# A packet is a sequence of acts

The uniqueness invariant is kept by every act, and with it each branch of the server
turns out to be a sequence of acts.
-/

namespace Xwr100.Udhcpd

open Lib Relation

variable {env : Env} {m : DhcpMessage} {s₀ s s' : Server}

/-! ## Acts keep the table's keys distinct -/

theorem Quiet.owns (h : Quiet s s') {mac : BitVec 48} {i : Nat} {y : Addr}
    (hown : Owns s mac i y) : Owns s' mac i y := by
  obtain ⟨hlt, hmac, hy, hlan⟩ := hown
  constructor
  · rw [h.config]
    exact hlt
  · rw [h.leases]
    exact hmac
  · rw [h.leases]
    exact hy
  · rw [h.lanIpaddr]
    exact hlan

theorem Recorded.of_eq {mac : BitVec 48} (h : Recorded s mac) (hconfig : s'.config = s.config)
    (hlan : s'.lanIpaddr = s.lanIpaddr) (hleases : s'.leases = s.leases) : Recorded s' mac := by
  obtain ⟨i, y, hlt, hmac, hy, hne⟩ := h
  refine ⟨i, y, ?_, ?_, ?_, ?_⟩
  · rw [hconfig]
    exact hlt
  · rw [hleases]
    exact hmac
  · rw [hleases]
    exact hy
  · rw [hlan]
    exact hne

theorem Owns.yiaddr_ne {mac : BitVec 48} {i : Nat} {y : Addr} (hown : Owns s mac i y)
    (hok : TableOk s) (hmac : mac ≠ 0#48) : y ≠ 0#32 := by
  rw [← hown.yiaddr]
  refine hok.yiaddr_ne hown.lt ?_
  rw [hown.mac]
  exact hmac

/-- Recording the client's own address again clears every slot found by its six bytes. -/
theorem Owns.clears {c : Chaddr} {i : Nat} {y : Addr} (hown : Owns s c.mac i y)
    (hok : TableOk s) (hmac : c.mac ≠ 0#48) :
    ∀ k < s.config.maxLeases, macKey (s.leases k) = some c.mac → c ≠ blankChaddr →
      clearMatches c y (s.leases k) = true := by
  intro k hk hkey _
  have hki : k = i := hok.mac_inj hk hown.lt hmac (macKey_eq_some.mp hkey).2 hown.mac
  have hy := hown.yiaddr_ne hok hmac
  rw [hki]
  simp [clearMatches, hown.yiaddr, hy]

theorem NoRecord.clears {c : Chaddr} {y : Addr} (hno : NoRecord s c.mac) :
    ∀ k < s.config.maxLeases, macKey (s.leases k) = some c.mac → c ≠ blankChaddr →
      clearMatches c y (s.leases k) = true := by
  intro k hk hkey _
  exact absurd (macKey_eq_some.mp hkey).2 (hno k hk)

theorem Offerable.clears {y : Addr} (hy : Offerable env m s₀ s y) (hok : TableOk s)
    (hmac : m.chaddr.mac ≠ 0#48) :
    ∀ k < s.config.maxLeases, macKey (s.leases k) = some m.chaddr.mac →
      m.chaddr ≠ blankChaddr → clearMatches m.chaddr y (s.leases k) = true := by
  rcases hy with ⟨i, hown⟩ | ⟨hno, -, -⟩
  · exact hown.clears hok hmac
  · exact hno.clears

/-- Overwriting a slot without its address and `chaddr`, or blanking the latter. -/
theorem TableOk.setSlot (hok : TableOk s) {i : Nat} {slot : DhcpOfferedAddr}
    (haddr : slot.yiaddr = (s.leases i).yiaddr)
    (hchaddr : slot.chaddr = blankChaddr ∨ slot.chaddr = (s.leases i).chaddr) :
    TableOk (s.setSlot i slot) := by
  refine hok.of_slots rfl (fun k => ?_) (fun k => ?_)
  · by_cases hk : k = i
    · subst hk
      simpa [Server.setSlot] using haddr
    · simp [Server.setSlot, Function.update_of_ne hk]
  · by_cases hk : k = i
    · subst hk
      simpa [Server.setSlot] using hchaddr
    · simp [Server.setSlot, Function.update_of_ne hk]

theorem Act.tableOk (h : Act env m s₀ s s') (hmac : m.chaddr.mac ≠ 0#48) (hok : TableOk s) :
    TableOk s' := by
  cases h with
  | prep hp => exact Preps.tableOk (ReflTransGen.single hp) hok
  | offer y j time sent htype hy hadd hquiet =>
      exact (hok.addLease _ _ _ (hy.clears hok hmac)).of_eq hquiet.config hquiet.leases
  | offerFull y htype hy => exact hok.addLease _ _ _ (hy.clears hok hmac)
  | record y htype hno hno₀ htarget hrange => exact hok.addLease _ _ _ hno.clears
  | ack i y time htype hown htime =>
      have hsent : TableOk
          { s with replies := s.replies ++ [⟨.ack, m.chaddr, y, some time, true⟩] } :=
        hok.of_eq rfl rfl
      exact hsent.addLease _ _ _ (hown.clears hok hmac)
  | ackLost i y time htype hown => exact hok.of_eq rfl rfl
  | nak sent htype => exact hok.of_eq rfl rfl
  | inform sent htype => exact hok.of_eq rfl rfl
  | hostname i name htype => exact hok.setSlot rfl (Or.inr rfl)
  | decline i y expires htype hown => exact hok.setSlot rfl (Or.inl rfl)
  | release i y htype hown => exact hok.setSlot rfl (Or.inr rfl)

theorem Acts.tableOk (h : Acts env m s₀ s s') (hmac : m.chaddr.mac ≠ 0#48) (hok : TableOk s) :
    TableOk s' := by
  induction h with
  | refl => exact hok
  | tail _ ha ih => exact ha.tableOk hmac ih

/-- No act changes the configuration or the router's address. -/
theorem Act.frame (h : Act env m s₀ s s') :
    s'.config = s.config ∧ s'.lanIpaddr = s.lanIpaddr := by
  cases h with
  | prep hp =>
      have hps : Preps env s s' := ReflTransGen.single hp
      exact ⟨hps.config, hps.lanIpaddr⟩
  | offer y j time sent htype hy hadd hquiet =>
      exact ⟨hquiet.config.trans (by simp), hquiet.lanIpaddr.trans (by simp)⟩
  | offerFull y htype hy => simp
  | record y htype hno hno₀ htarget hrange => simp
  | ack i y time htype hown htime => simp
  | ackLost i y time htype hown => exact ⟨rfl, rfl⟩
  | nak sent htype => exact ⟨rfl, rfl⟩
  | inform sent htype => exact ⟨rfl, rfl⟩
  | hostname i name htype => exact ⟨rfl, rfl⟩
  | decline i y expires htype hown => exact ⟨rfl, rfl⟩
  | release i y htype hown => exact ⟨rfl, rfl⟩

namespace Server

/-! ## Offers -/

theorem offerFree_spec (hok : TableOk s) :
    Preps env s (s.offerFree env).1 ∧
    ((s.offerFree env).2 ≠ 0#32 →
      Assignable (s.offerFree env).1 (s.offerFree env).2 ∧
      Vacant env (s.offerFree env).1 (s.offerFree env).2) := by
  obtain ⟨hp, hgood⟩ := @findAddress_spec env s false hok
  unfold offerFree
  dsimp only
  split
  · exact ⟨hp, hgood⟩
  · split
    · obtain ⟨hp', hgood'⟩ := @findAddress_spec env _ true (hp.tableOk hok)
      exact ⟨hp.trans hp', hgood'⟩
    · exact ⟨hp, hgood⟩

theorem requestedFree_spec {y : Addr} (hok : TableOk s) (hy : y ≠ 0#32)
    (h : s.requestedFree env y = true) : s.inRange y = true ∧ Vacant env s y := by
  unfold requestedFree at h
  rw [Bool.and_eq_true] at h
  refine ⟨h.1, fun i hi heq => ?_⟩
  cases hfind : s.findLeaseByYiaddr y with
  | none => exact absurd heq (findLeaseByYiaddr_none hfind i hi)
  | some k =>
      obtain ⟨hlt, hk⟩ := findLeaseByYiaddr_some hfind
      have hik : i = k := hok.yiaddr_inj hi hlt (heq.trans hk.symm) (by rw [heq]; exact hy)
      have hexp := h.2
      rw [hfind] at hexp
      rw [hik]
      simpa [leaseExpired] using hexp

theorem offerNew_spec (hok : TableOk s) :
    Preps env s (s.offerNew env m).1 ∧
    ((s.offerNew env m).2 ≠ 0#32 →
      Vacant env (s.offerNew env m).1 (s.offerNew env m).2 ∧
      (Assignable (s.offerNew env m).1 (s.offerNew env m).2 ∨
        (m.requested = some (s.offerNew env m).2 ∧
          (s.offerNew env m).1.inRange (s.offerNew env m).2 = true))) := by
  have hquiet : Quiet s (s.option m dhcpRequestedIp).1 := option_quiet dhcpRequestedIp
  have hok' := hok.of_eq hquiet.config hquiet.leases
  have hopt : (s.option m dhcpRequestedIp).2 = m.findOption dhcpRequestedIp :=
    option_snd dhcpRequestedIp
  obtain ⟨hfree, hgood⟩ := @offerFree_spec env _ hok'
  unfold offerNew
  dsimp only
  cases hpos : (s.option m dhcpRequestedIp).2 with
  | none =>
      refine ⟨hquiet.preps.trans hfree, fun hne => ?_⟩
      exact ⟨(hgood hne).2, Or.inl (hgood hne).1⟩
  | some pos =>
      have hreq : m.requested = some (m.readAddr pos) := by
        simp [DhcpMessage.requested, ← hopt, hpos]
      dsimp only
      split
      · rename_i hrf
        unfold offerRequested
        cases hfind : (s.option m dhcpRequestedIp).1.findLeaseByYiaddr (m.readAddr pos) with
        | none =>
            refine ⟨hquiet.preps, fun hne => ?_⟩
            obtain ⟨hrange, hvac⟩ := requestedFree_spec hok' hne hrf
            exact ⟨hvac, Or.inr ⟨hreq, hrange⟩⟩
        | some i =>
            dsimp only
            split
            · obtain ⟨hp, hg⟩ := @findAddress_spec env _ false hok'
              refine ⟨hquiet.preps.trans hp, fun hne => ?_⟩
              exact ⟨(hg hne).2, Or.inl (hg hne).1⟩
            · refine ⟨hquiet.preps, fun hne => ?_⟩
              obtain ⟨hrange, hvac⟩ := requestedFree_spec hok' hne hrf
              exact ⟨hvac, Or.inr ⟨hreq, hrange⟩⟩
      · refine ⟨hquiet.preps.trans hfree, fun hne => ?_⟩
        exact ⟨(hgood hne).2, Or.inl (hgood hne).1⟩

theorem offerAddress_spec (hok : TableOk s) (hmac : m.chaddr.mac ≠ 0#48)
    (hrec : Recorded s₀ m.chaddr.mac → Recorded s m.chaddr.mac) :
    Preps env s (s.offerAddress env m).1 ∧
    ((s.offerAddress env m).2.1 ≠ 0#32 →
      Offerable env m s₀ (s.offerAddress env m).1 (s.offerAddress env m).2.1) := by
  unfold offerAddress
  dsimp only
  cases hfound : (s.findLeaseByChaddr env m.chaddr).2 with
  | some i =>
      obtain ⟨hstate, hown⟩ := findLeaseByChaddr_some hfound
      dsimp only
      rw [hstate]
      exact ⟨ReflTransGen.refl, fun _ => Or.inl ⟨i, hown⟩⟩
  | none =>
      obtain ⟨hp, hno, hnorec⟩ := findLeaseByChaddr_none hok hmac hfound
      obtain ⟨hp', hgood⟩ := @offerNew_spec env m _ (hp.tableOk hok)
      dsimp only
      refine ⟨hp.trans hp', fun hne => Or.inr ?_⟩
      obtain ⟨hvac, hkind⟩ := hgood hne
      refine ⟨hp'.noRecord hno hmac, hvac, hkind.imp_right ?_⟩
      rintro ⟨hreq, hrange⟩
      exact ⟨fun h => hnorec (hrec h), hreq, hrange⟩

theorem sendOffer_acts (htype : m.type = some .discover) (hok : TableOk s)
    (hmac : m.chaddr.mac ≠ 0#48) (hrec : Recorded s₀ m.chaddr.mac → Recorded s m.chaddr.mac) :
    Acts env m s₀ s (s.sendOffer env m).1 := by
  obtain ⟨hp, hoffer⟩ := @offerAddress_spec env m s₀ s hok hmac hrec
  unfold sendOffer
  dsimp only
  split
  · exact hp.acts
  · split
    · exact hp.acts
    · rename_i hne
      have hy := hoffer hne
      cases hadd : ((s.offerAddress env m).1.addLease env m.chaddr
          (s.offerAddress env m).2.1 (s.offerAddress env m).1.config.offerTime).2 with
      | none => exact hp.acts.tail (Act.offerFull _ htype hy)
      | some j =>
          exact hp.acts.tail
            (Act.offer _ j _ (env.sendOk _) htype hy hadd (option_quiet dhcpLeaseTime))

/-- An offer to a client with a lease renews the record of that lease. -/
theorem sendOffer_recorded (hok : TableOk s) (hmac : m.chaddr.mac ≠ 0#48)
    (h : Recorded s m.chaddr.mac) : Recorded (s.sendOffer env m).1 m.chaddr.mac := by
  unfold sendOffer offerAddress
  dsimp only
  cases hfound : (s.findLeaseByChaddr env m.chaddr).2 with
  | none => exact absurd h (findLeaseByChaddr_none hok hmac hfound).2.2
  | some i =>
      obtain ⟨hstate, hown⟩ := findLeaseByChaddr_some hfound
      have hy := hown.yiaddr_ne hok hmac
      have hmatch := hown.clears hok hmac i hown.lt
        (macKey_eq_some.mpr ⟨Chaddr.ne_blank_of_mac_ne (by rw [hown.mac]; exact hmac), hown.mac⟩)
        (Chaddr.ne_blank_of_mac_ne hmac)
      dsimp only
      rw [hstate]
      by_cases hhung : s.hung = true
      · simp only [hhung, if_true]
        exact h
      · simp only [hhung, hy, if_false]
        cases hadd : (s.addLease env m.chaddr (s.leases i).yiaddr s.config.offerTime).2 with
        | none => exact absurd hadd (addLease_ne_none _ _ _ hy hown.lt hmatch)
        | some j =>
            obtain ⟨-, hlt, hc, ha, -, -⟩ := addLease_some _ _ _ hadd
            refine ⟨j, (s.leases i).yiaddr, ?_, ?_, ?_, ?_⟩
            · simpa [sendPacket, offerLeaseTime, option] using hlt
            · simp [sendPacket, offerLeaseTime, option, hc]
            · simp [sendPacket, offerLeaseTime, option, ha]
            · simpa [sendPacket, offerLeaseTime, option] using hown.lan

theorem handleDiscover_acts (htype : m.type = some .discover) (hok : TableOk s)
    (hmac : m.chaddr.mac ≠ 0#48) (hrec : Recorded s₀ m.chaddr.mac → Recorded s m.chaddr.mac) :
    Acts env m s₀ s (s.handleDiscover env m) := by
  have hfirst : Acts env m s₀ s (s.sendOffer env m).1 := sendOffer_acts htype hok hmac hrec
  unfold handleDiscover
  dsimp only
  split
  · exact hfirst
  · split
    · exact hfirst
    · refine hfirst.trans (sendOffer_acts htype (hfirst.tableOk hmac hok) hmac fun h => ?_)
      exact sendOffer_recorded hok hmac (hrec h)

/-! ## Requests -/

theorem ackLeaseTime_le : (s.ackLeaseTime m).2 ≤ s.config.lease := by
  unfold ackLeaseTime
  dsimp only
  split
  · dsimp only
    split
    · exact Nat.le_refl _
    · split
      · exact Nat.le_refl _
      · omega
  · exact Nat.le_refl _

theorem ackLeaseTime_quiet : Quiet s (s.ackLeaseTime m).1 := by
  unfold ackLeaseTime
  dsimp only
  split <;> exact option_quiet dhcpLeaseTime

theorem sendACK_acts {i : Nat} {y : Addr} (htype : m.type = some .request)
    (hown : Owns s m.chaddr.mac i y) : Acts env m s₀ s (s.sendACK env m y) := by
  have hquiet : Quiet s (s.ackLeaseTime m).1 := ackLeaseTime_quiet
  have htime : (s.ackLeaseTime m).2 ≤ (s.ackLeaseTime m).1.config.lease := by
    rw [hquiet.config]
    exact ackLeaseTime_le
  unfold sendACK sendPacket
  dsimp only
  cases hsent : env.sendOk (s.ackLeaseTime m).1.replies.length with
  | true => exact hquiet.preps.acts.tail (Act.ack i y _ htype (hquiet.owns hown) htime)
  | false => exact hquiet.preps.acts.tail (Act.ackLost i y _ htype (hquiet.owns hown))

theorem sendNAK_acts (htype : m.type = some .request) :
    Acts env m s₀ s (s.sendNAK env m) :=
  ReflTransGen.single (Act.nak _ htype)

theorem setHostname_act (htype : m.type = some .request) (hostname : Option Nat) (i : Nat) :
    Act env m s₀ s (s.setHostname m hostname i) :=
  Act.hostname i _ htype

theorem answerRecorded_acts {i : Nat} (htype : m.type = some .request)
    (hown : Owns s m.chaddr.mac i (s.leases i).yiaddr) (requested serverId : Option Nat) :
    Acts env m s₀ s (s.answerRecorded env m requested serverId i) := by
  unfold answerRecorded
  dsimp only
  split
  · split
    · exact sendACK_acts htype hown
    · split
      · exact ReflTransGen.refl
      · exact sendNAK_acts htype
  · split
    · split
      · exact sendACK_acts htype hown
      · exact sendNAK_acts htype
    · split
      · exact sendACK_acts htype hown
      · exact sendNAK_acts htype

/-- Granting to a client without a record: the record just made is the one found, so in
all three branches the acknowledged address is the recorded one. -/
theorem grantUnrecorded_acts {y : Addr} {acked : Server → Nat → Addr}
    (htype : m.type = some .request) (hok : TableOk s) (hmac : m.chaddr.mac ≠ 0#48)
    (hno : NoRecord s m.chaddr.mac) (hno₀ : ¬ Recorded s₀ m.chaddr.mac)
    (htarget : requestTarget s m = some y) (hostname : Option Nat)
    (hacked : ∀ (s' : Server) (i : Nat), (s'.leases i).yiaddr = y → acked s' i = y) :
    Acts env m s₀ s (s.grantUnrecorded env m hostname y acked) := by
  unfold grantUnrecorded
  split
  · exact sendNAK_acts htype
  · rename_i hrange
    have hrecord : Act env m s₀ s (s.addLease env m.chaddr y s.config.offerTime).1 :=
      Act.record y htype hno hno₀ htarget (by simpa using hrange)
    have hok' := hrecord.tableOk hmac hok
    dsimp only
    cases hadd : (s.addLease env m.chaddr y s.config.offerTime).2 with
    | none => exact ReflTransGen.head hrecord (sendNAK_acts htype)
    | some j =>
        obtain ⟨-, hlt, hc, ha, -, -⟩ := addLease_some _ _ _ hadd
        dsimp only
        cases hfound : ((s.addLease env m.chaddr y s.config.offerTime).1.findLeaseByChaddr env
            m.chaddr).2 with
        | none =>
            obtain ⟨hp, -, -⟩ := findLeaseByChaddr_none hok' hmac hfound
            exact ReflTransGen.head hrecord (hp.acts.trans (sendNAK_acts htype))
        | some i =>
            obtain ⟨hstate, hown⟩ := findLeaseByChaddr_some hfound
            have hij : i = j := hok'.mac_inj hown.lt (by simpa using hlt) hmac hown.mac (by rw [hc])
            have hiy : ((s.addLease env m.chaddr y s.config.offerTime).1.leases i).yiaddr = y := by
              rw [hij]
              exact ha
            dsimp only
            rw [hstate, hacked _ i hiy]
            rw [hiy] at hown
            exact ReflTransGen.head hrecord
              ((sendACK_acts htype hown).tail (setHostname_act htype hostname i))

theorem answerUnrecorded_acts (htype : m.type = some .request) (hok : TableOk s)
    (hmac : m.chaddr.mac ≠ 0#48) (hno : NoRecord s m.chaddr.mac)
    (hno₀ : ¬ Recorded s₀ m.chaddr.mac) (hostname : Option Nat) :
    Acts env m s₀ s
      (s.answerUnrecorded env m (m.findOption dhcpRequestedIp) (m.findOption dhcpServerId)
        hostname) := by
  unfold answerUnrecorded
  cases hid : m.findOption dhcpServerId with
  | some pos =>
      dsimp only
      split
      · exact ReflTransGen.refl
      · rename_i hserver
        have hserver' : m.readAddr pos = s.config.server := not_not.mp hserver
        cases hreq : m.findOption dhcpRequestedIp with
        | none => exact sendNAK_acts htype
        | some r =>
            refine grantUnrecorded_acts htype hok hmac hno hno₀ ?_ hostname ?_
            · simp [requestTarget, hid, hserver', DhcpMessage.requested, hreq]
            · intro s' i h
              exact h
  | none =>
      cases hreq : m.findOption dhcpRequestedIp with
      | some r =>
          refine grantUnrecorded_acts htype hok hmac hno hno₀ ?_ hostname ?_
          · simp [requestTarget, hid, DhcpMessage.requested, hreq]
          · intro s' i _
            rfl
      | none =>
          dsimp only
          split
          · rename_i hci
            refine grantUnrecorded_acts htype hok hmac hno hno₀ ?_ hostname ?_
            · simp [requestTarget, hid, DhcpMessage.requested, hreq, hci]
            · intro s' i _
              rfl
          · exact ReflTransGen.refl

theorem requestOptions_eq :
    (s.requestOptions m).2 =
      (m.findOption dhcpRequestedIp, m.findOption dhcpServerId, m.findOption dhcpHostName) := by
  simp only [requestOptions, option_snd]

theorem requestOptions_quiet : Quiet s (s.requestOptions m).1 := ⟨rfl, rfl, rfl, rfl⟩

/-! ## The dispatch -/

theorem handle_acts {lease : Option Nat} {type : MessageType} (htype : m.type = some type)
    (hok : TableOk s) (hmac : m.chaddr.mac ≠ 0#48)
    (hrec : Recorded s₀ m.chaddr.mac → Recorded s m.chaddr.mac)
    (hsome : ∀ i, lease = some i → Owns s m.chaddr.mac i (s.leases i).yiaddr)
    (hnone : lease = none → NoRecord s m.chaddr.mac ∧ ¬ Recorded s₀ m.chaddr.mac) :
    Acts env m s₀ s (s.handle env m lease type) := by
  cases type with
  | discover => exact handleDiscover_acts htype hok hmac hrec
  | request =>
      have hquiet : Quiet s (s.requestOptions m).1 := requestOptions_quiet
      have hok' := hok.of_eq hquiet.config hquiet.leases
      simp only [handle, handleRequest]
      rw [requestOptions_eq]
      cases hlease : lease with
      | some i =>
          have hown := hquiet.owns (hsome i hlease)
          rw [← hquiet.leases] at hown
          exact hquiet.preps.acts.trans
            ((answerRecorded_acts htype hown _ _).tail (setHostname_act htype _ i))
      | none =>
          obtain ⟨hno, hno₀⟩ := hnone hlease
          exact hquiet.preps.acts.trans
            (answerUnrecorded_acts htype hok' hmac (hquiet.noRecord hno) hno₀ _)
  | decline =>
      cases hlease : lease with
      | some i => exact ReflTransGen.single (Act.decline i _ _ htype (hsome i hlease))
      | none => exact ReflTransGen.refl
  | release =>
      cases hlease : lease with
      | some i => exact ReflTransGen.single (Act.release i _ htype (hsome i hlease))
      | none => exact ReflTransGen.refl
  | inform => exact ReflTransGen.single (Act.inform _ htype)
  | unsupported => exact ReflTransGen.refl

/-- Processing a packet from a client with six nonzero bytes is a sequence of acts. -/
theorem dispatch_acts (hok : TableOk s) (hmac : m.chaddr.mac ≠ 0#48) :
    Acts env m s s (s.dispatch env m) := by
  have hquiet : Quiet s (s.option m dhcpMessageType).1 := option_quiet dhcpMessageType
  have hok' := hok.of_eq hquiet.config hquiet.leases
  unfold dispatch
  split
  · exact ReflTransGen.refl
  · dsimp only
    rw [option_snd]
    cases hpos : m.findOption dhcpMessageType with
    | none => exact hquiet.preps.acts
    | some pos =>
        have htype : m.type = some (MessageType.ofByte (m.mem pos)) := by
          simp [DhcpMessage.type, hpos]
        have hrec : Recorded s m.chaddr.mac →
            Recorded (s.option m dhcpMessageType).1 m.chaddr.mac := by
          rintro ⟨i, y, hown⟩
          exact ⟨i, y, hquiet.owns hown⟩
        dsimp only
        refine hquiet.preps.acts.trans ?_
        cases hfound :
            ((s.option m dhcpMessageType).1.findLeaseByChaddr env m.chaddr).2 with
        | some i =>
            obtain ⟨hstate, hown⟩ := findLeaseByChaddr_some hfound
            rw [hstate]
            refine handle_acts htype hok' hmac hrec ?_ (by simp)
            rintro j hj
            cases hj
            exact hown
        | none =>
            obtain ⟨hp, hno, hnorec⟩ := findLeaseByChaddr_none hok' hmac hfound
            refine hp.acts.trans (handle_acts htype (hp.tableOk hok') hmac ?_ (by simp) ?_)
            · intro h
              exact absurd (hrec h) hnorec
            · intro _
              exact ⟨hno, fun h => hnorec (hrec h)⟩

end Server

end Xwr100.Udhcpd
