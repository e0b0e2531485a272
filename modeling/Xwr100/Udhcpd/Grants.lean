import Xwr100.Udhcpd.Hostnames
import Xwr100.Udhcpd.Uniqueness

/-!
# What replies stand for

A packet's replies tell which message they answer, and an acknowledgement of a lease that goes out
leaves a record of this lease in the table.
-/

namespace Xwr100.Udhcpd

open Lib Relation Server

variable {env : Env} {s s' : Server} {m : DhcpMessage} {y : Addr}

/-! ## Replies and messages -/

def Reply.Fits (m : DhcpMessage) (r : Reply) : Prop :=
  r.chaddr = m.chaddr ∧
    match r.type, r.leaseTime with
    | .offer, some _ => m.type = some .discover
    | .offer, none => False
    | .ack, some _ => m.type = some .request
    | .ack, none => m.type = some .inform ∧ r.yiaddr = 0#32
    | .nak, time => m.type = some .request ∧ time = none ∧ r.yiaddr = 0#32

theorem Preps.replies (h : Preps env s s') : s'.replies = s.replies := by
  induction h with
  | refl => rfl
  | tail _ hp ih =>
      cases hp with
      | quiet hq => rw [hq.replies, ih]
      | reserve y _ => rw [addLease_replies, ih]

theorem Act.fits {s₀ : Server} (h : Act env m s₀ s s') (hs : ∀ r ∈ s.replies, r.Fits m) :
    ∀ r ∈ s'.replies, r.Fits m := by
  have hone : ∀ {replies : List Reply} {r : Reply}, (∀ r ∈ replies, r.Fits m) → r.Fits m →
      ∀ r' ∈ replies ++ [r], r'.Fits m := by
    intro replies r hall hr r' hmem
    rcases List.mem_append.mp hmem with hmem | hmem
    · exact hall r' hmem
    · rw [List.mem_singleton.mp hmem]
      exact hr
  cases h with
  | prep hp =>
      have hpreps : Preps env s s' := ReflTransGen.single hp
      rwa [hpreps.replies]
  | offer y j time sent htype hy hadd hquiet =>
      have hsame := hquiet.replies
      rw [addLease_replies] at hsame
      exact hone (hsame ▸ hs) ⟨rfl, htype⟩
  | offerFull y htype hy => rwa [addLease_replies]
  | record y htype hno hno₀ htarget hrange => rwa [addLease_replies]
  | ack i y time htype hown htime =>
      rw [addLease_replies]
      exact hone hs ⟨rfl, htype⟩
  | ackLost i y time htype hown => exact hone hs ⟨rfl, htype⟩
  | nak sent htype => exact hone hs ⟨rfl, htype, rfl, rfl⟩
  | inform sent htype => exact hone hs ⟨rfl, htype, rfl⟩
  | hostname i name htype => exact hs
  | decline i y expires htype hown => exact hs
  | release i y htype hown => exact hs

theorem dispatch_fits (hok : TableOk s) (hmac : m.chaddr.mac ≠ 0#48) (hreplies : s.replies = []) :
    ∀ r ∈ (s.dispatch env m).replies, r.Fits m := by
  have hacts : Acts env m s s (s.dispatch env m) := dispatch_acts hok hmac
  generalize s.dispatch env m = s' at hacts ⊢
  induction hacts with
  | refl =>
      rw [hreplies]
      exact fun r hr => absurd hr List.not_mem_nil
  | tail _ ha ih => exact ha.fits ih

theorem dispatch_config (hok : TableOk s) (hmac : m.chaddr.mac ≠ 0#48) :
    (s.dispatch env m).config = s.config := by
  have hacts : Acts env m s s (s.dispatch env m) := dispatch_acts hok hmac
  generalize s.dispatch env m = s' at hacts ⊢
  induction hacts with
  | refl => rfl
  | tail _ ha ih => exact ha.frame.1.trans ih

/-! ## Acknowledgements and records -/

def Granted (env : Env) (s : Server) (c : Chaddr) (y : Addr) (time : Nat) : Prop :=
  ∃ j < s.config.maxLeases, (s.leases j).chaddr = c ∧ (s.leases j).yiaddr = y ∧
    (s.leases j).expires = (env.sysTime + time) % UInt32.size

theorem Granted.of_leases {c : Chaddr} {time : Nat} (h : Granted env s c y time)
    (hconfig : s'.config = s.config) (hleases : s'.leases = s.leases) : Granted env s' c y time := by
  unfold Granted
  rwa [hconfig, hleases]

theorem addLease_granted {c : Chaddr} {time j : Nat}
    (hadd : (s.addLease env c y time).2 = some j) : Granted env (s.addLease env c y time).1 c y time := by
  have hins := addLease_inserted hadd
  have hconfig : (s.addLease env c y time).1.config = s.config := addLease_config _ _ _
  refine ⟨j, ?_, hins.client, hins.address, hins.expires⟩
  rw [hconfig]
  exact hins.lt

theorem Granted.setHostname {c : Chaddr} {time : Nat} (h : Granted env s c y time)
    (hostname : Option Nat) (i : Nat) : Granted env (s.setHostname m hostname i) c y time := by
  obtain ⟨j, hj, hchaddr, hyiaddr, hexpires⟩ := h
  refine ⟨j, hj, ?_⟩
  by_cases hij : j = i
  · subst hij
    simp [Server.setHostname, Server.setSlot, hchaddr, hyiaddr, hexpires]
  · simp [Server.setHostname, Server.setSlot, Function.update_of_ne hij, hchaddr, hyiaddr, hexpires]

/-- An acknowledgement of an address that is in the table is recorded if it goes out. -/
theorem sendACK_granted {i : Nat} {time : Nat} (hi : i < s.config.maxLeases) (hy : y ≠ 0#32)
    (haddr : (s.leases i).yiaddr = y) (hreplies : s.replies = [])
    (hack : (⟨.ack, m.chaddr, y, some time, true⟩ : Reply) ∈ (s.sendACK env m y).replies) :
    Granted env (s.sendACK env m y) m.chaddr y time := by
  have hmatch : clearMatches m.chaddr y (s.leases i) = true := clearMatches_of_yiaddr hy haddr
  rw [sendACK_replies, hreplies] at hack
  obtain ⟨-, -, -, htime, hsent⟩ := Reply.mk.inj (List.mem_singleton.mp hack)
  rw [sendACK_eq, hreplies, if_pos hsent.symm, Option.some.inj htime]
  have hsome : ((acknowledged env s m y).addLease env m.chaddr y
      (grantedTime s.config m.requestedTime)).2 ≠ none := addLease_ne_none _ _ _ hy hi hmatch
  obtain ⟨j, hadd⟩ := Option.ne_none_iff_exists'.mp hsome
  exact addLease_granted hadd

theorem grantUnrecorded_granted {acked : Server → Nat → Addr} {y' : Addr} {time : Nat}
    {hostname : Option Nat} (hok : TableOk s) (hno : NoRecord s m.chaddr.mac)
    (hmac : m.chaddr.mac ≠ 0#48) (hreplies : s.replies = [])
    (hacked : (∀ s' i, acked s' i = y') ∨ ∀ s' i, acked s' i = (s'.leases i).yiaddr)
    (hack : (⟨.ack, m.chaddr, y, some time, true⟩ : Reply) ∈
      (s.grantUnrecorded env m hostname y' acked).replies) :
    Granted env (s.grantUnrecorded env m hostname y' acked) m.chaddr y time := by
  rcases grantUnrecorded_cases env s m hostname y' acked
    with ⟨s', -, hsame, hnak⟩ | ⟨j, hadd, -, ⟨i, hfound, hgrant⟩ | hnak⟩
  · rw [hnak] at hack
    exact absurd hack (not_acked_of_nak (hsame.trans hreplies))
  · have hok' : TableOk (s.addLease env m.chaddr y' s.config.offerTime).1 :=
      hok.addLease _ _ _ hno.clears
    have hreplies' : (s.addLease env m.chaddr y' s.config.offerTime).1.replies = [] :=
      (addLease_replies _ _ _).trans hreplies
    have hins := addLease_inserted hadd
    have hlt : j < (s.addLease env m.chaddr y' s.config.offerTime).1.config.maxLeases := by
      rw [addLease_config]
      exact hins.lt
    obtain ⟨-, hown⟩ := findLeaseByChaddr_some hfound
    rw [hgrant] at hack ⊢
    apply Granted.setHostname
    obtain ⟨rfl, -⟩ := acked_of_sendACK hreplies' hack
    rcases hacked with hconst | hfield
    · rw [hconst] at hack ⊢
      exact sendACK_granted hlt (addLease_some _ _ _ hadd).1 hins.address hreplies' hack
    · rw [hfield] at hack ⊢
      exact sendACK_granted hown.lt (hown.yiaddr_ne hok' hmac) rfl hreplies' hack
  · rw [hnak] at hack
    refine absurd hack (not_acked_of_nak ?_)
    have hkeeps : SearchKeeps env false
        (SameFrame (s.addLease env m.chaddr y' s.config.offerTime).1) := sameFrame_searchKeeps _
    rw [(hkeeps.findLeaseByChaddr (SameFrame.refl _) m.chaddr).replies, addLease_replies, hreplies]

theorem handleRequest_recorded_granted {i : Nat} {time : Nat} (hreplies : s.replies = [])
    (hi : i < s.config.maxLeases) (hy : (s.leases i).yiaddr ≠ 0#32)
    (hack : (⟨.ack, m.chaddr, y, some time, true⟩ : Reply) ∈
      (s.handleRequest env m (some i)).replies) :
    Granted env (s.handleRequest env m (some i)) m.chaddr y time := by
  have hread : (s.requestOptions m).1.replies = [] := hreplies
  rw [handleRequest_recorded] at hack ⊢
  apply Granted.setHostname
  rcases answerRecorded_cases env (s.requestOptions m).1 m (m.findOption dhcpRequestedIp)
      (m.findOption dhcpServerId) i with hsent | hnak | hsame
  · rw [hsent] at hack ⊢
    obtain ⟨rfl, -⟩ := acked_of_sendACK hread hack
    exact sendACK_granted hi hy rfl hread hack
  · rw [hnak] at hack
    exact absurd hack (not_acked_of_nak hread)
  · rw [hsame] at hack
    have hnone : (⟨.ack, m.chaddr, y, some time, true⟩ : Reply) ∈ (s.requestOptions m).1.replies :=
      hack
    rw [hread] at hnone
    cases hnone

theorem handleRequest_unrecorded_granted {time : Nat} (hok : TableOk s)
    (hmac : m.chaddr.mac ≠ 0#48) (hno : NoRecord s m.chaddr.mac) (hreplies : s.replies = [])
    (hack : (⟨.ack, m.chaddr, y, some time, true⟩ : Reply) ∈
      (s.handleRequest env m none).replies) :
    Granted env (s.handleRequest env m none) m.chaddr y time := by
  have hread : (s.requestOptions m).1.replies = [] := hreplies
  have hok' : TableOk (s.requestOptions m).1 := hok.of_eq rfl rfl
  rw [handleRequest_unrecorded] at hack ⊢
  cases htarget : requestTarget (s.requestOptions m).1 m with
  | none =>
      rcases answerUnrecorded_of_no_target env htarget (m.findOption dhcpHostName) with
        hsame | hnak
      · rw [hsame] at hack
        have hnone : (⟨.ack, m.chaddr, y, some time, true⟩ : Reply) ∈
            (s.requestOptions m).1.replies := hack
        rw [hread] at hnone
        cases hnone
      · rw [hnak] at hack
        exact absurd hack (not_acked_of_nak hread)
  | some y' =>
      obtain ⟨acked, hacked, hgrant⟩ :=
        answerUnrecorded_of_target env htarget (m.findOption dhcpHostName)
      rw [hgrant] at hack ⊢
      exact grantUnrecorded_granted hok' hno hmac hread hacked hack

/-- Every lease that is acknowledged and sent is in the table afterwards. -/
theorem dispatch_granted {time : Nat} (hok : TableOk s) (hmac : m.chaddr.mac ≠ 0#48)
    (hreplies : s.replies = [])
    (hack : (⟨.ack, m.chaddr, y, some time, true⟩ : Reply) ∈ (s.dispatch env m).replies) :
    Granted env (s.dispatch env m) m.chaddr y time := by
  have htype : m.type = some .request := (dispatch_fits hok hmac hreplies _ hack).2
  by_cases hmagic : m.readBytes 236 4 = dhcpMagic
  · rw [dispatch_request hmagic htype] at hack ⊢
    have hframe : SameFrame s (lookedUp env s m).1 := lookedUp_frame
    have hreplies' : (lookedUp env s m).1.replies = [] := hframe.replies.trans hreplies
    have hread : TableOk (s.option m dhcpMessageType).1 := hok.of_eq rfl rfl
    cases hfound : (lookedUp env s m).2 with
    | some i =>
        obtain ⟨hstate, hown⟩ := lookedUp_some hfound
        have hi : i < (lookedUp env s m).1.config.maxLeases := by
          rw [hframe.config]
          exact hown.lt
        have hy : ((lookedUp env s m).1.leases i).yiaddr ≠ 0#32 := by
          rw [hstate]
          exact hown.yiaddr_ne hok hmac
        rw [hfound] at hack
        exact handleRequest_recorded_granted hreplies' hi hy hack
    | none =>
        obtain ⟨hpreps, hno, -⟩ := findLeaseByChaddr_none hread hmac hfound
        rw [hfound] at hack
        exact handleRequest_unrecorded_granted (hpreps.tableOk hread) hmac hno hreplies' hack
  · rw [dispatch_of_not_magic hmagic, hreplies] at hack
    cases hack

/-! ## Offers and records -/

/-- A discover is answered with nothing, or with an offer of an address that is reserved. -/
theorem sendOffer_cases (env : Env) (s : Server) (m : DhcpMessage) :
    (s.sendOffer env m).1.config = s.config ∧
      (((s.sendOffer env m).1.replies = s.replies ∧ (s.sendOffer env m).2 = false) ∨
        ∃ y time,
          (s.sendOffer env m).1.replies =
            s.replies ++ [⟨.offer, m.chaddr, y, some time, (s.sendOffer env m).2⟩] ∧
          Granted env (s.sendOffer env m).1 m.chaddr y s.config.offerTime) := by
  have hframe : SameFrame s (s.offerAddress env m).1 := offerAddress_frame
  unfold sendOffer
  dsimp only
  split
  · exact ⟨hframe.config, Or.inl ⟨hframe.replies, rfl⟩⟩
  · split
    · exact ⟨hframe.config, Or.inl ⟨hframe.replies, rfl⟩⟩
    · cases hadd : ((s.offerAddress env m).1.addLease env m.chaddr (s.offerAddress env m).2.1
          (s.offerAddress env m).1.config.offerTime).2 with
      | none =>
          refine ⟨?_, Or.inl ⟨?_, rfl⟩⟩
          · rw [addLease_config, hframe.config]
          · rw [addLease_replies, hframe.replies]
      | some j =>
          have hreserved := addLease_granted hadd
          generalize hinitial : (s.offerAddress env m).2.2 = initial
          generalize hadded : (s.offerAddress env m).1.addLease env m.chaddr
            (s.offerAddress env m).2.1 (s.offerAddress env m).1.config.offerTime = added at hreserved ⊢
          rw [hframe.config] at hreserved
          have hconfig : added.1.config = s.config := by
            rw [← hadded, addLease_config, hframe.config]
          have hreplies : added.1.replies = s.replies := by
            rw [← hadded, addLease_replies, hframe.replies]
          refine ⟨hconfig, Or.inr ⟨_, (added.1.offerLeaseTime m initial).2, ?_,
            hreserved.of_leases rfl rfl⟩⟩
          rw [← hreplies]
          rfl

theorem handleDiscover_granted {time : Option Nat} (hreplies : s.replies = [])
    (hoffer : (⟨.offer, m.chaddr, y, time, true⟩ : Reply) ∈ (s.handleDiscover env m).replies) :
    Granted env (s.handleDiscover env m) m.chaddr y s.config.offerTime := by
  -- an offer that has gone out is the last thing `sendOffer` does
  have hlast : ∀ s' : Server, (∀ r ∈ s'.replies, r.sent = false) →
      (⟨.offer, m.chaddr, y, time, true⟩ : Reply) ∈ (s'.sendOffer env m).1.replies →
        (s'.sendOffer env m).2 = true ∧
          Granted env (s'.sendOffer env m).1 m.chaddr y s'.config.offerTime := by
    intro s' hunsent hmem
    rcases (sendOffer_cases env s' m).2 with ⟨hsame, -⟩ | ⟨y', time', happend, hgranted⟩
    · rw [hsame] at hmem
      cases hunsent _ hmem
    · rw [happend] at hmem
      rcases List.mem_append.mp hmem with hmem | hmem
      · cases hunsent _ hmem
      · obtain ⟨-, -, hy, -, hsent⟩ := Reply.mk.inj (List.mem_singleton.mp hmem)
        rw [hy]
        exact ⟨hsent.symm, hgranted⟩
  have hnone : ∀ r ∈ s.replies, r.sent = false := by
    rw [hreplies]
    exact fun r hr => absurd hr List.not_mem_nil
  unfold handleDiscover at hoffer ⊢
  dsimp only at hoffer ⊢
  split at hoffer
  · next hhung =>
    rw [if_pos hhung]
    exact (hlast s hnone hoffer).2
  · next hhung =>
    rw [if_neg hhung]
    split at hoffer
    · next hsent =>
      rw [if_pos hsent]
      exact (hlast s hnone hoffer).2
    · next hunsent =>
      rw [if_neg hunsent]
      obtain ⟨hconfig, hfirst⟩ := sendOffer_cases env s m
      rw [← hconfig]
      refine (hlast _ ?_ hoffer).2
      intro r hr
      rcases hfirst with ⟨hsame, -⟩ | ⟨y', time', happend, -⟩
      · rw [hsame] at hr
        exact hnone r hr
      · rw [happend] at hr
        rcases List.mem_append.mp hr with hr | hr
        · exact hnone r hr
        · rw [List.mem_singleton.mp hr]
          simpa using hunsent

theorem dispatch_discover (hmagic : m.readBytes 236 4 = dhcpMagic)
    (htype : m.type = some .discover) :
    s.dispatch env m = (lookedUp env s m).1.handleDiscover env m := by
  obtain ⟨pos, hpos, hbyte⟩ := Option.map_eq_some_iff.mp htype
  have hsnd : (s.option m dhcpMessageType).2 = some pos := (option_snd _).trans hpos
  rw [dispatch, if_neg (not_not.mpr hmagic)]
  dsimp only
  rw [hsnd]
  dsimp only
  rw [hbyte]
  rfl

/-- Every address that is offered and sent is in the table afterwards. -/
theorem dispatch_reserved {time : Option Nat} (hok : TableOk s) (hmac : m.chaddr.mac ≠ 0#48)
    (hreplies : s.replies = [])
    (hoffer : (⟨.offer, m.chaddr, y, time, true⟩ : Reply) ∈ (s.dispatch env m).replies) :
    Granted env (s.dispatch env m) m.chaddr y s.config.offerTime := by
  have hfits : Reply.Fits m ⟨.offer, m.chaddr, y, time, true⟩ :=
    dispatch_fits hok hmac hreplies _ hoffer
  have htype : m.type = some .discover := by
    cases time with
    | none => exact absurd hfits.2 not_false
    | some time => exact hfits.2
  by_cases hmagic : m.readBytes 236 4 = dhcpMagic
  · rw [dispatch_discover hmagic htype] at hoffer ⊢
    have hframe : SameFrame s (lookedUp env s m).1 := lookedUp_frame
    have hnone : (lookedUp env s m).1.replies = [] := hframe.replies.trans hreplies
    rw [← hframe.config]
    exact handleDiscover_granted hnone hoffer
  · rw [dispatch_of_not_magic hmagic, hreplies] at hoffer
    cases hoffer

end Xwr100.Udhcpd
