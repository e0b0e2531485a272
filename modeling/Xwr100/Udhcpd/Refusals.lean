import Xwr100.Udhcpd.Requests

/-!
# Refused requests

A request that ends in a DHCPNAK or without a reply ought to leave the table alone.  The
branch for clients with a record updates the hostname whatever it has answered, the lookup
reserves the router's own address, and the vendor's branch records the client before it knows
that it will acknowledge.
-/

namespace Xwr100.Udhcpd

open Lib Server

variable {env : Env} {s : Server} {m : DhcpMessage}

/-- No acknowledgement goes out to the request. -/
def Refused (env : Env) (s : Server) (m : DhcpMessage) : Prop :=
  m.type = some .request ∧
    ∀ r ∈ (step s (.packet env m)).replies, r.type = .ack → r.sent = false

def RefusalKeeps (s : Server) : Event → Prop
  | .packet env m => Refused env s m → (step s (.packet env m)).leases = s.leases
  | .writeLeases => True
  | .reload _ _ _ _ _ => True

/-- What a refused request must not bring along: a record of the router's own address under the
client's six bytes; a hostname other than the one in the client's record; or, without a
record, an address in range for which the table has a slot. -/
structure Harmless (env : Env) (s : Server) (m : DhcpMessage) : Prop where
  lookup : ∀ i, s.findMac m.chaddr.mac = some i → s.lanIpaddr = some (s.leases i).yiaddr →
    (s.leases i).yiaddr = 0#32
  recorded : ∀ i, s.findMac m.chaddr.mac = some i → s.lanIpaddr ≠ some (s.leases i).yiaddr →
    (s.leases i).hostname = m.hostname
  unrecorded : (∀ i, s.findMac m.chaddr.mac = some i → s.lanIpaddr = some (s.leases i).yiaddr) →
    ∀ y, requestTarget s m = some y → s.inRange y = true → y ≠ 0#32 →
      Unplaceable env s m.chaddr y

def RefusesHarmless (s : Server) : Event → Prop
  | .packet env m => s.hung = false → Refused env s m → Harmless env s m
  | .writeLeases => True
  | .reload _ _ _ _ _ => True

/-! ## The branches -/

/-- An acknowledgement that does not go out changes no slot. -/
theorem sendACK_leases_of_lost {y : Addr} (h : env.sendOk s.replies.length = false) :
    (s.sendACK env m y).leases = s.leases := by
  rw [sendACK_eq, h]
  rfl

theorem sendOk_of_refused {y : Addr}
    (h : ∀ r ∈ (s.sendACK env m y).replies, r.type = .ack → r.sent = false) :
    env.sendOk s.replies.length = false := by
  rw [sendACK_replies] at h
  exact h _ (List.mem_append_right s.replies List.mem_cons_self) rfl

theorem handleRequest_recorded_leases {i : Nat}
    (hrefused : ∀ r ∈ (s.handleRequest env m (some i)).replies, r.type = .ack → r.sent = false)
    (hname : (s.leases i).hostname = m.hostname) :
    (s.handleRequest env m (some i)).leases = s.leases := by
  rw [handleRequest_recorded] at hrefused ⊢
  have hanswer : ((s.requestOptions m).1.answerRecorded env m (m.findOption dhcpRequestedIp)
      (m.findOption dhcpServerId) i).leases = s.leases := by
    rcases answerRecorded_cases env (s.requestOptions m).1 m
      (m.findOption dhcpRequestedIp) (m.findOption dhcpServerId) i with hack | hnak | hnone
    · rw [hack] at hrefused ⊢
      exact sendACK_leases_of_lost (sendOk_of_refused hrefused)
    · rw [hnak]
      rfl
    · rw [hnone]
      rfl
  rw [setHostname_leases, hanswer, ← hname]
  exact Function.update_eq_self i s.leases

theorem handleRequest_unrecorded_leases
    (hfull : ∀ y, requestTarget s m = some y → s.inRange y = true → y ≠ 0#32 →
      Unplaceable env s m.chaddr y) :
    (s.handleRequest env m none).leases = s.leases := by
  rw [handleRequest_unrecorded]
  cases htarget : requestTarget s m with
  | none =>
      have hread : requestTarget (s.requestOptions m).1 m = none := htarget
      rcases answerUnrecorded_of_no_target env hread (m.findOption dhcpHostName) with
        hsame | hnak
      · rw [hsame]
        rfl
      · rw [hnak]
        rfl
  | some y =>
      have hread : requestTarget (s.requestOptions m).1 m = some y := htarget
      obtain ⟨acked, -, hgrant⟩ :=
        answerUnrecorded_of_target env hread (m.findOption dhcpHostName)
      rw [hgrant]
      rcases grantUnrecorded_cases env (s.requestOptions m).1 m
        (m.findOption dhcpHostName) y acked with ⟨s', hsame, -, hnak⟩ | ⟨j, hadd, hrange, -⟩
      · rw [hnak]
        exact hsame
      · obtain ⟨hy, hlt, -, -, -, htakes⟩ := addLease_some _ _ _ hadd
        exact absurd htakes (hfull y htarget hrange hy j hlt)

theorem dispatch_leases_of_refused (h : Harmless env s m) (htype : m.type = some .request)
    (hrefused : ∀ r ∈ (s.dispatch env m).replies, r.type = .ack → r.sent = false) :
    (s.dispatch env m).leases = s.leases := by
  by_cases hmagic : m.readBytes 236 4 = dhcpMagic
  · rw [dispatch_request hmagic htype] at hrefused ⊢
    unfold lookedUp at hrefused ⊢
    rcases findLeaseByChaddr_cases env (s.option m dhcpMessageType).1 m.chaddr
      with ⟨i, hmac, hlan, hfound⟩ | ⟨hmac, hfound⟩ | ⟨i, hmac, hlan, hfound⟩
    · rw [hfound] at hrefused ⊢
      exact handleRequest_recorded_leases hrefused (h.recorded i hmac hlan)
    · rw [hfound]
      apply handleRequest_unrecorded_leases
      apply h.unrecorded
      intro k hk
      have hnone : s.findMac m.chaddr.mac = none := hmac
      rw [hnone] at hk
      cases hk
    · have hzero : ((s.option m dhcpMessageType).1.leases i).yiaddr = 0#32 :=
        h.lookup i hmac hlan
      rw [hfound, hzero, addLease_zero]
      apply handleRequest_unrecorded_leases
      apply h.unrecorded
      intro k hk
      have hsome : s.findMac m.chaddr.mac = some i := hmac
      rw [hsome] at hk
      obtain rfl := Option.some.inj hk
      exact hlan
  · rw [dispatch_of_not_magic hmagic]

theorem step_refusalKeeps (s : Server) (e : Event) (h : RefusesHarmless s e) :
    RefusalKeeps s e := by
  cases e with
  | packet env m =>
      intro hrefused
      cases hhung : s.hung with
      | true =>
          unfold step
          dsimp only
          rw [hhung]
          rfl
      | false =>
          have hharmless := h hhung hrefused
          obtain ⟨htype, hreplies⟩ := hrefused
          rw [step_packet hhung] at hreplies ⊢
          have hidle : Harmless env { s with probes := 0, replies := [] } m :=
            ⟨hharmless.lookup, hharmless.recorded, hharmless.unrecorded⟩
          exact dispatch_leases_of_refused hidle htype hreplies
  | writeLeases => trivial
  | reload env config lanIpaddr lanNetmask file => trivial

/-- Along every run whose refused requests are harmless, they leave the table as it is. -/
theorem run_refusalKeeps (env : Env) (config : ServerConfig) (lanIpaddr : Option Addr)
    (lanNetmask : Addr) (file : List DhcpOfferedAddr) (events : List Event)
    (h : Along step RefusesHarmless (Server.boot env config lanIpaddr lanNetmask file) events) :
    Along step RefusalKeeps (Server.boot env config lanIpaddr lanNetmask file) events :=
  h.mono step_refusalKeeps

/-- The client of 192.168.1.5 has chosen the server 192.168.1.9, and does not give its name. -/
def otherChosen : DhcpMessage :=
  DhcpMessage.ofOptions 0x020000000001#48 0#32 [0x35, 1, 3, 0x36, 4, 192, 168, 1, 9, 0xff]

/-- A client whose name is not on record chooses another server. -/
theorem run_refusalKeeps_nameless :
    Along step RefusalKeeps
      (Server.boot calm wideConfig (some 0xc0a80101#32) 0xffff0000#32
        [⟨⟨0x020000000001#48, 0#80⟩, 0xc0a80105#32, 600, []⟩])
      [.packet calm otherChosen] := by
  apply run_refusalKeeps calm wideConfig (some 0xc0a80101#32) 0xffff0000#32
    [⟨⟨0x020000000001#48, 0#80⟩, 0xc0a80105#32, 600, []⟩] [.packet calm otherChosen]
  have hmac : fiveLeased.findMac otherChosen.chaddr.mac = some 0 := by decide +kernel
  have hlan : fiveLeased.lanIpaddr ≠ some (fiveLeased.leases 0).yiaddr := by decide +kernel
  refine ⟨fun _ _ => ⟨fun i hi heq => ?_, fun i hi _ => ?_, fun hall => ?_⟩, trivial⟩
  · have hzero := Option.some.inj (hi.symm.trans hmac)
    rw [hzero] at heq
    exact absurd heq hlan
  · have hzero := Option.some.inj (hi.symm.trans hmac)
    rw [hzero]
    decide +kernel
  · exact absurd (hall 0 hmac) hlan

/-- The same request takes the name of a client that has one on record. -/
theorem run_other_server_clears_name :
    ¬Along step RefusalKeeps
      (Server.boot calm wideConfig (some 0xc0a80101#32) 0xffff0000#32
        [⟨⟨0x020000000001#48, 0#80⟩, 0xc0a80105#32, 600, [0x70, 0x63]⟩])
      [.packet calm otherChosen] := by
  intro h
  have hkept := congrFun (h.1 ⟨by decide +kernel, by decide +kernel⟩) 0
  revert hkept
  decide +kernel

end Xwr100.Udhcpd
