import Xwr100.Udhcpc.Trust
import Xwr100.Udhcpd.Grants
import Xwr100.Udhcpd.ReplyMessage

/-! # The client and the server

Both programs, and between them a network that may lose a message, keep it back, or bring it more
than once.  The server is asked by anybody; the client hears no other server.
-/

namespace Xwr100.Udhcpc

open Lib Net Udhcpd

/-! ## The parties -/

/-- A reply that has gone out: what it answers, the message it is, and the server after it. -/
structure Sent where
  env : Env
  request : DhcpMessage
  reply : Reply
  message : DhcpMessage
  server : Server

structure Network where
  server : Server
  client : Client
  sent : List Sent

inductive Occurrence where
  | client (t : Turn)
  /-- The server reacts; it is configured to show `conf` and has `stack` under a reply. -/
  | server (e : Event) (conf : ReplyConfig) (stack : Reply → DhcpMessage)

def outgoing (server : Server) (conf : ReplyConfig) (stack : Reply → DhcpMessage) :
    Event → List Sent
  | .packet env request =>
      server.replies.filterMap fun r =>
        if r.sent then
          (r.message server.config.server conf (stack r) request).map fun message =>
            ⟨env, request, r, message, server⟩
        else none
  | .writeLeases | .reload _ _ _ _ _ => []

namespace Network

def step (n : Network) : Occurrence → Network
  | .client t => { n with client := n.client.turn t }
  | .server e conf stack =>
      let server := Udhcpd.step n.server e
      { n with server := server, sent := n.sent ++ outgoing server conf stack e }

end Network

/-- The datagram brings the message: to a socket of the kernel, or as `raw_packet` sends it. -/
def Carries (mode : ListenMode) (datagram : Bytes) (m : DhcpMessage) : Prop :=
  if mode = .kernel then datagram = bytesOf m 548
  else ∃ sourceIp destIp, rawPacket m sourceIp 67 destIp 68 = some datagram

/-- Whatever the client takes for a message is one of the server's. -/
def Hears (n : Network) (t : Turn) : Prop :=
  ∀ datagram count, t.ready = .datagram (some datagram) →
    (n.client.reads (some datagram)).2 = .bytes count →
      ∃ s ∈ n.sent, Carries n.client.listenMode datagram s.message

/-- Clients have hardware addresses, lease files keep clients apart, and the client hears no other
server. -/
def Plays (n : Network) : Occurrence → Prop
  | .client t => Hears n t
  | .server e _ _ => KeepsKeys n.server e

/-! ## Reading a reply -/

def SameMessage (m m' : DhcpMessage) : Prop := ∀ p < 548, m'.mem p = m.mem p

namespace SameMessage

variable {m m' : DhcpMessage}

theorem field (h : SameMessage m m') {pos count : Nat} (hpos : pos + count ≤ 548) :
    m'.field pos count = m.field pos count :=
  DhcpMessage.field_congr fun k hk => h _ (by omega)

theorem readBytes (h : SameMessage m m') {pos count : Nat} (hpos : pos + count ≤ 548) :
    m'.readBytes pos count = m.readBytes pos count := by
  rw [DhcpMessage.readBytes_eq, DhcpMessage.readBytes_eq, h.field hpos]

theorem readAddr (h : SameMessage m m') {pos : Nat} (hpos : pos + 4 ≤ 548) :
    m'.readAddr pos = m.readAddr pos := by
  rw [DhcpMessage.readAddr, DhcpMessage.readAddr, h.readBytes hpos]

theorem chaddr (h : SameMessage m m') : m'.chaddr = m.chaddr := by
  rw [DhcpMessage.chaddr, DhcpMessage.chaddr, h.readBytes (by decide), h.readBytes (by decide)]

theorem options (h : SameMessage m m') {opts : List CodedOption} (ho : OptionsAre m opts) :
    OptionsAre m' opts := by
  refine ⟨ho.codes, ho.bounded, fun k hk => ?_⟩
  have hbounded := ho.bounded
  rw [h _ (by rw [List.length_append, List.length_singleton] at hk; omega)]
  exact ho.bytes k hk

theorem answers (h : SameMessage m m') {old : DhcpMessage} {yiaddr : Addr}
    {opts : List CodedOption} (ha : Answers m old yiaddr opts) : Answers m' old yiaddr opts where
  op := (h 0 (by decide)).trans ha.op
  xid := (h.field (by decide)).trans ha.xid
  flags := (h.field (by decide)).trans ha.flags
  ciaddr := (h.field (by decide)).trans ha.ciaddr
  yiaddr := (h.readAddr (by decide)).trans ha.yiaddr
  giaddr := (h.field (by decide)).trans ha.giaddr
  chaddr := (h.field (by decide)).trans ha.chaddr
  cookie := (h.readBytes (by decide)).trans ha.cookie
  options := h.options ha.options

end SameMessage

theorem sameMessage_write (old m : DhcpMessage) : SameMessage m (old.write 0 (bytesOf m 548)) :=
  fun _ hp => mem_write_messageData old m hp

theorem reads_carried {c : Client} {datagram : Bytes} {m : DhcpMessage}
    (hcarries : Carries c.listenMode datagram m) (hop : m.mem 0 = 2)
    (hcookie : m.readBytes 236 4 = dhcpMagic) :
    SameMessage m (c.reads (some datagram)).1 ∧ (c.reads (some datagram)).2 = .bytes 548 := by
  have hmagic : ∀ old : DhcpMessage,
      (old.write 0 (bytesOf m 548)).readBytes 236 4 = dhcpMagic := by
    intro old
    rw [(sameMessage_write old m).readBytes (by decide), hcookie]
  unfold Client.reads
  unfold Carries at hcarries
  by_cases hkernel : c.listenMode = .kernel
  · rw [if_pos hkernel] at hcarries ⊢
    subst hcarries
    unfold getPacket
    dsimp only
    rw [List.take_of_length_le (Nat.le_of_eq (length_bytesOf m 548)), length_bytesOf,
      if_neg (not_not.mpr (hmagic _))]
    have hsame := sameMessage_write (c.packet.write 0 (List.replicate 548 0)) m
    generalize (c.packet.write 0 (List.replicate 548 0)).write 0 (bytesOf m 548) = read at hsame ⊢
    have hbyte : read.mem 0 ≠ 1 := by
      rw [hsame 0 (by decide), hop]
      decide
    have hplain : forceBroadcast read = read := by
      unfold forceBroadcast
      cases read.findOption dhcpVendor with
      | none => rfl
      | some vendor => exact if_neg fun h => hbyte h.1
    rw [hplain]
    exact ⟨hsame, rfl⟩
  · rw [if_neg hkernel] at hcarries ⊢
    obtain ⟨sourceIp, destIp, hraw⟩ := hcarries
    obtain ⟨packet, hpacket, hproto, hversion, hihl, htot, -, -, -, hdest, hlen, hdata, hip, hudp⟩ :=
      rawPacket_eq m sourceIp 67 destIp 68
    obtain rfl := Option.some.inj (hpacket.symm.trans hraw)
    rw [getRawPacket_encode c.packet hproto hversion hihl htot hlen hip hudp, hdest,
      if_pos (by decide), hdata]
    have hpayload : (messageData m).val = bytesOf m 548 := rfl
    rw [hpayload, hmagic, if_pos rfl]
    exact ⟨sameMessage_write _ m, rfl⟩

/-! ## What has been sent -/

namespace Sent

/-- The message is the reply, the reply fits the request, and the server has a record of what it
says. -/
structure Valid (s : Sent) : Prop where
  answers : ∃ conf, Answers s.message s.request s.reply.shown
    (s.reply.options s.server.config.server conf)
  fits : s.reply.Fits s.request
  granted : ∀ time, s.reply.type = .ack → s.reply.leaseTime = some time →
    Granted s.env s.server s.request.chaddr s.reply.yiaddr time
  reserved : s.reply.type = .offer →
    Granted s.env s.server s.request.chaddr s.reply.yiaddr s.server.config.offerTime

/-- It answers a request in the name of the client with this hardware address. -/
def For (s : Sent) (arp : BitVec 48) (xid : Word) : Prop :=
  s.request.chaddr.mac = arp ∧ s.request.readAddr 4 = xid

/-- It acknowledges the address: a lease that the server has recorded, or no address at all in
answer to a `DHCPINFORM`, where the client assumes an hour. -/
def Acks (s : Sent) (addr : Addr) (lease : Word) : Prop :=
  s.reply.type = .ack ∧
    ((∃ time, s.request.type = some .request ∧ lease = BitVec.ofNat 32 time ∧
        Granted s.env s.server s.request.chaddr addr time) ∨
      (s.request.type = some .inform ∧ addr = 0 ∧ lease = 3600))

def Offers (s : Sent) (server addr : Addr) : Prop :=
  s.reply.type = .offer ∧ s.request.type = some .discover ∧ s.server.config.server = server ∧
    Granted s.env s.server s.request.chaddr addr s.server.config.offerTime

end Sent

/-- What a client may believe once this has been sent. -/
def believed (arp : BitVec 48) (sent : List Sent) : Belief where
  acked xid addr lease := ∃ s ∈ sent, s.For arp xid ∧ s.Acks addr lease
  offered xid server addr := ∃ s ∈ sent, s.For arp xid ∧ s.Offers server addr

theorem believed_grows (arp : BitVec 48) (sent new : List Sent) :
    (believed arp sent).Grows (believed arp (sent ++ new)) := by
  constructor
  · intro xid addr lease h
    obtain ⟨s, hs, hsays⟩ := h
    exact ⟨s, List.mem_append_left new hs, hsays⟩
  · intro xid server addr h
    obtain ⟨s, hs, hsays⟩ := h
    exact ⟨s, List.mem_append_left new hs, hsays⟩

/-- The replies of a turn fit the request, and those that go out are recorded. -/
theorem step_replies {server : Server} {env : Env} {request : DhcpMessage} (hok : TableOk server)
    (hmac : request.chaddr.mac ≠ 0#48) {r : Reply}
    (hr : r ∈ (Udhcpd.step server (.packet env request)).replies) (hsent : r.sent = true) :
    r.Fits request ∧
      (∀ time, r.type = .ack → r.leaseTime = some time →
        Granted env (Udhcpd.step server (.packet env request)) request.chaddr r.yiaddr time) ∧
      (r.type = .offer →
        Granted env (Udhcpd.step server (.packet env request)) request.chaddr r.yiaddr
          (Udhcpd.step server (.packet env request)).config.offerTime) := by
  have hidle : TableOk { server with probes := 0, replies := [] } := hok.of_eq rfl rfl
  unfold Udhcpd.step at hr ⊢
  dsimp only at hr ⊢
  by_cases hhung : server.hung = true
  · rw [if_pos hhung] at hr
    cases hr
  · rw [if_neg hhung] at hr ⊢
    have hconfig := @dispatch_config env _ _ hidle hmac
    have hfits := dispatch_fits hidle hmac rfl _ hr
    obtain ⟨type, chaddr, yiaddr, leaseTime, sent⟩ := r
    obtain rfl : sent = true := hsent
    obtain rfl : chaddr = request.chaddr := hfits.1
    refine ⟨hfits, ?_, ?_⟩
    · intro time htype htime
      obtain rfl : type = .ack := htype
      obtain rfl : leaseTime = some time := htime
      exact dispatch_granted hidle hmac rfl hr
    · intro htype
      obtain rfl : type = .offer := htype
      rw [hconfig]
      exact dispatch_reserved hidle hmac rfl hr

theorem mem_outgoing {server : Server} {env : Env} {request : DhcpMessage} {r : Reply}
    {message : DhcpMessage} {conf : ReplyConfig} {stack : Reply → DhcpMessage}
    (hr : r ∈ server.replies) (hsent : r.sent = true)
    (hmessage : r.message server.config.server conf (stack r) request = some message) :
    ⟨env, request, r, message, server⟩ ∈ outgoing server conf stack (.packet env request) := by
  refine List.mem_filterMap.mpr ⟨r, hr, ?_⟩
  rw [if_pos hsent, hmessage]
  rfl

theorem outgoing_valid {server : Server} {e : Event} (hok : TableOk server)
    (he : KeepsKeys server e) (conf : ReplyConfig) (stack : Reply → DhcpMessage) :
    ∀ s ∈ outgoing (Udhcpd.step server e) conf stack e, s.Valid := by
  intro s hs
  cases e with
  | writeLeases => cases hs
  | reload env config lanIpaddr lanNetmask file => cases hs
  | packet env request =>
      obtain ⟨r, hr, hsome⟩ := List.mem_filterMap.mp hs
      split at hsome
      · next hsent =>
        obtain ⟨m, hm, rfl⟩ := Option.map_eq_some_iff.mp hsome
        obtain ⟨m', hmessage, hanswers⟩ :=
          r.message_eq (Udhcpd.step server (.packet env request)).config.server conf (stack r) request
        obtain rfl := Option.some.inj (hmessage.symm.trans hm)
        obtain ⟨hfits, hgranted, hreserved⟩ := step_replies hok he hr hsent
        exact ⟨⟨conf, hanswers⟩, hfits, hgranted, hreserved⟩
      · cases hsome

/-! ## What the client hears -/

theorem byte_injective : Function.Injective ReplyType.byte := by
  intro a b h
  cases a <;> cases b <;> first | rfl | exact absurd h (by decide)

structure Reads (c : Client) (s : Sent) : Prop where
  mac : c.packet.chaddr.mac = s.request.chaddr.mac
  xid : c.packet.readAddr 4 = s.request.readAddr 4
  type : ∃ pos, c.packet.findOption dhcpMessageType = some pos ∧
    c.packet.mem pos = s.reply.type.byte
  server : ∃ pos, c.packet.findOption dhcpServerId = some pos ∧
    c.packet.readAddr pos = s.server.config.server
  yiaddr : c.yiaddr = s.reply.shown
  lease : c.ackLease = s.reply.stated.elim 3600 (BitVec.ofNat 32)

theorem Sent.Valid.reads {s : Sent} (hvalid : s.Valid) {c : Client}
    (hsame : SameMessage s.message c.packet) : Reads c s := by
  obtain ⟨⟨conf, hanswers⟩, -, -, -⟩ := hvalid
  have hread := hsame.answers hanswers
  have hfound : ∀ code, code ≠ dhcpEnd →
      Returns c.packet code false (firstWith code (s.reply.options s.server.config.server conf)) :=
    fun code hend => hread.options.getOption Reply.options_over hend false
  have htype := hfound dhcpMessageType (by decide)
  have hserver := hfound dhcpServerId (by decide)
  have hlease := hfound dhcpLeaseTime (by decide)
  rw [Reply.firstWith_messageType] at htype
  rw [Reply.firstWith_serverId] at hserver
  rw [Reply.firstWith_leaseTime] at hlease
  obtain ⟨pos, hpos, hholds⟩ := htype
  obtain ⟨pos', hpos', hholds'⟩ := hserver
  constructor
  · have hchaddr := hread.chaddr
    rw [show 16 = 6 + 10 from rfl, DhcpMessage.field_append, DhcpMessage.field_append] at hchaddr
    have hsix := (List.append_inj hchaddr (by simp)).1
    rw [DhcpMessage.chaddr_eq, DhcpMessage.chaddr_eq, hsix]
  · rw [DhcpMessage.readAddr_eq, DhcpMessage.readAddr_eq, hread.xid]
  · exact ⟨pos, hpos, hholds.mem_messageType⟩
  · exact ⟨pos', hpos', hholds'.readAddr rfl⟩
  · exact hread.yiaddr
  · unfold Client.ackLease
    cases hstated : s.reply.stated with
    | none =>
        rw [hstated] at hlease
        rw [show c.packet.findOption dhcpLeaseTime = none from hlease]
        rfl
    | some time =>
        rw [hstated] at hlease
        obtain ⟨pos, hpos, hholds⟩ := hlease
        rw [show c.packet.findOption dhcpLeaseTime = some pos from hpos]
        exact hholds.readAddr rfl

theorem genuine_of_sent {arp : BitVec 48} {sent : List Sent} {s : Sent} (hs : s ∈ sent)
    (hvalid : s.Valid) {c : Client} (harp : c.config.arp = arp)
    (hsame : SameMessage s.message c.packet) : Genuine (believed arp sent) c := by
  have hreads := hvalid.reads hsame
  have hfits := hvalid.fits
  have hgranted := hvalid.granted
  have hreserved := hvalid.reserved
  have hfor : c.isOurs = true → c.packet.readAddr 4 = c.xid → s.For arp c.xid := by
    intro hours hxid
    have hmine : c.packet.chaddr.mac = c.config.arp := of_decide_eq_true hours
    exact ⟨by rw [← hreads.mac, hmine, harp], by rw [← hxid, hreads.xid]⟩
  have htype : ∀ pos type, c.packet.findOption dhcpMessageType = some pos →
      c.packet.mem pos = ReplyType.byte type → s.reply.type = type := by
    intro pos type hpos hbyte
    obtain ⟨pos', hpos', hbyte'⟩ := hreads.type
    obtain rfl : pos = pos' := Option.some.inj (hpos.symm.trans hpos')
    exact byte_injective (hbyte'.symm.trans hbyte)
  constructor
  · intro hours hxid pos hpos hack
    have hreply : s.reply.type = .ack := htype pos .ack hpos hack
    refine ⟨s, hs, hfor hours hxid, hreply, ?_⟩
    rw [hreads.yiaddr, hreads.lease]
    obtain ⟨env, request, ⟨type, chaddr, yiaddr, leaseTime, sent⟩, message, server⟩ := s
    obtain rfl : type = .ack := hreply
    cases leaseTime with
    | some time => exact Or.inl ⟨time, hfits.2, rfl, hgranted time rfl rfl⟩
    | none => exact Or.inr ⟨hfits.2.1, rfl, rfl⟩
  · intro hours hxid pos hpos hoffer pos' hpos'
    have hreply : s.reply.type = .offer := htype pos .offer hpos hoffer
    obtain ⟨posServer, hposServer, hserver⟩ := hreads.server
    obtain rfl : pos' = posServer := Option.some.inj (hpos'.symm.trans hposServer)
    refine ⟨s, hs, hfor hours hxid, hreply, ?_⟩
    rw [hreads.yiaddr, hserver]
    obtain ⟨env, request, ⟨type, chaddr, yiaddr, leaseTime, sent⟩, message, server⟩ := s
    obtain rfl : type = .offer := hreply
    cases leaseTime with
    | none => exact absurd hfits.2 not_false
    | some time => exact ⟨hfits.2, rfl, hreserved rfl⟩

/-! ## The configuration stays -/

namespace Client

variable (c : Client) (t : Turn)

theorem background_config : (c.background t).config = c.config := by
  unfold background
  split
  · rfl
  · rfl

theorem openSocket_config : (c.openSocket t).config = c.config := by
  unfold openSocket
  split
  · split
    · rfl
    · rfl
  · rfl

theorem performRenew_config : c.performRenew.config = c.config := by
  unfold performRenew
  cases c.state <;> rfl

theorem performRelease_config : (c.performRelease t).config = c.config := by
  unfold performRelease
  cases c.state <;> rfl

theorem discoverAgain_config : (c.discoverAgain t).config = c.config := by
  have hpause : ∀ c' : Client, c'.config = c.config →
      (if c'.running then { c' with packetNum := 0, timeout := t.after + 60 } else c').config =
        c.config := by
    intro c' h
    split
    · exact h
    · exact h
  unfold discoverAgain
  split
  · split
    · rfl
    · rfl
  · apply hpause
    split
    · exact c.background_config t
    · split
      · rfl
      · rfl

theorem requestAgain_config : (c.requestAgain t).config = c.config := by
  unfold requestAgain
  split
  · rfl
  · dsimp only
    split
    · rfl
    · rfl

theorem renewAgain_config : (c.renewAgain t).config = c.config := by
  unfold renewAgain
  split
  · rfl
  · rfl

theorem rebindAgain_config : (c.rebindAgain t).config = c.config := by
  unfold rebindAgain
  split
  · rfl
  · rfl

theorem timedOut_config : (c.timedOut t).config = c.config := by
  unfold timedOut
  cases c.state with
  | initSelecting => exact c.discoverAgain_config t
  | requesting => exact c.requestAgain_config t
  | renewRequested => exact c.requestAgain_config t
  | renewing => exact c.renewAgain_config t
  | rebinding => exact c.rebindAgain_config t
  | released => rfl
  | bound => exact renewAgain_config _ t

theorem onOffer_config : (c.onOffer t).config = c.config := by
  have htake : (c.takeOffer t).config = c.config := by
    unfold takeOffer
    split
    · rfl
    · rfl
  unfold onOffer
  split
  · rfl
  · split
    · split
      · exact htake
      · rfl
    · exact htake

theorem onAck_config : (c.onAck t).config = c.config := by
  unfold onAck
  split
  · rfl
  · dsimp only
    split
    · rfl
    · split
      · exact background_config _ t
      · rfl

theorem onNak_config : (c.onNak t).config = c.config := by
  unfold onNak
  dsimp only
  split
  · rfl
  · rfl

theorem message_config : (c.message t).config = c.config := by
  have hanswer : ∀ message : UInt8,
      (if message = 5 then c.onAck t else if message = 6 then c.onNak t else c).config =
        c.config := by
    intro message
    split
    · exact c.onAck_config t
    · split
      · exact c.onNak_config t
      · rfl
  unfold message
  split
  · rfl
  · split
    · rfl
    · unfold dispatch
      cases c.state
      case initSelecting =>
        dsimp only
        split
        · exact c.onOffer_config t
        · rfl
      case bound => rfl
      case released => rfl
      all_goals exact hanswer _

theorem readPacket_config (datagram : Option Bytes) :
    (c.readPacket t datagram).config = c.config := by
  unfold readPacket
  dsimp only
  split
  · split
    · rfl
    · rfl
  · rfl
  · rfl
  · exact message_config _ t

/-- No turn changes the configuration. -/
theorem turn_config : (c.turn t).config = c.config := by
  have hselect : ∀ c : Client, (c.select t).config = c.config := by
    intro c
    unfold select
    split
    · split
      · exact c.timedOut_config t
      · split
        · rfl
        · exact c.readPacket_config t _
      · next sig _ =>
        cases sig with
        | usr1 => exact c.performRenew_config
        | usr2 => exact c.performRelease_config t
        | term => rfl
      · rfl
    · exact c.timedOut_config t
  unfold turn
  split
  · dsimp only
    split
    · exact (hselect _).trans (c.openSocket_config t)
    · exact c.openSocket_config t
  · rfl

end Client

/-! ## Any order of turns -/

theorem reads_none (c : Client) (count : Nat) : (c.reads none).2 ≠ .bytes count := by
  unfold Client.reads
  split
  · exact RawResult.noConfusion
  · exact RawResult.noConfusion

/-- The server is booted, the client enters its loop, and nothing has been sent. -/
inductive Starts : BitVec 48 → Network → Prop where
  | intro {env : Env} {config : ServerConfig} {lanIpaddr : Option Addr} {lanNetmask : Addr}
      {file : List DhcpOfferedAddr} {clientConfig : ClientConfig} {foreground : Bool}
      {requestedIp serverAddr : Addr} {bootpCntOffer : Int} {lease : Word} {packet : DhcpMessage}
      (hfile : FileOk file) :
      Starts clientConfig.arp
        ⟨.boot env config lanIpaddr lanNetmask file,
          .enter clientConfig foreground requestedIp serverAddr bootpCntOffer lease packet, []⟩

def Reachable (arp : BitVec 48) (n : Network) : Prop :=
  ∃ start occurrences, Starts arp start ∧ Along Network.step Plays start occurrences ∧
    exec Network.step start occurrences = n

structure Safe (arp : BitVec 48) (n : Network) : Prop where
  tableOk : TableOk n.server
  valid : ∀ s ∈ n.sent, s.Valid
  config : n.client.config.arp = arp
  trusts : Trusts (believed arp n.sent) n.client

theorem step_safe {arp : BitVec 48} (n : Network) (o : Occurrence) (h : Safe arp n)
    (hplays : Plays n o) : Safe arp (n.step o) := by
  cases o with
  | client t =>
      refine ⟨h.tableOk, h.valid, ?_, h.trusts.turn ?_⟩
      · exact (congrArg ClientConfig.arp (Client.turn_config n.client t)).trans h.config
      · intro datagram count hready hread
        cases datagram with
        | none => exact absurd hread (reads_none n.client count)
        | some datagram =>
            obtain ⟨s, hs, hcarries⟩ := hplays datagram count hready hread
            have hvalid := h.valid s hs
            obtain ⟨conf, hanswers⟩ := hvalid.answers
            exact genuine_of_sent hs hvalid h.config
              (reads_carried hcarries hanswers.op hanswers.cookie).1
  | server e conf stack =>
      refine ⟨step_tableOk n.server e h.tableOk hplays, ?_, h.config, ?_⟩
      · intro s hs
        rcases List.mem_append.mp hs with hs | hs
        · exact h.valid s hs
        · exact outgoing_valid h.tableOk hplays conf stack s hs
      · exact h.trusts.mono (believed_grows arp n.sent _)

/-- What the client does with addresses goes back to what the server has answered it. -/
structure Backed (arp : BitVec 48) (n : Network) : Prop where
  bound : ∀ xid addr again, .bound xid addr again ∈ n.client.acts →
    ∃ s ∈ n.sent, s.For arp xid ∧ ∃ lease, s.Acks addr lease
  holding : n.client.state.holds = true →
    ∃ s ∈ n.sent, s.For arp n.client.xid ∧ s.Acks n.client.requestedIp n.client.lease
  requesting : n.client.state = .requesting →
    ∃ s ∈ n.sent, s.For arp n.client.xid ∧ s.Offers n.client.serverAddr n.client.requestedIp

theorem Reachable.safe {arp : BitVec 48} {n : Network} (h : Reachable arp n) : Safe arp n := by
  obtain ⟨start, occurrences, hstart, hplays, rfl⟩ := h
  apply hplays.invariant step_safe
  cases hstart with
  | intro hfile =>
      exact ⟨boot_tableOk _ _ _ _ hfile, fun _ hs => absurd hs List.not_mem_nil, rfl,
        Trusts.enter _ _ _ _ _ _ _⟩

end Xwr100.Udhcpc
