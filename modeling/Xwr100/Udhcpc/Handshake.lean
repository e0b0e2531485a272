import Xwr100.Udhcpc.ClientMessages
import Xwr100.Udhcpc.Conversation

/-! # From an offer to a lease

What becomes of a request that the server hears while it has a record of the client, and of its
answer if the client hears that in time.
-/

namespace Xwr100.Udhcpc

open Lib Net Udhcpd Server

/-! ## The server's half -/

structure Requests (m : DhcpMessage) (arp : BitVec 48) (xid : Word) (server requested : Option Addr)
    (ciaddr : Addr) : Prop where
  chaddr : m.chaddr = ⟨arp, 0⟩
  xid : m.readAddr 4 = xid
  cookie : m.readBytes 236 4 = dhcpMagic
  type : m.type = some .request
  ciaddr : m.ciaddr = ciaddr
  server : (m.findOption dhcpServerId).map m.readAddr = server
  requested : (m.findOption dhcpRequestedIp).map m.readAddr = requested
  time : m.requestedTime = none

/-- The request is for the address: it selects an offer of the server, or asks for more time. -/
def Wants (s : Server) (server requested : Option Addr) (ciaddr y : Addr) : Prop :=
  (server = some s.config.server ∧ requested = some y) ∨
    (server = none ∧ requested = none ∧ ciaddr = y)

section

variable {env : Env} {s : Server} {m : DhcpMessage} {arp : BitVec 48} {xid : Word}
  {server requested : Option Addr} {ciaddr y : Addr} {i : Nat}

theorem answerRecorded_of_wants (h : Requests m arp xid server requested ciaddr)
    (hwants : Wants s server requested ciaddr y) (haddr : (s.leases i).yiaddr = y) :
    s.answerRecorded env m (m.findOption dhcpRequestedIp) (m.findOption dhcpServerId) i =
      s.sendACK env m y := by
  obtain ⟨-, -, -, -, hciaddr, hserver, hrequested, -⟩ := h
  unfold answerRecorded
  dsimp only
  rcases hwants with ⟨rfl, rfl⟩ | ⟨rfl, rfl, rfl⟩
  · obtain ⟨pos, hpos, hid⟩ := Option.map_eq_some_iff.mp hserver
    obtain ⟨r, hr, hread⟩ := Option.map_eq_some_iff.mp hrequested
    rw [hpos, hr]
    dsimp only
    rw [if_pos ⟨hid, by rw [haddr, Option.any_some, hread, decide_eq_true rfl]⟩, haddr]
  · rw [Option.map_eq_none_iff.mp hserver, Option.map_eq_none_iff.mp hrequested]
    dsimp only
    rw [haddr, hciaddr, if_pos rfl]

/-- A client with a record that asks for its address is granted the configured time. -/
theorem dispatch_of_wants (hok : TableOk s) (harp : arp ≠ 0)
    (h : Requests m arp xid server requested ciaddr) (hwants : Wants s server requested ciaddr y)
    (hown : Owns s arp i y) :
    (s.dispatch env m).replies =
      s.replies ++ [⟨.ack, m.chaddr, y, some s.config.lease, env.sendOk s.replies.length⟩] := by
  have hmac : m.chaddr.mac = arp := by rw [h.chaddr]
  have hfound : lookedUp env s m = ((s.option m dhcpMessageType).1, some i) := by
    unfold lookedUp
    rcases findLeaseByChaddr_cases env (s.option m dhcpMessageType).1 m.chaddr with
      ⟨k, hk, -, hcall⟩ | ⟨hnone, -⟩ | ⟨k, hk, hlan, -⟩
    · obtain ⟨hlt, hsix⟩ := findMac_some hk
      obtain rfl : k = i := hok.mac_inj hlt hown.lt harp (hsix.trans hmac) hown.mac
      exact hcall
    · exact absurd (hown.mac.trans hmac.symm) (findMac_none hnone i hown.lt)
    · obtain ⟨hlt, hsix⟩ := findMac_some hk
      obtain rfl : k = i := hok.mac_inj hlt hown.lt harp (hsix.trans hmac) hown.mac
      exact absurd (hlan.trans (congrArg some hown.yiaddr)) hown.lan
  rw [dispatch_request h.cookie h.type, hfound, handleRequest_recorded]
  have hanswer := @answerRecorded_of_wants env ((s.option m dhcpMessageType).1.requestOptions m).1
    m arp xid server requested ciaddr y i h hwants hown.yiaddr
  rw [hanswer]
  have hreplies := @sendACK_replies env ((s.option m dhcpMessageType).1.requestOptions m).1 m y
  rw [h.time] at hreplies
  exact hreplies

end

/-! ## The request on its way -/

/-- The address under the code, if the question has one. -/
def Question.addr (q : Question) (code : UInt8) : Option Addr :=
  (q.simple.find? fun o => o.1 = code).map Prod.snd

/-- A request of the client with a short identity is read as it was meant, whatever memory it was
built in. -/
theorem requests_of_message (id : Identity) (stack : DhcpMessage) {a : Act} {q : Question}
    (hq : a.question = some q) (htype : q.type = 3) (hshort : (area id.options).length ≤ 283) :
    ∃ m, a.message id stack = some m ∧ ∀ m', SameMessage m m' →
      Requests m' id.arp q.xid (q.addr dhcpServerId) (q.addr dhcpRequestedIp) (q.ciaddr.getD 0) := by
  obtain ⟨-, htwo, hcodes⟩ := Act.question_plain hq
  have hfits : q.requests = false ∨ (area (asked id q.type q.simple)).length ≤ 298 :=
    Or.inr (asked_of_short id htwo hshort).2
  obtain ⟨m, hm, hasks, hoptions, -⟩ := Act.message_fits id stack hq hfits
  refine ⟨m, hm, fun m' hsame => ?_⟩
  have hread := hsame.options hoptions
  have haddr : ∀ code, code = dhcpRequestedIp ∨ code = dhcpServerId ∨ code = dhcpLeaseTime →
      (m'.findOption code).map m'.readAddr = q.addr code := by
    intro code hcode
    have hend : code ≠ dhcpEnd := by
      rcases hcode with rfl | rfl | rfl <;> decide
    have hreturns := hread.getOption (sent_over id hcodes) hend false
    rw [firstWith_asked id hshort htwo hcode] at hreturns
    unfold Question.addr
    cases hfind : q.simple.find? fun o => o.1 = code with
    | none =>
        rw [hfind] at hreturns
        rw [show m'.findOption code = none from hreturns]
        rfl
    | some o =>
        rw [hfind] at hreturns
        obtain ⟨pos, hpos, hholds⟩ := hreturns
        rw [show m'.findOption code = some pos from hpos, Option.map_some, hholds.readAddr rfl]
        rfl
  constructor
  · exact hsame.chaddr.trans hasks.chaddr
  · exact (hsame.readAddr (by decide)).trans hasks.xid
  · exact (hsame.readBytes (by decide)).trans hasks.cookie
  · have hfirst : ∃ pos, m'.findOption dhcpMessageType = some pos ∧
        HoldsAt m' (messageTypeOption q.type) pos :=
      hread.getOption (sent_over id hcodes) (by decide : dhcpMessageType ≠ dhcpEnd) false
    obtain ⟨pos, hpos, hholds⟩ := hfirst
    rw [DhcpMessage.type, hpos, Option.map_some, hholds.mem_messageType, htype]
    rfl
  · exact (hsame.readAddr (by decide)).trans hasks.ciaddr
  · exact haddr dhcpServerId (Or.inr (Or.inl rfl))
  · exact haddr dhcpRequestedIp (Or.inl rfl)
  · have htime : (m'.findOption dhcpLeaseTime).map m'.readAddr = none := by
      rw [haddr dhcpLeaseTime (Or.inr (Or.inr rfl)), Question.addr, Option.map_eq_none_iff,
        List.find?_eq_none]
      intro o ho
      rcases hcodes o ho with hcode | hcode
      · rw [hcode]
        decide
      · rw [hcode]
        decide
    rw [DhcpMessage.requestedTime, Option.map_eq_none_iff.mp htime, Option.map_none]

/-! ## The client's half -/

/-- The message is there before the client's time is up. -/
structure Hearing (c : Client) (t : Turn) (m : DhcpMessage) : Prop where
  running : c.running = true
  mode : c.listenMode ≠ .none
  socket : c.fdOpen = true ∨ t.socketOk = true
  waits : c.Waits t
  datagram : ∃ datagram, t.ready = .datagram (some datagram) ∧ Carries c.listenMode datagram m

theorem openSocket_eq {c : Client} {t : Turn} (hmode : c.listenMode ≠ .none)
    (hsocket : c.fdOpen = true ∨ t.socketOk = true) :
    c.openSocket t = { c with fdOpen := true } := by
  unfold Client.openSocket
  by_cases hfd : c.fdOpen = true
  · rw [if_neg (fun hno => Bool.noConfusion (hfd.symm.trans hno.2)), ← hfd]
  · rw [if_pos ⟨hmode, Bool.not_eq_true _ ▸ hfd⟩, if_pos (hsocket.resolve_left hfd)]

theorem readPacket_of_bytes {c : Client} {t : Turn} {datagram : Option Bytes} {count : Nat}
    (h : (c.reads datagram).2 = .bytes count) :
    c.readPacket t datagram = ({ c with packet := (c.reads datagram).1 } : Client).message t := by
  unfold Client.readPacket
  rw [show (if c.listenMode = .kernel then getPacket c.packet datagram
    else getRawPacket c.packet datagram) = c.reads datagram from rfl]
  generalize c.reads datagram = read at h ⊢
  obtain ⟨packet, result⟩ := read
  obtain rfl : result = .bytes count := h
  rfl

/-- A message that is there in time is taken for what the server has sent. -/
theorem turn_hearing {c : Client} {t : Turn} {s : Sent} (hvalid : s.Valid)
    (h : Hearing c t s.message) :
    ∃ packet, SameMessage s.message packet ∧
      Reads { c with fdOpen := true, packet := packet } s ∧
      c.turn t = ({ c with fdOpen := true, packet := packet } : Client).message t := by
  obtain ⟨datagram, hready, hcarries⟩ := h.datagram
  obtain ⟨conf, hanswers⟩ := hvalid.answers
  let c' : Client := { c with fdOpen := true }
  obtain ⟨hsame, hcount⟩ :=
    @reads_carried c' datagram s.message hcarries hanswers.op hanswers.cookie
  have hreads : Reads { c' with packet := (c'.reads (some datagram)).1 } s := hvalid.reads hsame
  refine ⟨(c'.reads (some datagram)).1, hsame, hreads, ?_⟩
  have hrunning : c'.running = true := h.running
  have hwaits : c'.Waits t := h.waits
  have hmode : c'.listenMode ≠ .none := h.mode
  have hopen : c.openSocket t = c' := openSocket_eq h.mode h.socket
  unfold Client.turn
  rw [if_pos h.running, hopen]
  dsimp only
  rw [if_pos hrunning]
  unfold Client.select
  rw [if_pos hwaits, hready]
  dsimp only
  rw [if_neg hmode, readPacket_of_bytes hcount]

theorem message_eq {c : Client} {t : Turn} {s : Sent} (h : Reads c s)
    (hfor : s.For c.config.arp c.xid) :
    c.isOurs = true ∧ c.message t = c.dispatch t s.reply.type.byte := by
  obtain ⟨pos, hpos, hbyte⟩ := h.type
  refine ⟨decide_eq_true (h.mac.trans hfor.1), ?_⟩
  unfold Client.message
  rw [if_neg (not_not.mpr (h.xid.trans hfor.2)), hpos]
  dsimp only
  rw [hbyte]

def ClientState.asks : ClientState → Bool
  | .requesting | .renewRequested | .renewing | .rebinding => true
  | .initSelecting | .bound | .released => false

structure Bound (c : Client) (xid : Word) (addr : Addr) (lease : Word) : Prop where
  state : c.state = .bound
  requestedIp : c.requestedIp = addr
  lease : c.lease = lease
  acts : ∃ again, .bound xid addr again ∈ c.acts

theorem bound_onAck {c : Client} {t : Turn} (hours : c.isOurs = true) :
    Bound (c.onAck t) c.xid c.yiaddr c.ackLease := by
  have hbind : Bound (c.bind t c.ackLease) c.xid c.yiaddr c.ackLease :=
    ⟨rfl, rfl, rfl, _, List.mem_append_right _ (List.mem_singleton_self _)⟩
  have hexit : ∀ {c' : Client} (retval : Nat), Bound c' c.xid c.yiaddr c.ackLease →
      Bound (c'.exitClient retval) c.xid c.yiaddr c.ackLease := by
    intro c' retval h
    obtain ⟨again, hmem⟩ := h.acts
    exact ⟨h.state, h.requestedIp, h.lease, again, List.mem_append_left _ hmem⟩
  unfold Client.onAck
  rw [hours, Bool.not_true, if_neg Bool.false_ne_true]
  dsimp only
  split
  · exact hexit 0 hbind
  · split
    · unfold Client.background
      split
      · exact ⟨hbind.state, hbind.requestedIp, hbind.lease, hbind.acts⟩
      · exact hexit 1 hbind
    · exact hbind

theorem bound_of_reads {c : Client} {t : Turn} {s : Sent} {time : Nat} (hreads : Reads c s)
    (hfor : s.For c.config.arp c.xid) (hasks : c.state.asks = true) (htype : s.reply.type = .ack)
    (htime : s.reply.leaseTime = some time) :
    Bound (c.message t) c.xid s.reply.yiaddr (BitVec.ofNat 32 time) := by
  obtain ⟨hours, hmessage⟩ := @message_eq _ t _ hreads hfor
  have hshown : s.reply.shown = s.reply.yiaddr := by
    rw [Reply.shown, htype, htime]
  have hstated : s.reply.stated = some time := by
    rw [Reply.stated, htype, htime]
  have hack : c.dispatch t ReplyType.ack.byte = c.onAck t := by
    unfold Client.dispatch
    cases hstate : c.state
    case initSelecting => rw [hstate] at hasks; cases hasks
    case bound => rw [hstate] at hasks; cases hasks
    case released => rw [hstate] at hasks; cases hasks
    all_goals rfl
  have hbound := @bound_onAck _ t hours
  rw [hreads.yiaddr, hshown, hreads.lease, hstated] at hbound
  rw [hmessage, htype, hack]
  exact hbound

/-- A client that asks and hears an acknowledgement of a lease has it. -/
theorem bound_of_hearing {c : Client} {t : Turn} {s : Sent} {time : Nat} (hvalid : s.Valid)
    (hasks : c.state.asks = true) (hfor : s.For c.config.arp c.xid) (htype : s.reply.type = .ack)
    (htime : s.reply.leaseTime = some time) (h : Hearing c t s.message) :
    Bound (c.turn t) c.xid s.reply.yiaddr (BitVec.ofNat 32 time) := by
  obtain ⟨packet, -, hreads, hturn⟩ := turn_hearing hvalid h
  rw [hturn]
  exact bound_of_reads hreads hfor hasks htype htime

structure Taken (c c' : Client) (s : Sent) : Prop where
  state : c'.state = .requesting
  serverAddr : c'.serverAddr = s.server.config.server
  requestedIp : c'.requestedIp = s.reply.shown
  packetNum : c'.packetNum = 0
  acts : c'.acts = c.acts
  xid : c'.xid = c.xid
  running : c'.running = c.running
  listenMode : c'.listenMode = c.listenMode

/-- The offer shows no data of BOOTP, or one that does has been passed over. -/
def Plain (c : Client) (m : DhcpMessage) : Prop :=
  (m.mem 44 = 0 ∧ m.mem 108 = 0) ∨ 1 ≤ c.bootpCntOffer

theorem taken_of_reads {c : Client} {t : Turn} {s : Sent} (hreads : Reads c s)
    (hfor : s.For c.config.arp c.xid) (hstate : c.state = .initSelecting)
    (htype : s.reply.type = .offer) (hplain : Plain c c.packet) : Taken c (c.message t) s := by
  obtain ⟨hours, hmessage⟩ := @message_eq _ t _ hreads hfor
  obtain ⟨pos, hpos, hserver⟩ := hreads.server
  have hoffer : c.dispatch t ReplyType.offer.byte = c.onOffer t := by
    unfold Client.dispatch
    rw [hstate]
    rfl
  have htake : c.onOffer t = c.takeOffer t := by
    unfold Client.onOffer
    rw [hours, Bool.not_true, if_neg Bool.false_ne_true]
    split
    · next hbootp =>
      rcases hplain with ⟨hsname, hfile⟩ | hcount
      · rw [Client.hasBootp, hsname, hfile] at hbootp
        cases hbootp
      · rw [if_pos (by omega)]
    · rfl
  rw [hmessage, htype, hoffer, htake]
  unfold Client.takeOffer
  rw [hpos]
  exact ⟨rfl, hserver, hreads.yiaddr, rfl, rfl, rfl, rfl, rfl⟩

theorem taken_of_hearing {c : Client} {t : Turn} {s : Sent} (hvalid : s.Valid)
    (hstate : c.state = .initSelecting) (hfor : s.For c.config.arp c.xid)
    (htype : s.reply.type = .offer) (hplain : Plain c s.message) (h : Hearing c t s.message) :
    Taken c (c.turn t) s := by
  obtain ⟨packet, hsame, hreads, hturn⟩ := turn_hearing hvalid h
  have hplain' : Plain c packet := by
    unfold Plain
    rwa [hsame 44 (by decide), hsame 108 (by decide)]
  rw [hturn]
  obtain ⟨h₁, h₂, h₃, h₄, h₅, h₆, h₇, h₈⟩ := @taken_of_reads _ t _ hreads hfor hstate htype hplain'
  exact ⟨h₁, h₂, h₃, h₄, h₅, h₆, h₇, h₈⟩

structure TimeUp (c : Client) (t : Turn) : Prop where
  running : c.running = true
  mode : c.listenMode ≠ .none
  socket : c.fdOpen = true ∨ t.socketOk = true
  up : t.ready = .timeUp

theorem turn_timeUp {c : Client} {t : Turn} (h : TimeUp c t) :
    c.turn t = ({ c with fdOpen := true } : Client).timedOut t := by
  let c' : Client := { c with fdOpen := true }
  have hrunning : c'.running = true := h.running
  have hopen : c.openSocket t = c' := openSocket_eq h.mode h.socket
  unfold Client.turn
  rw [if_pos h.running, hopen]
  dsimp only
  rw [if_pos hrunning]
  unfold Client.select
  rw [h.up]
  split
  · rfl
  · rfl

/-- A client that took an offer and finds its time up sends the request for it. -/
theorem selecting_sent {c : Client} {t : Turn} (h : TimeUp c t) (hstate : c.state = .requesting)
    (hnum : c.packetNum = 0) :
    (c.turn t).acts = c.acts ++ [.selecting c.xid c.serverAddr c.requestedIp] ∧
      (c.turn t).state = .requesting ∧ (c.turn t).xid = c.xid ∧
      (c.turn t).requestedIp = c.requestedIp ∧ (c.turn t).serverAddr = c.serverAddr := by
  rw [turn_timeUp h]
  unfold Client.timedOut
  dsimp only
  rw [hstate]
  dsimp only
  unfold Client.requestAgain
  dsimp only
  rw [if_pos (by omega), if_neg (by decide)]
  exact ⟨rfl, rfl, rfl, rfl, rfl⟩

/-! ## Both together -/

/-- The server answers a request for an address it has recorded for the client. -/
theorem granted_of_request {n : Network} {arp : BitVec 48} {env : Env} {m : DhcpMessage}
    {xid : Word} {server requested : Option Addr} {ciaddr y : Addr} {i : Nat}
    (hsafe : Safe arp n) (harp : arp ≠ 0) (hhung : n.server.hung = false)
    (hown : Owns n.server arp i y) (hm : Requests m arp xid server requested ciaddr)
    (hwants : Wants n.server server requested ciaddr y) (hsend : env.sendOk 0 = true)
    (conf : ReplyConfig) (stack : Reply → DhcpMessage) :
    let n' := n.step (.server (.packet env m) conf stack)
    Granted env n'.server ⟨arp, 0⟩ y n.server.config.lease ∧
      ∃ s ∈ n'.sent, s.Valid ∧ s.For arp xid ∧ s.reply.type = .ack ∧ s.reply.yiaddr = y ∧
        s.reply.leaseTime = some n.server.config.lease := by
  have hmac : m.chaddr.mac ≠ 0 := by
    rw [hm.chaddr]
    exact harp
  let idle : Server := { n.server with probes := 0, replies := [] }
  have hidle : TableOk idle := hsafe.tableOk.of_eq rfl rfl
  have hidleOwn : Owns idle arp i y := ⟨hown.lt, hown.mac, hown.yiaddr, hown.lan⟩
  let r : Reply := ⟨.ack, m.chaddr, y, some n.server.config.lease, true⟩
  have hreplies : (idle.dispatch env m).replies = [] ++ [r] := by
    have hall := @dispatch_of_wants env idle m arp xid server requested ciaddr y i hidle harp hm
      hwants hidleOwn
    rw [show env.sendOk idle.replies.length = true from hsend] at hall
    exact hall
  have hr : r ∈ (Udhcpd.step n.server (.packet env m)).replies := by
    rw [step_packet hhung, hreplies]
    exact List.mem_singleton_self r
  have hgranted := (step_replies hsafe.tableOk hmac hr rfl).2.1 _ rfl rfl
  obtain ⟨message, hmessage, -⟩ :=
    r.message_eq (Udhcpd.step n.server (.packet env m)).config.server conf (stack r) m
  have hsent : ⟨env, m, r, message, Udhcpd.step n.server (.packet env m)⟩ ∈
      outgoing (Udhcpd.step n.server (.packet env m)) conf stack (.packet env m) :=
    mem_outgoing hr rfl hmessage
  refine ⟨?_, _, List.mem_append_right _ hsent, ?_, ⟨?_, hm.xid⟩, rfl, rfl, rfl⟩
  · rw [hm.chaddr] at hgranted
    exact hgranted
  · exact @outgoing_valid n.server (.packet env m) hsafe.tableOk hmac conf stack _ hsent
  · rw [hm.chaddr]

def Occurrence.IsServer : Occurrence → Prop
  | .client _ => False
  | .server _ _ _ => True

/-- The server's turns keep what holds of the network, and the client as it is. -/
theorem others_keep {arp : BitVec 48} {n : Network} {others : List Occurrence}
    (hsafe : Safe arp n) (hplays : Along Network.step Plays n others)
    (hserver : ∀ o ∈ others, o.IsServer) :
    Safe arp (exec Network.step n others) ∧ (exec Network.step n others).client = n.client := by
  refine ⟨hplays.invariant step_safe hsafe, ?_⟩
  induction others generalizing n with
  | nil => rfl
  | cons o rest ih =>
      have hrest := ih (step_safe n o hsafe hplays.1) hplays.2 fun o' ho' =>
        hserver o' (List.mem_cons_of_mem o ho')
      have hone : (n.step o).client = n.client := by
        cases o with
        | client t => exact absurd (hserver _ List.mem_cons_self) not_false
        | server e conf stack => rfl
      exact hrest.trans hone

/-- What follows once a client has a request out: whatever the server does for others meanwhile, if
it still has the record and then hears the request and can answer it, the lease is in its table for
the whole time, and the client has it for this time if it hears the answer in time. -/
def Served (arp : BitVec 48) (n : Network) (m : DhcpMessage) : Prop :=
  ∀ (others : List Occurrence) (env : Env) (m' : DhcpMessage) (i : Nat) (conf : ReplyConfig)
      (stack : Reply → DhcpMessage),
    Along Network.step Plays n others → (∀ o ∈ others, o.IsServer) →
    let n' := exec Network.step n others
    n'.server.hung = false → Owns n'.server arp i n.client.requestedIp →
    (n.client.state = .requesting → n'.server.config.server = n.client.serverAddr) →
    SameMessage m m' → env.sendOk 0 = true →
    let n'' := n'.step (.server (.packet env m') conf stack)
    Granted env n''.server ⟨arp, 0⟩ n.client.requestedIp n'.server.config.lease ∧
      ∃ s ∈ n''.sent, ∀ t, Hearing n''.client t s.message →
        Bound (n''.client.turn t) n.client.xid n.client.requestedIp
          (BitVec.ofNat 32 n'.server.config.lease)

def Client.request (c : Client) : Act :=
  if c.state = .requesting then .selecting c.xid c.serverAddr c.requestedIp
  else .renew c.xid c.serverAddr c.requestedIp

theorem request_of_requesting {c : Client} (h : c.state = .requesting) :
    c.request = .selecting c.xid c.serverAddr c.requestedIp := if_pos h

theorem request_question (c : Client) :
    ∃ q, c.request.question = some q ∧ q.type = 3 ∧ q.xid = c.xid ∧
      ∀ s : Server, (c.state = .requesting → s.config.server = c.serverAddr) →
        Wants s (q.addr dhcpServerId) (q.addr dhcpRequestedIp) (q.ciaddr.getD 0) c.requestedIp := by
  unfold Client.request
  by_cases hstate : c.state = .requesting
  · rw [if_pos hstate]
    refine ⟨_, rfl, rfl, rfl, fun s hserver => Or.inl ⟨?_, rfl⟩⟩
    rw [hserver hstate]
    rfl
  · rw [if_neg hstate]
    exact ⟨_, rfl, rfl, rfl, fun s _ => Or.inr ⟨rfl, rfl, rfl⟩⟩

theorem Reachable.step {arp : BitVec 48} {n : Network} (h : Reachable arp n) {o : Occurrence}
    (hplays : Plays n o) : Reachable arp (n.step o) := by
  obtain ⟨start, occurrences, hstart, halong, rfl⟩ := h
  refine ⟨start, occurrences ++ [o], hstart, along_append.mpr ⟨halong, hplays, trivial⟩, ?_⟩
  rw [exec, List.foldl_append]
  rfl

theorem hears_of_hearing {n : Network} {t : Turn} {s : Sent} (hs : s ∈ n.sent)
    (h : Hearing n.client t s.message) : Plays n (.client t) := by
  intro datagram count hready _
  obtain ⟨datagram', hready', hcarries⟩ := h.datagram
  obtain rfl : datagram = datagram' :=
    Option.some.inj (Ready.datagram.inj (hready.symm.trans hready'))
  exact ⟨s, hs, hcarries⟩

/-- A client that hears an offer in its transaction and then finds its time up asks this server for
this address. -/
theorem offer_requested {n : Network} {arp : BitVec 48} {offer : Sent} {t₁ t₂ : Turn}
    (hreach : Reachable arp n) (hstate : n.client.state = .initSelecting) (hoffer : offer ∈ n.sent)
    (hfor : offer.For arp n.client.xid) (htype : offer.reply.type = .offer)
    (hplain : Plain n.client offer.message) (h₁ : Hearing n.client t₁ offer.message)
    (h₂ : TimeUp (n.client.turn t₁) t₂) :
    let n' := (n.step (.client t₁)).step (.client t₂)
    Reachable arp n' ∧ n'.client.state = .requesting ∧
      n'.client.acts = n.client.acts ++ [n'.client.request] ∧
      n'.client.request = .selecting n.client.xid offer.server.config.server offer.reply.yiaddr := by
  have hvalid := hreach.safe.valid offer hoffer
  have hshown : offer.reply.shown = offer.reply.yiaddr := by
    have hfits := hvalid.fits.2
    rw [htype] at hfits
    cases htime : offer.reply.leaseTime with
    | none =>
        rw [htime] at hfits
        exact absurd hfits not_false
    | some time => rw [Reply.shown, htype, htime]
  have hfor' : offer.For n.client.config.arp n.client.xid := by
    rw [hreach.safe.config]
    exact hfor
  have htaken := taken_of_hearing hvalid hstate hfor' htype hplain h₁
  obtain ⟨hacts, hrequesting, hxid, haddr, hserver⟩ :=
    selecting_sent h₂ htaken.state htaken.packetNum
  have hhears : Plays n (.client t₁) := hears_of_hearing hoffer h₁
  have hidle : Plays (n.step (.client t₁)) (.client t₂) := by
    intro datagram count hready _
    exact absurd (h₂.up.symm.trans hready) Ready.noConfusion
  intro n'
  have hrequest : n'.client.request =
      .selecting n.client.xid offer.server.config.server offer.reply.yiaddr := by
    have hselects := request_of_requesting hrequesting
    rw [hxid, hserver, haddr, htaken.xid, htaken.serverAddr, htaken.requestedIp, hshown] at hselects
    exact hselects
  refine ⟨(hreach.step hhears).step hidle, hrequesting, ?_, hrequest⟩
  rw [hrequest]
  refine hacts.trans ?_
  rw [htaken.acts, htaken.xid, htaken.serverAddr, htaken.requestedIp, hshown]

/-- A discover that asks for 192.168.1.5. -/
def discoverHost : DhcpMessage :=
  .ofOptions 0x020000000003 0 [0x35, 1, 1, 0x32, 4, 192, 168, 1, 5, 0xff]

/-- The server once it has answered the discover. -/
def offering : Server :=
  Udhcpd.step (.boot calm wideConfig (some 0xc0a80101) 0xffff0000 []) (.packet calm discoverHost)

theorem offering_replies :
    offering.replies = [⟨.offer, ⟨0x020000000003, 0⟩, 0xc0a80105, some 86400, true⟩] := by
  decide

def discovering : Network :=
  exec Network.step
    ⟨.boot calm wideConfig (some 0xc0a80101) 0xffff0000 [],
      .enter ⟨0x020000000003, false, false, false⟩ true 0 0 1 0 ⟨fun _ => 0⟩, []⟩
    [.client ⟨5, .timeUp, 5, 0, true, false, true⟩,
      .server (.packet calm discoverHost) ⟨.empty, 0, none, none⟩ fun _ => ⟨fun _ => 0⟩]

theorem Network.server_client (n : Network) (t : Turn) : (n.step (.client t)).server = n.server := rfl

theorem Network.client_client (n : Network) (t : Turn) :
    (n.step (.client t)).client = n.client.turn t := rfl

theorem Network.client_server (n : Network) (e : Event) (conf : ReplyConfig)
    (stack : Reply → DhcpMessage) : (n.step (.server e conf stack)).client = n.client := rfl

theorem discovering_server : discovering.server = offering := by
  simp only [discovering, exec, List.foldl_cons, List.foldl_nil, Network.step, offering]

theorem discovering_reachable : Reachable 0x020000000003 discovering := by
  refine ⟨_, _, ?_, ?_, rfl⟩
  · have hstarts := @Starts.intro calm wideConfig (some 0xc0a80101) 0xffff0000 []
      ⟨0x020000000003, false, false, false⟩ true 0 0 1 0 ⟨fun _ => 0⟩ (by decide)
    exact hstarts
  · refine ⟨fun _ _ hready _ => ?_, (by decide : (0x020000000003 : BitVec 48) ≠ 0), trivial⟩
    cases hready

theorem discovering_offer :
    ∃ offer t, offer ∈ discovering.sent ∧ offer.For 0x020000000003 discovering.client.xid ∧
      offer.reply = ⟨.offer, ⟨0x020000000003, 0⟩, 0xc0a80105, some 86400, true⟩ ∧
      offer.server.config.server = 0xc0a80101 ∧ Hearing discovering.client t offer.message := by
  let r : Reply := ⟨.offer, ⟨0x020000000003, 0⟩, 0xc0a80105, some 86400, true⟩
  have hr : r ∈ offering.replies := by
    rw [offering_replies]
    exact List.mem_singleton_self r
  obtain ⟨message, hmessage, -⟩ :=
    r.message_eq offering.config.server ⟨.empty, 0, none, none⟩ ⟨fun _ => 0⟩ discoverHost
  obtain ⟨packet, hraw, -⟩ := rawPacket_eq message 0 67 0 68
  have hsent : ⟨calm, discoverHost, r, message, offering⟩ ∈ discovering.sent :=
    List.mem_append_right _
      (@mem_outgoing offering calm discoverHost r message _ (fun _ => ⟨fun _ => 0⟩) hr rfl hmessage)
  have hmac : discoverHost.chaddr.mac = 0x020000000003 := by decide
  have hxid : discoverHost.readAddr 4 = discovering.client.xid := by decide
  refine ⟨_, ⟨5, .datagram (some (udpDhcpPacket.encode packet)), 5, 0, true, false, true⟩, hsent,
    ⟨hmac, hxid⟩, rfl, rfl, rfl, by decide, Or.inr rfl, ?_, _, rfl, ?_⟩
  · exact (by decide : 0 < ((7 : Word) - 5).toInt)
  · exact ⟨0, 0, hraw⟩

/-- The client hears the offer and asks for the address. -/
theorem offer_requested_discover :
    ∃ t₁ t₂, ((discovering.step (.client t₁)).step (.client t₂)).client.request =
      .selecting 0 0xc0a80101 0xc0a80105 := by
  obtain ⟨offer, t₁, hoffer, hfor, hreply, hserver, h₁⟩ := discovering_offer
  have hvalid := discovering_reachable.safe.valid offer hoffer
  have htype : offer.reply.type = .offer := by rw [hreply]
  have hplain : Plain discovering.client offer.message := Or.inr (by decide)
  have htaken := taken_of_hearing hvalid rfl hfor htype hplain h₁
  have h₂ : TimeUp (discovering.client.turn t₁) ⟨5, .timeUp, 5, 0, true, false, true⟩ := by
    refine ⟨htaken.running, ?_, Or.inr rfl, rfl⟩
    rw [htaken.listenMode]
    decide
  have hrequested := offer_requested discovering_reachable rfl hoffer hfor htype hplain h₁ h₂
  refine ⟨t₁, _, hrequested.2.2.2.trans ?_⟩
  rw [hreply, hserver]
  rfl

/-- However late the request of a client is delivered, in which of its four states it may wait for
the answer, and whatever memory the message was built in: it is served. -/
theorem request_served {n : Network} (id : Identity) (stack : DhcpMessage)
    (hreach : Reachable id.arp n) (harp : id.arp ≠ 0) (hshort : (area id.options).length ≤ 283)
    (hasks : n.client.state.asks = true) :
    ∃ m, n.client.request.message id stack = some m ∧ Served id.arp n m := by
  obtain ⟨q, hq, htype, hxid, hwants⟩ := request_question n.client
  obtain ⟨m, hm, hread⟩ := requests_of_message id stack hq htype hshort
  refine ⟨m, hm, ?_⟩
  intro others env m' i conf stack' hplays hserver n' hhung hown hsame hdelivered hsend n''
  obtain ⟨hsafe, hclient⟩ := others_keep hreach.safe hplays hserver
  have hrequests := hread m' hdelivered
  rw [hxid] at hrequests
  obtain ⟨hgranted, s, hs, hvalid, hfor, hack, haddr, htime⟩ :=
    granted_of_request hsafe harp hhung hown hrequests (hwants n'.server hsame) hsend conf stack'
  refine ⟨hgranted, s, hs, fun t hhears => ?_⟩
  have hsame' : n''.client = n.client := hclient
  have hfor' : s.For n''.client.config.arp n''.client.xid := by
    rw [hsame', hreach.safe.config]
    exact hfor
  have hbound := bound_of_hearing hvalid (by rw [hsame']; exact hasks) hfor' hack htime hhears
  rw [haddr] at hbound
  rw [hsame'] at hbound ⊢
  exact hbound

/-- The request for an offer that the client has heard. -/
theorem request_served_selecting :
    ∃ n id m, n.client.request = .selecting 0 0xc0a80101 0xc0a80105 ∧
      n.client.request.message id ⟨fun _ => 0⟩ = some m ∧ Served 0x020000000003 n m := by
  obtain ⟨offer, t, hoffer, hfor, hreply, hserver, hhears⟩ := discovering_offer
  have hvalid := discovering_reachable.safe.valid offer hoffer
  have htype : offer.reply.type = .offer := by rw [hreply]
  have htaken := taken_of_hearing hvalid rfl hfor htype (Or.inr (by decide)) hhears
  have hreach := discovering_reachable.step (hears_of_hearing hoffer hhears)
  let id : Identity := ⟨0x020000000003, defaultClientid 0x020000000003, none, rfl, by simp⟩
  have hasks : (discovering.client.turn t).state.asks = true := by
    rw [htaken.state]
    rfl
  obtain ⟨m, hm, hserved⟩ :=
    @request_served _ id ⟨fun _ => 0⟩ hreach (by decide) (by decide) hasks
  refine ⟨_, id, m, ?_, hm, hserved⟩
  have hselects := request_of_requesting htaken.state
  rw [htaken.xid, htaken.serverAddr, htaken.requestedIp, hserver, hreply] at hselects
  exact hselects

/-! ## Any conversation -/

/-- Whoever asks the server what, whatever becomes of messages on the way and in whatever order the
parties have their turns: if the client hears no other server, every address it has ever put on its
interface was acknowledged to its own hardware address in the transaction it was in, and stood in
the server's table when the acknowledgement went out.  The lease it holds is the one of such an
acknowledgement, and the server and the address it requests are those of an offer that was
reserved. -/
theorem conversation_safe {arp : BitVec 48} {n : Network} (h : Reachable arp n) : Backed arp n := by
  have hsafe := h.safe
  refine ⟨fun xid addr again hmem => ?_, hsafe.trusts.holding, hsafe.trusts.requesting⟩
  obtain ⟨lease, s, hs, hfor, hacks⟩ := hsafe.trusts.bound xid addr again hmem
  exact ⟨s, hs, hfor, lease, hacks⟩

/-- A client that has been offered an address and has asked for it is granted it. -/
theorem conversation_safe_leased :
    ∃ n, Bound n.client 0 0xc0a80105 86400 ∧ Backed 0x020000000003 n := by
  obtain ⟨offer, t, hoffer, hfor, hreply, hserver, hhears⟩ := discovering_offer
  have hvalid := discovering_reachable.safe.valid offer hoffer
  have htype : offer.reply.type = .offer := by rw [hreply]
  have htaken := taken_of_hearing hvalid rfl hfor htype (Or.inr (by decide)) hhears
  have hreach := discovering_reachable.step (hears_of_hearing hoffer hhears)
  -- the server hears the request
  let id : Identity := ⟨0x020000000003, defaultClientid 0x020000000003, none, rfl, by simp⟩
  let n := discovering.step (.client t)
  obtain ⟨q, hq, hrequest, hxid, hwants⟩ := request_question n.client
  obtain ⟨m, -, hread⟩ := requests_of_message id ⟨fun _ => 0⟩ hq hrequest (by decide)
  have hrequests := hread m fun _ _ => rfl
  have hoffering : n.server = offering := (discovering.server_client t).trans discovering_server
  have hown : Owns n.server 0x020000000003 0 0xc0a80105 := by
    rw [hoffering]
    exact ⟨by decide, by decide, by decide, by decide⟩
  have hhung : n.server.hung = false := by
    rw [hoffering]
    decide
  have hname : n.server.config.server = 0xc0a80101 := by
    rw [hoffering]
    decide
  have haddr : n.client.requestedIp = 0xc0a80105 :=
    htaken.requestedIp.trans (by rw [Reply.shown, hreply])
  have hwanted := hwants n.server fun _ => hname.trans (htaken.serverAddr.trans hserver).symm
  rw [haddr] at hwanted
  obtain ⟨-, s, hs, hsent, hfor', hack, hgranted, htime⟩ := @granted_of_request n id.arp calm m q.xid
    _ _ _ _ _ hreach.safe (by decide) hhung hown hrequests hwanted rfl ⟨.empty, 0, none, none⟩
    fun _ => ⟨fun _ => 0⟩
  have hanswered := hreach.step
    (show Plays n (.server (.packet calm m) ⟨.empty, 0, none, none⟩ fun _ => ⟨fun _ => 0⟩) by
      change m.chaddr.mac ≠ 0
      rw [hrequests.chaddr]
      decide)
  -- and the client hears the answer
  obtain ⟨packet, hraw, -⟩ := rawPacket_eq s.message 0 67 0 68
  let t' : Turn := ⟨n.client.timeout - 1, .datagram (some (udpDhcpPacket.encode packet)), 6, 0,
    true, false, true⟩
  have hmode : n.client.listenMode = .raw := htaken.listenMode
  have hhears' : Hearing n.client t' s.message := by
    refine ⟨htaken.running, ?_, Or.inr rfl, ?_, _, rfl, ?_⟩
    · rw [hmode]
      decide
    · have hone : n.client.timeout - (n.client.timeout - 1) = 1 := by bv_omega
      change 0 < (n.client.timeout - (n.client.timeout - 1)).toInt
      rw [hone]
      decide
    · rw [hmode]
      exact ⟨0, 0, hraw⟩
  have hasks : n.client.state.asks = true := by
    rw [show n.client.state = .requesting from htaken.state]
    rfl
  have hfor'' : s.For n.client.config.arp n.client.xid := by
    rw [hreach.safe.config, ← hxid]
    exact hfor'
  have hbound := bound_of_hearing hsent hasks hfor'' hack htime hhears'
  have hzero : n.client.xid = 0 :=
    (congrArg Client.xid (discovering.client_client t)).trans (htaken.xid.trans (by decide))
  have hday : BitVec.ofNat 32 offering.config.lease = 86400 := by decide
  rw [hgranted, hzero, hoffering, hday] at hbound
  rw [← n.client_server (.packet calm m) ⟨.empty, 0, none, none⟩ fun _ => ⟨fun _ => 0⟩]
    at hhears' hbound
  have hheard := hanswered.step (hears_of_hearing hs hhears')
  refine ⟨_, ?_, conversation_safe hheard⟩
  rw [Network.client_client]
  exact hbound

end Xwr100.Udhcpc
